import RecordKit.Check.Run
import RecordKit.Copy.Cache
import RecordKit.Settings.Caches
import RecordKit.Shared.KeyMap
import RecordKit.Shared.Pool

/-!
# Workbenches

A workbench holds named records, copier caches and rule registries, and a clock.
Caches and registries are shared: a clone of a name reaches the same object.
`step` answers one command.
-/

namespace RecordKit

/-- A record with the shape it is described by. -/
structure ShapedRecord (C : Type) where
  shape : Shape C
  data : Data

/-- The record without its fields' descriptions. -/
def ShapedRecord.record {C : Type} (r : ShapedRecord C) : Record :=
  ⟨r.shape.id, r.data⟩

/-- A command to a workbench.  Records, caches and registries go by names. -/
inductive Command (C : Type) where
  | define (name : String) (record : ShapedRecord C)
  | recall (name : String)
  | read (name : String) (shape : Option (Shape C))
  | copy (source dest : String) (plan : Option (Shape C × Shape C))
  | cacheNew (name : String) (lifetime : Span) (capacity : Nat)
  | cacheClone (name newName : String)
  | cacheGet (name : String) (source dest : Shape C)
  | cacheContains (name : String) (source dest : Shape C)
  | cacheCopy (name source dest : String)
  | cacheCopyList (name : String) (source dest : Shape C) (blank : Data) (items : List Data)
  | cacheSize (name : String)
  | cacheClear (name : String)
  | cachePurge (name : String)
  | advance (span : Span)
  | registryNew (name : String) (withDefaults : Bool)
  | registryClone (name newName : String)
  | setupDefaults (name : String)
  | register (name rule : String) (predicate : Predicate)
  | unregister (name rule : String)
  | ruleNames (name : String)
  | lookup (name rule : String) (v : View) (arg : String)
  | check (name record : String) (shape : Option (Shape C))

inductive Answer (C : Type) where
  | record (r : ShapedRecord C)
  | views (fields : List (String × Option View))
  | copied (dest : Shape C) (outcome : CopyOutcome)
  | copiedList (dest : Shape C) (items : Except CopyError (List Data))
  | issued (number actions : Nat)
  | count (n : Nat)
  | purged (count size : Nat)
  | flag (b : Bool)
  | names (rules : List String)
  | checked (result : Except CheckError (List Failure))
  | done
  /-- The command names something that the workbench does not have. -/
  | unknownName

/-- Named records, caches and registries, the time, and for each copier handed
out the number of the command that did so first. -/
structure Workbench (C : Type) where
  now : Instant
  commands : Nat
  records : KeyMap (ShapedRecord C)
  caches : Pool (CopierCache C)
  cacheNames : KeyMap Nat
  registries : Pool Registry
  registryNames : KeyMap Nat
  issued : List ((Nat × Nat) × Nat)

namespace Workbench

variable {C : Type}

def empty : Workbench C :=
  ⟨Instant.start, 0, KeyMap.empty, Pool.empty, KeyMap.empty, Pool.empty, KeyMap.empty, []⟩

/-- The cache of a name with its number. -/
def cache? (w : Workbench C) (name : String) : Option (Nat × CopierCache C) := do
  let ref ← w.cacheNames.get? name
  let cache ← w.caches.get? ref
  return (ref, cache)

/-- The registry of a name with its number. -/
def registry? (w : Workbench C) (name : String) : Option (Nat × Registry) := do
  let ref ← w.registryNames.get? name
  let registry ← w.registries.get? ref
  return (ref, registry)

def setCache (w : Workbench C) (ref : Nat) (cache : CopierCache C) : Workbench C :=
  { w with caches := w.caches.set ref cache }

def setData (w : Workbench C) (name : String) (r : ShapedRecord C) (data : Data) : Workbench C :=
  { w with records := w.records.insert name { r with data } }

def addRegistry (w : Workbench C) (name : String) (registry : Registry) : Workbench C :=
  let (ref, registries) := w.registries.add registry
  { w with registries, registryNames := w.registryNames.insert name ref }

/-- Change the registry of a name and answer its rule names. -/
def changeRegistry (w : Workbench C) (name : String) (change : Registry → Registry) :
    Answer C × Workbench C :=
  match w.registry? name with
  | none => (.unknownName, w)
  | some (ref, registry) =>
      let registry := change registry
      (.names registry.ruleNames, { w with registries := w.registries.set ref registry })

/-- The first command that handed out a copier, which is this one if none did. -/
def firstIssue (w : Workbench C) (cache stamp : Nat) : Nat × Workbench C :=
  match w.issued.lookup (cache, stamp) with
  | some number => (number, w)
  | none => (w.commands, { w with issued := ((cache, stamp), w.commands) :: w.issued })

variable [DecidableEq C] [UserType C]

/-- Answer one command, apart from counting it. -/
def answer (w : Workbench C) : Command C → Answer C × Workbench C
  | .define name r => (.record r, { w with records := w.records.insert name r })
  | .recall name =>
      match w.records.get? name with
      | some r => (.record r, w)
      | none => (.unknownName, w)
  | .read name shape =>
      match w.records.get? name with
      | some r => (.views ((shape.getD r.shape).readAll r.record), w)
      | none => (.unknownName, w)
  | .copy source dest plan =>
      match w.records.get? source, w.records.get? dest with
      | some s, some d =>
          let (source', dest') := plan.getD (s.shape, d.shape)
          let outcome := (CopyPlan.compile source' dest').run d.record s.record
          (.copied d.shape outcome, w.setData dest d outcome.dest)
      | _, _ => (.unknownName, w)
  | .cacheNew name lifetime capacity =>
      let cache : CopierCache C := CopierCache.new lifetime capacity
      let (ref, caches) := w.caches.add cache
      (.count cache.size, { w with caches, cacheNames := w.cacheNames.insert name ref })
  | .cacheClone name newName =>
      match w.cache? name with
      | some (ref, cache) =>
          (.count cache.size, { w with cacheNames := w.cacheNames.insert newName ref })
      | none => (.unknownName, w)
  | .cacheGet name source dest =>
      match w.cache? name with
      | some (ref, cache) =>
          let (copier, cache) := cache.get w.now source dest
          let (number, w) := (w.setCache ref cache).firstIssue ref copier.stamp
          (.issued number copier.plan.actions.length, w)
      | none => (.unknownName, w)
  | .cacheContains name source dest =>
      match w.cache? name with
      | some (_, cache) => (.flag (cache.contains w.now source.id dest.id), w)
      | none => (.unknownName, w)
  | .cacheCopy name source dest =>
      match w.cache? name, w.records.get? source, w.records.get? dest with
      | some (ref, cache), some s, some d =>
          let (outcome, cache) := cache.copy w.now s.shape d.shape d.data s.data
          (.copied d.shape outcome, (w.setCache ref cache).setData dest d outcome.dest)
      | _, _, _ => (.unknownName, w)
  | .cacheCopyList name source dest blank items =>
      match w.cache? name with
      | some (ref, cache) =>
          let (result, cache) := cache.copyList w.now source dest blank items
          (.copiedList dest result, w.setCache ref cache)
      | none => (.unknownName, w)
  | .cacheSize name =>
      match w.cache? name with
      | some (_, cache) => (.count cache.size, w)
      | none => (.unknownName, w)
  | .cacheClear name =>
      match w.cache? name with
      | some (ref, cache) => (.count cache.clear.size, w.setCache ref cache.clear)
      | none => (.unknownName, w)
  | .cachePurge name =>
      match w.cache? name with
      | some (ref, cache) =>
          let (count, cache) := cache.purge w.now
          (.purged count cache.size, w.setCache ref cache)
      | none => (.unknownName, w)
  | .advance span => (.done, { w with now := w.now.advance span })
  | .registryNew name withDefaults =>
      let registry := if withDefaults then Registry.empty.setupDefaults else Registry.empty
      (.names registry.ruleNames, w.addRegistry name registry)
  | .registryClone name newName =>
      match w.registry? name with
      | some (ref, registry) =>
          (.names registry.ruleNames,
            { w with registryNames := w.registryNames.insert newName ref })
      | none => (.unknownName, w)
  | .setupDefaults name => w.changeRegistry name Registry.setupDefaults
  | .register name rule predicate => w.changeRegistry name (·.register rule predicate)
  | .unregister name rule => w.changeRegistry name (·.unregister rule)
  | .ruleNames name => w.changeRegistry name id
  | .lookup name rule v arg =>
      match w.registry? name with
      | some (_, registry) =>
          match registry.lookup? rule with
          | some passes => (.flag (passes v arg), w)
          | none => (.checked (.error (.unknownRule rule)), w)
      | none => (.unknownName, w)
  | .check name record shape =>
      match w.registry? name, w.records.get? record with
      | some (_, registry), some r =>
          (.checked (checkRecord registry (shape.getD r.shape) r.record), w)
      | _, _ => (.unknownName, w)

/-- Answer one command and count it. -/
def step (w : Workbench C) (c : Command C) : Answer C × Workbench C :=
  let (a, w') := w.answer c
  (a, { w' with commands := w.commands + 1 })

/-- The workbench after a list of commands. -/
def run (w : Workbench C) (commands : List (Command C)) : Workbench C :=
  commands.foldl (fun w c => (w.step c).2) w

/-- Let a command pass that leaves the workbench alone. -/
def skip (w : Workbench C) : Workbench C :=
  { w with commands := w.commands + 1 }

end Workbench

def registrySummary (ruleNames : List String) : String :=
  "Validator \x7b rules: [" ++ ", ".intercalate (ruleNames.map Text.quoted) ++ "] \x7d"

end RecordKit
