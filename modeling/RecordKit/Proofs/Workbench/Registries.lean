import RecordKit.Proofs.Check.Registrations
import RecordKit.Sample.UserTypes
import RecordKit.Workbench.Basic

/-!
# All names of a registry lead to one history

Commands change a registry through any of its names, and no other command does.  What a list
of commands does to one registry is to make the changes that reach it
(`Workbench.run_registry`), whichever names they come through and whatever else happens on
the workbench.  `Workbench.run_registryNew_lastRegistered` says what that means for lookups,
checks and rule names.
-/

namespace RecordKit

variable {C : Type}

/-- The name through which a command changes a registry, and the change. -/
def Command.registryChange? : Command C → Option (String × RegistryChange)
  | .register name rule predicate => some (name, .register rule predicate)
  | .unregister name rule => some (name, .unregister rule)
  | .setupDefaults name => some (name, .setupDefaults)
  | _ => none

namespace Workbench

/-- The change that a command makes to the registry of a number, through whichever of its
names. -/
def registryChange? (w : Workbench C) (ref : Nat) (c : Command C) : Option RegistryChange :=
  c.registryChange?.bind fun (name, change) =>
    if w.registryNames.get? name = some ref then some change else none

variable {w : Workbench C} {ref : Nat} {name : String} {registry : Registry}

theorem registry?_eq_some_iff :
    w.registry? name = some (ref, registry) ↔
      w.registryNames.get? name = some ref ∧ w.registries.get? ref = some registry := by
  unfold registry?
  simp [Option.bind_eq_some_iff]

/-- To change the registry of a name with nothing leaves the workbench alone. -/
theorem changeRegistry_id (w : Workbench C) (name : String) : (w.changeRegistry name id).2 = w := by
  unfold changeRegistry
  cases h : w.registry? name with
  | none => rfl
  | some found =>
      obtain ⟨ref, registry⟩ := found
      simp only [id, Pool.set_of_get? (registry?_eq_some_iff.mp h).2]

variable [DecidableEq C] [UserType C]

/-- The changes that a list of commands makes to the registry of a number. -/
def registryChanges (w : Workbench C) (ref : Nat) : List (Command C) → List RegistryChange
  | [] => []
  | c :: rest => (w.registryChange? ref c).toList ++ (w.step c).2.registryChanges ref rest

/-- What is asked about rules through a name is answered from the registry. -/
structure AnswersFrom (w : Workbench C) (name : String) (registry : Registry) : Prop where
  ruleNames : (w.step (.ruleNames name)).1 = .names registry.ruleNames
  lookup : ∀ rule v arg, (w.step (.lookup name rule v arg)).1 =
    match registry.lookup? rule with
    | some passes => .flag (passes v arg)
    | none => .checked (.error (.unknownRule rule))
  check : ∀ record r shape, w.records.get? record = some r →
    (w.step (.check name record shape)).1 =
      .checked (checkRecord registry (shape.getD r.shape) r.record)

/-! ## Commands and runs -/

theorem answer_of_registryChange {c : Command C} {change : RegistryChange}
    (hc : c.registryChange? = some (name, change)) :
    w.answer c = w.changeRegistry name change.apply := by
  cases c with
  | register name' rule predicate | unregister name' rule | setupDefaults name' =>
      cases hc
      rfl
  | _ => cases hc

/-- All other commands leave the registries that exist alone. -/
theorem answer_of_no_registryChange {c : Command C} (hc : c.registryChange? = none)
    (hregistry : w.registries.get? ref = some registry) :
    (w.answer c).2.registries.get? ref = some registry := by
  cases c with
  | register name rule predicate | unregister name rule | setupDefaults name => cases hc
  | ruleNames name =>
      simp only [answer, changeRegistry_id]
      exact hregistry
  | registryNew name withDefaults =>
      have hlt : ref < w.registries.objects.length := (List.getElem?_eq_some_iff.mp hregistry).1
      exact (w.registries.get?_add_old _ hlt).trans hregistry
  | cacheGet name source dest =>
      simp only [answer]
      split
      · simp only [firstIssue]
        split <;> exact hregistry
      · exact hregistry
  | lookup name rule v arg =>
      simp only [answer]
      split
      · split <;> exact hregistry
      · exact hregistry
  | define name r | cacheNew name lifetime capacity | advance span => exact hregistry
  | _ =>
      simp only [answer]
      split <;> exact hregistry

/-- A command makes to a registry the change, if any, with which it reaches it. -/
theorem step_registry (hregistry : w.registries.get? ref = some registry) (c : Command C) :
    (w.step c).2.registries.get? ref =
      some (registry.change (w.registryChange? ref c).toList) := by
  -- The count of the commands is no part of a registry.
  show (w.answer c).2.registries.get? ref = _
  unfold registryChange?
  cases hc : c.registryChange? with
  | none => exact answer_of_no_registryChange hc hregistry
  | some found =>
      obtain ⟨name, change⟩ := found
      rw [answer_of_registryChange hc, Option.bind_some]
      unfold changeRegistry
      cases hname : w.registry? name with
      | none =>
          have hother : w.registryNames.get? name ≠ some ref := by
            intro h
            rw [registry?_eq_some_iff.mpr ⟨h, hregistry⟩] at hname
            cases hname
          simp only [hother, if_false]
          exact hregistry
      | some found =>
          obtain ⟨other, registry'⟩ := found
          obtain ⟨hother, hregistry'⟩ := registry?_eq_some_iff.mp hname
          by_cases href : other = ref
          · subst href
            obtain rfl : registry' = registry := Option.some.inj (hregistry'.symm.trans hregistry)
            simp only [hother, if_true]
            exact w.registries.get?_set_self _ (List.getElem?_eq_some_iff.mp hregistry).1
          · simp only [hother, Option.some.injEq, href, if_false]
            exact (w.registries.get?_set_other _ href).trans hregistry

theorem run_registry (hregistry : w.registries.get? ref = some registry)
    (commands : List (Command C)) :
    (w.run commands).registries.get? ref =
      some (registry.change (w.registryChanges ref commands)) := by
  induction commands generalizing w registry with
  | nil => exact hregistry
  | cons c rest ih =>
      rw [registryChanges, Registry.change_append]
      exact ih (step_registry hregistry c)

/-! ## Names -/

theorem step_registryClone (hregistry : w.registries.get? ref = some registry)
    (hname : w.registryNames.get? name = some ref) (newName : String) :
    (w.step (.registryClone name newName)).2.registryNames.get? newName = some ref := by
  simp only [step, answer, registry?_eq_some_iff.mpr ⟨hname, hregistry⟩]
  exact w.registryNames.get?_insert_self newName ref

theorem answersFrom (hregistry : w.registries.get? ref = some registry)
    (hname : w.registryNames.get? name = some ref) : w.AnswersFrom name registry := by
  have h : w.registry? name = some (ref, registry) := registry?_eq_some_iff.mpr ⟨hname, hregistry⟩
  refine ⟨?_, ?_, ?_⟩
  · simp only [step, answer, changeRegistry, h, id]
  · intro rule v arg
    simp only [step, answer, h]
    cases registry.lookup? rule <;> rfl
  · intro record r shape hr
    simp only [step, answer, h, hr]

/-! ## What has been registered -/

/-- The changes that a new registry starts with. -/
def firstChanges (withDefaults : Bool) : List RegistryChange :=
  if withDefaults then [.setupDefaults] else []

theorem step_registryNew (w : Workbench C) (name : String) (withDefaults : Bool) :
    let ref := w.registries.objects.length
    let w' := (w.step (.registryNew name withDefaults)).2
    w'.registryNames.get? name = some ref ∧
      w'.registries.get? ref = some (Registry.empty.change (firstChanges withDefaults)) := by
  intro ref w'
  refine ⟨w.registryNames.get?_insert_self name ref, ?_⟩
  cases withDefaults <;> exact w.registries.get?_add_new _

/-- Let commands reach a new registry through any of its names, which clones of a name add
to.  Then each of them answers from one registry, which has for each name the rule that was
last registered for it, by itself or as a default rule, unless the name has been taken out
since.  A check gives what it gives on a registry that has nothing but these rules for the
names in the tags of the shape's own fields, so it is the same after every history that
last registered the same for them, and after the one without all changes that concern none
of them.  A rule that is found now but was not at an earlier moment has been registered
since, by itself or as a default rule.  The rule names ascend, none comes twice, and they
are the names that lookups find. -/
theorem run_registryNew_lastRegistered (start : Workbench C) (name₀ : String)
    (withDefaults : Bool) (commands : List (Command C)) :
    let ref := start.registries.objects.length
    let opened := (start.step (.registryNew name₀ withDefaults)).2
    let w := opened.run commands
    let changes := firstChanges withDefaults ++ opened.registryChanges ref commands
    opened.registryNames.get? name₀ = some ref ∧
      ∃ registry, w.registries.get? ref = some registry ∧
        (∀ name, w.registryNames.get? name = some ref →
          w.AnswersFrom name registry ∧
            ∀ newName,
              (w.step (.registryClone name newName)).2.registryNames.get? newName = some ref) ∧
        (∀ name rule, registry.lookup? name = some rule ↔ LastRegistered changes name rule) ∧
        (∀ (s : Shape C) (r : Record),
          (∃ small : Registry,
            (∀ name rule, small.lookup? name = some rule ↔
              name ∈ s.ruleNames ∧ LastRegistered changes name rule) ∧
            checkRecord registry s r = checkRecord small s r) ∧
          (∀ changes', (∀ name ∈ s.ruleNames, ∀ rule,
              LastRegistered changes' name rule ↔ LastRegistered changes name rule) →
            checkRecord registry s r = checkRecord (Registry.empty.change changes') s r) ∧
          checkRecord registry s r =
            checkRecord (Registry.empty.change (changes.filter (·.concerns s.ruleNames))) s r) ∧
        (∀ before after, commands = before ++ after →
          ∀ earlier, (opened.run before).registries.get? ref = some earlier →
            let since := (opened.run before).registryChanges ref after
            ∀ name rule, registry.lookup? name = some rule →
              earlier.lookup? name = some rule ∨ .register name rule ∈ since ∨
                .setupDefaults ∈ since ∧ DefaultRules.all.lookup name = some rule) ∧
        registry.ruleNames.Pairwise keyLt ∧ registry.ruleNames.Nodup ∧
        ∀ name, name ∈ registry.ruleNames ↔ ∃ rule, registry.lookup? name = some rule := by
  intro ref opened w changes
  obtain ⟨hname, hopened⟩ := step_registryNew start name₀ withDefaults
  have hregistry : w.registries.get? ref = some (Registry.empty.change changes) := by
    rw [Registry.change_append]
    exact run_registry hopened commands
  have hlookup : ∀ name rule,
      (Registry.empty.change changes).lookup? name = some rule ↔ LastRegistered changes name rule :=
    fun _ _ => Registry.lookup?_change_empty_iff
  have hascending : (Registry.empty.change changes).Ascending :=
    Registry.ascending_change KeyMap.ascending_empty
  refine ⟨hname, Registry.empty.change changes, hregistry, ?_, hlookup, ?_, ?_, hascending,
    hascending.nodup, KeyMap.mem_keys_iff _⟩
  · intro name hname
    exact ⟨answersFrom hregistry hname, step_registryClone hregistry hname⟩
  · intro s r
    refine ⟨⟨(Registry.empty.change changes).only s.ruleNames, ?_, ?_⟩, ?_, ?_⟩
    · intro name rule
      rw [Registry.lookup?_only, Option.ite_none_right_eq_some, hlookup]
    · exact (checkRecord_only s r _).symm
    · intro changes' hsame
      refine checkRecord_congr fun name hname => Option.ext fun rule => ?_
      rw [hlookup, Registry.lookup?_change_empty_iff, hsame name hname]
    · exact (checkRecord_change_filter s r _ changes).symm
  · intro before after hsplit earlier hearlier since name rule hrule
    have hlater : w.registries.get? ref = some (earlier.change since) := by
      simp only [w, hsplit]
      rw [run, List.foldl_append]
      exact run_registry hearlier after
    have hsame : Registry.empty.change changes = earlier.change since :=
      Option.some.inj (hregistry.symm.trans hlater)
    rw [hsame] at hrule
    exact Registry.lookup?_change_or hrule

/-- A default rule is taken out through one name of a registry.  That it is there again under
both names is due to the default rules, since it has not been registered by itself. -/
theorem run_registryNew_default_back :
    let before : List (Command SampleType) :=
      [.registryClone "rules" "shared", .unregister "shared" "min"]
    let after : List (Command SampleType) :=
      [.register "rules" "least" DefaultRules.min, .setupDefaults "shared"]
    let opened : Workbench SampleType := (empty.step (.registryNew "rules" true)).2
    let w := opened.run (before ++ after)
    let since := (opened.run before).registryChanges 0 after
    ∃ registry, w.AnswersFrom "rules" registry ∧ w.AnswersFrom "shared" registry ∧
      registry.lookup? "min" = some DefaultRules.min ∧ "min" ∈ registry.ruleNames ∧
      .register "min" DefaultRules.min ∉ since ∧ .setupDefaults ∈ since := by
  intro before after opened w since
  obtain ⟨-, registry, -, hnames, hlast, -, hback, -, -, hkeys⟩ :=
    run_registryNew_lastRegistered (empty : Workbench SampleType) "rules" true (before ++ after)
  let past : List RegistryChange :=
    [.setupDefaults, .unregister "min", .register "least" DefaultRules.min]
  have hmin : registry.lookup? "min" = some DefaultRules.min :=
    (hlast "min" DefaultRules.min).mpr ⟨past, .setupDefaults, [], rfl, rfl, by simp⟩
  have hsince : since = [.register "least" DefaultRules.min, .setupDefaults] := rfl
  have hregister : .register "min" DefaultRules.min ∉ since := by
    simp [hsince]
  refine ⟨registry, (hnames "rules" rfl).1, (hnames "shared" rfl).1, hmin,
    (hkeys "min").mpr ⟨_, hmin⟩, hregister, ?_⟩
  rcases hback before after rfl _ rfl "min" DefaultRules.min hmin with hearlier | hmem | hmem
  · cases hearlier
  · exact absurd hmem hregister
  · exact hmem.1

end Workbench

end RecordKit
