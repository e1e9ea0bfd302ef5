import RecordKit.Copy.Run
import RecordKit.Expiring.Store
import RecordKit.Settings.Caches

/-!
# Caches of copiers

A copier is a compiled plan with a stamp; two copiers of a cache are the same
object exactly if their stamps agree.  A cache keeps copiers in an expiring
store under the pair of struct types and compiles a new one, with a new stamp,
whenever the store has none.
-/

namespace RecordKit

/-- A compiled plan with the stamp that tells it from other ones. -/
structure Copier (C : Type) where
  stamp : Nat
  plan : CopyPlan C

/-- The struct types of a copy: source, then destination. -/
abbrev TypePair := StructId × StructId

/-- A store of copiers and the stamp of the next one. -/
structure CopierCache (C : Type) where
  store : Store TypePair (Copier C)
  nextStamp : Nat

namespace CopierCache

variable {C : Type}

def defaultLifetime : Span := Span.ofSecs 1800

def defaultCapacity : Nat := 128

/-- A cache without copiers.  A capacity of zero means the default. -/
def new (lifetime : Span) (capacity : Nat) : CopierCache C :=
  if h : 0 < capacity then ⟨Store.empty lifetime capacity h, 0⟩
  else ⟨Store.empty lifetime defaultCapacity (by decide), 0⟩

/-- A cache with the lifetime and the capacity that settings have for it. -/
def withSettings (settings : CacheSettings) : CopierCache C :=
  new settings.copierLifetime settings.copierCapacity

/-- The number of copiers, expired ones included. -/
def size (cache : CopierCache C) : Nat :=
  cache.store.size

def clear (cache : CopierCache C) : CopierCache C :=
  { cache with store := cache.store.clear }

/-- Drop the expired copiers and tell how many there were. -/
def purge (now : Instant) (cache : CopierCache C) : Nat × CopierCache C :=
  let (count, store) := cache.store.purge now
  (count, { cache with store })

def contains (now : Instant) (source dest : StructId) (cache : CopierCache C) : Bool :=
  cache.store.contains now (source, dest)

variable [DecidableEq C] [UserType C]

/-- The live copier for two shapes, compiled anew if there is none. -/
def get (now : Instant) (source dest : Shape C) (cache : CopierCache C) :
    Copier C × CopierCache C :=
  match cache.store.get now (source.id, dest.id) with
  | (some copier, store) => (copier, { cache with store })
  | (none, store) =>
      let copier : Copier C := ⟨cache.nextStamp, CopyPlan.compile source dest⟩
      (copier, ⟨(store.insert now (source.id, dest.id) copier).2, cache.nextStamp + 1⟩)

def copy (now : Instant) (source dest : Shape C) (d s : Data) (cache : CopierCache C) :
    CopyOutcome × CopierCache C :=
  let (copier, cache) := cache.get now source dest
  (copier.plan.run ⟨dest.id, d⟩ ⟨source.id, s⟩, cache)

/-- Copy a list of records into new ones with the copier for their shapes.  An
empty list leaves the cache alone. -/
def copyList (now : Instant) (source dest : Shape C) (blank : Data) (items : List Data)
    (cache : CopierCache C) : Except CopyError (List Data) × CopierCache C :=
  match items with
  | [] => (.ok [], cache)
  | items =>
      let (copier, cache) := cache.get now source dest
      (copier.plan.runEach blank items, cache)

end CopierCache

end RecordKit
