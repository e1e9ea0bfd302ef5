import RecordKit.Copy.Cache
import RecordKit.Proofs.Expiring.Entries
import RecordKit.Record.Catalog

/-!
# Caches of copiers are transparent

A cache keeps copiers under the identities of two struct types, and an identity
has a single shape.  So it is enough that every stored copier holds the plan
compiled for the shapes of its key.  `CopierCache.Sound` says so; each operation
preserves it, and copies through a sound cache give what a freshly compiled plan
gives, whether the cache still has the copier or not.
-/

namespace RecordKit

variable {C : Type}

namespace CopierCache

variable [DecidableEq C] [UserType C]

/-- Every copier of a cache holds the plan compiled for the pair of types that
it is kept under. -/
def Sound (catalog : Catalog C) (cache : CopierCache C) : Prop :=
  ∀ e ∈ cache.store.entries,
    e.value.plan = CopyPlan.compile (catalog.shape e.key.1) (catalog.shape e.key.2)

variable {catalog : Catalog C} {cache : CopierCache C}

theorem sound_new (catalog : Catalog C) (lifetime : Span) (capacity : Nat) :
    (new lifetime capacity : CopierCache C).Sound catalog := by
  unfold new
  split
  all_goals
    intro e he
    cases he

theorem sound_clear (catalog : Catalog C) (cache : CopierCache C) : cache.clear.Sound catalog := by
  intro e he
  cases he

theorem Sound.purge (hcache : cache.Sound catalog) (now : Instant) :
    (cache.purge now).2.Sound catalog :=
  fun e he => hcache e (Store.mem_of_mem_purge he)

/-- A lookup keeps the cache sound and answers the plan compiled for the two
shapes. -/
theorem Sound.get (hcache : cache.Sound catalog) {source dest : Shape C}
    (hsource : catalog.Describes source) (hdest : catalog.Describes dest) (now : Instant) :
    (cache.get now source dest).2.Sound catalog ∧
      (cache.get now source dest).1.plan = CopyPlan.compile source dest := by
  -- What is left in the store after the lookup was there before.
  have hold : ∀ e ∈ (cache.store.get now (source.id, dest.id)).2.entries,
      e.value.plan = CopyPlan.compile (catalog.shape e.key.1) (catalog.shape e.key.2) :=
    fun e he => hcache e (Store.mem_of_mem_get he)
  unfold CopierCache.get
  rcases hget : cache.store.get now (source.id, dest.id) with ⟨found, store⟩
  rw [hget] at hold
  cases found with
  | some copier =>
      have hfound : (cache.store.get now (source.id, dest.id)).1 = some copier := by
        rw [hget]
      obtain ⟨e, he, hkey, rfl, -⟩ := Store.exists_of_get hfound
      refine ⟨hold, ?_⟩
      show e.value.plan = _
      rw [hcache e he, hkey]
      show CopyPlan.compile (catalog.shape source.id) (catalog.shape dest.id) = _
      rw [hsource, hdest]
  | none =>
      refine ⟨?_, rfl⟩
      intro e he
      rcases Store.mem_of_mem_insert he with rfl | ⟨he, -⟩
      · show CopyPlan.compile source dest =
          CopyPlan.compile (catalog.shape source.id) (catalog.shape dest.id)
        rw [hsource, hdest]
      · exact hold e he

theorem Sound.copy (hcache : cache.Sound catalog) {source dest : Shape C}
    (hsource : catalog.Describes source) (hdest : catalog.Describes dest) (now : Instant)
    (d s : Data) :
    (cache.copy now source dest d s).2.Sound catalog ∧
      (cache.copy now source dest d s).1 =
        (CopyPlan.compile source dest).run ⟨dest.id, d⟩ ⟨source.id, s⟩ := by
  obtain ⟨hsound, hplan⟩ := hcache.get hsource hdest now
  refine ⟨hsound, ?_⟩
  show (cache.get now source dest).1.plan.run _ _ = _
  rw [hplan]

theorem Sound.copyList (hcache : cache.Sound catalog) {source dest : Shape C}
    (hsource : catalog.Describes source) (hdest : catalog.Describes dest) (now : Instant)
    (blank : Data) (items : List Data) :
    (cache.copyList now source dest blank items).2.Sound catalog ∧
      (cache.copyList now source dest blank items).1 =
        RecordKit.copyList source dest blank items := by
  cases items with
  | nil => exact ⟨hcache, rfl⟩
  | cons item rest =>
      obtain ⟨hsound, hplan⟩ := hcache.get hsource hdest now
      refine ⟨hsound, ?_⟩
      show (cache.get now source dest).1.plan.runEach blank (item :: rest) = _
      rw [hplan]
      rfl

end CopierCache

end RecordKit
