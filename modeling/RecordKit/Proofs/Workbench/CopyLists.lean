import RecordKit.Proofs.Copy.CacheSteps
import RecordKit.Proofs.Copy.Failure
import RecordKit.Proofs.Workbench.Caches

/-!
# Copies of lists

A list is copied record by record, each into a new record, up to the first that fails.  So
what becomes of a list is read off the copies of its records, each made for itself
(`CopyPlan.runEach_eq`), and a list may be copied in parts.  A cache copies a list after one
lookup, whatever becomes of the records, and it is left alone by an empty list.

* `CopierCache.snd_copyList`, `CopierCache.nextStamp_get`: what a list does to a cache.
* `CopierCache.Reachable.sound`: caches that commands lead to are sound.
* `Workbench.copyList_recordwise`: both together.
-/

namespace RecordKit

variable {C : Type} [UserType C]

/-! ## Lists of records -/

namespace CopyPlan

/-- The copy of one record into a new one. -/
def runNew (plan : CopyPlan C) (blank item : Data) : CopyOutcome :=
  plan.run ⟨plan.dest, blank⟩ ⟨plan.source, item⟩

/-- A list fails with the first failure among the copies of its records.  Without one it
becomes the list of their results. -/
theorem runEach_eq (plan : CopyPlan C) (blank : Data) (items : List Data) :
    plan.runEach blank items =
      match items.findSome? fun item => (plan.runNew blank item).error with
      | some e => .error e
      | none => .ok (items.map fun item => (plan.runNew blank item).dest) := by
  induction items with
  | nil => rfl
  | cons item rest ih =>
      rw [List.findSome?_cons, List.map_cons]
      rcases hnew : plan.runNew blank item with ⟨dest, error⟩
      have hrun : plan.run ⟨plan.dest, blank⟩ ⟨plan.source, item⟩ = ⟨dest, error⟩ := hnew
      unfold runEach
      rw [hrun]
      cases error with
      | some e => rfl
      | none =>
          rw [ih]
          cases rest.findSome? fun item => (plan.runNew blank item).error <;> rfl

variable {plan : CopyPlan C} {blank : Data} {items : List Data}

theorem runEach_eq_ok_iff {made : List Data} :
    plan.runEach blank items = .ok made ↔
      (∀ item ∈ items, (plan.runNew blank item).error = none) ∧
        made = items.map fun item => (plan.runNew blank item).dest := by
  rw [runEach_eq, ← List.findSome?_eq_none_iff]
  cases items.findSome? fun item => (plan.runNew blank item).error with
  | none => simp [eq_comm]
  | some e => simp

theorem runEach_eq_error_iff {e : CopyError} :
    plan.runEach blank items = .error e ↔
      ∃ before item after, items = before ++ item :: after ∧
        (∀ other ∈ before, (plan.runNew blank other).error = none) ∧
        (plan.runNew blank item).error = some e := by
  have hfirst : plan.runEach blank items = .error e ↔
      items.findSome? (fun item => (plan.runNew blank item).error) = some e := by
    rw [runEach_eq]
    cases items.findSome? fun item => (plan.runNew blank item).error <;> simp
  rw [hfirst, List.findSome?_eq_some_iff]
  simp only [and_comm]

theorem runEach_append (plan : CopyPlan C) (blank : Data) (items more : List Data) :
    plan.runEach blank (items ++ more) = (do
      let made ← plan.runEach blank items
      let made' ← plan.runEach blank more
      return made ++ made') := by
  simp only [runEach_eq, List.findSome?_append, List.map_append]
  cases items.findSome? fun item => (plan.runNew blank item).error with
  | some e => rfl
  | none =>
      cases more.findSome? fun item => (plan.runNew blank item).error <;> rfl

end CopyPlan

variable [DecidableEq C]

/-- An empty list needs no case of its own. -/
theorem copyList_eq_runEach (source dest : Shape C) (blank : Data) (items : List Data) :
    copyList source dest blank items = (CopyPlan.compile source dest).runEach blank items := by
  cases items <;> rfl

/-! ## Lists through a cache -/

namespace CopierCache

variable {catalog : Catalog C} {cache : CopierCache C}

/-- A list does to a cache what one lookup does, whatever becomes of its records.  An empty
list does nothing. -/
theorem snd_copyList (cache : CopierCache C) (now : Instant) (source dest : Shape C)
    (blank : Data) (items : List Data) :
    (cache.copyList now source dest blank items).2 =
      if items = [] then cache else (cache.get now source dest).2 := by
  cases items <;> rfl

/-- A lookup compiles one copier or none. -/
theorem nextStamp_get (cache : CopierCache C) (now : Instant) (source dest : Shape C) :
    (cache.get now source dest).2.nextStamp =
      cache.nextStamp + if cache.contains now source.id dest.id then 0 else 1 := by
  have hcontains : cache.contains now source.id dest.id =
      (cache.store.get now (source.id, dest.id)).1.isSome :=
    cache.store.contains_eq_isSome_get now (source.id, dest.id)
  rw [hcontains]
  unfold CopierCache.get
  rcases cache.store.get now (source.id, dest.id) with ⟨_ | copier, store⟩ <;> rfl

/-- A cache that commands lead to from an empty workbench, through one of its names.  The
commands know one shape for each struct type. -/
def Reachable (catalog : Catalog C) (cache : CopierCache C) : Prop :=
  ∃ commands name ref, (∀ c ∈ commands, c.Uses catalog) ∧
    (Workbench.empty.run commands).cache? name = some (ref, cache)

theorem Reachable.sound (h : cache.Reachable catalog) : cache.Sound catalog := by
  obtain ⟨commands, name, ref, hcommands, hcache⟩ := h
  exact ((Workbench.sound_empty catalog).run hcommands).cache hcache

end CopierCache

namespace Workbench

/-- The copy of a list is made of the copies of its records, each into a new record and
apart from the others.  It succeeds exactly if all of them do, and then has their results in
order; else it has the error of the first that fails.  Two lists after each other give both
results or the first error.  A cache that any commands lead to answers the same at any time.
A list that is not empty does to it what one lookup does, also if a record fails: a copier
is compiled if there is none that lives, and only one.  An empty list leaves it as it is. -/
theorem copyList_recordwise (source dest : Shape C) (blank : Data) (items more : List Data) :
    let one (item : Data) : CopyOutcome :=
      (CopyPlan.compile source dest).run ⟨dest.id, blank⟩ ⟨source.id, item⟩
    (∀ made, copyList source dest blank items = .ok made ↔
        (∀ item ∈ items, (one item).error = none) ∧
          made = items.map fun item => (one item).dest) ∧
      (∀ e, copyList source dest blank items = .error e ↔
        ∃ before item after, items = before ++ item :: after ∧
          (∀ other ∈ before, (one other).error = none) ∧ (one item).error = some e) ∧
      copyList source dest blank (items ++ more) = (do
        let made ← copyList source dest blank items
        let made' ← copyList source dest blank more
        return made ++ made') ∧
      ∀ (catalog : Catalog C) (cache : CopierCache C) (now : Instant),
        cache.Reachable catalog → catalog.Describes source → catalog.Describes dest →
          let cached := cache.copyList now source dest blank items
          cached.1 = copyList source dest blank items ∧
            (items = [] → cached.2 = cache) ∧
            (items ≠ [] → cached.2 = (cache.get now source dest).2 ∧
              cached.2.nextStamp =
                cache.nextStamp + if cache.contains now source.id dest.id then 0 else 1) := by
  intro one
  refine ⟨?_, ?_, ?_, ?_⟩
  · intro made
    rw [copyList_eq_runEach]
    exact CopyPlan.runEach_eq_ok_iff
  · intro e
    rw [copyList_eq_runEach]
    exact CopyPlan.runEach_eq_error_iff
  · simp only [copyList_eq_runEach]
    exact CopyPlan.runEach_append _ blank items more
  · intro catalog cache now hreachable hsource hdest cached
    have hafter : cached.2 = if items = [] then cache else (cache.get now source dest).2 :=
      cache.snd_copyList now source dest blank items
    refine ⟨(hreachable.sound.copyList hsource hdest now blank items).2, ?_, ?_⟩
    · intro hnil
      rw [hafter, if_pos hnil]
    · intro hne
      rw [hafter, if_neg hne]
      exact ⟨rfl, cache.nextStamp_get now source dest⟩

/-- A cache whose copiers do not live at all compiles one for each list, also for the list
with an odd count.  The visits before that one are not in the answer. -/
theorem copyList_visits :
    let catalog : Catalog SampleType := .ofShapes [CopyPlan.visits, CopyPlan.pairedVisits]
    let commands : List (Command SampleType) :=
      [ .cacheNew "plans" (Span.ofSecs 0) 1,
        .cacheGet "plans" CopyPlan.visits CopyPlan.pairedVisits ]
    let visit (id count : Int) : Data :=
      .record [("id", .int id), ("count", .int count), ("note", .text "x")]
    let paired (id count : Int) (note : List UInt8) : Data := .record
      [("id", .int id), ("totals", .record [("count", .int count)]), ("note", .bytes note)]
    ∃ ref cache, (empty.run commands).cache? "plans" = some (ref, cache) ∧
      cache.Reachable catalog ∧ cache.nextStamp = 1 ∧
      let cached := cache.copyList Instant.start CopyPlan.visits CopyPlan.pairedVisits
        (paired 0 0 [])
      (cached [visit 1 2, visit 2 4]).1 = .ok [paired 1 2 [120], paired 2 4 [120]] ∧
        (cached [visit 1 2, visit 2 3, visit 3 5]).1 =
          .error (.conversion "totals.count" .int .uint) ∧
        (cached [visit 1 2, visit 2 3, visit 3 5]).2.nextStamp = 2 ∧
        (cached []).2 = cache := by
  intro catalog commands visit paired
  have hvisits : catalog.Describes CopyPlan.visits := by
    rfl
  have hpaired : catalog.Describes CopyPlan.pairedVisits := by
    rfl
  have hcommands : ∀ c ∈ commands, c.Uses catalog := by
    simp [commands, Command.Uses, hvisits, hpaired]
  obtain ⟨⟨ref, cache⟩, hcache⟩ : ∃ found, (empty.run commands).cache? "plans" = some found :=
    Option.isSome_iff_exists.mp (by decide)
  have hreachable : cache.Reachable catalog := ⟨commands, "plans", ref, hcommands, hcache⟩
  have hstamp : cache.nextStamp = 1 := by
    cases hcache
    rfl
  have hcontains : cache.contains Instant.start CopyPlan.visits.id CopyPlan.pairedVisits.id =
      false := by
    cases hcache
    decide
  have hlist (items : List Data) := copyList_recordwise CopyPlan.visits CopyPlan.pairedVisits
    (paired 0 0 []) items []
  have hcached (items : List Data) :=
    (hlist items).2.2.2 catalog cache Instant.start hreachable hvisits hpaired
  refine ⟨ref, cache, hcache, hreachable, hstamp, ?_, ?_, ?_, (hcached []).2.1 rfl⟩
  · refine (hcached _).1.trans (((hlist _).1 _).mpr ⟨?_, by rfl⟩)
    simp only [List.forall_mem_cons]
    exact ⟨by rfl, by rfl, by simp⟩
  · refine (hcached _).1.trans (((hlist _).2.1 _).mpr ⟨[visit 1 2], visit 2 3, [visit 3 5], rfl,
      ?_, by rfl⟩)
    simp only [List.forall_mem_cons]
    exact ⟨by rfl, by simp⟩
  · rw [((hcached _).2.2 (by simp)).2, hstamp, hcontains]
    rfl

end Workbench

end RecordKit
