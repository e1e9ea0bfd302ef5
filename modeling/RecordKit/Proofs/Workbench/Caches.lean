import RecordKit.Proofs.Copy.Transparency
import RecordKit.Sample.Records
import RecordKit.Workbench.Basic

/-!
# The caches of a workbench

Commands reach a cache through any of its names.  Whatever they do, and however
much time passes in between, all caches stay sound as long as each struct type
has one shape, so a copy through a cache is the copy that a freshly compiled
plan makes.

* `Workbench.Sound.step`: one command keeps all caches sound.
* `Workbench.Sound.run`: so does a run.
* `Workbench.run_cache_transparent`: what this means for a cache after any run
  from an empty workbench.
-/

namespace RecordKit

variable {C : Type}

/-- The shapes that come with a command are those of the catalog. -/
def Command.Uses (catalog : Catalog C) : Command C → Prop
  | .define _ r => catalog.Describes r.shape
  | .cacheGet _ source dest => catalog.Describes source ∧ catalog.Describes dest
  | .cacheCopyList _ source dest _ _ => catalog.Describes source ∧ catalog.Describes dest
  | _ => True

namespace Workbench

theorem get?_of_cache? {w : Workbench C} {name : String} {ref : Nat} {cache : CopierCache C}
    (h : w.cache? name = some (ref, cache)) :
    w.cacheNames.get? name = some ref ∧ w.caches.get? ref = some cache := by
  obtain ⟨ref', hname, h⟩ := Option.bind_eq_some_iff.mp h
  obtain ⟨cache', hget, h⟩ := Option.bind_eq_some_iff.mp h
  cases h
  exact ⟨hname, hget⟩

variable [DecidableEq C] [UserType C]

/-- Every cache is sound, and every record is described by the shape of its
type. -/
structure Sound (catalog : Catalog C) (w : Workbench C) : Prop where
  caches : ∀ cache ∈ w.caches.objects, cache.Sound catalog
  records : ∀ name r, w.records.get? name = some r → catalog.Describes r.shape

variable {catalog : Catalog C} {w w' : Workbench C}

theorem sound_empty (catalog : Catalog C) : (empty : Workbench C).Sound catalog := by
  constructor
  · intro cache hcache
    cases hcache
  · intro name r hr
    cases hr

/-! ## Changes to a sound workbench -/

namespace Sound

theorem of_eq (hw : w.Sound catalog) (hcaches : w'.caches = w.caches)
    (hrecords : w'.records = w.records) : w'.Sound catalog :=
  ⟨hcaches ▸ hw.caches, hrecords ▸ hw.records⟩

theorem cache (hw : w.Sound catalog) {name : String} {ref : Nat} {cache : CopierCache C}
    (h : w.cache? name = some (ref, cache)) : cache.Sound catalog := by
  exact hw.caches cache (List.mem_of_getElem? (get?_of_cache? h).2)

theorem setCache (hw : w.Sound catalog) (ref : Nat) {cache : CopierCache C}
    (hcache : cache.Sound catalog) : (w.setCache ref cache).Sound catalog := by
  refine ⟨?_, hw.records⟩
  intro other hother
  rcases List.mem_or_eq_of_mem_set hother with hother | rfl
  · exact hw.caches other hother
  · exact hcache

theorem addCache (hw : w.Sound catalog) (name : String) {cache : CopierCache C}
    (hcache : cache.Sound catalog) :
    { w with
      caches := (w.caches.add cache).2,
      cacheNames := w.cacheNames.insert name (w.caches.add cache).1 }.Sound catalog := by
  refine ⟨?_, hw.records⟩
  intro other hother
  rcases List.mem_append.mp hother with hother | hother
  · exact hw.caches other hother
  · obtain rfl := List.mem_singleton.mp hother
    exact hcache

theorem insertRecord (hw : w.Sound catalog) (name : String) {r : ShapedRecord C}
    (hr : catalog.Describes r.shape) :
    { w with records := w.records.insert name r }.Sound catalog := by
  refine ⟨hw.caches, ?_⟩
  intro other r' hr'
  by_cases hname : other = name
  · rw [hname, KeyMap.get?_insert_self] at hr'
    cases hr'
    exact hr
  · rw [KeyMap.get?_insert_other _ hname] at hr'
    exact hw.records other r' hr'

theorem setData (hw : w.Sound catalog) (name : String) {r : ShapedRecord C}
    (hr : catalog.Describes r.shape) (data : Data) : (w.setData name r data).Sound catalog :=
  hw.insertRecord name hr

theorem changeRegistry (hw : w.Sound catalog) (name : String) (change : Registry → Registry) :
    (w.changeRegistry name change).2.Sound catalog := by
  unfold Workbench.changeRegistry
  cases w.registry? name with
  | none => exact hw
  | some found => exact hw.of_eq rfl rfl

theorem firstIssue (hw : w.Sound catalog) (ref stamp : Nat) :
    (w.firstIssue ref stamp).2.Sound catalog := by
  unfold Workbench.firstIssue
  cases w.issued.lookup (ref, stamp) with
  | some number => exact hw
  | none => exact hw.of_eq rfl rfl

/-! ## Commands -/

/-- One command keeps a workbench sound. -/
theorem answer (hw : w.Sound catalog) {c : Command C} (hc : c.Uses catalog) :
    (w.answer c).2.Sound catalog := by
  -- A command that finds no object of its name, or only looks at one, leaves the
  -- workbench as it is.
  cases c with
  | «recall» name | read name shape | cacheContains name source dest | cacheSize name
  | check name record shape =>
      simp only [Workbench.answer]
      split <;> exact hw
  | lookup name rule v arg =>
      simp only [Workbench.answer]
      split
      · split <;> exact hw
      · exact hw
  | define name r => exact hw.insertRecord name hc
  | copy source dest plan =>
      simp only [Workbench.answer]
      split
      · next s d hs hd => exact hw.setData dest (hw.records dest d hd) _
      · exact hw
  | cacheNew name lifetime capacity =>
      exact hw.addCache name (CopierCache.sound_new catalog lifetime capacity)
  | cacheGet name source dest =>
      simp only [Workbench.answer]
      split
      · next ref cache hcache =>
          -- The shapes come with the command; a record brings its own.
          have hget := (hw.cache hcache).get hc.1 hc.2 w.now
          exact (hw.setCache ref hget.1).firstIssue ref _
      · exact hw
  | cacheCopy name source dest =>
      simp only [Workbench.answer]
      split
      · next ref cache s d hcache hs hd =>
          have hdest := hw.records dest d hd
          have hcopy := (hw.cache hcache).copy (hw.records source s hs) hdest w.now d.data s.data
          exact (hw.setCache ref hcopy.1).setData dest hdest _
      · exact hw
  | cacheCopyList name source dest blank items =>
      simp only [Workbench.answer]
      split
      · next ref cache hcache =>
          have hcopy := (hw.cache hcache).copyList hc.1 hc.2 w.now blank items
          exact hw.setCache ref hcopy.1
      · exact hw
  | cacheClear name =>
      simp only [Workbench.answer]
      split
      · next ref cache hcache => exact hw.setCache ref (CopierCache.sound_clear catalog cache)
      · exact hw
  | cachePurge name =>
      simp only [Workbench.answer]
      split
      · next ref cache hcache => exact hw.setCache ref ((hw.cache hcache).purge w.now)
      · exact hw
  | cacheClone name newName | registryClone name newName =>
      simp only [Workbench.answer]
      split
      · exact hw.of_eq rfl rfl
      · exact hw
  | advance span | registryNew name withDefaults => exact hw.of_eq rfl rfl
  | setupDefaults name | register name rule predicate | unregister name rule | ruleNames name =>
      exact hw.changeRegistry name _

theorem step (hw : w.Sound catalog) {c : Command C} (hc : c.Uses catalog) :
    (w.step c).2.Sound catalog :=
  (hw.answer hc).of_eq rfl rfl

/-- A run keeps a workbench sound. -/
theorem run (hw : w.Sound catalog) {commands : List (Command C)}
    (hcommands : ∀ c ∈ commands, c.Uses catalog) : (w.run commands).Sound catalog := by
  induction commands generalizing w with
  | nil => exact hw
  | cons c rest ih =>
      rw [List.forall_mem_cons] at hcommands
      exact ih (hw.step hcommands.1) hcommands.2

/-- On a sound workbench a copy through a cache answers like a plain copy, and
leaves the same records behind. -/
theorem cacheCopy_eq_copy (hw : w.Sound catalog) {name : String} {ref : Nat}
    {cache : CopierCache C} (hcache : w.cache? name = some (ref, cache)) (source dest : String) :
    (w.answer (.cacheCopy name source dest)).1 = (w.answer (.copy source dest none)).1 ∧
      (w.answer (.cacheCopy name source dest)).2.records =
        (w.answer (.copy source dest none)).2.records := by
  simp only [Workbench.answer, hcache]
  cases hs : w.records.get? source with
  | none => exact ⟨rfl, rfl⟩
  | some s =>
      cases hd : w.records.get? dest with
      | none => exact ⟨rfl, rfl⟩
      | some d =>
          have hcopy : (cache.copy w.now s.shape d.shape d.data s.data).1 =
              (CopyPlan.compile s.shape d.shape).run d.record s.record :=
            ((hw.cache hcache).copy (hw.records source s hs) (hw.records dest d hd) w.now _ _).2
          show Answer.copied d.shape (cache.copy w.now s.shape d.shape d.data s.data).1 = _ ∧
            w.records.insert dest
              { d with data := (cache.copy w.now s.shape d.shape d.data s.data).1.dest } = _
          rw [hcopy]
          exact ⟨rfl, rfl⟩

end Sound

/-- Let a workbench come from an empty one by any commands that know one shape
for each struct type: caches made with any lifetime and capacity and reached
through any of their names, lookups, copies, purges, and the passing of time.
Then each copier in a cache holds the plan compiled for the types it is kept
under.  Whatever the cache has stored, dropped or forgotten, a lookup answers
the compiled plan, a copy of any values has the outcome of that plan's run, and
a copy of a list that of the copy without a cache. -/
theorem run_cache_transparent {catalog : Catalog C} {commands : List (Command C)}
    (hcommands : ∀ c ∈ commands, c.Uses catalog) {name : String} {ref : Nat}
    {cache : CopierCache C} (hcache : (empty.run commands).cache? name = some (ref, cache)) :
    (∀ e ∈ cache.store.entries,
        e.value.plan = CopyPlan.compile (catalog.shape e.key.1) (catalog.shape e.key.2)) ∧
      (∀ (now : Instant) (source dest : Shape C),
        catalog.Describes source → catalog.Describes dest →
          (cache.get now source dest).1.plan = CopyPlan.compile source dest ∧
          (∀ d s, (cache.copy now source dest d s).1 =
            (CopyPlan.compile source dest).run ⟨dest.id, d⟩ ⟨source.id, s⟩) ∧
          ∀ blank items, (cache.copyList now source dest blank items).1 =
            copyList source dest blank items) ∧
      ∀ source dest,
        let cached := (empty.run commands).answer (.cacheCopy name source dest)
        let plain := (empty.run commands).answer (.copy source dest none)
        cached.1 = plain.1 ∧ cached.2.records = plain.2.records := by
  have hw : (empty.run commands).Sound catalog := (sound_empty catalog).run hcommands
  have hsound : cache.Sound catalog := hw.cache hcache
  refine ⟨hsound, ?_, hw.cacheCopy_eq_copy hcache⟩
  intro now source dest hsource hdest
  refine ⟨(hsound.get hsource hdest now).2, ?_, ?_⟩
  · intro d s
    exact (hsound.copy hsource hdest now d s).2
  · intro blank items
    exact (hsound.copyList hsource hdest now blank items).2

/-- A cache of one copier, reached by two names, has pushed out the first of two
copiers and let the second expire.  The first is compiled again. -/
theorem run_cache_pushed_out :
    let catalog : Catalog SampleType := .ofShapes [Sample.flat, Sample.nested]
    let commands : List (Command SampleType) :=
      [ .cacheNew "plans" (Span.ofSecs 10) 1,
        .cacheClone "plans" "shared",
        .cacheGet "shared" Sample.flat Sample.nested,
        .cacheGet "plans" Sample.nested Sample.flat,
        .advance (Span.ofSecs 10) ]
    let w := empty.run commands
    (∀ c ∈ commands, c.Uses catalog) ∧
      ∃ ref cache, w.cache? "shared" = some (ref, cache) ∧ cache.size = 1 ∧
        cache.contains w.now Sample.flat.id Sample.nested.id = false ∧
        cache.contains w.now Sample.nested.id Sample.flat.id = false ∧
        (cache.get w.now Sample.flat Sample.nested).1.plan =
          CopyPlan.compile Sample.flat Sample.nested := by
  intro catalog commands w
  have hflat : catalog.Describes Sample.flat := by
    rfl
  have hnested : catalog.Describes Sample.nested := by
    rfl
  have hcommands : ∀ c ∈ commands, c.Uses catalog := by
    simp [commands, Command.Uses, hflat, hnested]
  obtain ⟨⟨ref, cache⟩, hcache⟩ : ∃ found, w.cache? "shared" = some found :=
    Option.isSome_iff_exists.mp (by decide)
  have hplan := ((run_cache_transparent hcommands hcache).2.1 w.now _ _ hflat hnested).1
  refine ⟨hcommands, ref, cache, hcache, ?_⟩
  cases hcache
  exact ⟨by decide, by decide, by decide, hplan⟩

end Workbench

end RecordKit
