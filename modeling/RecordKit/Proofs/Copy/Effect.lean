import RecordKit.Copy.Run
import RecordKit.Proofs.Copy.Separation

/-!
# What a copy leaves in the destination

An action reads one path and writes one path.  A list of actions therefore
changes nothing outside the paths it writes, and if no written path meets
another, every action still finds its value in place at the end.  The routes
that a compiled plan fills are of that kind (`CopyPlan.compile_dests_apart`).

* `CopyAction.run_eq_ok_iff`: what one action does.
* `dig?_runActions`, `runActions_filled`: what a list of actions does.
* `CopyPlan.run_compile_effect`: what a copy that succeeds does.
-/

namespace RecordKit

variable {C : Type}

namespace CopyAction

variable [UserType C]

/-- An action succeeds with the destination in which the transferred value is
written.  The test that the destination resolves first is implied. -/
theorem run_eq_ok_iff (a : CopyAction C) (dest source dest' : Data) :
    a.run dest source = .ok dest' ↔
      ∃ value written, fetch? a.source.steps source = some value ∧
        a.transfer? value = some written ∧ replace? a.dest.steps written dest = some dest' := by
  unfold run
  constructor
  · intro h
    split at h
    · next old value hold hvalue =>
        split at h
        · cases h
        · next written hwritten =>
            split at h
            · next out hout =>
                cases h
                exact ⟨value, written, hvalue, hwritten, hout⟩
            · cases h
    · cases h
  · rintro ⟨value, written, hvalue, hwritten, hdest'⟩
    obtain ⟨old, hold⟩ : ∃ old, fetch? a.dest.steps dest = some old := by
      rw [← Option.isSome_iff_exists, ← isSome_replace? a.dest.steps written dest, hdest']
      rfl
    simp only [hold, hvalue, hwritten, hdest']

theorem dig?_run {a : CopyAction C} {dest source dest' : Data} (h : a.run dest source = .ok dest')
    {names : List String} (hapart : Apart names a.dest.names) :
    dest'.dig? names = dest.dig? names := by
  obtain ⟨value, written, -, -, hdest'⟩ := (run_eq_ok_iff a dest source dest').mp h
  exact dig?_replace?_of_apart hdest' hapart

/-- The value that an action transfers from a source stands at the end of its
destination route. -/
def Filled (a : CopyAction C) (source dest : Data) : Prop :=
  ∃ value written, fetch? a.source.steps source = some value ∧
    a.transfer? value = some written ∧ fetch? a.dest.steps dest = some written

theorem filled_run {a : CopyAction C} {dest source dest' : Data}
    (h : a.run dest source = .ok dest') : a.Filled source dest' := by
  obtain ⟨value, written, hvalue, hwritten, hdest'⟩ := (run_eq_ok_iff a dest source dest').mp h
  exact ⟨value, written, hvalue, hwritten, fetch?_replace?_self hdest'⟩

theorem Filled.congr {a : CopyAction C} {source dest dest' : Data} (h : a.Filled source dest)
    (hdig : dest'.dig? a.dest.names = dest.dig? a.dest.names) : a.Filled source dest' := by
  obtain ⟨value, written, hvalue, hwritten, hdest⟩ := h
  exact ⟨value, written, hvalue, hwritten, (fetch?_congr hdig).trans hdest⟩

/-- An assignment that has its value in place makes both ends of its routes agree. -/
theorem Filled.fetch?_eq {a : CopyAction C} {source dest : Data} (hfilled : a.Filled source dest)
    (hassigns : a.conversion = false) :
    fetch? a.dest.steps dest = fetch? a.source.steps source := by
  obtain ⟨value, written, hvalue, htransfer, hwritten⟩ := hfilled
  have hsame : value = written := by
    simpa [CopyAction.transfer?, hassigns] using htransfer
  rw [hwritten, hvalue, hsame]

end CopyAction

/-! ## Lists of actions -/

section

variable [UserType C]

/-- Whether it ends with an error or not, a list of actions changes nothing on a
path that meets none of the written ones. -/
theorem dig?_runActions {source : Data} {actions : List (CopyAction C)} {names : List String}
    (hapart : ∀ a ∈ actions, Apart names a.dest.names) (dest : Data) :
    (runActions source actions dest).dest.dig? names = dest.dig? names := by
  induction actions generalizing dest with
  | nil => rfl
  | cons a rest ih =>
      rw [List.forall_mem_cons] at hapart
      unfold runActions
      -- A failing action ends the run before it writes.
      cases hrun : a.run dest source with
      | error e => rfl
      | ok dest' => exact (ih hapart.2 dest').trans (CopyAction.dig?_run hrun hapart.1)

/-- If all actions succeed and no two written paths meet, every action has its
value in place in the end. -/
theorem runActions_filled {source : Data} {actions : List (CopyAction C)}
    (hapart : actions.Pairwise CopyAction.DestsApart) {dest : Data}
    (hok : (runActions source actions dest).error = none) :
    ∀ a ∈ actions, a.Filled source (runActions source actions dest).dest := by
  induction actions generalizing dest with
  | nil =>
      intro a ha
      cases ha
  | cons b rest ih =>
      obtain ⟨hhead, hrest⟩ := List.pairwise_cons.mp hapart
      unfold runActions at hok ⊢
      cases hrun : b.run dest source with
      | error e =>
          rw [hrun] at hok
          cases hok
      | ok dest' =>
          rw [hrun] at hok
          rw [List.forall_mem_cons]
          -- What `b` wrote is not met by the actions after it.
          have hkept : (runActions source rest dest').dest.dig? b.dest.names =
              dest'.dig? b.dest.names := dig?_runActions hhead dest'
          exact ⟨(CopyAction.filled_run hrun).congr hkept, ih hrest hok⟩

theorem CopyPlan.run_of_ids {plan : CopyPlan C} {dest source : Record}
    (hdest : dest.id = plan.dest) (hsource : source.id = plan.source) :
    plan.run dest source = runActions source.data plan.actions dest.data := by
  simp [CopyPlan.run, hdest, hsource]

/-- A plan that succeeds has met records of its two types. -/
theorem CopyPlan.run_eq_runActions {plan : CopyPlan C} {dest source : Record}
    (hok : (plan.run dest source).error = none) :
    plan.run dest source = runActions source.data plan.actions dest.data := by
  by_cases hdest : dest.id = plan.dest
  · by_cases hsource : source.id = plan.source
    · exact run_of_ids hdest hsource
    · simp [CopyPlan.run, hdest, hsource] at hok
  · simp [CopyPlan.run, hdest] at hok

end

/-! ## Compiled plans -/

namespace CopyPlan

variable [DecidableEq C] [UserType C]

/-- Let a compiled plan succeed on two records.  Then each of its actions has
its value in place: the source's own value where it assigns, and what the
destination type makes of the source's view where it converts.  A field of the
destination that is neither at, above nor below one that an action fills has the
value it had before, and so has whatever a path of names leads to that does not
meet a filled route. -/
theorem run_compile_effect {source dest : Shape C} (hdest : dest.DistinctNames) {d s : Record}
    (hok : ((compile source dest).run d s).error = none) :
    let plan := compile source dest
    let out := (plan.run d s).dest
    (∀ a ∈ plan.actions, ∃ value written,
        fetch? a.source.steps s.data = some value ∧ fetch? a.dest.steps out = some written ∧
          (a.conversion = false → written = value) ∧
          (a.conversion = true →
            a.dest.last.type.ofView? (a.source.last.view value) = some written)) ∧
      (∀ p ∈ dest.routes,
        (∀ a ∈ plan.actions, ¬p.AtOrAbove a.dest ∧ ¬a.dest.AtOrAbove p) →
          fetch? p.steps out = fetch? p.steps d.data) ∧
      (∀ names : List String, (∀ a ∈ plan.actions, Apart names a.dest.names) →
        out.dig? names = d.data.dig? names) := by
  intro plan out
  have hrun : plan.run d s = runActions s.data plan.actions d.data := run_eq_runActions hok
  have hframe : ∀ names : List String, (∀ a ∈ plan.actions, Apart names a.dest.names) →
      out.dig? names = d.data.dig? names := by
    intro names hapart
    show (plan.run d s).dest.dig? names = _
    rw [hrun]
    exact dig?_runActions hapart d.data
  refine ⟨?_, ?_, hframe⟩
  · intro a ha
    have hfilled : a.Filled s.data out := by
      show a.Filled s.data (plan.run d s).dest
      rw [hrun] at hok ⊢
      exact runActions_filled (compile_dests_apart source dest) hok a ha
    obtain ⟨value, written, hvalue, htransfer, hwritten⟩ := hfilled
    refine ⟨value, written, hvalue, hwritten, ?_, ?_⟩
    · intro hconversion
      simp only [CopyAction.transfer?, hconversion, Bool.false_eq_true, if_false] at htransfer
      exact (Option.some.inj htransfer).symm
    · intro hconversion
      simp only [CopyAction.transfer?, hconversion, if_true] at htransfer
      -- A sealed field accepts nothing, so the field's type has built the value.
      exact (Option.ite_none_left_eq_some.mp htransfer).2
  · intro p hp haway
    refine fetch?_congr (hframe p.names ?_)
    intro a ha
    have haroute := dest_mem_routes ha
    exact ⟨fun hprefix => (haway a ha).1 (Shape.atOrAbove_of_names hdest hp haroute hprefix),
      fun hprefix => (haway a ha).2 (Shape.atOrAbove_of_names hdest haroute hp hprefix)⟩

/-- Copying a flat record into a nested copy converts the version on top and
leaves the one that it hides. -/
theorem run_flat_nestedCopy :
    let d : Record := ⟨Sample.nestedCopy.id, .record
      [ ("id", .int 0),
        ("audit", .record [("created_by", .text ""), ("version", .int 5)]),
        ("version", .int 0) ]⟩
    let s : Record := ⟨Sample.flat.id, .record
      [("id", .int 7), ("created_by", .text "me"), ("version", .int 300)]⟩
    let plan := compile Sample.flat Sample.nestedCopy
    Sample.nestedCopy.DistinctNames ∧ (plan.run d s).error = none ∧
      (∃ a ∈ plan.actions, a.conversion = true ∧ a.dest.dotted = "version" ∧
        fetch? a.dest.steps (plan.run d s).dest = some (.int 44)) ∧
      (plan.run d s).dest.dig? ["audit", "version"] = some (.int 5) := by
  intro d s plan
  have hdest : Sample.nestedCopy.DistinctNames := by
    decide
  have hok : (plan.run d s).error = none := by
    rfl
  obtain ⟨hfilled, -, hframe⟩ := run_compile_effect hdest hok
  refine ⟨hdest, hok, ?_, ?_⟩
  · let a := plan.actions.get ⟨2, by decide⟩
    obtain ⟨value, written, hvalue, hwritten, -, hconverted⟩ := hfilled a (List.get_mem _ _)
    obtain rfl : .int 300 = value := Option.some.inj hvalue
    obtain rfl : .int 44 = written := Option.some.inj (hconverted rfl)
    exact ⟨a, List.get_mem _ _, rfl, by decide, hwritten⟩
  · have hapart : ∀ a ∈ plan.actions, Apart ["audit", "version"] a.dest.names := by
      decide
    rw [hframe ["audit", "version"] hapart]
    rfl

end CopyPlan

end RecordKit
