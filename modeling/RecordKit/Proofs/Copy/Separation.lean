import RecordKit.Proofs.Copy.Plan
import RecordKit.Proofs.Record.Access

/-!
# Filled routes are apart

The compiler passes a field only if the table counts its name once on its level
and on no level above.  So the fields of a destination that a plan fills all have
different names, and none of them lies inside another one: whatever the compiler
fills, it does not enter.  Nothing is assumed of the two shapes, not even that the
fields of a struct have distinct names.

* `CopyPlan.standsFor_of_mem_compile`: each field on a filled route stands for its
  name.
* `CopyPlan.compile_names_nodup`: no two actions fill fields of one name.
* `CopyPlan.compile_dests_apart`: no filled route is at or above another one.
-/

namespace RecordKit

variable {C : Type}

/-! ## Routes and their names -/

theorem Route.names_eq_append (p : Route C) : p.names = p.via.map (·.name) ++ [p.last.name] := by
  simp [Route.names, Route.steps]

theorem Route.last_name_eq_of_names {p q : Route C} (h : p.names = q.names) :
    p.last.name = q.last.name := by
  rw [Route.names_eq_append, Route.names_eq_append] at h
  have hlast := (List.append_inj' h rfl).2
  simpa using hlast

/-- If the names of a route begin with those of another one, some route above it has
the names of the other one. -/
theorem Route.exists_atOrAbove_of_names {p q : Route C} (h : p.names <+: q.names) :
    ∃ r : Route C, r.AtOrAbove q ∧ r.names = p.names := by
  obtain ⟨steps, hsteps, hnames⟩ := List.prefix_map_iff.mp h
  rcases List.eq_nil_or_concat steps with rfl | ⟨via, last, rfl⟩
  · exact absurd hnames p.names_ne_nil
  · refine ⟨⟨via, last⟩, ?_, ?_⟩
    · simpa [Route.AtOrAbove] using hsteps
    · simpa [Route.names] using hnames.symm

/-- Two actions write paths that do not meet. -/
def CopyAction.DestsApart (a b : CopyAction C) : Prop :=
  Apart a.dest.names b.dest.names

theorem CopyAction.DestsApart.symm {a b : CopyAction C} (h : a.DestsApart b) : b.DestsApart a :=
  Apart.symm h

namespace CopyPlan

variable [DecidableEq C] [UserType C] {source dest : Shape C} {a b : CopyAction C}

/-! ## What the compiler passes -/

theorem dest_mem_routes (ha : a ∈ (compile source dest).actions) : a.dest ∈ dest.routes :=
  (acts_of_mem_compile ha).1

theorem matchField_of_mem_compile (ha : a ∈ (compile source dest).actions) :
    matchField source a.dest = some a :=
  (acts_of_mem_compile ha).2.matched

/-- An action reads a source route of the name that it fills. -/
theorem source_mem_routes (ha : a ∈ (compile source dest).actions) :
    a.source ∈ source.routes ∧ a.source.last.name = a.dest.last.name := by
  obtain ⟨-, hfind, -⟩ := (matchField_eq_some_iff source _ a).mp (matchField_of_mem_compile ha)
  have hnamed := ((findSource_eq_some_iff_named source _ a.source).mp hfind).1
  have hmem : a.source ∈ source.named a.source.depth a.dest.last.name := by simp [hnamed]
  obtain ⟨hroute, -, hname⟩ := (source.mem_named_iff _ _ a.source).mp hmem
  exact ⟨hroute, hname⟩

theorem transfer_of_mem_compile (ha : a ∈ (compile source dest).actions) :
    transfer? a.source.last a.dest.last = some a.conversion :=
  ((matchField_eq_some_iff source _ a).mp (matchField_of_mem_compile ha)).2.2.1

/-- Each field on a filled route is alone of its name on its level, and no level above
has the name. -/
theorem named_of_mem_compile (ha : a ∈ (compile source dest).actions) {r : Route C}
    (hr : r.AtOrAbove a.dest) :
    dest.named r.depth r.last.name = [r] ∧ ∀ j < r.depth, dest.named j r.last.name = [] := by
  obtain ⟨hroute, hacts⟩ := acts_of_mem_compile ha
  have hpasses : (nameTable dest).Passes 0 r := hacts.passes r hr
  rw [NameTable.Passes, Nat.zero_add] at hpasses
  exact named_of_promotes (Shape.mem_routes_of_atOrAbove hroute hr) hpasses.1

theorem standsFor_of_mem_compile (ha : a ∈ (compile source dest).actions) {r : Route C}
    (hr : r.AtOrAbove a.dest) : dest.StandsFor r :=
  Shape.standsFor_of_named (named_of_mem_compile ha hr).1 (named_of_mem_compile ha hr).2

/-! ## Actions of one plan -/

/-- No two actions of a plan fill fields of one name. -/
theorem compile_names_nodup (source dest : Shape C) :
    ((compile source dest).actions.map fun a => a.dest.last.name).Nodup := by
  rw [List.nodup_iff_sublist]
  intro name htwice
  obtain ⟨pair, hpair, hnames⟩ := List.sublist_map_iff.mp htwice
  obtain ⟨a, b, rfl⟩ : ∃ a b, pair = [a, b] := by
    have hlength := congrArg List.length hnames
    exact List.length_eq_two.mp (by simpa using hlength.symm)
  have ha : a ∈ (compile source dest).actions := hpair.subset (by simp)
  have hb : b ∈ (compile source dest).actions := hpair.subset (by simp)
  have hname : a.dest.last.name = b.dest.last.name := by
    simp only [List.map_cons, List.map_nil, List.cons.injEq] at hnames
    rw [← hnames.1, ← hnames.2.1]
  have hstands := standsFor_of_mem_compile ha (Route.AtOrAbove.refl _)
  have hsame : a.dest = b.dest :=
    hstands.unique (standsFor_of_mem_compile hb (Route.AtOrAbove.refl _)) hname
  -- The destination lists that route twice, but its level has the name only once.
  have hroutes : [a.dest, a.dest].Sublist dest.routes := by
    have hdests := (hpair.map CopyAction.dest).trans (compile_dests_sublist source dest)
    simpa [← hsame] using hdests
  have hlevel := (hroutes.filter fun p => p.depth = a.dest.depth).filter
    fun p => p.last.name = a.dest.last.name
  rw [← Shape.routesAt_eq_filter] at hlevel
  have hlength := hlevel.length_le
  rw [show ((dest.routesAt a.dest.depth).filter fun p => p.last.name = a.dest.last.name) =
    [a.dest] from (named_of_mem_compile ha (Route.AtOrAbove.refl _)).1] at hlength
  simp at hlength

/-- What is filled is not entered, so no route that is filled begins with the names of
another one. -/
theorem not_prefix_of_last_ne (ha : a ∈ (compile source dest).actions)
    (hb : b ∈ (compile source dest).actions) (hname : a.dest.last.name ≠ b.dest.last.name) :
    ¬a.dest.names <+: b.dest.names := by
  intro hprefix
  obtain ⟨r, hr, hnames⟩ := Route.exists_atOrAbove_of_names hprefix
  have hlast := Route.last_name_eq_of_names hnames
  have hsame : r = a.dest :=
    (standsFor_of_mem_compile hb hr).unique
      (standsFor_of_mem_compile ha (Route.AtOrAbove.refl _)) hlast
  have hne : r ≠ b.dest := by
    rintro rfl
    exact hname hlast.symm
  have hnone : matchField source r = none := (acts_of_mem_compile hb).2.unmatched r hr hne
  rw [hsame, matchField_of_mem_compile ha] at hnone
  cases hnone

theorem compile_dests_apart (source dest : Shape C) :
    (compile source dest).actions.Pairwise CopyAction.DestsApart := by
  have hnames : (compile source dest).actions.Pairwise
      fun a b => a.dest.last.name ≠ b.dest.last.name :=
    List.pairwise_map.mp (compile_names_nodup source dest)
  refine hnames.imp_of_mem ?_
  intro a b ha hb hname
  exact ⟨not_prefix_of_last_ne ha hb hname, not_prefix_of_last_ne hb ha (Ne.symm hname)⟩

end CopyPlan

end RecordKit
