import RecordKit.Proofs.Copy.Order

/-!
# Nothing is left of an earlier copy

A plan writes the same routes whatever the source holds, and it writes each of them as a
whole.  So a copy that succeeds covers everything that an earlier copy into the same
destination has written, also one that was broken off half way.  And a copy that is made
again finds everything as it would leave it, up to the action that fails, if one does.

* `CopyAction.run_run`: of two runs of one action, the second counts.
* `CopyAction.run_runActions`: an action runs before or after actions that are apart from
  it, with one outcome.
* `runActions_after`, `runActions_again`: two runs of a list of actions.
* `CopyPlan.run_compile_no_residue`: two copies with one plan.
-/

namespace RecordKit

variable {C : Type} [UserType C]

/-! ## One action -/

namespace CopyAction

variable {a b : CopyAction C} {s s' d d₁ d₂ : Data}

/-- Whether an action succeeds, and what it makes of the destination, does not depend on
the value that the same action has put there. -/
theorem run_run (h : a.run d s = .ok d₁) (s' : Data) : a.run d₁ s' = a.run d s' := by
  obtain ⟨value, written, -, -, hd₁⟩ := (a.run_eq_ok_iff d s d₁).mp h
  have hthere : fetch? a.dest.steps d₁ = some written := fetch?_replace?_self hd₁
  obtain ⟨old, hold⟩ : ∃ old, fetch? a.dest.steps d = some old := by
    rw [← Option.isSome_iff_exists, ← isSome_replace? a.dest.steps written d, hd₁]
    rfl
  unfold run
  rw [hthere, hold]
  simp only [replace?_replace? hd₁]
  -- Both destinations resolve, and what stands there is not looked at.
  cases fetch? a.source.steps s' <;> rfl

/-- Two actions that are apart and succeed on one destination meet again: either may come
first. -/
theorem run_meet (hapart : a.DestsApart b) (ha : a.run d s = .ok d₁) (hb : b.run d s' = .ok d₂) :
    ∃ d₃, b.run d₁ s' = .ok d₃ ∧ a.run d₂ s = .ok d₃ := by
  have hsucceeds : ∃ d₃, b.run d₁ s' = .ok d₃ := by
    rw [exists_run_iff]
    intro e hfails
    have hfails' := (fails_congr (dig?_run ha hapart.symm) e).mp hfails
    exact (b.exists_run_iff d s').mp ⟨d₂, hb⟩ e hfails'
  obtain ⟨d₃, hd₃⟩ := hsucceeds
  obtain ⟨d', hb', ha'⟩ := run_swap hapart ha hd₃
  obtain rfl : d' = d₂ := Except.ok.inj (hb'.symm.trans hb)
  exact ⟨d₃, hd₃, ha'⟩

/-- An action that succeeds before a list of actions apart from it succeeds after it as
well, and leads to the same destination.  The list may end with an error. -/
theorem run_runActions {actions : List (CopyAction C)} (hapart : ∀ b ∈ actions, a.DestsApart b)
    (h : a.run d s = .ok d₁) (s' : Data) :
    a.run (runActions s' actions d).dest s = .ok (runActions s' actions d₁).dest := by
  induction actions generalizing d d₁ with
  | nil => exact h
  | cons b rest ih =>
      rw [List.forall_mem_cons] at hapart
      cases hb : b.run d s' with
      | error e =>
          have hb' : b.run d₁ s' = .error e := by
            rw [run_eq_error_iff] at hb ⊢
            exact (fails_congr (dig?_run h hapart.1.symm) e).mpr hb
          simpa only [runActions, hb, hb'] using h
      | ok d₂ =>
          obtain ⟨d₃, hb', ha'⟩ := run_meet hapart.1 h hb
          rw [runActions_cons hb, runActions_cons hb']
          exact ih hapart.2 ha'

end CopyAction

/-! ## Lists of actions -/

section

variable {s s' : Data} {actions : List (CopyAction C)}

/-- The first action of a list that has run before, with another source, finds the
destination as if it had run there already. -/
theorem runActions_cons_after {a : CopyAction C} (hapart : ∀ b ∈ actions, a.DestsApart b)
    {d d₁ d₂ : Data} (h : a.run d s = .ok d₁) (h' : a.run d s' = .ok d₂) :
    runActions s' (a :: actions) (runActions s (a :: actions) d).dest =
      runActions s' actions (runActions s actions d₂).dest := by
  have hfirst : a.run d₁ s' = .ok d₂ := (CopyAction.run_run h s').trans h'
  rw [runActions_cons h]
  exact runActions_cons (CopyAction.run_runActions hapart hfirst s) actions

/-- If a list of actions succeeds on a destination, it comes to the same after another run
of the list, whether that one succeeds or not. -/
theorem runActions_after (hapart : actions.Pairwise CopyAction.DestsApart) (s : Data) {d : Data}
    (hok : (runActions s' actions d).error = none) :
    runActions s' actions (runActions s actions d).dest = runActions s' actions d := by
  induction actions generalizing d with
  | nil => rfl
  | cons a rest ih =>
      obtain ⟨hhead, hrest⟩ := List.pairwise_cons.mp hapart
      obtain ⟨d₂, h', hmore⟩ := runActions_cons_of_ok hok
      cases h : a.run d s with
      | error e => simp only [runActions, h]
      | ok d₁ => rw [runActions_cons_after hhead h h', ih hrest hmore, runActions_cons h']

/-- A list of actions that is run again comes to the same, also if it fails. -/
theorem runActions_again (hapart : actions.Pairwise CopyAction.DestsApart) (s d : Data) :
    runActions s actions (runActions s actions d).dest = runActions s actions d := by
  induction actions generalizing d with
  | nil => rfl
  | cons a rest ih =>
      obtain ⟨hhead, hrest⟩ := List.pairwise_cons.mp hapart
      cases h : a.run d s with
      | error e => simp only [runActions, h]
      | ok d₁ => rw [runActions_cons_after hhead h h, ih hrest, runActions_cons h]

end

/-! ## Compiled plans -/

namespace CopyPlan

/-- A plan refuses two records for their types, whatever the destination holds, or it runs
its actions. -/
theorem run_refuses_or_acts (plan : CopyPlan C) (d s : Record) :
    (∃ e, ∀ data, plan.run ⟨d.id, data⟩ s = ⟨data, some e⟩) ∨
      ∀ data, plan.run ⟨d.id, data⟩ s = runActions s.data plan.actions data := by
  by_cases hdest : d.id = plan.dest
  · by_cases hsource : s.id = plan.source
    · exact Or.inr fun data => run_of_ids hdest hsource
    · exact Or.inl ⟨.wrongType .source plan.source.name, fun data => by simp [run, hdest, hsource]⟩
  · exact Or.inl ⟨.wrongType .destination plan.dest.name, fun data => by simp [run, hdest]⟩

variable [DecidableEq C]

/-- If copying a record succeeds, the outcome is the same after another record has been
copied into the same destination, whether that copy succeeded, was broken off half way or
was refused.  And copying a record a second time has the outcome of the first copy: it
ends with the same error or none, and it changes nothing. -/
theorem run_compile_no_residue (source dest : Shape C) (d s s' : Record) :
    let plan := compile source dest
    ((plan.run d s').error = none →
        plan.run ⟨d.id, (plan.run d s).dest⟩ s' = plan.run d s') ∧
      plan.run ⟨d.id, (plan.run d s).dest⟩ s = plan.run d s := by
  intro plan
  have hapart : plan.actions.Pairwise CopyAction.DestsApart := compile_dests_apart source dest
  have hd (r : Record) : plan.run d r = plan.run ⟨d.id, d.data⟩ r := rfl
  rcases plan.run_refuses_or_acts d s with ⟨e, hrefuses⟩ | hacts
  -- A refused record leaves the destination as it was.
  · simp only [hd s, hrefuses]
    exact ⟨fun _ => trivial, trivial⟩
  · refine ⟨?_, ?_⟩
    · intro hok
      rcases plan.run_refuses_or_acts d s' with ⟨e, hrefuses'⟩ | hacts'
      · rw [hd s', hrefuses'] at hok
        cases hok
      · rw [hd s', hacts'] at hok
        rw [hd s, hd s', hacts, hacts', hacts']
        exact runActions_after hapart s.data hok
    · rw [hd s, hacts, hacts]
      exact runActions_again hapart s.data d.data

/-- An odd count breaks a copy off half way, twice with the same outcome.  The id that it
has written is gone after a copy with an even count. -/
theorem run_visits_odd_then_even :
    let record (id count : Int) (note : String) : Record :=
      ⟨visits.id, .record [("id", .int id), ("count", .int count), ("note", .text note)]⟩
    let d : Record := ⟨pairedVisits.id, .record
      [("id", .int 0), ("totals", .record [("count", .int 2)]), ("note", .bytes [1])]⟩
    let plan := compile visits pairedVisits
    let broken := plan.run d (record 7 3 "x")
    broken.error = some (.conversion "totals.count" .int .uint) ∧
      broken.dest.dig? ["id"] = some (.int 7) ∧
      plan.run ⟨d.id, broken.dest⟩ (record 7 3 "x") = broken ∧
      (plan.run d (record 9 4 "y")).error = none ∧
      plan.run ⟨d.id, broken.dest⟩ (record 9 4 "y") = plan.run d (record 9 4 "y") := by
  intro record d plan broken
  have hok : (plan.run d (record 9 4 "y")).error = none := by
    rfl
  obtain ⟨hcovered, hagain⟩ :=
    run_compile_no_residue visits pairedVisits d (record 7 3 "x") (record 9 4 "y")
  exact ⟨by rfl, by rfl, hagain, hok, hcovered hok⟩

end CopyPlan

end RecordKit
