import RecordKit.Proofs.Copy.Failure

/-!
# The order of actions

Two actions whose written paths do not meet may change places: each reads the source
alone and leaves the other's path as it is, and records do not keep the order of
writes.  By exchanging neighbours, any permutation of a list of such actions leads to
the same destination, provided that all of them succeed.

* `CopyAction.run_swap`: two actions change places.
* `runActions_perm`: a list of actions is permuted.
* `CopyPlan.compile_order_irrelevant`: the actions of a plan are of that kind.
-/

namespace RecordKit

variable {C : Type} [UserType C]

/-- Two actions change places, each with the source that it reads. -/
theorem CopyAction.run_swap {a b : CopyAction C} (hapart : a.DestsApart b)
    {source source' d d₁ d₂ : Data} (ha : a.run d source = .ok d₁)
    (hb : b.run d₁ source' = .ok d₂) :
    ∃ d', b.run d source' = .ok d' ∧ a.run d' source = .ok d₂ := by
  obtain ⟨v, v', hv, hv', hd₁⟩ := (a.run_eq_ok_iff d source d₁).mp ha
  obtain ⟨w, w', hw, hw', hd₂⟩ := (b.run_eq_ok_iff d₁ source' d₂).mp hb
  obtain ⟨d', hd', hswap⟩ := replace?_swap hapart hd₁ hd₂
  exact ⟨d', (b.run_eq_ok_iff d source' d').mpr ⟨w, w', hw, hw', hd'⟩,
    (a.run_eq_ok_iff d' source d₂).mpr ⟨v, v', hv, hv', hswap⟩⟩

/-- Actions that all succeed and write paths that do not meet may run in any order. -/
theorem runActions_perm {source : Data} {actions order : List (CopyAction C)}
    (hperm : actions.Perm order) (hapart : actions.Pairwise CopyAction.DestsApart) {d : Data}
    (hok : (runActions source actions d).error = none) :
    runActions source order d = runActions source actions d := by
  -- Along the exchanges of neighbours that make up the permutation.
  induction hperm generalizing d with
  | nil => rfl
  | cons a _ ih =>
      obtain ⟨d', hrun, hrest⟩ := runActions_cons_of_ok hok
      rw [runActions_cons hrun, runActions_cons hrun]
      exact ih (List.pairwise_cons.mp hapart).2 hrest
  | swap a b rest =>
      obtain ⟨d₁, hb, hmore⟩ := runActions_cons_of_ok hok
      obtain ⟨d₂, ha, -⟩ := runActions_cons_of_ok hmore
      have hab : b.DestsApart a := (List.pairwise_cons.mp hapart).1 a (by simp)
      obtain ⟨d', ha', hb'⟩ := CopyAction.run_swap hab hb ha
      rw [runActions_cons ha', runActions_cons hb', runActions_cons hb, runActions_cons ha]
  | trans hfirst _ ih ih' =>
      have hmiddle := ih hapart hok
      have hapart' := (hfirst.pairwise_iff CopyAction.DestsApart.symm).mp hapart
      rw [← hmiddle]
      exact ih' hapart' (by rw [hmiddle, hok])

namespace CopyPlan

variable [DecidableEq C]

/-- No two actions of a compiled plan fill fields of one name, and no filled path begins
another one.  So wherever each action succeeds on the destination as it is given, the
actions lead to the same destination in every order, and they succeed in every order. -/
theorem compile_order_irrelevant (source dest : Shape C) :
    let plan := compile source dest
    (plan.actions.map fun a => a.dest.last.name).Nodup ∧
      (plan.actions.Pairwise fun a b =>
        ¬a.dest.names <+: b.dest.names ∧ ¬b.dest.names <+: a.dest.names) ∧
      ∀ d s : Data, (∀ a ∈ plan.actions, ∃ d', a.run d s = .ok d') →
        ∀ order : List (CopyAction C), order.Perm plan.actions →
          (runActions s order d).dest = (runActions s plan.actions d).dest ∧
            (runActions s order d).error = none := by
  intro plan
  have hapart : plan.actions.Pairwise CopyAction.DestsApart := compile_dests_apart source dest
  refine ⟨compile_names_nodup source dest, hapart, ?_⟩
  intro d s hsucceed order hperm
  have hok : (runActions s plan.actions d).error = none := by
    rw [runActions_error_eq_none_iff hapart]
    exact fun a ha => (a.exists_run_iff d s).mp (hsucceed a ha)
  rw [runActions_perm hperm.symm hapart hok]
  exact ⟨rfl, hok⟩

/-- The actions from a flat record into a nested copy, last to first. -/
theorem run_flat_nestedCopy_reversed :
    let d : Data := .record
      [ ("id", .int 0),
        ("audit", .record [("created_by", .text ""), ("version", .int 5)]),
        ("version", .int 0) ]
    let s : Data := .record [("id", .int 7), ("created_by", .text "me"), ("version", .int 300)]
    let plan := compile Sample.flat Sample.nestedCopy
    plan.actions.reverse.map (·.dest.dotted) = ["version", "audit.created_by", "id"] ∧
      (runActions s plan.actions.reverse d).dest = (runActions s plan.actions d).dest := by
  intro d s plan
  have hsucceed : ∀ a ∈ plan.actions, ∃ d', a.run d s = .ok d' := by
    have hactions : plan.actions = [plan.actions.get ⟨0, by decide⟩,
        plan.actions.get ⟨1, by decide⟩, plan.actions.get ⟨2, by decide⟩] := by
      rfl
    rw [hactions]
    simp only [List.forall_mem_cons, List.not_mem_nil, false_implies, implies_true, and_true]
    exact ⟨⟨_, rfl⟩, ⟨_, rfl⟩, ⟨_, rfl⟩⟩
  refine ⟨by decide, ?_⟩
  exact ((compile_order_irrelevant Sample.flat Sample.nestedCopy).2.2 d s hsucceed _
    (List.reverse_perm _)).1

end CopyPlan

end RecordKit
