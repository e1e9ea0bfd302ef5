import Mathlib.Data.List.Induction

/-!
# Histories

A history is a list of events, the latest one last.  Where an event stands in a history
depends on the last event in a simple way (`snoc_eq_split_iff`), and so does what a history
has set under a key (`lastSet_snoc_iff`).
-/

namespace RecordKit

variable {ε κ α : Type}

/-- In a history with one more event, an event is that one, or it stood there before. -/
theorem snoc_eq_split_iff {events before after : List ε} {last e : ε} :
    events ++ [last] = before ++ e :: after ↔
      (before = events ∧ e = last ∧ after = []) ∨
        ∃ after', after = after' ++ [last] ∧ events = before ++ e :: after' := by
  constructor
  · intro hsplit
    rcases List.eq_nil_or_concat after with rfl | ⟨after', last', rfl⟩
    · obtain ⟨hevents, hlast⟩ := List.append_inj' hsplit rfl
      exact Or.inl ⟨hevents.symm, (List.singleton_inj.mp hlast).symm, rfl⟩
    · rw [List.concat_eq_append] at hsplit ⊢
      rw [← List.cons_append, ← List.append_assoc] at hsplit
      obtain ⟨hevents, hlast⟩ := List.append_inj' hsplit rfl
      obtain rfl : last = last' := List.singleton_inj.mp hlast
      exact Or.inr ⟨after', rfl, hevents⟩
  · rintro (⟨rfl, rfl, rfl⟩ | ⟨after', rfl, rfl⟩)
    · rfl
    · rw [List.append_assoc, List.cons_append]

/-- One of the events sets the key to the value, and none after that concerns the key.
The effect of an event on a key is `none` if it does not concern the key, and otherwise the
value that it sets, if any. -/
def LastSet (effect? : ε → κ → Option (Option α)) (events : List ε) (key : κ) (value : α) : Prop :=
  ∃ before e after, events = before ++ e :: after ∧ effect? e key = some (some value) ∧
    ∀ e' ∈ after, effect? e' key = none

variable {effect? : ε → κ → Option (Option α)} {events : List ε} {key : κ} {value : α}

theorem not_lastSet_nil : ¬LastSet effect? [] key value := by
  rintro ⟨before, e, after, h, -⟩
  simp at h

/-- The last event sets the key, or it does not concern the key. -/
theorem lastSet_snoc_iff {last : ε} :
    LastSet effect? (events ++ [last]) key value ↔
      effect? last key = some (some value) ∨
        effect? last key = none ∧ LastSet effect? events key value := by
  constructor
  · rintro ⟨before, e, after, hsplit, hset, hafter⟩
    rcases snoc_eq_split_iff.mp hsplit with ⟨-, rfl, -⟩ | ⟨after, rfl, hevents⟩
    · exact Or.inl hset
    · exact Or.inr ⟨hafter last (by simp), before, e, after, hevents, hset,
        fun e' he' => hafter e' (by simp [he'])⟩
  · rintro (hset | ⟨hlast, before, e, after, hevents, hset, hafter⟩)
    · exact ⟨events, last, [], rfl, hset, by simp⟩
    · refine ⟨before, e, after ++ [last], snoc_eq_split_iff.mpr (Or.inr ⟨after, rfl, hevents⟩),
        hset, ?_⟩
      simpa [or_imp, forall_and] using ⟨hafter, hlast⟩

end RecordKit
