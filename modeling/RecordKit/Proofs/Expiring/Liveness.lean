import RecordKit.Proofs.Expiring.Steps

/-!
# When an entry is live, and who says so

A store adds its lifetime to the time of an insertion once and compares the sum with
the clock again and again, both in seconds and nanoseconds.  The outcome is that of
exact arithmetic: an entry has expired exactly if its lifetime has passed since its
insertion, also where the sum is past the last instant and the entry has no deadline
(`Store.insert_expires_exactly`).

Lookups, tests, removals and insertions each look at the deadline by themselves.
They agree on every key in every state, and after an insertion they tell of its value
as long as the lifetime has not passed (`StoreSession.step_answers_agree`).
-/

namespace RecordKit

variable {κ α : Type}

/-- A deadline counted from `t` has come exactly when the lifetime has passed since `t`. -/
theorem Entry.isExpired_iff_of_add? {e : Entry κ α} {t : Instant} {lifetime : Span}
    (h : e.deadline = t.add? lifetime) (now : Instant) :
    e.isExpired now = true ↔ lifetime.total ≤ now.total - t.total := by
  unfold Entry.isExpired
  rw [h]
  cases hsum : t.add? lifetime with
  | none =>
      -- Without a deadline the lifetime ends after every instant.
      have hend := Instant.add?_eq_none_iff.mp hsum
      have hnow := now.total_lt
      simp only [Option.any_none, Bool.false_eq_true, false_iff]
      omega
  | some deadline =>
      have hend := Instant.total_add? hsum
      simp only [Option.any_some, decide_eq_true_eq, Instant.le_iff_total_le]
      omega

/-- The value under such a deadline is there until then. -/
theorem Entry.live?_of_add? {e : Entry κ α} {t : Instant} {lifetime : Span}
    (h : e.deadline = t.add? lifetime) (now : Instant) :
    e.live? now = if now.total < t.total + lifetime.total then some e.value else none := by
  have hexpired := Entry.isExpired_iff_of_add? h now
  unfold Entry.live?
  by_cases hstays : now.total < t.total + lifetime.total
  · rw [if_pos hstays, if_neg]
    rw [hexpired]
    omega
  · rw [if_neg hstays, if_pos]
    rw [hexpired]
    omega

theorem Entry.isSome_live? (e : Entry κ α) (now : Instant) :
    (e.live? now).isSome = !e.isExpired now := by
  unfold Entry.live?
  cases e.isExpired now <;> rfl

namespace Store

variable [DecidableEq κ] {s : Store κ α} {key : κ}

theorem get_of_stored {e : Entry κ α} (h : s.entry? key = some e) (now : Instant) :
    (s.get now key).1 = e.live? now := by
  unfold Entry.live?
  cases hexpired : e.isExpired now with
  | true => rw [get_of_expired h hexpired, if_pos rfl]
  | false => rw [get_of_live h hexpired, if_neg Bool.false_ne_true]

/-- An insertion leaves its value under its key, with a deadline counted from now. -/
theorem entry?_insert (s : Store κ α) (now : Instant) (key : κ) (value : α) :
    entry? (s.insert now key value).2 key = some ⟨key, value, now.add? s.lifetime⟩ := by
  rcases s.insert_cases now key value with ⟨old, -, hinsert⟩ | ⟨-, hinsert⟩
  · rw [hinsert]
    exact List.find?_cons_of_pos (decide_eq_true rfl)
  · rw [hinsert]
    exact List.find?_cons_of_pos (decide_eq_true rfl)

/-- An entry inserted at `t₀` has expired at `t` exactly if in whole nanoseconds the
time from `t₀` to `t` is the lifetime or more.  Its deadline is the exact sum of `t₀`
and the lifetime; it has none exactly if the seconds of that sum leave their range, and
then it never expires. -/
theorem insert_expires_exactly (s : Store κ α) (t₀ : Instant) (key : κ) (value : α) :
    ∃ e, entry? (s.insert t₀ key value).2 key = some e ∧ e.value = value ∧
      (∀ t, e.isExpired t = true ↔ s.lifetime.total ≤ t.total - t₀.total) ∧
      (∀ deadline, e.deadline = some deadline ↔
        deadline.total = t₀.total + s.lifetime.total) ∧
      (e.deadline = none ↔
        0x8000000000000000 ≤ (t₀.total + s.lifetime.total) / 1000000000) ∧
      (e.deadline = none → ∀ t, e.isExpired t = false ∧
        t.total - t₀.total < s.lifetime.total) := by
  refine ⟨_, s.entry?_insert t₀ key value, rfl, ?_, ?_, ?_, ?_⟩
  · intro t
    exact Entry.isExpired_iff_of_add? rfl t
  · intro deadline
    exact Instant.add?_eq_some_iff
  · rw [Instant.add?_eq_none_iff, Int.le_ediv_iff_mul_le (by decide)]
  · intro hnone t
    have hend := Instant.add?_eq_none_iff.mp hnone
    have ht := t.total_lt
    have hbefore : t.total - t₀.total < s.lifetime.total := by omega
    refine ⟨?_, hbefore⟩
    rw [Bool.eq_false_iff, ne_eq, Entry.isExpired_iff_of_add? rfl t]
    exact Int.not_le.mpr hbefore

/-! ## Four answers about a key -/

/-- Every operation that tells of the live value under a key tells the same. -/
structure Answers (s : Store κ α) (now : Instant) (key : κ) (found : Option α) : Prop where
  get : (s.get now key).1 = found
  contains : s.contains now key = found.isSome
  remove : (s.remove now key).1 = found
  insert : ∀ value, (s.insert now key value).1 = found

/-- What all of them tell is the value of the stored entry, if that is live. -/
theorem answers_live (s : Store κ α) (now : Instant) (key : κ) :
    s.Answers now key ((s.entry? key).bind (·.live? now)) := by
  cases hentry : s.entry? key with
  | none =>
      rw [Option.bind_none]
      constructor
      · rw [get_of_absent hentry]
      · rw [contains, hentry, Option.any_none, Option.isSome_none]
      · rw [remove, hentry, Option.bind_none]
      · intro value
        rw [insert_of_absent hentry]
  | some e =>
      rw [Option.bind_some]
      constructor
      · exact get_of_stored hentry now
      · rw [contains, hentry, Option.any_some, e.isSome_live?]
      · rw [remove, hentry, Option.bind_some]
      · intro value
        rw [insert_of_stored hentry]

end Store

namespace StoreSession

variable [DecidableEq κ]

/-- Time passes without a change to the store. -/
theorem run_advances (s : StoreSession κ α) (pauses : List Span) :
    (s.run (pauses.map .advance)).store = s.store ∧ s.now ≤ (s.run (pauses.map .advance)).now := by
  induction pauses generalizing s with
  | nil => exact ⟨rfl, le_refl s.now⟩
  | cons pause rest ih =>
      obtain ⟨hstore, hnow⟩ := ih ⟨s.now.advance pause, s.store⟩
      exact ⟨hstore, le_trans (s.now.le_advance pause) hnow⟩

/-- In every state and at every instant the lookup of a key, the test for it, its removal
and its insertion tell the same about the value under it.  After an insertion, with time
passing and nothing else, they all tell of the inserted value before its lifetime has
passed in exact nanoseconds, and of none from then on.  So they always tell of it if the
end of its lifetime is past the last instant, and never if the lifetime is zero. -/
theorem step_answers_agree (s : StoreSession κ α) (key : κ) :
    (∀ now, s.store.Answers now key (s.store.get now key).1) ∧
      ∀ (value : α) (pauses : List Span),
        let later := (s.step (.insert key value)).2.run (pauses.map .advance)
        let stays := later.now.total < s.now.total + s.store.lifetime.total
        later.store.Answers later.now key (if stays then some value else none) ∧
          (s.now.add? s.store.lifetime = none →
            later.store.Answers later.now key (some value)) ∧
          (s.store.lifetime.total = 0 → later.store.Answers later.now key none) := by
  constructor
  · intro now
    have hlive := s.store.answers_live now key
    rwa [← hlive.get] at hlive
  · intro value pauses later stays
    obtain ⟨hstore, hnow⟩ := (s.step (.insert key value)).2.run_advances pauses
    have hentry : later.store.entry? key = some ⟨key, value, s.now.add? s.store.lifetime⟩ := by
      rw [hstore]
      exact s.store.entry?_insert s.now key value
    have hanswers := later.store.answers_live later.now key
    rw [hentry, Option.bind_some, Entry.live?_of_add? rfl] at hanswers
    refine ⟨hanswers, ?_, ?_⟩
    · intro hnone
      have hend := Instant.add?_eq_none_iff.mp hnone
      have hlater := later.now.total_lt
      rwa [if_pos (by omega)] at hanswers
    · intro hzero
      have hle := (Instant.le_iff_total_le _ _).mp hnow
      rwa [if_neg (by change s.now.total ≤ later.now.total at hle; omega)] at hanswers

end StoreSession

end RecordKit
