import Mathlib.Order.Defs.LinearOrder
import RecordKit.Time.Instant

/-!
# The order of instants

Instants are compared by their seconds and then by their nanoseconds.  This is
the order of the nanoseconds that they stand for, so it is linear, and a clock
that advances never goes back.  Adding a span to an instant is exact addition of
nanoseconds; there is no sum exactly when the exact one is beyond all instants
(`Instant.add?_eq_some_iff`, `Instant.add?_eq_none_iff`).
-/

namespace RecordKit

/-- The nanoseconds of a span. -/
def Span.total (d : Span) : Nat :=
  d.secs * 1000000000 + d.nanos

namespace Instant

/-- The nanoseconds from the instant zero, which may be negative. -/
def total (t : Instant) : Int :=
  t.secs * 1000000000 + t.nanos

theorem nanos_lt_billion (t : Instant) : t.nanos < 1000000000 :=
  t.nanos_lt

theorem le_iff_total_le (t u : Instant) : t ≤ u ↔ t.total ≤ u.total := by
  have ht := t.nanos_lt_billion
  have hu := u.nanos_lt_billion
  change t.secs < u.secs ∨ t.secs = u.secs ∧ t.nanos ≤ u.nanos ↔ _
  unfold total
  omega

theorem total_injective {t u : Instant} (h : t.total = u.total) : t = u := by
  have ht := t.nanos_lt_billion
  have hu := u.nanos_lt_billion
  unfold total at h
  have hsecs : t.secs = u.secs := by omega
  have hnanos : t.nanos = u.nanos := by omega
  exact Instant.ext hsecs hnanos

/-- The strict order compares in the same way. -/
def lt (t u : Instant) : Prop :=
  t.secs < u.secs ∨ t.secs = u.secs ∧ t.nanos < u.nanos

instance : LT Instant := ⟨lt⟩

instance (t u : Instant) : Decidable (t < u) :=
  inferInstanceAs (Decidable (_ ∨ _))

theorem lt_iff_total_lt (t u : Instant) : t < u ↔ t.total < u.total := by
  have ht := t.nanos_lt_billion
  have hu := u.nanos_lt_billion
  change t.secs < u.secs ∨ t.secs = u.secs ∧ t.nanos < u.nanos ↔ _
  unfold total
  omega

instance : LinearOrder Instant where
  le_refl t := (le_iff_total_le t t).mpr (Int.le_refl _)
  le_trans t u v := by
    simp only [le_iff_total_le]
    exact Int.le_trans
  lt_iff_le_not_ge t u := by
    simp only [le_iff_total_le, lt_iff_total_lt]
    exact Int.lt_iff_le_and_not_ge
  le_antisymm t u := by
    simp only [le_iff_total_le]
    intro htu hut
    exact total_injective (Int.le_antisymm htu hut)
  le_total t u := by
    simp only [le_iff_total_le]
    exact Int.le_total _ _
  toDecidableLE := inferInstance
  toDecidableLT := inferInstance

/-! ## Sums -/

/-- The instant after a span is later by exactly that span. -/
theorem total_add? {t u : Instant} {d : Span} (h : t.add? d = some u) :
    u.total = t.total + d.total := by
  simp only [add?] at h
  -- First the carry, then whether the seconds stay in range.
  by_cases hcarry : nanosPerSec ≤ t.nanos + d.nanos
  all_goals
    simp only [hcarry, if_true, if_false] at h
    split at h
    · cases h
      simp only [total, Span.total, nanosPerSec] at hcarry ⊢
      omega
    · cases h

theorem total_lt (t : Instant) : t.total < 0x8000000000000000 * 1000000000 := by
  have hsecs := t.secs_lt
  have hnanos := t.nanos_lt_billion
  unfold total
  omega

/-- There is no sum exactly when the exact one is past the last instant.  The carry
alone can bring it there. -/
theorem add?_eq_none_iff {t : Instant} {d : Span} :
    t.add? d = none ↔ 0x8000000000000000 * 1000000000 ≤ t.total + d.total := by
  have ht := t.nanos_lt_billion
  have hd := d.nanos_lt
  constructor
  · intro h
    simp only [add?] at h
    by_cases hcarry : nanosPerSec ≤ t.nanos + d.nanos
    all_goals
      simp only [hcarry, if_true, if_false] at h
      split at h
      · cases h
      · simp only [total, Span.total, nanosPerSec] at *
        omega
  · intro h
    rw [Option.eq_none_iff_forall_ne_some]
    intro u hu
    have hlt := u.total_lt
    rw [total_add? hu] at hlt
    omega

theorem add?_eq_some_iff {t u : Instant} {d : Span} :
    t.add? d = some u ↔ u.total = t.total + d.total := by
  constructor
  · exact total_add?
  · intro h
    cases hsum : t.add? d with
    | none =>
        have hlt := u.total_lt
        have hge := add?_eq_none_iff.mp hsum
        omega
    | some v => rw [total_injective ((total_add? hsum).trans h.symm)]

theorem le_of_add? {t u : Instant} {d : Span} (h : t.add? d = some u) : t ≤ u := by
  have htotal := total_add? h
  rw [le_iff_total_le]
  omega

theorem le_advance (t : Instant) (d : Span) : t ≤ t.advance d := by
  unfold advance
  cases h : t.add? d with
  | none => exact le_refl t
  | some u => exact le_of_add? h

end Instant

end RecordKit
