import RecordKit.Proofs.Number.Nearest
import RecordKit.Proofs.Number.Values

/-!
# Cutting numbers off toward zero

The integer of a reading is its value without the fraction, moved into the range of the type
(`BinaryFormat.toInt_decode`).  Both steps keep the order of numbers and infinities
(`IntType.cut_mono`), and an integer of the range is its own.
-/

namespace RecordKit

/-- A number without its fraction. -/
def towardZero (x : ℚ) : Int :=
  if 0 ≤ x then ⌊x⌋ else ⌈x⌉

theorem towardZero_intCast (n : Int) : towardZero n = n := by
  unfold towardZero
  split
  · exact Int.floor_intCast n
  · exact Int.ceil_intCast n

theorem towardZero_neg (x : ℚ) : towardZero (-x) = -towardZero x := by
  unfold towardZero
  rcases lt_trichotomy x 0 with hx | rfl | hx
  · rw [if_pos (neg_nonneg.mpr hx.le), if_neg (not_le.mpr hx), Int.floor_neg]
  · simp
  · rw [if_neg (not_le.mpr (neg_lt_zero.mpr hx)), if_pos hx.le, Int.ceil_neg]

theorem towardZero_mono {x y : ℚ} (hxy : x ≤ y) : towardZero x ≤ towardZero y := by
  unfold towardZero
  split
  · next hx =>
      rw [if_pos (hx.trans hxy)]
      exact Int.floor_mono hxy
  · next hx =>
      split
      · next hy =>
          calc
            ⌈x⌉ ≤ 0 := Int.ceil_le.mpr (by simpa using (not_le.mp hx).le)
            _ ≤ ⌊y⌋ := Int.floor_nonneg.mpr hy
      · exact Int.ceil_mono hxy

namespace IntType

variable {t : IntType} {n : Int}

/-- The value of the type for a number or an infinity: cut off toward zero, then moved to the
nearest number of the range. -/
def cut (t : IntType) : ExtendedRat → Int
  | ⊥ => t.least
  | ⊤ => t.greatest
  | .finite x => t.clamp (towardZero x)

theorem least_le_greatest (t : IntType) : t.least ≤ t.greatest := by
  have hpos := t.modulus_pos
  unfold greatest
  omega

theorem clamp_of_holds (h : t.Holds n) : t.clamp n = n := by
  rw [clamp, min_eq_right h.2, max_eq_right h.1]

theorem clamp_mono (t : IntType) {m : Int} (h : n ≤ m) : t.clamp n ≤ t.clamp m :=
  max_le_max_left _ (min_le_min_left _ h)

theorem clamp_holds (t : IntType) (n : Int) : t.Holds (t.clamp n) := by
  exact ⟨le_max_left _ _, max_le t.least_le_greatest (min_le_left _ _)⟩

theorem cut_holds (t : IntType) (x : ExtendedRat) : t.Holds (t.cut x) := by
  cases x using WithBot.recBotCoe with
  | bot => exact ⟨le_rfl, t.least_le_greatest⟩
  | coe x =>
      cases x using WithTop.recTopCoe with
      | top => exact ⟨t.least_le_greatest, le_rfl⟩
      | coe x => exact t.clamp_holds _

/-- An integer of the range is its own value. -/
theorem cut_intCast (h : t.Holds n) : t.cut (.finite n) = n := by
  show t.clamp (towardZero n) = n
  rw [towardZero_intCast, clamp_of_holds h]

/-- The order of numbers and infinities is kept. -/
theorem cut_mono (t : IntType) {x y : ExtendedRat} (hxy : x ≤ y) : t.cut x ≤ t.cut y := by
  cases x using WithBot.recBotCoe with
  | bot => exact (t.cut_holds y).1
  | coe x =>
      cases y using WithBot.recBotCoe with
      | bot => exact absurd hxy (by simp)
      | coe y =>
          rw [WithBot.coe_le_coe] at hxy
          cases y using WithTop.recTopCoe with
          | top => exact (t.cut_holds x).2
          | coe y =>
              cases x using WithTop.recTopCoe with
              | top => exact absurd hxy (by simp)
              | coe x => exact t.clamp_mono (towardZero_mono (WithTop.coe_le_coe.mp hxy))

end IntType

/-- The whole part of a finite reading is its number cut off toward zero. -/
theorem Reading.truncate_eq (negative : Bool) (significand : Nat) (exponent : Int) :
    truncate negative significand exponent =
      towardZero (applySign negative (significand * 2 ^ exponent)) := by
  have hnonneg : (0 : ℚ) ≤ significand * 2 ^ exponent := by positivity
  have hquotient : (significand : ℚ) * 2 ^ exponent =
      (significand * 2 ^ exponent.toNat : Nat) / (2 ^ (-exponent).toNat : Nat) := by
    have hden : (2 : ℚ) ^ (-exponent).toNat ≠ 0 := by positivity
    push_cast
    rw [eq_div_iff hden, mul_assoc, BinaryFormat.two_zpow_mul]
  have hwhole : towardZero (significand * 2 ^ exponent) =
      (significand * Nat.pow 2 exponent.toNat / Nat.pow 2 (-exponent).toNat : Nat) := by
    rw [towardZero, if_pos hnonneg, hquotient, Rat.floor_natCast_div_natCast]
    rfl
  cases negative with
  | true =>
      show -((significand * Nat.pow 2 exponent.toNat / Nat.pow 2 (-exponent).toNat : Nat) : Int) =
        towardZero (-(significand * 2 ^ exponent))
      rw [towardZero_neg, hwhole]
  | false => exact hwhole.symm

/-- The integer of a pattern is its value cut off and moved into the range.  What is no
number gives zero. -/
theorem BinaryFormat.toInt_decode {f : BinaryFormat} (hprecision : 0 < f.precision)
    (t : IntType) (pattern : Nat) :
    (f.decode pattern).toInt t = (f.value? pattern).elim 0 t.cut := by
  rw [← value?_decode hprecision]
  cases f.decode pattern with
  | nan => rfl
  | infinite negative => cases negative <;> rfl
  | finite negative significand exponent =>
      show t.clamp (Reading.truncate negative significand exponent) = t.clamp (towardZero _)
      rw [Reading.truncate_eq]

end RecordKit
