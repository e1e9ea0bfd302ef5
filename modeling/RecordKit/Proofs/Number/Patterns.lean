import Mathlib.Algebra.Order.Ring.Nat
import RecordKit.Number.Binary

/-!
# Bit patterns as significands and places

A finite magnitude is a significand and the number of places of its last bit above the
least one.  The two are determined by the pattern: a significand is full, or its last
bit has the least place (`BinaryFormat.Canonical`).  A pattern is a magnitude with a sign
(`BinaryFormat.decode_withSign`), and `BinaryFormat.readMagnitude_cases` lists what a
magnitude can stand for.
-/

namespace RecordKit

namespace BinaryFormat

variable {f : BinaryFormat} {q k : Nat}

theorem fractionSize_pos (f : BinaryFormat) : 0 < f.fractionSize :=
  Nat.two_pow_pos _

theorem signBit_eq (f : BinaryFormat) : f.signBit = f.fractionSize * Nat.pow 2 f.exponentBits :=
  Nat.pow_add 2 _ _

theorem signBit_pos (f : BinaryFormat) : 0 < f.signBit :=
  Nat.two_pow_pos _

theorem fractionSize_dvd_signBit (f : BinaryFormat) : f.fractionSize ∣ f.signBit :=
  ⟨_, f.signBit_eq⟩

theorem infinity_add_fractionSize (f : BinaryFormat) :
    f.infinity + f.fractionSize = f.signBit := by
  have hpos : 0 < Nat.pow 2 f.exponentBits := Nat.two_pow_pos _
  rw [infinity, signBit_eq, ← Nat.succ_mul, Nat.mul_comm]
  congr 1
  omega

theorem infinity_lt_signBit (f : BinaryFormat) : f.infinity < f.signBit := by
  have hsum := f.infinity_add_fractionSize
  have hpos := f.fractionSize_pos
  omega

/-! ## Signs -/

theorem withSign_mod {magnitude : Nat} (h : magnitude < f.signBit) (negative : Bool) :
    f.withSign negative magnitude % f.signBit = magnitude := by
  cases negative with
  | true => exact (Nat.add_mod_left _ _).trans (Nat.mod_eq_of_lt h)
  | false => exact Nat.mod_eq_of_lt h

theorem withSign_div_mod {magnitude : Nat} (h : magnitude < f.signBit) (negative : Bool) :
    (f.withSign negative magnitude / f.signBit % 2 == 1) = negative := by
  cases negative with
  | true =>
      have hdiv : (f.signBit + magnitude) / f.signBit = 1 := by
        rw [Nat.add_div_left _ f.signBit_pos, Nat.div_eq_of_lt h]
      simp [withSign, hdiv]
  | false => simp [withSign, Nat.div_eq_of_lt h]

theorem withSign_lt {magnitude : Nat} (h : magnitude < f.signBit) (negative : Bool) :
    f.withSign negative magnitude < 2 * f.signBit := by
  unfold withSign
  split <;> omega

/-- A pattern is a magnitude with a sign. -/
theorem exists_withSign {pattern : Nat} (h : pattern < 2 * f.signBit) :
    ∃ negative magnitude, magnitude < f.signBit ∧ pattern = f.withSign negative magnitude := by
  by_cases hsign : pattern < f.signBit
  · exact ⟨false, pattern, hsign, rfl⟩
  · refine ⟨true, pattern - f.signBit, by omega, ?_⟩
    simp only [withSign, if_true]
    omega

/-! ## Magnitudes -/

/-- The meaning of a magnitude by its two fields. -/
def readMagnitude (f : BinaryFormat) (negative : Bool) (magnitude : Nat) : Reading :=
  let field := magnitude / f.fractionSize
  let fraction := magnitude % f.fractionSize
  if field = Nat.pow 2 f.exponentBits - 1 then
    if fraction = 0 then .infinite negative else .nan
  else if field = 0 then .finite negative fraction f.leastExponent
  else .finite negative (f.fractionSize + fraction) (f.leastExponent + field - 1)

theorem decode_withSign {magnitude : Nat} (h : magnitude < f.signBit) (negative : Bool) :
    f.decode (f.withSign negative magnitude) = f.readMagnitude negative magnitude := by
  have hfraction : f.withSign negative magnitude % f.fractionSize = magnitude % f.fractionSize := by
    rw [← Nat.mod_mod_of_dvd _ f.fractionSize_dvd_signBit, withSign_mod h]
  simp only [decode, readMagnitude, withSign_mod h, withSign_div_mod h, hfraction]

/-- A significand with its last bit `k` places above the least one, as a pattern of the
format has it. -/
structure Canonical (f : BinaryFormat) (q k : Nat) : Prop where
  lt : q < 2 * f.fractionSize
  full : k = 0 ∨ f.fractionSize ≤ q
  finite : q + k * f.fractionSize < f.infinity

theorem Canonical.lt_signBit (h : f.Canonical q k) : q + k * f.fractionSize < f.signBit :=
  h.finite.trans f.infinity_lt_signBit

theorem Canonical.readMagnitude_eq (h : f.Canonical q k) (negative : Bool) :
    f.readMagnitude negative (q + k * f.fractionSize) = .finite negative q (f.leastExponent + k) := by
  have hpos := f.fractionSize_pos
  have hfield : (q + k * f.fractionSize) / f.fractionSize < Nat.pow 2 f.exponentBits - 1 :=
    (Nat.div_lt_iff_lt_mul hpos).mpr h.finite
  unfold readMagnitude
  by_cases hshort : q < f.fractionSize
  · obtain rfl : k = 0 := h.full.resolve_right (Nat.not_le.mpr hshort)
    rw [Nat.zero_mul, Nat.add_zero] at hfield ⊢
    rw [Nat.div_eq_of_lt hshort] at hfield
    simp only [Nat.div_eq_of_lt hshort, Nat.mod_eq_of_lt hshort, Nat.ne_of_lt hfield, if_false,
      if_true, Int.natCast_zero, Int.add_zero]
  · -- A full significand has its leading bit in the exponent field.
    have hsplit : q + k * f.fractionSize = q - f.fractionSize + (k + 1) * f.fractionSize := by
      rw [Nat.succ_mul]
      omega
    have hrest : q - f.fractionSize < f.fractionSize := by
      have := h.lt
      omega
    have hdiv : (q + k * f.fractionSize) / f.fractionSize = k + 1 := by
      rw [hsplit, Nat.add_mul_div_right _ _ hpos, Nat.div_eq_of_lt hrest, Nat.zero_add]
    have hmod : (q + k * f.fractionSize) % f.fractionSize = q - f.fractionSize := by
      rw [hsplit, Nat.add_mul_mod_self_right, Nat.mod_eq_of_lt hrest]
    rw [hdiv] at hfield
    simp only [hdiv, hmod, Nat.ne_of_lt hfield, if_false, Nat.succ_ne_zero]
    congr 1
    · omega
    · push_cast
      omega

/-- What a magnitude can stand for. -/
theorem readMagnitude_cases {magnitude : Nat} (h : magnitude < f.signBit) (negative : Bool) :
    f.readMagnitude negative magnitude = .nan ∨
      (f.readMagnitude negative magnitude = .infinite negative ∧ magnitude = f.infinity) ∨
      ∃ q k, f.Canonical q k ∧ magnitude = q + k * f.fractionSize := by
  have hpos := f.fractionSize_pos
  have hparts := Nat.div_add_mod' magnitude f.fractionSize
  have hfraction := Nat.mod_lt magnitude hpos
  by_cases hfield : magnitude / f.fractionSize = Nat.pow 2 f.exponentBits - 1
  · unfold readMagnitude
    by_cases hzero : magnitude % f.fractionSize = 0
    · refine Or.inr (Or.inl ⟨by simp only [hfield, hzero, if_true], ?_⟩)
      rw [← hparts, hfield, hzero]
      rfl
    · exact Or.inl (by simp only [hfield, hzero, if_true, if_false])
  · have hfinite : magnitude < f.infinity := by
      have hle : magnitude / f.fractionSize < Nat.pow 2 f.exponentBits := by
        rw [Nat.div_lt_iff_lt_mul hpos, Nat.mul_comm, ← signBit_eq]
        exact h
      exact (Nat.div_lt_iff_lt_mul hpos).mp (by omega)
    refine Or.inr (Or.inr ?_)
    cases hfieldValue : magnitude / f.fractionSize with
    | zero =>
        have hsmall : magnitude < f.fractionSize := by
          rw [hfieldValue] at hparts
          omega
        exact ⟨magnitude, 0, ⟨by omega, Or.inl rfl, by omega⟩, by omega⟩
    | succ k =>
        rw [hfieldValue, Nat.succ_mul] at hparts
        have hsum : magnitude = f.fractionSize + magnitude % f.fractionSize + k * f.fractionSize := by
          omega
        refine ⟨f.fractionSize + magnitude % f.fractionSize, k, ⟨by omega, Or.inr (by omega), ?_⟩, hsum⟩
        rwa [← hsum]

theorem readMagnitude_infinity (f : BinaryFormat) (negative : Bool) :
    f.readMagnitude negative f.infinity = .infinite negative := by
  have hdiv : f.infinity / f.fractionSize = Nat.pow 2 f.exponentBits - 1 :=
    Nat.mul_div_cancel _ f.fractionSize_pos
  have hmod : f.infinity % f.fractionSize = 0 := Nat.mul_mod_left _ _
  simp only [readMagnitude, hdiv, hmod, if_true]

/-- With two bits of significand or more there is a pattern that is no number. -/
theorem decode_nan (h : 2 ≤ f.precision) : f.decode f.nan = .nan := by
  have hpos := f.fractionSize_pos
  have htwo : 2 ≤ f.fractionSize := Nat.le_self_pow (by omega) 2
  have hfraction : f.fractionSize / 2 < f.fractionSize := Nat.div_lt_self hpos (by decide)
  have hdiv : f.nan / f.fractionSize = Nat.pow 2 f.exponentBits - 1 := by
    rw [nan, infinity, Nat.add_comm, Nat.add_mul_div_right _ _ hpos, Nat.div_eq_of_lt hfraction,
      Nat.zero_add]
  have hmod : f.nan % f.fractionSize = f.fractionSize / 2 := by
    rw [nan, infinity, Nat.add_comm, Nat.add_mul_mod_self_right, Nat.mod_eq_of_lt hfraction]
  have hlt : f.nan < f.signBit := by
    have hsum := f.infinity_add_fractionSize
    unfold nan
    omega
  change f.decode (f.withSign false f.nan) = .nan
  have hzero : f.fractionSize / 2 ≠ 0 := by omega
  rw [decode_withSign hlt]
  simp only [readMagnitude, hdiv, hmod, if_true, hzero, if_false]

/-- A conversion gives a pattern of the format. -/
theorem encode_lt (f : BinaryFormat) (r : Reading) : f.encode r < 2 * f.signBit := by
  have hsum := f.infinity_add_fractionSize
  cases r with
  | nan =>
      have hle := Nat.div_le_self f.fractionSize 2
      have hpos := f.signBit_pos
      simp only [encode, nan]
      omega
  | infinite negative => exact withSign_lt f.infinity_lt_signBit negative
  | finite negative significand exponent =>
      have hle : f.nearestScaled significand exponent ≤ f.infinity := by
        unfold nearestScaled nearest
        split
        · exact Nat.zero_le _
        · exact Nat.min_le_left _ _
      exact withSign_lt (Nat.lt_of_le_of_lt hle f.infinity_lt_signBit) negative

end BinaryFormat

end RecordKit
