import Mathlib.Algebra.Order.Field.Power
import Mathlib.Data.Int.Log
import Mathlib.Data.Rat.Floor
import Mathlib.Tactic.Positivity
import Mathlib.Tactic.Ring
import RecordKit.Proofs.Number.Patterns

/-!
# Rounding what needs no rounding

The pattern nearest to a value of a format is the pattern of that value
(`BinaryFormat.Canonical.nearest_eq`).  So a conversion into a format that has every
value of another one is exact, and the way back gives the same pattern again, up to the
patterns that are no number (`BinaryFormat.convert_convert`).
-/

namespace RecordKit

namespace BinaryFormat

variable {f g : BinaryFormat} {q k num den : Nat}

/-! ## Powers of two -/

/-- An exponent is split into powers of its positive and of its negative part. -/
theorem two_zpow_mul (e : Int) : (2 : ℚ) ^ e * 2 ^ (-e).toNat = 2 ^ e.toNat := by
  rw [← zpow_natCast, ← zpow_natCast, ← zpow_add₀ (by norm_num)]
  congr 1
  omega

theorem fractionSize_cast (f : BinaryFormat) :
    (f.fractionSize : ℚ) = 2 ^ ((f.precision - 1 : Nat) : Int) := by
  rw [zpow_natCast]
  exact_mod_cast rfl

/-- The length of a number is the integer part of its logarithm, so the logarithm of a
quotient is below the difference of the lengths and one. -/
theorem log_div_lt (hnum : 0 < num) (hden : 0 < den) :
    Int.log 2 ((num : ℚ) / den) < (num.log2 : Int) - den.log2 + 1 := by
  have hdenQ : (0 : ℚ) < den := Nat.cast_pos.mpr hden
  have hpos : (0 : ℚ) < num / den := div_pos (Nat.cast_pos.mpr hnum) hdenQ
  rw [← Int.lt_zpow_iff_log_lt (by decide) hpos, div_lt_iff₀ hdenQ, Nat.cast_ofNat]
  calc
    (num : ℚ) < 2 ^ (num.log2 + 1) := by exact_mod_cast Nat.lt_log2_self
    _ = 2 ^ ((num.log2 : Int) - den.log2 + 1) * 2 ^ den.log2 := by
      rw [← zpow_natCast, ← zpow_natCast, ← zpow_add₀ (by norm_num)]
      congr 1
      omega
    _ ≤ 2 ^ ((num.log2 : Int) - den.log2 + 1) * den := by
      refine mul_le_mul_of_nonneg_left ?_ (by positivity)
      exact_mod_cast Nat.log2_self_le (Nat.ne_of_gt hden)

/-- It is not below that difference less one. -/
theorem le_log_div (hnum : 0 < num) (hden : 0 < den) :
    (num.log2 : Int) - den.log2 - 1 ≤ Int.log 2 ((num : ℚ) / den) := by
  have hdenQ : (0 : ℚ) < den := Nat.cast_pos.mpr hden
  have hpos : (0 : ℚ) < num / den := div_pos (Nat.cast_pos.mpr hnum) hdenQ
  rw [← Int.zpow_le_iff_le_log (by decide) hpos, le_div_iff₀ hdenQ, Nat.cast_ofNat]
  calc
    (2 : ℚ) ^ ((num.log2 : Int) - den.log2 - 1) * den ≤
        2 ^ ((num.log2 : Int) - den.log2 - 1) * 2 ^ (den.log2 + 1) := by
      refine mul_le_mul_of_nonneg_left ?_ (by positivity)
      exact_mod_cast Nat.le_of_lt Nat.lt_log2_self
    _ = 2 ^ num.log2 := by
      rw [← zpow_natCast, ← zpow_natCast, ← zpow_add₀ (by norm_num)]
      congr 1
      omega
    _ ≤ num := by exact_mod_cast Nat.log2_self_le (Nat.ne_of_gt hnum)

/-- A quotient is compared with a power of two in whole numbers. -/
theorem mul_two_pow_le_iff (hnum : 0 < num) (hden : 0 < den) (k : Int) :
    den * Nat.pow 2 k.toNat ≤ num * Nat.pow 2 (-k).toNat ↔ k ≤ Int.log 2 ((num : ℚ) / den) := by
  have hdenQ : (0 : ℚ) < den := Nat.cast_pos.mpr hden
  have hpos : (0 : ℚ) < num / den := div_pos (Nat.cast_pos.mpr hnum) hdenQ
  have hscale : (0 : ℚ) < 2 ^ (-k).toNat := by positivity
  have hsides : (2 : ℚ) ^ k * den * 2 ^ (-k).toNat = den * 2 ^ k.toNat := by
    rw [mul_right_comm, two_zpow_mul, mul_comm]
  rw [← Int.zpow_le_iff_le_log (by decide) hpos, le_div_iff₀ hdenQ, Nat.cast_ofNat,
    ← mul_le_mul_iff_of_pos_right hscale, hsides]
  exact_mod_cast Iff.rfl

/-- The integer logarithm of a quotient is read off the lengths of its two parts and one
comparison. -/
theorem floorLog2_eq_log (hnum : 0 < num) (hden : 0 < den) :
    floorLog2 num den = Int.log 2 ((num : ℚ) / den) := by
  have hlower := le_log_div hnum hden
  have hupper := log_div_lt hnum hden
  have htest := mul_two_pow_le_iff hnum hden ((num.log2 : Int) - den.log2)
  simp only [floorLog2]
  split
  · next hle =>
      have hk := htest.mp hle
      omega
  · next hgt =>
      have hk := mt htest.mpr hgt
      omega

theorem roundHalfEven_mul (n : Nat) {d : Nat} (hd : 0 < d) : roundHalfEven (n * d) d = n := by
  unfold roundHalfEven
  simp [Nat.mul_div_cancel _ hd, hd]

/-! ## Values of a format -/

/-- The place at which a value of the format is rounded is its own. -/
theorem Canonical.place_eq (h : f.Canonical q k) (hnum : 0 < num) (hden : 0 < den)
    (hvalue : (num : ℚ) / den = q * 2 ^ (f.leastExponent + k)) :
    max f.leastExponent (floorLog2 num den - (f.precision - 1 : Nat)) = f.leastExponent + k := by
  have hpos : (0 : ℚ) < num / den := div_pos (Nat.cast_pos.mpr hnum) (Nat.cast_pos.mpr hden)
  have hscale : (0 : ℚ) < 2 ^ (f.leastExponent + k) := by positivity
  rw [floorLog2_eq_log hnum hden]
  have hupper : Int.log 2 ((num : ℚ) / den) < f.leastExponent + k + (f.precision - 1 : Nat) + 1 := by
    rw [← Int.lt_zpow_iff_log_lt (by decide) hpos, hvalue, Nat.cast_ofNat]
    calc
      (q : ℚ) * 2 ^ (f.leastExponent + k) < 2 * f.fractionSize * 2 ^ (f.leastExponent + k) :=
        mul_lt_mul_of_pos_right (by exact_mod_cast h.lt) hscale
      _ = 2 ^ (f.leastExponent + k + (f.precision - 1 : Nat) + 1) := by
        rw [fractionSize_cast, zpow_add_one₀ (by norm_num),
          zpow_add₀ (by norm_num) (f.leastExponent + k)]
        ring
  rcases h.full with rfl | hfull
  · rw [Int.natCast_zero, Int.add_zero] at *
    omega
  · have hlower : f.leastExponent + k + (f.precision - 1 : Nat) ≤ Int.log 2 ((num : ℚ) / den) := by
      rw [← Int.zpow_le_iff_le_log (by decide) hpos, hvalue, Nat.cast_ofNat]
      calc
        (2 : ℚ) ^ (f.leastExponent + k + (f.precision - 1 : Nat)) =
            f.fractionSize * 2 ^ (f.leastExponent + k) := by
          rw [fractionSize_cast, zpow_add₀ (by norm_num) (f.leastExponent + k), mul_comm]
        _ ≤ q * 2 ^ (f.leastExponent + k) :=
          mul_le_mul_of_nonneg_right (by exact_mod_cast hfull) hscale.le
    omega

/-- A value of the format is its own nearest one. -/
theorem Canonical.nearest_eq (h : f.Canonical q k) (hden : 0 < den)
    (hvalue : (num : ℚ) / den = q * 2 ^ (f.leastExponent + k)) :
    f.nearest num den = q + k * f.fractionSize := by
  have hdenQ : (den : ℚ) ≠ 0 := Nat.cast_ne_zero.mpr (Nat.ne_of_gt hden)
  rcases Nat.eq_zero_or_pos num with rfl | hnum
  · -- Zero has the least place.
    have hzero : q = 0 := by
      have hscale : (2 : ℚ) ^ (f.leastExponent + k) ≠ 0 := by positivity
      rw [Nat.cast_zero, zero_div, eq_comm, mul_eq_zero] at hvalue
      exact_mod_cast hvalue.resolve_right hscale
    have hpos := f.fractionSize_pos
    obtain rfl : k = 0 := h.full.resolve_right (by omega)
    simp [nearest, hzero]
  · let e := f.leastExponent + k
    have hsides : num * Nat.pow 2 (-e).toNat = q * (den * Nat.pow 2 e.toNat) := by
      have hcast : (num : ℚ) * 2 ^ (-e).toNat = q * (den * 2 ^ e.toNat) := by
        rw [div_eq_iff hdenQ] at hvalue
        rw [hvalue, ← two_zpow_mul e]
        ring
      exact_mod_cast hcast
    have hdenPos : 0 < den * Nat.pow 2 e.toNat := Nat.mul_pos hden (Nat.two_pow_pos _)
    have hround : roundHalfEven (num * Nat.pow 2 (-e).toNat) (den * Nat.pow 2 e.toNat) = q := by
      rw [hsides, roundHalfEven_mul q hdenPos]
    have hplaces : (e - f.leastExponent).toNat = k := by
      simp only [e]
      omega
    simp only [nearest, Nat.ne_of_gt hnum, if_false, h.place_eq hnum hden hvalue]
    rw [hround, hplaces]
    exact Nat.min_eq_right h.finite.le

/-- A shorter significand is moved up to a full one, or to the least place. -/
theorem exists_canonical {s j : Nat} (hs : s < 2 * f.fractionSize)
    (hj : (j + 2) * f.fractionSize ≤ f.infinity) :
    ∃ q k, f.Canonical q k ∧ q * 2 ^ k = s * 2 ^ j := by
  induction j generalizing s with
  | zero => exact ⟨s, 0, ⟨hs, Or.inl rfl, by omega⟩, rfl⟩
  | succ j ih =>
      rw [Nat.succ_add, Nat.succ_mul] at hj
      by_cases hfull : f.fractionSize ≤ s
      · refine ⟨s, j + 1, ⟨hs, Or.inr hfull, ?_⟩, rfl⟩
        rw [Nat.succ_mul]
        rw [Nat.add_mul] at hj
        omega
      · obtain ⟨q, k, hcanonical, hvalue⟩ := ih (s := 2 * s) (by omega) (by omega)
        refine ⟨q, k, hcanonical, ?_⟩
        rw [hvalue, Nat.pow_succ]
        ring

/-! ## Conversions there and back -/

/-- Every value of `f` is a value of `g`. -/
structure Embeds (f g : BinaryFormat) : Prop where
  precision : f.precision ≤ g.precision
  least : g.leastExponent ≤ f.leastExponent
  greatest : f.leastExponent + Nat.pow 2 f.exponentBits ≤ g.leastExponent + Nat.pow 2 g.exponentBits
  exponents : 3 ≤ Nat.pow 2 f.exponentBits
  notNumbers : 2 ≤ g.precision

theorem Canonical.nearestScaled_eq (h : f.Canonical q k) {s : Nat} {e : Int}
    (hvalue : (q : ℚ) * 2 ^ (f.leastExponent + k) = s * 2 ^ e) :
    f.nearestScaled s e = q + k * f.fractionSize := by
  have hden : ((Nat.pow 2 (-e).toNat : Nat) : ℚ) = 2 ^ (-e).toNat := by exact_mod_cast rfl
  refine h.nearest_eq (Nat.two_pow_pos _) ?_
  rw [hvalue, hden, div_eq_iff (by positivity), mul_assoc, two_zpow_mul]
  exact_mod_cast rfl

theorem Canonical.place_le (h : f.Canonical q k) (hexponents : 3 ≤ Nat.pow 2 f.exponentBits) :
    k + 3 ≤ Nat.pow 2 f.exponentBits := by
  rcases h.full with rfl | hfull
  · exact hexponents
  · have hfinite : (k + 1) * f.fractionSize < (Nat.pow 2 f.exponentBits - 1) * f.fractionSize := by
      refine lt_of_le_of_lt ?_ h.finite
      rw [Nat.succ_mul]
      omega
    have hlt := Nat.lt_of_mul_lt_mul_right hfinite
    omega

/-- A value of `f` in the form in which `g` has it. -/
theorem Embeds.exists_canonical (h : f.Embeds g) (hq : f.Canonical q k) :
    ∃ q' k', g.Canonical q' k' ∧
      (q' : ℚ) * 2 ^ (g.leastExponent + k') = q * 2 ^ (f.leastExponent + k) := by
  have hsize : f.fractionSize ≤ g.fractionSize := by
    have hprecision := h.precision
    exact Nat.pow_le_pow_right (by decide) (by omega)
  obtain ⟨j, hj⟩ : ∃ j : Nat, f.leastExponent + k = g.leastExponent + j := by
    have hleast := h.least
    exact ⟨(f.leastExponent + k - g.leastExponent).toNat, by omega⟩
  have hplaces : (j + 2) * g.fractionSize ≤ g.infinity := by
    have hk := hq.place_le h.exponents
    have hgreatest := h.greatest
    exact Nat.mul_le_mul_right _ (by omega)
  have hshort : q < 2 * g.fractionSize := by
    have hlt := hq.lt
    omega
  obtain ⟨q', k', hcanonical, hvalue⟩ := BinaryFormat.exists_canonical hshort hplaces
  refine ⟨q', k', hcanonical, ?_⟩
  have hcast : (q' : ℚ) * 2 ^ k' = q * 2 ^ j := by exact_mod_cast hvalue
  rw [hj, zpow_add₀ (by norm_num), zpow_add₀ (by norm_num), zpow_natCast, zpow_natCast]
  calc
    (q' : ℚ) * (2 ^ g.leastExponent * 2 ^ k') = q' * 2 ^ k' * 2 ^ g.leastExponent := by ring
    _ = q * 2 ^ j * 2 ^ g.leastExponent := by rw [hcast]
    _ = q * (2 ^ g.leastExponent * 2 ^ j) := by ring

/-- A pattern that is converted into a format with all values of its own comes back, but
for those that are no number, which come back as one. -/
theorem convert_convert (h : f.Embeds g) {pattern : Nat} (hpattern : pattern < 2 * f.signBit) :
    g.convert f (f.convert g pattern) = if f.decode pattern = .nan then f.nan else pattern := by
  obtain ⟨negative, magnitude, hlt, rfl⟩ := exists_withSign hpattern
  unfold convert
  rw [decode_withSign hlt]
  rcases readMagnitude_cases hlt negative with hnan | ⟨hinfinite, rfl⟩ | ⟨q, k, hq, rfl⟩
  · rw [hnan, if_pos rfl, encode, decode_nan h.notNumbers, encode]
  · have hnumber : Reading.infinite negative ≠ .nan := by simp
    rw [hinfinite, if_neg hnumber, encode, decode_withSign g.infinity_lt_signBit,
      readMagnitude_infinity, encode]
  · obtain ⟨q', k', hq', hvalue⟩ := h.exists_canonical hq
    have hnumber : Reading.finite negative q (f.leastExponent + k) ≠ .nan := by simp
    rw [hq.readMagnitude_eq, if_neg hnumber, encode, hq'.nearestScaled_eq hvalue,
      decode_withSign hq'.lt_signBit, hq'.readMagnitude_eq, encode,
      hq.nearestScaled_eq hvalue.symm]

end BinaryFormat

/-! ## The two formats -/

theorem binary32_embeds_binary64 : binary32.Embeds binary64 := by
  constructor <;> decide

theorem toNat_widen (bits : UInt32) :
    (widen bits).toNat = binary32.convert binary64 bits.toNat := by
  have hlt : binary32.convert binary64 bits.toNat < 2 * binary64.signBit :=
    binary64.encode_lt _
  exact Nat.mod_eq_of_lt hlt

/-- A 32-bit pattern comes back from 64 bits, but for those that are no number, which come
back as one. -/
theorem narrow_widen (bits : UInt32) :
    narrow (widen bits) =
      if binary32.decode bits.toNat = .nan then binary32.nan.toUInt32 else bits := by
  have hlt : bits.toNat < 2 * binary32.signBit := bits.toNat_lt
  rw [narrow, toNat_widen, BinaryFormat.convert_convert binary32_embeds_binary64 hlt]
  split
  · rfl
  · exact UInt32.ofNat_toNat

end RecordKit
