import Mathlib.Data.Rat.Floor
import Mathlib.Order.WithBot
import Mathlib.Tactic.Positivity
import Mathlib.Tactic.Ring
import RecordKit.Proofs.Number.Patterns

/-!
# Values of bit patterns

The value of a bit pattern by the formulas that define a binary format: an exponent field with
a bias, and a fraction with a leading one unless the exponent field is zero
(`BinaryFormat.value`).  Full exponent fields are infinities or no numbers, so what a
pattern can stand for is a rational number or one of two infinities (`BinaryFormat.value?`).
`BinaryFormat.value?_decode` says that decoding reads off the same, and the
lemmas on `BinaryFormat.Canonical` give the value by significand and place.
-/

namespace RecordKit

/-- A rational number or one of two infinities. -/
abbrev ExtendedRat := WithBot (WithTop ℚ)

@[match_pattern]
abbrev ExtendedRat.finite (x : ℚ) : ExtendedRat :=
  WithBot.some (WithTop.some x)

/-- A magnitude with a sign. -/
def applySign (negative : Bool) (x : ℚ) : ℚ :=
  if negative then -x else x

/-- What a reading stands for, if that is a number or an infinity. -/
def Reading.value? : Reading → Option ExtendedRat
  | .nan => none
  | .infinite negative => some (if negative then ⊥ else ⊤)
  | .finite negative significand exponent =>
      some (.finite (applySign negative (significand * 2 ^ exponent)))

namespace BinaryFormat

/-! ## The value of a pattern -/

def isNegative (f : BinaryFormat) (pattern : Nat) : Bool :=
  pattern / 2 ^ (f.precision - 1 + f.exponentBits) % 2 = 1

def exponentField (f : BinaryFormat) (pattern : Nat) : Nat :=
  pattern / 2 ^ (f.precision - 1) % 2 ^ f.exponentBits

def fractionField (f : BinaryFormat) (pattern : Nat) : Nat :=
  pattern % 2 ^ (f.precision - 1)

/-- The exponent field of numbers from one to two. -/
def bias (f : BinaryFormat) : Int :=
  2 ^ (f.exponentBits - 1) - 1

/-- The significand as a whole number, with a leading bit unless the exponent field is zero. -/
def significand (f : BinaryFormat) (pattern : Nat) : Nat :=
  if f.exponentField pattern = 0 then f.fractionField pattern
  else 2 ^ (f.precision - 1) + f.fractionField pattern

/-- The distance from zero of a pattern with a number. -/
def magnitude (f : BinaryFormat) (pattern : Nat) : ℚ :=
  if f.exponentField pattern = 0 then
    2 ^ (1 - f.bias) * (f.fractionField pattern / 2 ^ (f.precision - 1))
  else
    2 ^ (f.exponentField pattern - f.bias) * (1 + f.fractionField pattern / 2 ^ (f.precision - 1))

/-- The number of a pattern that has one. -/
def value (f : BinaryFormat) (pattern : Nat) : ℚ :=
  applySign (f.isNegative pattern) (f.magnitude pattern)

/-- A pattern of the format with a number. -/
def IsFinite (f : BinaryFormat) (pattern : Nat) : Prop :=
  pattern < 2 * f.signBit ∧ f.exponentField pattern ≠ 2 ^ f.exponentBits - 1

/-- What a pattern stands for, if that is a number or an infinity. -/
def value? (f : BinaryFormat) (pattern : Nat) : Option ExtendedRat :=
  if f.exponentField pattern = 2 ^ f.exponentBits - 1 then
    if f.fractionField pattern = 0 then some (if f.isNegative pattern then ⊥ else ⊤) else none
  else some (.finite (f.value pattern))

variable {f : BinaryFormat} {pattern q k : Nat} {negative : Bool}

/-- A pattern is decoded by its fields. -/
theorem decode_eq (f : BinaryFormat) (pattern : Nat) :
    f.decode pattern =
      if f.exponentField pattern = 2 ^ f.exponentBits - 1 then
        if f.fractionField pattern = 0 then .infinite (f.isNegative pattern) else .nan
      else
        .finite (f.isNegative pattern) (f.significand pattern)
          (f.leastExponent + (max (f.exponentField pattern) 1 : Nat) - 1) := by
  have hfield : pattern % f.signBit / f.fractionSize = f.exponentField pattern := by
    rw [signBit_eq, Nat.mod_mul_right_div_self]
    rfl
  have hfraction : pattern % f.fractionSize = f.fractionField pattern := rfl
  have hsign : (pattern / f.signBit % 2 == 1) = f.isNegative pattern := rfl
  have hpow (n : Nat) : Nat.pow 2 n = 2 ^ n := rfl
  simp only [decode, hfield, hfraction, hsign, hpow, significand]
  by_cases hfull : f.exponentField pattern = 2 ^ f.exponentBits - 1
  · simp only [hfull, if_true]
  · rw [if_neg hfull, if_neg hfull]
    by_cases hzero : f.exponentField pattern = 0
    · simp [hzero]
    · have hone : max (f.exponentField pattern) 1 = f.exponentField pattern := by omega
      simp only [hzero, if_false, hone]
      rfl

/-- The last bit of a number with exponent field one has the least place. -/
theorem leastExponent_eq (hprecision : 0 < f.precision) :
    f.leastExponent = 1 - f.bias - (f.precision - 1 : Nat) := by
  have hpow : (Nat.pow 2 (f.exponentBits - 1) : Int) = 2 ^ (f.exponentBits - 1) := by
    exact_mod_cast rfl
  simp only [leastExponent, bias, hpow]
  omega

/-- The number of a pattern is its significand times a power of two. -/
theorem value_eq (hprecision : 0 < f.precision) (pattern : Nat) :
    f.value pattern = applySign (f.isNegative pattern)
      (f.significand pattern *
        2 ^ (f.leastExponent + (max (f.exponentField pattern) 1 : Nat) - 1)) := by
  have hsize : (2 : ℚ) ^ (f.precision - 1) ≠ 0 := by positivity
  have hscale (e : Int) :
      (2 : ℚ) ^ (e - (f.precision - 1 : Nat)) = 2 ^ e / 2 ^ (f.precision - 1) := by
    rw [zpow_sub₀ (by norm_num), zpow_natCast]
  rw [value, magnitude, significand]
  congr 1
  split
  · next hzero =>
      have hplace : f.leastExponent + (max (f.exponentField pattern) 1 : Nat) - 1 =
          1 - f.bias - (f.precision - 1 : Nat) := by
        rw [hzero, leastExponent_eq hprecision]
        simp
      rw [hplace, hscale]
      ring
  · next hfield =>
      have hplace : f.leastExponent + (max (f.exponentField pattern) 1 : Nat) - 1 =
          f.exponentField pattern - f.bias - (f.precision - 1 : Nat) := by
        rw [Nat.max_eq_left (Nat.pos_of_ne_zero hfield), leastExponent_eq hprecision]
        ring
      rw [hplace, hscale]
      push_cast
      field_simp

theorem value?_decode (hprecision : 0 < f.precision) (pattern : Nat) :
    (f.decode pattern).value? = f.value? pattern := by
  rw [decode_eq, value?, value_eq hprecision]
  split
  · split <;> rfl
  · rfl

/-! ## Canonical patterns -/

/-- The number of a significand with its last bit `k` places above the least one. -/
def placed (f : BinaryFormat) (q k : Nat) : ℚ :=
  q * 2 ^ (f.leastExponent + k)

theorem decode_of_isFinite (h : f.IsFinite pattern) :
    f.decode pattern = .finite (f.isNegative pattern) (f.significand pattern)
      (f.leastExponent + (max (f.exponentField pattern) 1 : Nat) - 1) := by
  rw [decode_eq, if_neg h.2]

theorem value?_of_isFinite (h : f.IsFinite pattern) :
    f.value? pattern = some (.finite (f.value pattern)) :=
  if_neg h.2

/-- The patterns with a number are the canonical ones with a sign. -/
theorem exists_canonical_of_isFinite (h : f.IsFinite pattern) :
    ∃ negative q k, f.Canonical q k ∧
      pattern = f.withSign negative (q + k * f.fractionSize) := by
  have hdecode := decode_of_isFinite h
  obtain ⟨negative, magnitude, hlt, rfl⟩ := exists_withSign h.1
  rw [decode_withSign hlt] at hdecode
  rcases readMagnitude_cases hlt negative with hnan | ⟨hinfinite, -⟩ | ⟨q, k, hq, hmagnitude⟩
  · simp [hnan] at hdecode
  · simp [hinfinite] at hdecode
  · exact ⟨negative, q, k, hq, by rw [hmagnitude]⟩

namespace Canonical

theorem decode_withSign (h : f.Canonical q k) (negative : Bool) :
    f.decode (f.withSign negative (q + k * f.fractionSize)) =
      .finite negative q (f.leastExponent + k) := by
  rw [BinaryFormat.decode_withSign h.lt_signBit, h.readMagnitude_eq]

theorem isFinite_withSign (h : f.Canonical q k) (negative : Bool) :
    f.IsFinite (f.withSign negative (q + k * f.fractionSize)) := by
  refine ⟨withSign_lt h.lt_signBit negative, ?_⟩
  intro hfull
  have hdecode := h.decode_withSign negative
  rw [decode_eq, if_pos hfull] at hdecode
  split at hdecode <;> cases hdecode

theorem isNegative_withSign (h : f.Canonical q k) (negative : Bool) :
    f.isNegative (f.withSign negative (q + k * f.fractionSize)) = negative :=
  withSign_div_mod h.lt_signBit negative

theorem significand_withSign (h : f.Canonical q k) (negative : Bool) :
    f.significand (f.withSign negative (q + k * f.fractionSize)) = q := by
  have hdecode := decode_of_isFinite (h.isFinite_withSign negative)
  rw [h.decode_withSign negative] at hdecode
  injection hdecode with _ hsignificand _
  exact hsignificand.symm

theorem value_withSign (h : f.Canonical q k) (hprecision : 0 < f.precision) (negative : Bool) :
    f.value (f.withSign negative (q + k * f.fractionSize)) =
      applySign negative (f.placed q k) := by
  have hdecode := decode_of_isFinite (h.isFinite_withSign negative)
  rw [h.decode_withSign negative] at hdecode
  rw [value_eq hprecision]
  injection hdecode with hnegative hsignificand hexponent
  rw [← hnegative, ← hsignificand, ← hexponent]
  rfl

end Canonical

end BinaryFormat

end RecordKit
