import RecordKit.Proofs.Number.Rounding
import RecordKit.Proofs.Number.Truncation
import RecordKit.Proofs.Record.Conversion

/-!
# Views of integers and of floating-point numbers

What an integer type builds from the view of a floating-point number, and a type of
floating-point numbers from the view of an integer.

* `FieldType.ofView?_float`: the number is cut off toward zero and moved into the range, so
  greater numbers give greater integers, and integers of up to 53 bits come back from 64-bit
  floating-point fields.
* `FieldType.ofView?_integer`: the integer is rounded once to the nearest value of the format,
  so greater integers give greater numbers, and integers that fit into the significand stay
  as they are.
-/

namespace RecordKit

/-- The integer that a view shows, if it shows one of 64 bits. -/
def View.integer? : View → Option Int
  | .int n => if (⟨true, .w64⟩ : IntType).Holds n then some n else none
  | .uint n => if (⟨false, .w64⟩ : IntType).Holds n then some n else none
  | _ => none

/-- The pattern in a floating-point value, with its format. -/
def Data.pattern? : Data → Option (BinaryFormat × Nat)
  | .f32 bits => Option.some (binary32, bits.toNat)
  | .f64 bits => Option.some (binary64, bits.toNat)
  | _ => Option.none

theorem View.cases_of_integer? {v : View} {n : Int} (h : v.integer? = some n) :
    (v = .int n ∧ (⟨true, .w64⟩ : IntType).Holds n) ∨
      ∃ k : Nat, v = .uint k ∧ n = k ∧ (⟨false, .w64⟩ : IntType).Holds n := by
  cases v with
  | int k =>
      obtain ⟨hholds, hk⟩ := Option.ite_none_right_eq_some.mp h
      obtain rfl := Option.some.inj hk
      exact Or.inl ⟨rfl, hholds⟩
  | uint k =>
      obtain ⟨hholds, hk⟩ := Option.ite_none_right_eq_some.mp h
      obtain rfl := Option.some.inj hk
      exact Or.inr ⟨k, rfl, rfl, hholds⟩
  | _ => cases h

theorem View.abs_le_of_integer? {v : View} {n : Int} (h : v.integer? = some n) :
    |n| ≤ 2 ^ 64 := by
  have hsigned : (⟨true, .w64⟩ : IntType).least = -0x8000000000000000 ∧
      (⟨true, .w64⟩ : IntType).greatest = 0x7FFFFFFFFFFFFFFF := by decide
  have hunsigned : (⟨false, .w64⟩ : IntType).least = 0 ∧
      (⟨false, .w64⟩ : IntType).greatest = 0xFFFFFFFFFFFFFFFF := by decide
  rw [abs_le]
  rcases cases_of_integer? h with ⟨-, hlow, hhigh⟩ | ⟨k, -, -, hlow, hhigh⟩
  · rw [hsigned.1] at hlow
    rw [hsigned.2] at hhigh
    omega
  · rw [hunsigned.1] at hlow
    rw [hunsigned.2] at hhigh
    omega

variable {C : Type}

/-- The format of a type of floating-point numbers. -/
def FieldType.format? : FieldType C → Option BinaryFormat
  | f32 => some binary32
  | f64 => some binary64
  | _ => none

theorem BinaryFormat.ofInt_lt (f : BinaryFormat) (n : Int) : f.ofInt n < 2 * f.signBit := by
  have hencode : f.ofInt n = f.encode (.finite (n < 0) n.natAbs 0) := by
    simp [ofInt, encode, nearestScaled]
  rw [hencode]
  exact f.encode_lt _

theorem toNat_ofInt64 (n : Int) : (binary64.ofInt n).toUInt64.toNat = binary64.ofInt n := by
  have hlt : binary64.ofInt n < 2 * binary64.signBit := binary64.ofInt_lt n
  exact Nat.mod_eq_of_lt hlt

theorem toNat_ofInt32 (n : Int) : (binary32.ofInt n).toUInt32.toNat = binary32.ofInt n := by
  have hlt : binary32.ofInt n < 2 * binary32.signBit := binary32.ofInt_lt n
  exact Nat.mod_eq_of_lt hlt

namespace FieldType

variable {dest : FieldType C} {f : BinaryFormat} {v : View} {n : Int}

theorem wellFormed_of_format? (hdest : dest.format? = some f) : f.WellFormed ∧ 64 < f.bias := by
  cases dest with
  | f32 =>
      cases hdest
      exact ⟨wellFormed_binary32, by decide⟩
  | f64 =>
      cases hdest
      exact ⟨wellFormed_binary64, by decide⟩
  | _ => cases hdest

/-- No integer of 64 bits is out of range. -/
theorem abs_lt_of_integer? (hdest : dest.format? = some f) (hv : v.integer? = some n) :
    |(n : ℚ)| < 2 ^ f.bias := by
  have habs := View.abs_le_of_integer? hv
  calc
    |(n : ℚ)| ≤ 2 ^ (64 : Int) := by exact_mod_cast habs
    _ < 2 ^ f.bias := zpow_lt_zpow_right₀ (by norm_num) (wellFormed_of_format? hdest).2

variable [UserType C]

/-! ## Floating-point numbers from integers -/

/-- A type of floating-point numbers rounds a number straight to its own format. -/
theorem exists_ofView?_of_integer (hdest : dest.format? = some f) (hv : v.integer? = some n) :
    ∃ d, dest.ofView? v = some d ∧ d.pattern? = some (f, f.ofInt n) := by
  cases dest with
  | f32 =>
      cases hdest
      refine ⟨.f32 (binary32.ofInt n).toUInt32, ?_, by rw [Data.pattern?, toNat_ofInt32]⟩
      rcases View.cases_of_integer? hv with ⟨rfl, -⟩ | ⟨k, rfl, rfl, -⟩ <;> rfl
  | f64 =>
      cases hdest
      refine ⟨.f64 (binary64.ofInt n).toUInt64, ?_, by rw [Data.pattern?, toNat_ofInt64]⟩
      rcases View.cases_of_integer? hv with ⟨rfl, -⟩ | ⟨k, rfl, rfl, -⟩ <;> rfl
  | _ => cases hdest

/-- The floating-point number that is built from an integer of 64 bits is the value of the
format nearest to the integer, and from a tie the one with an even significand.  So an integer
that fits into the significand is not changed, and a greater integer does not give a
lower number. -/
theorem ofView?_integer (hdest : dest.format? = some f) (hv : v.integer? = some n) :
    ∃ d pattern, dest.ofView? v = some d ∧ d.pattern? = some (f, pattern) ∧
      f.RoundsTo n pattern ∧
      (|n| ≤ 2 ^ f.precision → f.value pattern = n) ∧
      ∀ v' m, v'.integer? = some m → n ≤ m →
        ∃ d' pattern', dest.ofView? v' = some d' ∧ d'.pattern? = some (f, pattern') ∧
          f.value pattern ≤ f.value pattern' := by
  have hformat := (wellFormed_of_format? hdest).1
  have hn := abs_lt_of_integer? hdest hv
  obtain ⟨d, hd, hpattern⟩ := exists_ofView?_of_integer hdest hv
  refine ⟨d, f.ofInt n, hd, hpattern, BinaryFormat.roundsTo_ofInt hformat hn,
    BinaryFormat.value_ofInt hformat, ?_⟩
  intro v' m hv' hle
  obtain ⟨d', hd', hpattern'⟩ := exists_ofView?_of_integer hdest hv'
  exact ⟨d', f.ofInt m, hd', hpattern',
    BinaryFormat.value_ofInt_le hformat hn (abs_lt_of_integer? hdest hv') hle⟩

/-- An integer a little above a tie between 32-bit numbers.  On the way through 64 bits it
would become the tie and then the lower number, which has an even significand. -/
theorem ofView?_integer_above_tie :
    let n : Int := 0x1000001000000001
    (f32 : FieldType SampleType).format? = some binary32 ∧ (View.int n).integer? = some n ∧
      (f32 : FieldType SampleType).ofView? (.int n) = some (.f32 0x5D800001) ∧
      binary32.RoundsTo n 0x5D800001 ∧
      narrow (binary64.ofInt n).toUInt64 = 0x5D800000 := by
  intro n
  have hformat : (f32 : FieldType SampleType).format? = some binary32 := rfl
  have hview : (View.int n).integer? = some n := by decide
  have hbits : (binary32.ofInt n).toUInt32 = 0x5D800001 := by decide
  have hdirect : (f32 : FieldType SampleType).ofView? (.int n) = some (.f32 0x5D800001) :=
    congrArg (fun bits => some (Data.f32 bits)) hbits
  have hthrough : narrow (binary64.ofInt n).toUInt64 = 0x5D800000 := by decide
  obtain ⟨d, pattern, hd, hpattern, hrounds, -⟩ := ofView?_integer hformat hview
  obtain rfl : d = .f32 0x5D800001 := Option.some.inj (hd.symm.trans hdirect)
  obtain rfl : 0x5D800001 = pattern := congrArg Prod.snd (Option.some.inj hpattern)
  exact ⟨hformat, hview, hdirect, hrounds, hthrough⟩

/-! ## Integers from floating-point numbers -/

theorem ofView?_float_eq (t : IntType) (bits : UInt64) :
    (int t : FieldType C).ofView? (.float bits) =
      some (.int ((binary64.value? bits.toNat).elim 0 t.cut)) := by
  rw [← BinaryFormat.toInt_decode (by decide)]
  rfl

theorem convert?_int_f64 {t : IntType} (h : t.Holds n) :
    (int t : FieldType C).convert? f64 (.int n) = some (.f64 (binary64.ofInt n).toUInt64) := by
  rw [convert?]
  rcases view_int_cases (C := C) h with hview | ⟨k, hview, rfl⟩
  · rw [hview]
    rfl
  · rw [hview]
    rfl

/-- An integer that fits into the significand comes back from its floating-point number. -/
theorem convertBack?_int_f64 {t : IntType} (h : t.Holds n) (hn : |n| ≤ 2 ^ 53) :
    (int t : FieldType C).convertBack? f64 (.int n) = some (.int n) := by
  have hlt : |(n : ℚ)| < 2 ^ binary64.bias := by
    calc
      |(n : ℚ)| ≤ 2 ^ (53 : Int) := by exact_mod_cast hn
      _ < 2 ^ binary64.bias := zpow_lt_zpow_right₀ (by norm_num) (by decide)
  have hfinite := (BinaryFormat.roundsTo_ofInt wellFormed_binary64 hlt).finite
  have hvalue : binary64.value (binary64.ofInt n) = n :=
    BinaryFormat.value_ofInt wellFormed_binary64 hn
  rw [convertBack?, convert?_int_f64 h, Option.bind_some]
  show (int t : FieldType C).ofView? (.float (binary64.ofInt n).toUInt64) = _
  rw [ofView?_float_eq, toNat_ofInt64, BinaryFormat.value?_of_isFinite hfinite, hvalue,
    Option.elim_some, IntType.cut_intCast h]

/-- An integer type builds zero from what is no number.  From a number it builds the number
cut off toward zero and moved into the range, from an infinity the end of the range.  So a
greater number or infinity does not give a lower integer, and integers of up to 53 bits come
back from 64-bit floating-point numbers. -/
theorem ofView?_float (t : IntType) :
    (∀ bits, (int t : FieldType C).ofView? (.float bits) =
      some (.int ((binary64.value? bits.toNat).elim 0 t.cut))) ∧
    (∀ bits bits' x x', binary64.value? bits.toNat = some x →
      binary64.value? bits'.toNat = some x' → x ≤ x' →
      ∃ n n', (int t : FieldType C).ofView? (.float bits) = some (.int n) ∧
        (int t : FieldType C).ofView? (.float bits') = some (.int n') ∧ n ≤ n') ∧
    ∀ n, t.Holds n → |n| ≤ 2 ^ 53 →
      (int t : FieldType C).convertBack? f64 (.int n) = some (.int n) := by
  refine ⟨ofView?_float_eq t, ?_, fun n => convertBack?_int_f64⟩
  intro bits bits' x x' hx hx' hle
  refine ⟨t.cut x, t.cut x', ?_, ?_, t.cut_mono hle⟩
  · rw [ofView?_float_eq, hx]
    rfl
  · rw [ofView?_float_eq, hx']
    rfl

/-- The first power of two above the range becomes the greatest integer, and a number between
minus one and minus two is not below what minus infinity becomes. -/
theorem ofView?_float_saturated :
    let t : IntType := ⟨true, .w64⟩
    let x : ExtendedRat := .finite (-3 / 2)
    binary64.value? (0xFFF0000000000000 : UInt64).toNat = some ⊥ ∧
      binary64.value? (0xBFF8000000000000 : UInt64).toNat = some x ∧ ⊥ ≤ x ∧
      (∃ n n', (int t : FieldType SampleType).ofView? (.float 0xFFF0000000000000) = some (.int n) ∧
        (int t : FieldType SampleType).ofView? (.float 0xBFF8000000000000) = some (.int n') ∧
        n ≤ n') ∧
      (int t : FieldType SampleType).ofView? (.float 0x43E0000000000000) =
        some (.int 0x7FFFFFFFFFFFFFFF) ∧
      t.Holds (-0x20000000000000) ∧ |(-0x20000000000000 : Int)| ≤ 2 ^ 53 ∧
      (int t : FieldType SampleType).convertBack? f64 (.int (-0x20000000000000)) =
        some (.int (-0x20000000000000)) := by
  intro t x
  have hbot : binary64.value? (0xFFF0000000000000 : UInt64).toNat = some ⊥ := rfl
  have hx : binary64.value? (0xBFF8000000000000 : UInt64).toNat = some x := by decide +kernel
  have hholds : t.Holds (-0x20000000000000) := by decide
  have habs : |(-0x20000000000000 : Int)| ≤ 2 ^ 53 := by decide
  obtain ⟨hvalue, hmono, hback⟩ := ofView?_float (C := SampleType) t
  have hcut : (binary64.value? (0x43E0000000000000 : UInt64).toNat).elim 0 t.cut =
      0x7FFFFFFFFFFFFFFF := by decide +kernel
  have hgreatest := hvalue 0x43E0000000000000
  rw [hcut] at hgreatest
  exact ⟨hbot, hx, bot_le, hmono _ _ _ _ hbot hx bot_le, hgreatest, hholds, habs,
    hback _ hholds habs⟩

end FieldType

end RecordKit
