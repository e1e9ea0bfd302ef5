import RecordKit.Proofs.Number.Nearest
import RecordKit.Proofs.Number.Values

/-!
# Rounding to the nearest value

`BinaryFormat.RoundsTo` says what it is for a pattern to be the one to which a number is
rounded: no value of the format is nearer, and if another one is equally near, then the
significand of the pattern is even.  That is what `BinaryFormat.nearest` finds
(`BinaryFormat.roundsTo_nearest`).

The quotient is rounded to a whole number of steps of one place.  The place is the least
one, or the quotient has a full significand there; so values with a lower place are all
below the least full significand, which is no nearer to the quotient than the rounded one, and
the other values are whole numbers of steps themselves.

Rounding keeps the order of numbers (`BinaryFormat.RoundsTo.value_le`), and a whole number that
fits into the significand is not changed by it (`BinaryFormat.value_ofInt`).
-/

namespace RecordKit

/-- The distance of two numbers by their signs and magnitudes. -/
theorem abs_applySign_sub {x r : ℚ} (hx : 0 ≤ x) (hr : 0 ≤ r) (negative negative' : Bool) :
    |applySign negative' x - applySign negative r| =
      if negative' = negative then |x - r| else x + r := by
  cases negative <;> cases negative'
  · rfl
  · show |-x - r| = x + r
    rw [abs_of_nonpos (by linarith)]
    ring
  · show |x - -r| = x + r
    rw [sub_neg_eq_add, abs_of_nonneg (add_nonneg hx hr)]
  · show |-x - -r| = |x - r|
    rw [neg_sub_neg, abs_sub_comm]

/-- Without its sign a number is no farther from a magnitude. -/
theorem abs_sub_le_applySign {x r : ℚ} (hx : 0 ≤ x) (hr : 0 ≤ r) (negative negative' : Bool) :
    |x - r| ≤ |applySign negative' x - applySign negative r| := by
  rw [abs_applySign_sub hx hr]
  split
  · exact le_rfl
  · exact abs_le.mpr ⟨by linarith, by linarith⟩

/-- With the wrong sign a number is as near only if it is zero. -/
theorem applySign_eq_of_abs {x r : ℚ} (hx : 0 ≤ x) (hr : 0 ≤ r) (hzero : r = 0 → x = 0)
    {negative negative' : Bool}
    (h : |applySign negative' x - applySign negative r| = |x - r|) :
    applySign negative' x = applySign negative x := by
  rw [abs_applySign_sub hx hr] at h
  split at h
  · next hsame => rw [hsame]
  · have hx : x = 0 := by
      rcases abs_choice (x - r) with hpos | hneg
      · exact hzero (by linarith)
      · linarith
    simp [applySign, hx]

/-! ## Rounding to whole numbers -/

/-- Another whole number than one at most half a step away is at least half a step away. -/
theorem half_le_abs_sub {n m : Int} {x : ℚ} (hn : |n - x| ≤ 1 / 2) (hne : m ≠ n) :
    1 / 2 ≤ |m - x| := by
  have hstep : (1 : ℚ) ≤ |(m : ℚ) - n| := by
    exact_mod_cast Int.one_le_abs (sub_ne_zero.mpr hne)
  have htriangle : |(m : ℚ) - n| ≤ |m - x| + |x - n| := abs_sub_le _ _ _
  rw [abs_sub_comm x] at htriangle
  linarith

namespace BinaryFormat

variable {f : BinaryFormat} {q k j num den : Nat}

/-- What a quotient is rounded to is less than half a step away, or it is even. -/
theorem roundHalfEven_cases (num : Nat) (hden : 0 < den) :
    |(roundHalfEven num den : ℚ) - num / den| < 1 / 2 ∨
      |(roundHalfEven num den : ℚ) - num / den| = 1 / 2 ∧ Even (roundHalfEven num den) := by
  have hdenQ : (0 : ℚ) < den := Nat.cast_pos.mpr hden
  have hrest := Nat.mod_lt num hden
  have hquotient : (num : ℚ) / den = (num / den : Nat) + (num % den : Nat) / den := by
    rw [div_eq_iff hdenQ.ne', add_mul, div_mul_cancel₀ _ hdenQ.ne']
    exact_mod_cast (Nat.div_add_mod' num den).symm
  have hnonneg : (0 : ℚ) ≤ (num % den : Nat) / den := by positivity
  have hltOne : ((num % den : Nat) : ℚ) / den < 1 := by
    rw [div_lt_one hdenQ]
    exact_mod_cast hrest
  rw [hquotient]
  rcases lt_trichotomy (2 * (num % den)) den with hdown | htie | hup
  · have hbelow : ((num % den : Nat) : ℚ) / den < 1 / 2 := by
      rw [div_lt_div_iff₀ hdenQ (by norm_num)]
      exact_mod_cast (by omega : num % den * 2 < 1 * den)
    simp only [roundHalfEven, if_pos hdown]
    left
    rw [abs_lt]
    constructor <;> linarith
  · have hhalf : ((num % den : Nat) : ℚ) / den = 1 / 2 := by
      rw [div_eq_div_iff hdenQ.ne' (by norm_num)]
      exact_mod_cast (by omega : num % den * 2 = 1 * den)
    simp only [roundHalfEven, if_neg htie.not_lt, if_neg htie.not_gt]
    refine Or.inr ⟨?_, ?_⟩
    · rw [hhalf]
      rcases Nat.mod_two_eq_zero_or_one (num / den) with heven | hodd
      · rw [heven]
        norm_num
      · rw [hodd]
        push_cast
        norm_num
    · rw [Nat.even_iff]
      omega
  · have habove : 1 / 2 < ((num % den : Nat) : ℚ) / den := by
      rw [div_lt_div_iff₀ (by norm_num) hdenQ]
      exact_mod_cast (by omega : 1 * den < num % den * 2)
    simp only [roundHalfEven, if_neg hup.not_gt, if_pos hup]
    left
    push_cast
    rw [abs_lt]
    constructor <;> linarith

/-! ## The place of a quotient -/

/-- The places between the least one and the one at which a quotient is rounded. -/
def place (f : BinaryFormat) (num den : Nat) : Nat :=
  (floorLog2 num den - (f.precision - 1 : Nat) - f.leastExponent).toNat

/-- The length of one step at a place. -/
def stepAt (f : BinaryFormat) (k : Nat) : ℚ :=
  2 ^ (f.leastExponent + k)

/-- The whole number of steps at its place to which a quotient is rounded. -/
def rounded (f : BinaryFormat) (num den : Nat) : Nat :=
  let e := f.leastExponent + f.place num den
  roundHalfEven (num * Nat.pow 2 (-e).toNat) (den * Nat.pow 2 e.toNat)

theorem stepAt_pos (f : BinaryFormat) (k : Nat) : 0 < f.stepAt k := by
  unfold stepAt
  positivity

theorem placed_eq (f : BinaryFormat) (q k : Nat) : f.placed q k = q * f.stepAt k :=
  rfl

theorem nearest_of_pos (f : BinaryFormat) (hnum : 0 < num) (den : Nat) :
    f.nearest num den =
      min f.infinity (f.rounded num den + f.place num den * f.fractionSize) := by
  have hexponent : max f.leastExponent (floorLog2 num den - (f.precision - 1 : Nat)) =
      f.leastExponent + f.place num den := by
    unfold place
    omega
  have hplace : (f.leastExponent + f.place num den - f.leastExponent).toNat = f.place num den := by
    omega
  simp only [nearest, Nat.ne_of_gt hnum, if_false, hexponent, hplace, rounded]

theorem stepAt_add (f : BinaryFormat) (k j : Nat) : f.stepAt (k + j) = 2 ^ j * f.stepAt k := by
  unfold stepAt
  rw [Nat.cast_add, ← add_assoc, zpow_add₀ (by norm_num), zpow_natCast, mul_comm]

/-- A full significand at a place is a power of two. -/
theorem fractionSize_mul_stepAt (f : BinaryFormat) (k : Nat) :
    f.fractionSize * f.stepAt k = 2 ^ (f.leastExponent + k + (f.precision - 1 : Nat)) := by
  rw [fractionSize_cast, stepAt, zpow_add₀ (by norm_num) (f.leastExponent + k), mul_comm]

/-- A quotient has no more than a full significand at its place. -/
theorem lt_of_place (f : BinaryFormat) (hnum : 0 < num) (hden : 0 < den) :
    (num : ℚ) / den < 2 * f.fractionSize * f.stepAt (f.place num den) := by
  have hpos : (0 : ℚ) < num / den := div_pos (Nat.cast_pos.mpr hnum) (Nat.cast_pos.mpr hden)
  have htwo : 2 * f.fractionSize * f.stepAt (f.place num den) =
      ((2 : Nat) : ℚ) ^ (f.leastExponent + f.place num den + (f.precision - 1 : Nat) + 1) := by
    rw [mul_assoc, fractionSize_mul_stepAt, Nat.cast_ofNat, zpow_add_one₀ (by norm_num), mul_comm]
  rw [htwo, Int.lt_zpow_iff_log_lt (by decide) hpos, ← floorLog2_eq_log hnum hden, place]
  omega

/-- It has a full one, or its place is the least. -/
theorem place_eq_zero_or_le (f : BinaryFormat) (hnum : 0 < num) (hden : 0 < den) :
    f.place num den = 0 ∨
      f.fractionSize * f.stepAt (f.place num den) ≤ (num : ℚ) / den := by
  have hpos : (0 : ℚ) < num / den := div_pos (Nat.cast_pos.mpr hnum) (Nat.cast_pos.mpr hden)
  rcases Nat.eq_zero_or_pos (f.place num den) with hleast | habove
  · exact Or.inl hleast
  · right
    have htwo : f.fractionSize * f.stepAt (f.place num den) =
        ((2 : Nat) : ℚ) ^ (f.leastExponent + f.place num den + (f.precision - 1 : Nat)) :=
      fractionSize_mul_stepAt f _
    rw [htwo, Int.zpow_le_iff_le_log (by decide) hpos, ← floorLog2_eq_log hnum hden]
    unfold place at *
    omega

/-- The quotient in steps at its place, as the two numbers that are divided. -/
theorem div_stepAt (f : BinaryFormat) (num k : Nat) (hden : 0 < den) :
    ((num * Nat.pow 2 (-(f.leastExponent + k)).toNat : Nat) : ℚ) /
        (den * Nat.pow 2 (f.leastExponent + k).toNat : Nat) = num / den / f.stepAt k := by
  have hdenQ : (den : ℚ) ≠ 0 := Nat.cast_ne_zero.mpr (Nat.ne_of_gt hden)
  have hpow (n : Nat) : ((Nat.pow 2 n : Nat) : ℚ) = 2 ^ n := by exact_mod_cast rfl
  have hscale : (2 : ℚ) ^ (f.leastExponent + k).toNat ≠ 0 := by positivity
  rw [Nat.cast_mul, Nat.cast_mul, hpow, hpow, div_div,
    div_eq_div_iff (mul_ne_zero hdenQ hscale) (mul_ne_zero hdenQ (f.stepAt_pos k).ne'),
    ← two_zpow_mul (f.leastExponent + k), stepAt]
  ring

theorem rounded_cases (f : BinaryFormat) (num : Nat) (hden : 0 < den) :
    |(f.rounded num den : ℚ) - num / den / f.stepAt (f.place num den)| < 1 / 2 ∨
      |(f.rounded num den : ℚ) - num / den / f.stepAt (f.place num den)| = 1 / 2 ∧
        Even (f.rounded num den) := by
  rw [← div_stepAt f num _ hden]
  exact roundHalfEven_cases _ (Nat.mul_pos hden (Nat.two_pow_pos _))

theorem abs_rounded_le (f : BinaryFormat) (num : Nat) (hden : 0 < den) :
    |(f.rounded num den : ℚ) - num / den / f.stepAt (f.place num den)| ≤ 1 / 2 :=
  (f.rounded_cases num hden).elim le_of_lt fun h => h.1.le

/-- Rounding can carry up to the next power of two. -/
theorem rounded_le (f : BinaryFormat) (hnum : 0 < num) (hden : 0 < den) :
    f.rounded num den ≤ 2 * f.fractionSize := by
  have hlt : (num : ℚ) / den / f.stepAt (f.place num den) < 2 * f.fractionSize := by
    rw [div_lt_iff₀ (f.stepAt_pos _)]
    exact f.lt_of_place hnum hden
  have hhalf := (abs_le.mp (f.abs_rounded_le num hden)).2
  have hcast : (f.rounded num den : ℚ) < (2 * f.fractionSize + 1 : Nat) := by
    push_cast
    linarith
  exact Nat.lt_succ_iff.mp (by exact_mod_cast hcast)

/-- Rounding does not go below a full significand. -/
theorem place_eq_zero_or_le_rounded (f : BinaryFormat) (hnum : 0 < num) (hden : 0 < den) :
    f.place num den = 0 ∨ f.fractionSize ≤ f.rounded num den := by
  rcases f.place_eq_zero_or_le hnum hden with hleast | hfull
  · exact Or.inl hleast
  · right
    rw [← le_div_iff₀ (f.stepAt_pos _)] at hfull
    have hhalf := (abs_le.mp (f.abs_rounded_le num hden)).1
    have hcast : (f.fractionSize : ℚ) < (f.rounded num den + 1 : Nat) := by
      push_cast
      linarith
    exact Nat.lt_succ_iff.mp (by exact_mod_cast hcast)

/-- A carry makes the least full significand of the next place. -/
theorem exists_canonical_of_le (heven : Even f.fractionSize) (hle : q ≤ 2 * f.fractionSize)
    (hfull : j = 0 ∨ f.fractionSize ≤ q) (hfinite : q + j * f.fractionSize < f.infinity) :
    ∃ q' k', f.Canonical q' k' ∧ q' + k' * f.fractionSize = q + j * f.fractionSize ∧
      f.placed q' k' = f.placed q j ∧ (Even q → Even q') := by
  rcases hle.lt_or_eq with hlt | rfl
  · exact ⟨q, j, ⟨hlt, hfull, hfinite⟩, rfl, rfl, id⟩
  · have hpos := f.fractionSize_pos
    have hsum : f.fractionSize + (j + 1) * f.fractionSize =
        2 * f.fractionSize + j * f.fractionSize := by
      ring
    refine ⟨f.fractionSize, j + 1, ⟨by omega, Or.inr le_rfl, hsum ▸ hfinite⟩, hsum, ?_, fun _ => heven⟩
    rw [placed_eq, placed_eq, stepAt_add]
    push_cast
    ring

/-! ## Values and steps -/

/-- A value at a place or above it is a whole number of steps there. -/
theorem placed_of_le (f : BinaryFormat) (q : Nat) (h : j ≤ k) :
    f.placed q k = (q * 2 ^ (k - j) : Nat) * f.stepAt j := by
  obtain ⟨i, rfl⟩ := Nat.exists_eq_add_of_le h
  rw [placed_eq, stepAt_add, Nat.add_sub_cancel_left]
  push_cast
  ring

/-- A value with a lower place is below a full significand. -/
theorem Canonical.placed_lt (hq : f.Canonical q k) (h : k < j) :
    f.placed q k < f.fractionSize * f.stepAt j := by
  have htwo : 2 * f.stepAt k ≤ f.stepAt j := by
    obtain ⟨i, rfl⟩ := Nat.exists_eq_add_of_lt h
    rw [add_assoc, stepAt_add, pow_succ']
    have hone : (1 : ℚ) ≤ 2 ^ i := one_le_pow₀ (by norm_num)
    exact mul_le_mul_of_nonneg_right (by linarith) (f.stepAt_pos k).le
  calc
    f.placed q k < (2 * f.fractionSize : Nat) * f.stepAt k :=
      mul_lt_mul_of_pos_right (by exact_mod_cast hq.lt) (f.stepAt_pos k)
    _ = f.fractionSize * (2 * f.stepAt k) := by
      push_cast
      ring
    _ ≤ f.fractionSize * f.stepAt j := mul_le_mul_of_nonneg_left htwo (Nat.cast_nonneg _)

/-- A significand and its place are as near to a number as any, and nearer than all others
or even. -/
structure Nearest (f : BinaryFormat) (q k : Nat) (r : ℚ) : Prop where
  dist_le : ∀ q' k', f.Canonical q' k' → |f.placed q k - r| ≤ |f.placed q' k' - r|
  even : ∀ q' k', f.Canonical q' k' → f.placed q' k' ≠ f.placed q k →
    |f.placed q' k' - r| = |f.placed q k - r| → Even q

/-- A whole number of steps is no nearer to the quotient than the rounded one, and if it is
as near, then it is that one or that one is even. -/
theorem rounded_nearest (f : BinaryFormat) (num m : Nat) (hden : 0 < den) :
    |f.placed (f.rounded num den) (f.place num den) - num / den| ≤
        |m * f.stepAt (f.place num den) - num / den| ∧
      (m ≠ f.rounded num den →
        |m * f.stepAt (f.place num den) - num / den| =
          |f.placed (f.rounded num den) (f.place num den) - num / den| →
        Even (f.rounded num den)) := by
  have hpos := f.stepAt_pos (f.place num den)
  have hscale (n : Nat) : |n * f.stepAt (f.place num den) - num / den| =
      |n - num / den / f.stepAt (f.place num den)| * f.stepAt (f.place num den) := by
    rw [← abs_of_pos hpos, ← abs_mul, abs_of_pos hpos, sub_mul, div_mul_cancel₀ _ hpos.ne']
  have hother (hne : m ≠ f.rounded num den) :
      1 / 2 ≤ |(m : ℚ) - num / den / f.stepAt (f.place num den)| := by
    have hhalf := f.abs_rounded_le num hden
    exact_mod_cast half_le_abs_sub (m := m) (n := f.rounded num den) (by exact_mod_cast hhalf)
      (by exact_mod_cast hne)
  rw [placed_eq, hscale, hscale]
  constructor
  · refine mul_le_mul_of_nonneg_right ?_ hpos.le
    by_cases hne : m = f.rounded num den
    · rw [hne]
    · exact (f.abs_rounded_le num hden).trans (hother hne)
  · intro hne hequal
    rcases f.rounded_cases num hden with hlt | ⟨-, heven⟩
    · rw [← mul_right_cancel₀ hpos.ne' hequal] at hlt
      exact absurd (hother hne) (not_le.mpr hlt)
    · exact heven

/-- What `nearest` finds short of infinity is nearest. -/
theorem exists_nearest_of_pos (heven : Even f.fractionSize) (hnum : 0 < num) (hden : 0 < den)
    (hfinite : f.nearest num den < f.infinity) :
    ∃ q k, f.Canonical q k ∧ f.nearest num den = q + k * f.fractionSize ∧
      f.Nearest q k (num / den) := by
  have hnearest : f.nearest num den = f.rounded num den + f.place num den * f.fractionSize := by
    rw [f.nearest_of_pos hnum] at hfinite ⊢
    omega
  rw [hnearest] at hfinite
  obtain ⟨q, k, hq, hsum, hplaced, hqeven⟩ := exists_canonical_of_le heven
    (f.rounded_le hnum hden) (f.place_eq_zero_or_le_rounded hnum hden) hfinite
  refine ⟨q, k, hq, hnearest.trans hsum.symm, ?_⟩
  have hcandidate : ∀ q' k', f.Canonical q' k' →
      |f.placed q k - num / den| ≤ |f.placed q' k' - num / den| ∧
        (f.placed q' k' ≠ f.placed q k →
          |f.placed q' k' - num / den| = |f.placed q k - num / den| → Even q) := by
    intro q' k' hq'
    rw [hplaced]
    rcases Nat.lt_or_ge k' (f.place num den) with hlower | hhigher
    · -- The least full significand lies between a lower place and the quotient.
      have hbetween := (f.place_eq_zero_or_le hnum hden).resolve_left (by omega)
      have hbelow := hq'.placed_lt hlower
      have hcloser := (f.rounded_nearest num f.fractionSize hden).1
      rw [abs_of_nonpos (sub_nonpos.mpr hbetween)] at hcloser
      rw [abs_of_neg (sub_neg.mpr (hbelow.trans_le hbetween))]
      exact ⟨by linarith, fun _ hequal => by linarith⟩
    · obtain ⟨hle, htie⟩ := f.rounded_nearest num (q' * 2 ^ (k' - f.place num den)) hden
      rw [← placed_of_le f q' hhigher] at hle htie
      refine ⟨hle, fun hne hequal => hqeven (htie ?_ hequal)⟩
      intro hsame
      exact hne (by rw [placed_of_le f q' hhigher, hsame, placed_eq])
  exact ⟨fun q' k' hq' => (hcandidate q' k' hq').1, fun q' k' hq' => (hcandidate q' k' hq').2⟩

/-- A format has fractions, and the numbers that fill its significand are values. -/
structure WellFormed (f : BinaryFormat) : Prop where
  precision : 2 ≤ f.precision
  bias : f.precision < f.bias

namespace WellFormed

theorem even_fractionSize (h : f.WellFormed) : Even f.fractionSize := by
  have hprecision := h.precision
  exact (Nat.even_pow.mpr ⟨even_two, by omega⟩ : Even (2 ^ (f.precision - 1)))

theorem exponents_eq (h : f.WellFormed) : (Nat.pow 2 f.exponentBits : Int) = 2 * f.bias + 2 := by
  have hbits : f.exponentBits ≠ 0 := by
    intro hzero
    have hprecision := h.precision
    have hbias := h.bias
    simp [BinaryFormat.bias, hzero] at hbias
    omega
  obtain ⟨n, hn⟩ := Nat.exists_eq_succ_of_ne_zero hbits
  have hpow : (Nat.pow 2 (n + 1) : Int) = 2 * 2 ^ n := by
    exact_mod_cast Nat.pow_succ'
  rw [BinaryFormat.bias, hn, hpow, Nat.succ_sub_one]
  ring

/-- A carry leaves places with two exponents above them finite. -/
theorem lt_infinity (h : f.WellFormed) (hq : q ≤ 2 * f.fractionSize)
    (hk : (k : Int) < 2 * f.bias - 1) : q + k * f.fractionSize < f.infinity := by
  have hexponents := h.exponents_eq
  have hfields : k + 3 ≤ Nat.pow 2 f.exponentBits - 1 := by omega
  calc
    q + k * f.fractionSize ≤ (k + 2) * f.fractionSize := by
      rw [Nat.add_mul]
      omega
    _ < (k + 3) * f.fractionSize := Nat.mul_lt_mul_of_pos_right (by omega) f.fractionSize_pos
    _ ≤ f.infinity := Nat.mul_le_mul_right _ hfields

/-- What is below the last power of two of the format is not rounded to infinity. -/
theorem nearest_lt_infinity (h : f.WellFormed) (hden : 0 < den)
    (hlt : (num : ℚ) / den < 2 ^ f.bias) : f.nearest num den < f.infinity := by
  have hprecision := h.precision
  have hbias := h.bias
  rcases Nat.eq_zero_or_pos num with rfl | hnum
  · simpa [nearest] using h.lt_infinity (q := 0) (k := 0) (by omega) (by omega)
  · have hpos : (0 : ℚ) < num / den := div_pos (Nat.cast_pos.mpr hnum) (Nat.cast_pos.mpr hden)
    have hlog : floorLog2 num den < f.bias := by
      rw [floorLog2_eq_log hnum hden, ← Int.lt_zpow_iff_log_lt (by decide) hpos]
      exact_mod_cast hlt
    have hleast := leastExponent_eq (f := f) (by omega)
    rw [f.nearest_of_pos hnum]
    refine (Nat.min_le_right _ _).trans_lt (h.lt_infinity (f.rounded_le hnum hden) ?_)
    unfold place
    omega

end WellFormed

/-! ## Rounding of signed numbers -/

/-- A number is rounded to a pattern: no value of the format is nearer, and if another one is
equally near, then the significand of the pattern is even.  Zero is rounded to the positive
one. -/
structure RoundsTo (f : BinaryFormat) (r : ℚ) (pattern : Nat) : Prop where
  finite : f.IsFinite pattern
  sign : f.isNegative pattern = decide (r < 0)
  nearest : ∀ other, f.IsFinite other → |f.value pattern - r| ≤ |f.value other - r|
  even : ∀ other, f.IsFinite other → f.value other ≠ f.value pattern →
    |f.value other - r| = |f.value pattern - r| → Even (f.significand pattern)

theorem canonical_zero (h : f.WellFormed) : f.Canonical 0 0 := by
  have hprecision := h.precision
  have hbias := h.bias
  exact ⟨by have := f.fractionSize_pos; omega, Or.inl rfl, h.lt_infinity (by omega) (by omega)⟩

theorem placed_nonneg (f : BinaryFormat) (q k : Nat) : 0 ≤ f.placed q k :=
  mul_nonneg (Nat.cast_nonneg q) (f.stepAt_pos k).le

theorem exists_nearest (h : f.WellFormed) (hden : 0 < den) (hlt : (num : ℚ) / den < 2 ^ f.bias) :
    ∃ q k, f.Canonical q k ∧ f.nearest num den = q + k * f.fractionSize ∧
      f.Nearest q k (num / den) := by
  rcases Nat.eq_zero_or_pos num with rfl | hnum
  · refine ⟨0, 0, canonical_zero h, by simp [nearest], ?_, ?_⟩
    · intro q k hq
      simpa [placed] using f.placed_nonneg q k
    · intro q k hq hne hequal
      exact ⟨0, rfl⟩
  · exact exists_nearest_of_pos h.even_fractionSize hnum hden (h.nearest_lt_infinity hden hlt)

/-- The nearest magnitude with the sign of a number is the pattern to which it is rounded. -/
theorem roundsTo_nearest (h : f.WellFormed) (hden : 0 < den) (hlt : (num : ℚ) / den < 2 ^ f.bias)
    {negative : Bool} (hsign : negative = true → 0 < num) :
    f.RoundsTo (applySign negative (num / den)) (f.withSign negative (f.nearest num den)) := by
  have hprecision : 0 < f.precision := by
    have := h.precision
    omega
  have hr : (0 : ℚ) ≤ num / den := by positivity
  obtain ⟨q, k, hq, hpattern, hnearest⟩ := exists_nearest h hden hlt
  have hvalue := hq.value_withSign hprecision negative
  have hdist : |applySign negative (f.placed q k) - applySign negative (num / den)| =
      |f.placed q k - num / den| := by
    rw [abs_applySign_sub (f.placed_nonneg q k) hr, if_pos rfl]
  rw [hpattern]
  refine ⟨hq.isFinite_withSign negative, ?_, ?_, ?_⟩
  · rw [hq.isNegative_withSign, eq_comm]
    cases negative with
    | true =>
        have hpos : (0 : ℚ) < num / den :=
          div_pos (Nat.cast_pos.mpr (hsign rfl)) (Nat.cast_pos.mpr hden)
        exact decide_eq_true (neg_lt_zero.mpr hpos)
    | false => exact decide_eq_false (not_lt.mpr hr)
  · intro other hother
    obtain ⟨negative', q', k', hq', rfl⟩ := exists_canonical_of_isFinite hother
    rw [hvalue, hq'.value_withSign hprecision, hdist]
    exact (hnearest.dist_le q' k' hq').trans
      (abs_sub_le_applySign (f.placed_nonneg q' k') hr negative negative')
  · intro other hother hne hequal
    obtain ⟨negative', q', k', hq', rfl⟩ := exists_canonical_of_isFinite hother
    rw [hq.significand_withSign]
    rw [hvalue, hq'.value_withSign hprecision] at hne hequal
    rw [hdist] at hequal
    have hle := hnearest.dist_le q' k' hq'
    have hge := abs_sub_le_applySign (f.placed_nonneg q' k') hr negative negative'
    have hzero : (num : ℚ) / den = 0 → f.placed q k = 0 := by
      intro hr
      have hle := hnearest.dist_le 0 0 (canonical_zero h)
      have hdistZero : |f.placed 0 0 - 0| = 0 := by simp [placed]
      rw [hr, hdistZero, sub_zero] at hle
      exact abs_nonpos_iff.mp hle
    refine hnearest.even q' k' hq' ?_ (le_antisymm (hequal ▸ hge) hle)
    intro hsame
    rw [hsame] at hne hequal
    exact hne (applySign_eq_of_abs (f.placed_nonneg q k) hr hzero hequal)

namespace RoundsTo

variable {r r' : ℚ} {pattern other : Nat}

/-- A value of the format is rounded to itself. -/
theorem value_eq (h : f.RoundsTo r pattern) (hother : f.IsFinite other)
    (hvalue : f.value other = r) : f.value pattern = r := by
  have hle := h.nearest other hother
  rw [hvalue, sub_self, abs_zero] at hle
  exact sub_eq_zero.mp (abs_nonpos_iff.mp hle)

/-- Rounding keeps the order of numbers. -/
theorem value_le (h : f.RoundsTo r pattern) (h' : f.RoundsTo r' other) (hlt : r < r') :
    f.value pattern ≤ f.value other := by
  by_contra hgreater
  have horder := not_le.mp hgreater
  -- The lower number is on the side of the greater value, and the greater one on the other.
  have hupper : f.value pattern + f.value other ≤ 2 * r := by
    by_contra hfar
    have hnearer : |f.value other - r| < f.value pattern - r :=
      abs_lt.mpr ⟨by linarith, by linarith⟩
    exact absurd (h.nearest other h'.finite) (not_le.mpr (hnearer.trans_le (le_abs_self _)))
  have hlower : 2 * r' ≤ f.value pattern + f.value other := by
    by_contra hfar
    have hnearer : |f.value pattern - r'| < -(f.value other - r') :=
      abs_lt.mpr ⟨by linarith, by linarith⟩
    exact absurd (h'.nearest pattern h.finite) (not_le.mpr (hnearer.trans_le (neg_le_abs _)))
  linarith

end RoundsTo

/-! ## Whole numbers -/

theorem applySign_natAbs (n : Int) : applySign (n < 0) ((n.natAbs : ℚ) / (1 : Nat)) = n := by
  rw [Nat.cast_one, div_one, Nat.cast_natAbs]
  by_cases hn : n < 0
  · simp [applySign, hn, abs_of_neg hn]
  · simp [applySign, hn, abs_of_nonneg (not_lt.mp hn)]

theorem roundsTo_ofInt (h : f.WellFormed) {n : Int} (hn : |(n : ℚ)| < 2 ^ f.bias) :
    f.RoundsTo n (f.ofInt n) := by
  have hlt : (n.natAbs : ℚ) / (1 : Nat) < 2 ^ f.bias := by
    rw [Nat.cast_one, div_one, Nat.cast_natAbs]
    exact_mod_cast hn
  have hnegative : decide (n < 0) = true → 0 < n.natAbs := by
    intro hneg
    have := of_decide_eq_true hneg
    omega
  have hrounds := roundsTo_nearest h Nat.one_pos hlt hnegative
  rwa [applySign_natAbs] at hrounds

/-- A number that fits into the significand, or is the next power of two, is a value. -/
theorem exists_canonical_natCast (h : f.WellFormed) {n : Nat} (hn : n ≤ 2 * f.fractionSize) :
    ∃ q k, f.Canonical q k ∧ f.placed q k = n := by
  have hprecision := h.precision
  have hbias := h.bias
  have hexponents := h.exponents_eq
  have hleast := leastExponent_eq (f := f) (by omega)
  -- Ones have their place below those of the format, whose least one is that of a fraction.
  obtain ⟨j, hj⟩ : ∃ j : Nat, f.leastExponent = -(j : Int) :=
    ⟨(-f.leastExponent).toNat, by omega⟩
  obtain ⟨s, i, hs, hi, rfl⟩ : ∃ s i, s < 2 * f.fractionSize ∧ i ≤ 1 ∧ n = s * 2 ^ i := by
    rcases hn.lt_or_eq with hlt | rfl
    · exact ⟨n, 0, hlt, by omega, by omega⟩
    · exact ⟨f.fractionSize, 1, by have := f.fractionSize_pos; omega, le_rfl, by ring⟩
  have hplaces : (j + i + 2) * f.fractionSize ≤ f.infinity :=
    Nat.mul_le_mul_right _ (by omega)
  obtain ⟨q, k, hq, hvalue⟩ := exists_canonical hs hplaces
  refine ⟨q, k, hq, ?_⟩
  calc
    f.placed q k = (q * 2 ^ k : Nat) * 2 ^ (-(j : Int)) := by
      rw [placed, hj, zpow_add₀ (by norm_num), zpow_natCast]
      push_cast
      ring
    _ = (s * 2 ^ i : Nat) := by
      rw [hvalue, zpow_neg, zpow_natCast, pow_add]
      push_cast
      field_simp

/-- Integers that need no more bits than the significand has are values. -/
theorem exists_value_of_int (h : f.WellFormed) {n : Int} (hn : |n| ≤ 2 ^ f.precision) :
    ∃ pattern, f.IsFinite pattern ∧ f.value pattern = n := by
  have hprecision := h.precision
  have hsize : 2 ^ f.precision = 2 * f.fractionSize :=
    (Nat.two_pow_pred_mul_two (by omega)).symm.trans (Nat.mul_comm _ _)
  have habs : n.natAbs ≤ 2 * f.fractionSize := by
    rw [← hsize]
    zify
    exact hn
  obtain ⟨q, k, hq, hplaced⟩ := exists_canonical_natCast h habs
  refine ⟨_, hq.isFinite_withSign (n < 0), ?_⟩
  rw [hq.value_withSign (by omega), hplaced, ← applySign_natAbs n, Nat.cast_one, div_one]

/-- Such an integer is not changed. -/
theorem value_ofInt (h : f.WellFormed) {n : Int} (hn : |n| ≤ 2 ^ f.precision) :
    f.value (f.ofInt n) = n := by
  obtain ⟨pattern, hfinite, hvalue⟩ := exists_value_of_int h hn
  have hlt : |(n : ℚ)| < 2 ^ f.bias := by
    calc
      |(n : ℚ)| ≤ 2 ^ (f.precision : Int) := by
        rw [zpow_natCast]
        exact_mod_cast hn
      _ < 2 ^ f.bias := zpow_lt_zpow_right₀ (by norm_num) h.bias
  exact (roundsTo_ofInt h hlt).value_eq hfinite hvalue

/-- Greater integers have greater or equal values. -/
theorem value_ofInt_le (h : f.WellFormed) {n m : Int} (hn : |(n : ℚ)| < 2 ^ f.bias)
    (hm : |(m : ℚ)| < 2 ^ f.bias) (hle : n ≤ m) :
    f.value (f.ofInt n) ≤ f.value (f.ofInt m) := by
  rcases hle.eq_or_lt with rfl | hlt
  · exact le_rfl
  · exact (roundsTo_ofInt h hn).value_le (roundsTo_ofInt h hm) (Int.cast_lt.mpr hlt)

end BinaryFormat

theorem wellFormed_binary64 : binary64.WellFormed := by
  constructor <;> decide

theorem wellFormed_binary32 : binary32.WellFormed := by
  constructor <;> decide

end RecordKit
