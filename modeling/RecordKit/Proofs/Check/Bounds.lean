import Mathlib.Data.Int.ModEq
import RecordKit.Check.DefaultRules
import RecordKit.Proofs.Text.Numerals

/-!
# Bounds on numbers and lengths

The rules `min` and `max` compare the measure of a view, which is a number or the length of a
text, with an unsigned 64-bit bound (`min_iff`, `max_iff`).  Without a measure or a bound they
fail.  The rule `fixed` reads its argument as a signed number and still agrees with the two on
every bound, because no text is long enough for the bounds that it cannot read.
-/

namespace RecordKit

/-- The integer that bounds apply to: a number itself, or the number of characters of a
text. -/
inductive View.Measures : View → Int → Prop
  | int (n : Int) : Measures (.int n) n
  | uint (n : Nat) : Measures (.uint n) n
  | str (s : String) : Measures (.str s) s.length

namespace DefaultRules

open Text

/-- The argument is the text of an unsigned 64-bit number. -/
def IsBound (arg : String) (b : Nat) : Prop :=
  SpellsNat arg.toList b ∧ b < 2 ^ 64

variable {v : View} {m : Int} {arg : String} {b : Nat}

theorem measure?_eq_some_iff (v : View) (m : Int) : measure? v = some m ↔ v.Measures m := by
  constructor
  · intro h
    cases v with
    | int n =>
        cases h
        exact .int _
    | uint n =>
        cases h
        exact .uint n
    | str s =>
        cases h
        exact .str s
    | nil | bool | float | bytes | seq | map | struct | sealed => cases h
  · rintro (_ | _ | _) <;> rfl

theorem bound?_eq_some_iff (arg : String) (b : Nat) : bound? arg = some b ↔ IsBound arg b :=
  unsigned?_eq_some_iff _ arg.toList b

theorem compareBound_of_bound (harg : IsBound arg b) (hv : v.Measures m)
    (holds : Int → Int → Bool) : compareBound holds v arg = holds m b := by
  unfold compareBound
  rw [(bound?_eq_some_iff arg b).mpr harg, (measure?_eq_some_iff v m).mpr hv]

/-- A comparison needs a bound and a measure. -/
theorem compareBound_eq_false (h : (∀ b, ¬IsBound arg b) ∨ ∀ m, ¬v.Measures m)
    (holds : Int → Int → Bool) : compareBound holds v arg = false := by
  unfold compareBound
  split
  · next b m hb hm =>
      rcases h with h | h
      · exact absurd ((bound?_eq_some_iff arg b).mp hb) (h b)
      · exact absurd ((measure?_eq_some_iff v m).mp hm) (h m)
  · rfl

/-- Views of one measure compare alike. -/
theorem compareBound_congr {v' : View} (hv : v.Measures m) (hv' : v'.Measures m)
    (holds : Int → Int → Bool) (arg : String) :
    compareBound holds v arg = compareBound holds v' arg := by
  unfold compareBound
  rw [(measure?_eq_some_iff v m).mpr hv, (measure?_eq_some_iff v' m).mpr hv']

theorem min_iff (harg : IsBound arg b) (hv : v.Measures m) : min v arg = true ↔ (b : Int) ≤ m := by
  rw [min, compareBound_of_bound harg hv, decide_eq_true_eq]

theorem max_iff (harg : IsBound arg b) (hv : v.Measures m) : max v arg = true ↔ m ≤ (b : Int) := by
  rw [max, compareBound_of_bound harg hv, decide_eq_true_eq]

theorem min_of_negative {n : Int} (hn : n < 0) (arg : String) : min (.int n) arg = false := by
  by_cases hbound : ∃ b, IsBound arg b
  · obtain ⟨b, harg⟩ := hbound
    rw [Bool.eq_false_iff, ne_eq, min_iff harg (.int n)]
    omega
  · exact compareBound_eq_false (Or.inl (not_exists.mp hbound)) _

theorem min_antitone {arg' : String} {b' : Nat} (harg : IsBound arg b) (harg' : IsBound arg' b')
    (hb : b ≤ b') (h : min v arg' = true) : min v arg = true := by
  by_cases hv : ∃ m, v.Measures m
  · obtain ⟨m, hv⟩ := hv
    rw [min_iff harg' hv] at h
    rw [min_iff harg hv]
    omega
  · rw [min, compareBound_eq_false (Or.inr (not_exists.mp hv))] at h
    cases h

theorem max_monotone {arg' : String} {b' : Nat} (harg : IsBound arg b) (harg' : IsBound arg' b')
    (hb : b ≤ b') (h : max v arg = true) : max v arg' = true := by
  by_cases hv : ∃ m, v.Measures m
  · obtain ⟨m, hv⟩ := hv
    rw [max_iff harg hv] at h
    rw [max_iff harg' hv]
    omega
  · rw [max, compareBound_eq_false (Or.inr (not_exists.mp hv))] at h
    cases h

/-- The length of a text is below every bound that `fixed` cannot read. -/
theorem fixed_iff {s : String} (hs : s.length < 2 ^ 63) (harg : IsBound arg b) :
    fixed (.str s) arg = true ↔ s.length = b := by
  rw [fixed, signed?_of_spellsNat harg.1, beq_iff_eq]
  split
  · rw [Option.some.injEq]
    omega
  · next hb =>
      have hb' : 2 ^ 63 ≤ b := Nat.le_of_not_lt hb
      refine iff_of_false nofun ?_
      omega

/-- With an unsigned 64-bit number as argument and a view that has a measure, `min` and `max`
compare the two as integers: one of them holds, and both do only if measure and bound are
equal.  A greater bound makes `min` harder and `max` easier.  The outcome depends on the
measure only, so a signed and an unsigned number that are equal give the same, and a negative
number fails every `min` and passes every `max`.  For texts `fixed` holds if both do.  With any
other argument, or with a view that has no measure, `min` and `max` fail. -/
theorem bounds_characterization (v : View) (arg : String) :
    (∀ b m, IsBound arg b → v.Measures m →
      (min v arg = true ↔ (b : Int) ≤ m) ∧ (max v arg = true ↔ m ≤ (b : Int)) ∧
        (min v arg = true ∨ max v arg = true) ∧
        (min v arg = true ∧ max v arg = true ↔ m = b)) ∧
    (∀ arg' b b', IsBound arg b → IsBound arg' b' → b ≤ b' →
      (min v arg' = true → min v arg = true) ∧ (max v arg = true → max v arg' = true)) ∧
    (∀ v' m, v.Measures m → v'.Measures m →
      min v arg = min v' arg ∧ max v arg = max v' arg) ∧
    (∀ n : Nat, min (.int n) arg = min (.uint n) arg ∧ max (.int n) arg = max (.uint n) arg) ∧
    (∀ n : Int, n < 0 → min (.int n) arg = false ∧
      ∀ b, IsBound arg b → max (.int n) arg = true) ∧
    (∀ s : String, s.length < 2 ^ 63 → ∀ b, IsBound arg b →
      (fixed (.str s) arg = true ↔ min (.str s) arg = true ∧ max (.str s) arg = true)) ∧
    ((∀ b, ¬IsBound arg b) ∨ (∀ m, ¬v.Measures m) → min v arg = false ∧ max v arg = false) := by
  have hcongr {v v' : View} {m : Int} (hv : v.Measures m) (hv' : v'.Measures m) :
      min v arg = min v' arg ∧ max v arg = max v' arg :=
    ⟨compareBound_congr hv hv' _ arg, compareBound_congr hv hv' _ arg⟩
  refine ⟨?_, ?_, ?_, ?_, ?_, ?_, ?_⟩
  · intro b m harg hv
    rw [min_iff harg hv, max_iff harg hv]
    omega
  · intro arg' b b' harg harg' hb
    exact ⟨min_antitone harg harg' hb, max_monotone harg harg' hb⟩
  · intro v' m hv hv'
    exact hcongr hv hv'
  · intro n
    exact hcongr (.int n) (.uint n)
  · intro n hn
    exact ⟨min_of_negative hn arg, fun b harg => (max_iff harg (.int n)).mpr (by omega)⟩
  · intro s hs b harg
    rw [fixed_iff hs harg, min_iff harg (.str s), max_iff harg (.str s)]
    omega
  · intro h
    exact ⟨compareBound_eq_false h _, compareBound_eq_false h _⟩

/-- A bound beyond the signed numbers is one for `max`, and no bound may be negative. -/
example : max (.int (-1)) "9223372036854775808" = true ∧ min (.uint 5) "-1" = false := by
  decide

end DefaultRules

end RecordKit
