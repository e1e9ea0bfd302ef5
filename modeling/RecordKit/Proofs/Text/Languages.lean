import Mathlib.Computability.Language
import RecordKit.Text.Pattern

/-!
# The languages of patterns

The language of a pattern is built from those of its parts by union, concatenation and
iteration.  The derivative by a character has the language of what may follow the
character, so `Pattern.accepts` decides the language of the whole pattern
(`accepts_iff_mem_language`).

Repeated ranges of characters have languages that can be said without any iteration: texts
of a certain length with all characters in the ranges.
-/

namespace RecordKit.Text

open Computability

/-! ## Texts of joined languages -/

theorem nil_mem_mul_iff (k l : Language Char) : [] ∈ k * l ↔ [] ∈ k ∧ [] ∈ l := by
  rw [Language.mem_mul]
  constructor
  · rintro ⟨before, hbefore, behind, hbehind, hnil⟩
    obtain ⟨rfl, rfl⟩ := List.append_eq_nil_iff.mp hnil
    exact ⟨hbefore, hbehind⟩
  · rintro ⟨hk, hl⟩
    exact ⟨[], hk, [], hl, rfl⟩

/-- The first character belongs to the first language, unless that has the empty text. -/
theorem cons_mem_mul_iff (k l : Language Char) (c : Char) (cs : List Char) :
    c :: cs ∈ k * l ↔
      (∃ before, c :: before ∈ k ∧ ∃ behind ∈ l, before ++ behind = cs) ∨
        [] ∈ k ∧ c :: cs ∈ l := by
  rw [Language.mem_mul]
  constructor
  · rintro ⟨before, hbefore, behind, hbehind, hcs⟩
    cases before with
    | nil => exact Or.inr ⟨hbefore, hcs ▸ hbehind⟩
    | cons first before =>
        obtain ⟨rfl, rfl⟩ := List.cons.inj hcs
        exact Or.inl ⟨before, hbefore, behind, hbehind, rfl⟩
  · rintro (⟨before, hbefore, behind, hbehind, rfl⟩ | ⟨hnil, hcs⟩)
    · exact ⟨c :: before, hbefore, behind, hbehind, rfl⟩
    · exact ⟨[], hnil, c :: cs, hcs, rfl⟩

theorem cons_mem_kstar_iff (l : Language Char) (c : Char) (cs : List Char) :
    c :: cs ∈ l∗ ↔ ∃ before, c :: before ∈ l ∧ ∃ behind ∈ l∗, before ++ behind = cs := by
  constructor
  · rw [Language.mem_kstar_iff_exists_nonempty]
    rintro ⟨parts, hparts, hmem⟩
    cases parts with
    | nil => cases hparts
    | cons part parts =>
        obtain ⟨hpart, hne⟩ := hmem part List.mem_cons_self
        cases part with
        | nil => exact absurd rfl hne
        | cons first before =>
            obtain ⟨rfl, rfl⟩ := List.cons.inj hparts
            have hrest : parts.flatten ∈ l∗ :=
              Language.join_mem_kstar fun y hy => (hmem y (List.mem_cons_of_mem _ hy)).1
            exact ⟨before, hpart, parts.flatten, hrest, rfl⟩
  · rintro ⟨before, hbefore, behind, hbehind, rfl⟩
    rw [← Language.one_add_self_mul_kstar_eq_kstar]
    exact Or.inr (Language.append_mem_mul hbefore hbehind)

namespace Pattern

/-- The texts of one character in ranges of characters. -/
def rangeLanguage (anyCase : Bool) (ranges : Ranges) : Language Char :=
  {cs | ∃ c, takes anyCase ranges c = true ∧ cs = [c]}

/-- The texts that a pattern describes. -/
def language : Pattern → Language Char
  | nothing => 0
  | blank => 1
  | oneOf anyCase ranges => rangeLanguage anyCase ranges
  | seq p q => p.language * q.language
  | either p q => p.language + q.language
  | many p => p.language∗

/-! ## Derivatives -/

theorem language_seq' (p q : Pattern) : (seq' p q).language = p.language * q.language := by
  cases p with
  | nothing => exact (zero_mul _).symm
  | blank => exact (one_mul _).symm
  | oneOf | seq | either | many => rfl

theorem language_either' (p q : Pattern) : (either' p q).language = p.language + q.language := by
  unfold either'
  split
  · exact (zero_add _).symm
  · exact (add_zero _).symm
  · rfl

theorem acceptsEmpty_iff (p : Pattern) : p.acceptsEmpty = true ↔ [] ∈ p.language := by
  induction p with
  | nothing => exact iff_of_false nofun (Language.notMem_zero _)
  | blank => exact iff_of_true rfl Language.nil_mem_one
  | oneOf anyCase ranges => exact iff_of_false nofun nofun
  | seq p q ihp ihq => rw [acceptsEmpty, Bool.and_eq_true, ihp, ihq, language, nil_mem_mul_iff]
  | either p q ihp ihq => rw [acceptsEmpty, Bool.or_eq_true, ihp, ihq, language, Language.mem_add]
  | many p ih => exact iff_of_true rfl (Language.nil_mem_kstar _)

/-- The derivative describes what may follow the character. -/
theorem mem_language_derivative (c : Char) (p : Pattern) (cs : List Char) :
    cs ∈ (p.derivative c).language ↔ c :: cs ∈ p.language := by
  induction p generalizing cs with
  | nothing => exact iff_of_false (Language.notMem_zero _) (Language.notMem_zero _)
  | blank => exact iff_of_false (Language.notMem_zero _) nofun
  | oneOf anyCase ranges =>
      rw [derivative]
      split
      · next htakes =>
          constructor
          · rintro rfl
            exact ⟨c, htakes, rfl⟩
          · rintro ⟨d, -, hd⟩
            exact (List.cons.inj hd).2
      · next htakes =>
          refine iff_of_false (Language.notMem_zero _) ?_
          rintro ⟨d, hd, hcons⟩
          obtain rfl := (List.cons.inj hcons).1
          exact htakes hd
  | seq p q ihp ihq =>
      have hfirst : cs ∈ (p.derivative c).language * q.language ↔
          ∃ before, c :: before ∈ p.language ∧ ∃ behind ∈ q.language, before ++ behind = cs := by
        simp only [Language.mem_mul, ihp]
      rw [derivative, language, cons_mem_mul_iff]
      split
      · next hempty =>
          rw [language_either', language_seq', Language.mem_add, hfirst, ihq]
          simp [(acceptsEmpty_iff p).mp hempty]
      · next hempty =>
          rw [language_seq', hfirst]
          simp [mt (acceptsEmpty_iff p).mpr hempty]
  | either p q ihp ihq =>
      rw [derivative, language_either', language, Language.mem_add, Language.mem_add, ihp, ihq]
  | many p ih =>
      rw [derivative, language_seq', language, cons_mem_kstar_iff, Language.mem_mul]
      simp only [ih]

/-- A pattern accepts exactly the texts in its language. -/
theorem accepts_iff_mem_language (p : Pattern) (cs : List Char) :
    p.accepts cs = true ↔ cs ∈ p.language := by
  induction cs generalizing p with
  | nil => exact acceptsEmpty_iff p
  | cons c cs ih => rw [accepts, ih, mem_language_derivative]

/-! ## Sequences -/

theorem language_inOrder (ps : List Pattern) :
    (inOrder ps).language = (ps.map language).prod := by
  induction ps with
  | nil => rfl
  | cons p ps ih =>
      cases ps with
      | nil => simp [inOrder]
      | cons q ps =>
          rw [List.map_cons, List.prod_cons, ← ih]
          rfl

theorem language_exactly (p : Pattern) (n : Nat) : (exactly p n).language = p.language ^ n := by
  induction n with
  | zero => rfl
  | succ n ih => rw [exactly, language, ih, pow_succ']

theorem mem_language_some_iff (p : Pattern) (cs : List Char) :
    cs ∈ (Pattern.some p).language ↔
      ∃ parts, parts ≠ [] ∧ (∀ part ∈ parts, part ∈ p.language) ∧ parts.flatten = cs := by
  simp only [Pattern.some, language, Language.mem_mul, Language.mem_kstar]
  constructor
  · rintro ⟨part, hpart, _, ⟨parts, rfl, hparts⟩, rfl⟩
    exact ⟨part :: parts, List.cons_ne_nil _ _, List.forall_mem_cons.mpr ⟨hpart, hparts⟩, rfl⟩
  · rintro ⟨parts, hne, hparts, rfl⟩
    obtain ⟨part, parts, rfl⟩ := List.exists_cons_of_ne_nil hne
    obtain ⟨hpart, hparts⟩ := List.forall_mem_cons.mp hparts
    exact ⟨part, hpart, parts.flatten, ⟨parts, rfl, hparts⟩, rfl⟩

/-! ## Ranges of characters -/

variable {anyCase : Bool} {ranges : Ranges} {cs : List Char}

theorem mem_rangeLanguage_iff :
    cs ∈ rangeLanguage anyCase ranges ↔ ∃ c, takes anyCase ranges c = true ∧ cs = [c] :=
  Iff.rfl

theorem mem_range_mul_iff (l : Language Char) :
    cs ∈ rangeLanguage anyCase ranges * l ↔
      ∃ c, takes anyCase ranges c = true ∧ ∃ rest ∈ l, cs = c :: rest := by
  rw [Language.mem_mul]
  constructor
  · rintro ⟨_, ⟨c, hc, rfl⟩, rest, hrest, rfl⟩
    exact ⟨c, hc, rest, hrest, rfl⟩
  · rintro ⟨c, hc, rest, hrest, rfl⟩
    exact ⟨[c], ⟨c, hc, rfl⟩, rest, hrest, rfl⟩

theorem mem_mul_range_iff (l : Language Char) :
    cs ∈ l * rangeLanguage anyCase ranges ↔
      ∃ front ∈ l, ∃ c, takes anyCase ranges c = true ∧ cs = front ++ [c] := by
  rw [Language.mem_mul]
  constructor
  · rintro ⟨front, hfront, _, ⟨c, hc, rfl⟩, rfl⟩
    exact ⟨front, hfront, c, hc, rfl⟩
  · rintro ⟨front, hfront, c, hc, rfl⟩
    exact ⟨front, hfront, [c], ⟨c, hc, rfl⟩, rfl⟩

/-- Any number of characters in the ranges. -/
theorem mem_range_kstar_iff :
    cs ∈ (rangeLanguage anyCase ranges)∗ ↔ ∀ c ∈ cs, takes anyCase ranges c = true := by
  induction cs with
  | nil => exact iff_of_true (Language.nil_mem_kstar _) (List.forall_mem_nil _)
  | cons c cs ih =>
      rw [← Language.one_add_self_mul_kstar_eq_kstar, Language.mem_add, mem_range_mul_iff,
        List.forall_mem_cons, ← ih]
      constructor
      · rintro (hnil | ⟨d, hd, rest, hrest, hcons⟩)
        · cases hnil
        · obtain ⟨rfl, rfl⟩ := List.cons.inj hcons
          exact ⟨hd, hrest⟩
      · rintro ⟨hc, hcs⟩
        exact Or.inr ⟨c, hc, cs, hcs, rfl⟩

theorem mem_range_pow_iff (n : Nat) :
    cs ∈ rangeLanguage anyCase ranges ^ n ↔
      cs.length = n ∧ ∀ c ∈ cs, takes anyCase ranges c = true := by
  induction n generalizing cs with
  | zero =>
      rw [pow_zero, Language.mem_one, List.length_eq_zero_iff, iff_self_and]
      rintro rfl
      exact List.forall_mem_nil _
  | succ n ih =>
      rw [pow_succ', mem_range_mul_iff]
      simp only [ih]
      constructor
      · rintro ⟨c, hc, rest, ⟨rfl, hrest⟩, rfl⟩
        exact ⟨rfl, List.forall_mem_cons.mpr ⟨hc, hrest⟩⟩
      · rintro ⟨hlength, hall⟩
        cases cs with
        | nil => cases hlength
        | cons c rest =>
            obtain ⟨hc, hrest⟩ := List.forall_mem_cons.mp hall
            exact ⟨c, hc, rest, ⟨Nat.succ.inj hlength, hrest⟩, rfl⟩

theorem mem_language_atMost_range_iff (n : Nat) :
    cs ∈ (atMost (oneOf anyCase ranges) n).language ↔
      cs.length ≤ n ∧ ∀ c ∈ cs, takes anyCase ranges c = true := by
  induction n generalizing cs with
  | zero =>
      rw [atMost, language, Language.mem_one, Nat.le_zero, List.length_eq_zero_iff, iff_self_and]
      rintro rfl
      exact List.forall_mem_nil _
  | succ n ih =>
      simp only [atMost, optional, language, Language.mem_add, mem_range_mul_iff, ih]
      constructor
      · rintro (⟨c, hc, rest, ⟨hlength, hrest⟩, rfl⟩ | rfl)
        · exact ⟨Nat.succ_le_succ hlength, List.forall_mem_cons.mpr ⟨hc, hrest⟩⟩
        · exact ⟨Nat.zero_le _, List.forall_mem_nil _⟩
      · rintro ⟨hlength, hall⟩
        cases cs with
        | nil => exact Or.inr rfl
        | cons c rest =>
            obtain ⟨hc, hrest⟩ := List.forall_mem_cons.mp hall
            exact Or.inl ⟨c, hc, rest, ⟨Nat.le_of_succ_le_succ hlength, hrest⟩, rfl⟩

theorem mem_language_atLeast_range_iff (n : Nat) :
    cs ∈ (seq (exactly (oneOf anyCase ranges) n) (many (oneOf anyCase ranges))).language ↔
      n ≤ cs.length ∧ ∀ c ∈ cs, takes anyCase ranges c = true := by
  simp only [language, language_exactly, Language.mem_mul, mem_range_pow_iff, mem_range_kstar_iff]
  constructor
  · rintro ⟨front, ⟨rfl, hfront⟩, rest, hrest, rfl⟩
    exact ⟨by simp, List.forall_mem_append.mpr ⟨hfront, hrest⟩⟩
  · rintro ⟨hlength, hall⟩
    have hfront : ∀ c ∈ cs.take n, takes anyCase ranges c = true :=
      fun c hc => hall c (List.mem_of_mem_take hc)
    have hrest : ∀ c ∈ cs.drop n, takes anyCase ranges c = true :=
      fun c hc => hall c (List.mem_of_mem_drop hc)
    exact ⟨cs.take n, ⟨List.length_take_of_le hlength, hfront⟩, cs.drop n, hrest,
      List.take_append_drop n cs⟩

/-- One or more characters in the ranges. -/
theorem mem_language_some_range_iff :
    cs ∈ (Pattern.some (oneOf anyCase ranges)).language ↔
      cs ≠ [] ∧ ∀ c ∈ cs, takes anyCase ranges c = true := by
  simp only [Pattern.some, language, mem_range_mul_iff, mem_range_kstar_iff]
  constructor
  · rintro ⟨c, hc, rest, hrest, rfl⟩
    exact ⟨List.cons_ne_nil _ _, List.forall_mem_cons.mpr ⟨hc, hrest⟩⟩
  · rintro ⟨hne, hall⟩
    obtain ⟨c, rest, rfl⟩ := List.exists_cons_of_ne_nil hne
    obtain ⟨hc, hrest⟩ := List.forall_mem_cons.mp hall
    exact ⟨c, hc, rest, hrest, rfl⟩

/-- A row of ranges takes one character each. -/
theorem mem_range_prod_iff (row : List (Bool × Ranges)) :
    cs ∈ (row.map fun k => rangeLanguage k.1 k.2).prod ↔
      List.Forall₂ (fun k c => takes k.1 k.2 c = true) row cs := by
  induction row generalizing cs with
  | nil => rw [List.map_nil, List.prod_nil, Language.mem_one, List.forall₂_nil_left_iff]
  | cons k row ih =>
      rw [List.map_cons, List.prod_cons, mem_range_mul_iff, List.forall₂_cons_left_iff]
      simp only [ih, exists_and_left]

end Pattern

end RecordKit.Text
