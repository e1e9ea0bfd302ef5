import RecordKit.Check.DefaultRules
import RecordKit.Proofs.Text.Languages
import RecordKit.Proofs.Text.Trimming

/-!
# Mail addresses

The rule `email` takes an address apart at its only at sign and at every dot behind it.  The
language of its pattern is a product of four: local parts, the at sign, first labels
(`mem_language_label_iff`) and runs of further labels with a dot before each
(`mem_language_further_iff`).  None of the parts contains the character that ends it, so the
factors of an address are the pieces that splitting gives (`email_iff`).
-/

namespace RecordKit.DefaultRules

open Text
open Text.Pattern (takes rangeLanguage)

/-! ## The parts of an address -/

/-- What stands before the at sign. -/
structure IsLocalPart (cs : List Char) : Prop where
  ne_nil : cs ≠ []
  chars : ∀ c ∈ cs, c.isAlphanum = true ∨ c ∈ ".!#$%&'*+/=?^_`\x7b|\x7d~-".toList

/-- What stands between the at sign and the first dot behind it. -/
structure IsLabel (cs : List Char) : Prop where
  ne_nil : cs ≠ []
  length_le : cs.length ≤ 63
  chars : ∀ c ∈ cs, c.isAlphanum = true ∨ c = '-'
  head : cs.head? ≠ some '-'
  last : cs.getLast? ≠ some '-'

/-- What stands behind any other dot. -/
structure IsLetterLabel (cs : List Char) : Prop where
  two_le_length : 2 ≤ cs.length
  chars : ∀ c ∈ cs, c.isAlpha = true

/-! ## Ranges of characters -/

theorem takes_as_given (ranges : Ranges) (c : Char) : takes false ranges c = ranges.contains c :=
  rfl

theorem contains_append (ranges ranges' : Ranges) (c : Char) :
    (ranges ++ ranges').contains c = (ranges.contains c || ranges'.contains c) :=
  List.any_append

/-- Ranges of one character each are a list of characters. -/
theorem contains_singles_iff (cs : List Char) (c : Char) :
    Ranges.contains (cs.map fun d => (d, d)) c = true ↔ c ∈ cs := by
  rw [Ranges.contains, List.any_map, List.any_eq_true]
  simp only [Function.comp, Bool.and_eq_true, decide_eq_true_eq]
  constructor
  · rintro ⟨d, hd, hle, hge⟩
    rwa [Char.le_antisymm hge hle]
  · intro hc
    exact ⟨c, hc, Char.le_refl c, Char.le_refl c⟩

theorem contains_digits (c : Char) : digits.contains c = c.isDigit := by
  simp only [Ranges.contains, digits, List.any_cons, List.any_nil, Bool.or_false]
  rfl

theorem contains_letters (c : Char) : letters.contains c = c.isAlpha := by
  have halpha : c.isAlpha = (c.isUpper || c.isLower) := rfl
  have hupper : c.isUpper = true ↔ 'A' ≤ c ∧ c ≤ 'Z' := decide_eq_true_iff
  have hlower : c.isLower = (decide ('a' ≤ c) && decide (c ≤ 'z')) := rfl
  rw [Bool.eq_iff_iff, halpha, Bool.or_eq_true, hupper, hlower, or_comm]
  simp [Ranges.contains, letters]

theorem contains_alphanum (c : Char) : (letters ++ digits).contains c = c.isAlphanum := by
  rw [contains_append, contains_letters, contains_digits, Char.isAlphanum]

/-! ## The languages of the parts -/

variable {cs : List Char}

theorem mem_language_local_iff :
    cs ∈ (Pattern.some (.oneOf false (letters ++ digits ++ localMarks))).language ↔
      IsLocalPart cs := by
  have hchar (c : Char) : takes false (letters ++ digits ++ localMarks) c = true ↔
      c.isAlphanum = true ∨ c ∈ ".!#$%&'*+/=?^_`\x7b|\x7d~-".toList := by
    rw [takes_as_given, contains_append, Bool.or_eq_true, contains_alphanum]
    exact or_congr_right (contains_singles_iff _ c)
  simp only [Pattern.mem_language_some_range_iff, hchar]
  exact ⟨fun ⟨hne, hchars⟩ => ⟨hne, hchars⟩, fun h => ⟨h.ne_nil, h.chars⟩⟩

theorem takes_alphanum_iff (c : Char) :
    takes false (letters ++ digits) c = true ↔ c.isAlphanum = true := by
  rw [takes_as_given, contains_alphanum]

theorem takes_labelChar_iff (c : Char) :
    takes false (letters ++ digits ++ [('-', '-')]) c = true ↔ c.isAlphanum = true ∨ c = '-' := by
  rw [takes_as_given, contains_append, Bool.or_eq_true, contains_alphanum]
  exact or_congr_right ((contains_singles_iff ['-'] c).trans List.mem_singleton)

/-- A first label is a letter or digit, and unless that is all, at most 61 characters and
another letter or digit follow. -/
theorem isLabel_cons_iff {c : Char} :
    IsLabel (c :: cs) ↔ c.isAlphanum = true ∧
      ((∃ mid, (mid.length ≤ 61 ∧ ∀ e ∈ mid, e.isAlphanum = true ∨ e = '-') ∧
        ∃ d, d.isAlphanum = true ∧ cs = mid ++ [d]) ∨ cs = []) := by
  have hne {d : Char} (hd : d.isAlphanum = true) : some d ≠ some '-' := by
    rintro ⟨⟩
    cases hd
  have hlast (mid : List Char) (d : Char) : (c :: (mid ++ [d])).getLast? = some d := by
    rw [← List.cons_append, List.getLast?_concat]
  have hlength (mid : List Char) (d : Char) : (c :: (mid ++ [d])).length = mid.length + 2 := by
    rw [List.length_cons, List.length_append, List.length_singleton]
  constructor
  · intro h
    have hchar {d : Char} (hd : d ∈ c :: cs) (hhyphen : some d ≠ some '-') : d.isAlphanum = true :=
      (h.chars d hd).resolve_right fun heq => hhyphen (congrArg some heq)
    refine ⟨hchar List.mem_cons_self h.head, ?_⟩
    rcases List.eq_nil_or_concat' cs with rfl | ⟨mid, d, rfl⟩
    · exact Or.inr rfl
    · refine Or.inl ⟨mid, ⟨?_, ?_⟩, d, hchar (by simp) ?_, rfl⟩
      · have hle := h.length_le
        rw [hlength] at hle
        omega
      · intro e he
        exact h.chars e (List.mem_cons_of_mem _ (List.mem_append_left _ he))
      · rw [← hlast mid d]
        exact h.last
  · rintro ⟨hc, ⟨mid, ⟨hle, hmid⟩, d, hd, rfl⟩ | rfl⟩
    · constructor
      · exact List.cons_ne_nil _ _
      · rw [hlength]
        omega
      · rw [List.forall_mem_cons, List.forall_mem_append, List.forall_mem_singleton]
        exact ⟨Or.inl hc, hmid, Or.inl hd⟩
      · exact hne hc
      · rw [hlast]
        exact hne hd
    · exact ⟨List.cons_ne_nil _ _, Nat.le_of_ble_eq_true rfl,
        List.forall_mem_singleton.mpr (Or.inl hc), hne hc, hne hc⟩

theorem mem_language_label_iff :
    cs ∈ rangeLanguage false (letters ++ digits) *
        (Pattern.optional
          (.seq (.atMost (.oneOf false (letters ++ digits ++ [('-', '-')])) 61)
            (.oneOf false (letters ++ digits)))).language ↔
      IsLabel cs := by
  simp only [Pattern.mem_range_mul_iff, Pattern.optional, Pattern.language, Language.mem_add,
    Pattern.mem_mul_range_iff, Pattern.mem_language_atMost_range_iff, Language.mem_one,
    takes_alphanum_iff, takes_labelChar_iff]
  constructor
  · rintro ⟨c, hc, rest, hrest, rfl⟩
    exact isLabel_cons_iff.mpr ⟨hc, hrest⟩
  · intro h
    obtain ⟨c, rest, rfl⟩ := List.exists_cons_of_ne_nil h.ne_nil
    obtain ⟨hc, hrest⟩ := isLabel_cons_iff.mp h
    exact ⟨c, hc, rest, hrest, rfl⟩

theorem mem_language_char_iff (c : Char) : cs ∈ (Pattern.char c).language ↔ cs = [c] := by
  have htakes (d : Char) : takes false [(c, c)] d = true ↔ d = c := by
    rw [takes_as_given]
    exact (contains_singles_iff [c] d).trans List.mem_singleton
  simp only [Pattern.char, Pattern.language, Pattern.mem_rangeLanguage_iff, htakes,
    exists_eq_left]

theorem mem_language_letterLabel_iff :
    cs ∈ (Pattern.seq (.exactly (.oneOf false letters) 2)
        (.many (.oneOf false letters))).language ↔ IsLetterLabel cs := by
  have htakes (c : Char) : takes false letters c = true ↔ c.isAlpha = true := by
    rw [takes_as_given, contains_letters]
  simp only [Pattern.mem_language_atLeast_range_iff, htakes]
  exact ⟨fun ⟨hlength, hchars⟩ => ⟨hlength, hchars⟩, fun h => ⟨h.two_le_length, h.chars⟩⟩

/-- Further labels stand behind a dot each. -/
theorem mem_language_further_iff :
    cs ∈ (Pattern.some (.seq (.char '.')
        (.seq (.exactly (.oneOf false letters) 2) (.many (.oneOf false letters))))).language ↔
      ∃ labels, labels ≠ [] ∧ (∀ label ∈ labels, IsLetterLabel label) ∧
        labels.flatMap ('.' :: ·) = cs := by
  have hpart (part : List Char) : part ∈ (Pattern.seq (.char '.')
      (.seq (.exactly (.oneOf false letters) 2) (.many (.oneOf false letters)))).language ↔
      ∃ label, IsLetterLabel label ∧ '.' :: label = part := by
    rw [Pattern.language, Language.mem_mul]
    simp only [mem_language_char_iff, mem_language_letterLabel_iff]
    simp
  simp only [Pattern.mem_language_some_iff, hpart]
  constructor
  · rintro ⟨parts, hne, hparts, rfl⟩
    have hdot : ∀ part ∈ parts, IsLetterLabel part.tail ∧ '.' :: part.tail = part := by
      intro part hmem
      obtain ⟨label, hlabel, rfl⟩ := hparts part hmem
      exact ⟨hlabel, rfl⟩
    have hparts' : parts.map ('.' :: ·.tail) = parts :=
      (List.map_congr_left fun part hmem => (hdot part hmem).2).trans (List.map_id' parts)
    refine ⟨parts.map List.tail, by simpa using hne, ?_, ?_⟩
    · exact List.forall_mem_map.mpr fun part hmem => (hdot part hmem).1
    · rw [List.flatMap_map, List.flatMap_def, hparts']
  · rintro ⟨labels, hne, hlabels, rfl⟩
    refine ⟨labels.map ('.' :: ·), by simpa using hne, ?_, (List.flatMap_def).symm⟩
    exact List.forall_mem_map.mpr fun label hmem => ⟨label, hlabels label hmem, rfl⟩

/-- An address is taken apart into a local part, an at sign and labels. -/
theorem mem_language_emailPattern_iff :
    cs ∈ emailPattern.language ↔ ∃ before, IsLocalPart before ∧ ∃ first, IsLabel first ∧
      ∃ further, (further ≠ [] ∧ ∀ label ∈ further, IsLetterLabel label) ∧
        before ++ '@' :: (first ++ further.flatMap ('.' :: ·)) = cs := by
  rw [emailPattern, Pattern.language_inOrder]
  simp only [List.map_cons, List.map_nil, List.prod_cons, List.prod_nil, mul_one]
  -- The pattern has the first label as two factors.
  rw [← mul_assoc (Pattern.language (.oneOf _ _))]
  generalize hl : Pattern.language (.oneOf _ _) * Pattern.language (.optional _) = l
  have hlabel (label : List Char) : label ∈ l ↔ IsLabel label := hl ▸ mem_language_label_iff
  simp only [Language.mem_mul, mem_language_local_iff, mem_language_char_iff, hlabel,
    mem_language_further_iff]
  constructor
  · rintro ⟨before, hbefore, _, ⟨_, rfl, behind, hbehind, rfl⟩, rfl⟩
    obtain ⟨first, hfirst, _, ⟨further, hne, hall, rfl⟩, rfl⟩ := hbehind
    exact ⟨before, hbefore, first, hfirst, further, ⟨hne, hall⟩, rfl⟩
  · rintro ⟨before, hbefore, first, hfirst, further, ⟨hne, hall⟩, rfl⟩
    refine ⟨before, hbefore, _, ⟨['@'], rfl, _, ?_, rfl⟩, rfl⟩
    exact ⟨first, hfirst, _, ⟨further, hne, hall, rfl⟩, rfl⟩

/-! ## Addresses -/

theorem intercalate_cons (sep : Char) (first : List Char) (further : List (List Char)) :
    [sep].intercalate (first :: further) = first ++ further.flatMap (sep :: ·) := by
  induction further generalizing first with
  | nil => simp
  | cons second further ih =>
      rw [List.intercalate_cons_cons, ih, List.flatMap_cons, List.append_assoc]
      rfl

/-- The rule `email` accepts a text if it has one at sign, with a local part before that, and
what stands behind it falls apart at the dots into a first label and one or more further
labels. -/
theorem email_iff (s arg : String) :
    email (.str s) arg = true ↔
      ∃ before behind, s.toList = before ++ '@' :: behind ∧ '@' ∉ before ∧ '@' ∉ behind ∧
        IsLocalPart before ∧
        ∃ first further, pieces '.' behind = first :: further ∧ further ≠ [] ∧
          IsLabel first ∧ ∀ label ∈ further, IsLetterLabel label := by
  rw [email, Pattern.accepts_iff_mem_language, mem_language_emailPattern_iff]
  constructor
  · rintro ⟨before, hbefore, first, hfirst, further, ⟨hne, hfurther⟩, hs⟩
    have hdot : ∀ label ∈ first :: further, '.' ∉ label :=
      List.forall_mem_cons.mpr ⟨mt (hfirst.chars '.') (by decide),
        fun label hlabel => mt ((hfurther label hlabel).chars '.') (by decide)⟩
    have hat : '@' ∉ first ++ further.flatMap ('.' :: ·) := by
      rw [List.mem_append, List.mem_flatMap]
      rintro (hmem | ⟨label, hlabel, hmem⟩)
      · exact absurd (hfirst.chars '@' hmem) (by decide)
      · have hmem : '@' ∈ label := (List.mem_cons.mp hmem).resolve_left (by decide)
        exact absurd ((hfurther label hlabel).chars '@' hmem) (by decide)
    refine ⟨before, _, hs.symm, mt (hbefore.chars '@') (by decide), hat, hbefore, first, further,
      ?_, hne, hfirst, hfurther⟩
    rw [← intercalate_cons, pieces_intercalate (List.cons_ne_nil _ _) hdot]
  · rintro ⟨before, behind, hs, -, -, hbefore, first, further, hpieces, hne, hfirst, hfurther⟩
    refine ⟨before, hbefore, first, hfirst, further, ⟨hne, hfurther⟩, ?_⟩
    rw [hs, ← intercalate_pieces '.' behind, hpieces, intercalate_cons]

/-- A line feed at the end is no part of a label. -/
example : email (.str "ada@b-c.org") "" = true ∧ email (.str "ada@b-c.org\n") "" = false := by
  decide +kernel

end RecordKit.DefaultRules
