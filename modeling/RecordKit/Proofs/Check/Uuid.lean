import Mathlib.Algebra.BigOperators.Group.List.Basic
import RecordKit.Check.DefaultRules
import RecordKit.Proofs.Text.Languages

/-!
# Identifiers

The pattern of the rule `uuid` is a row of 36 ranges, one for each position (`uuidClass`), so it
accepts a text if every position has one of its characters (`uuidChars`).  Ranges that ignore
case take in the Kelvin sign for k and the long s for s.  No range of an identifier has these
letters, so only ASCII characters are taken.
-/

namespace RecordKit.DefaultRules

open Text
open Text.Pattern (takes rangeLanguage)

/-- The characters that an identifier may have at a position. -/
def uuidChars (i : Nat) : List Char :=
  if i ∈ [8, 13, 18, 23] then ['-']
  else if i = 14 then "12345".toList
  else if i = 19 then "89abAB".toList
  else "0123456789abcdefABCDEF".toList

/-- The ranges of a hexadecimal digit. -/
def hexClass : Bool × Ranges :=
  (true, [('0', '9'), ('a', 'f')])

/-- The range of a hyphen. -/
def hyphenClass : Bool × Ranges :=
  (false, [('-', '-')])

/-- The ranges of a position. -/
def uuidClass (i : Nat) : Bool × Ranges :=
  if i ∈ [8, 13, 18, 23] then hyphenClass
  else if i = 14 then (true, [('1', '5')])
  else if i = 19 then (true, [('8', '8'), ('9', '9'), ('a', 'a'), ('b', 'b')])
  else hexClass

/-! ## ASCII and other characters -/

/-- What holds of the characters below 128 one by one holds of every ASCII character. -/
theorem forall_ascii {P : Char → Prop} (h : ∀ n < 128, P (Char.ofNat n)) {c : Char}
    (hc : c.toNat < 128) : P c := by
  rw [← c.ofNat_toNat]
  exact h c.toNat hc

variable {c : Char}

theorem toLower_of_not_ascii (hc : 128 ≤ c.toNat) : c.toLower = c := by
  have hupper : ¬c.val ≤ 'Z'.val := by
    rw [UInt32.le_iff_toNat_le]
    exact Nat.not_le_of_lt (Nat.lt_of_lt_of_le (by decide) hc)
  exact dif_neg fun h => hupper h.2

theorem toUpper_of_not_ascii (hc : 128 ≤ c.toNat) : c.toUpper = c := by
  have hlower : ¬c.val ≤ 'z'.val := by
    rw [UInt32.le_iff_toNat_le]
    exact Nat.not_le_of_lt (Nat.lt_of_lt_of_le (by decide) hc)
  exact dif_neg fun h => hlower h.2

theorem contains_of_not_ascii {ranges : Ranges}
    (hends : ranges.all (fun r => r.2.toNat < 128) = true) (hc : 128 ≤ c.toNat) :
    ranges.contains c = false := by
  rw [Ranges.contains, List.any_eq_false]
  intro r hr hin
  rw [Bool.and_eq_true, decide_eq_true_eq, decide_eq_true_eq] at hin
  have hle : c.toNat ≤ r.2.toNat := hin.2
  have hlt : r.2.toNat < 128 := of_decide_eq_true (List.all_eq_true.mp hends r hr)
  omega

/-- Ranges of ASCII characters take no others, except for the letters k and s. -/
theorem takes_of_not_ascii {anyCase : Bool} {ranges : Ranges}
    (hends : ranges.all (fun r => r.2.toNat < 128) = true)
    (hfolded : ['k', 'K', 's', 'S'].any ranges.contains = false) (hc : 128 ≤ c.toNat) :
    takes anyCase ranges c = false := by
  have hself := contains_of_not_ascii hends hc
  have hkelvin := contains_of_not_ascii (c := Char.ofNat 0x212A) hends (by decide)
  have hlong := contains_of_not_ascii (c := Char.ofNat 0x17F) hends (by decide)
  simp only [List.any_cons, List.any_nil, Bool.or_eq_false_iff] at hfolded
  obtain ⟨hk, hK, hs, hS, -⟩ := hfolded
  unfold takes caseVariants
  split_ifs
  · simp only [List.any_cons, List.any_nil, hk, hK, hkelvin, Bool.or_false]
  · simp only [List.any_cons, List.any_nil, hs, hS, hlong, Bool.or_false]
  · rw [toLower_of_not_ascii hc, toUpper_of_not_ascii hc]
    simp only [List.any_cons, List.any_nil, hself, Bool.or_false]
  · exact hself

/-! ## Positions -/

theorem toNat_lt_of_mem_uuidChars {i : Nat} (h : c ∈ uuidChars i) : c.toNat < 128 := by
  have hall : (uuidChars i).all (fun d => d.toNat < 128) = true := by
    unfold uuidChars
    split_ifs
    all_goals decide +kernel
  exact of_decide_eq_true (List.all_eq_true.mp hall c h)

theorem takes_uuidClass_iff (i : Nat) :
    takes (uuidClass i).1 (uuidClass i).2 c = true ↔ c ∈ uuidChars i := by
  rcases Nat.lt_or_ge c.toNat 128 with hc | hc
  · unfold uuidClass uuidChars
    split_ifs
    all_goals
      exact forall_ascii (P := fun c => takes _ _ c = true ↔ c ∈ _) (by decide +kernel) hc
  · have htakes : takes (uuidClass i).1 (uuidClass i).2 c = false := by
      unfold uuidClass
      split_ifs
      all_goals exact takes_of_not_ascii (by decide +kernel) (by decide +kernel) hc
    rw [htakes]
    exact iff_of_false nofun fun h => absurd (toNat_lt_of_mem_uuidChars h) (Nat.not_lt_of_le hc)

theorem toLower_mem_uuidChars_iff (i : Nat) : c.toLower ∈ uuidChars i ↔ c ∈ uuidChars i := by
  rcases Nat.lt_or_ge c.toNat 128 with hc | hc
  · unfold uuidChars
    split_ifs
    all_goals
      exact forall_ascii (P := fun c => c.toLower ∈ _ ↔ c ∈ _) (by decide +kernel) hc
  · rw [toLower_of_not_ascii hc]

/-- The pattern is a row of the ranges of all positions. -/
theorem language_uuidPattern :
    uuidPattern.language =
      (((List.range 36).map uuidClass).map fun k => rangeLanguage k.1 k.2).prod := by
  have hrow : (List.range 36).map uuidClass =
      List.replicate 8 hexClass ++ [hyphenClass] ++ List.replicate 4 hexClass ++ [hyphenClass] ++
      [(true, [('1', '5')])] ++ List.replicate 3 hexClass ++ [hyphenClass] ++
      [(true, [('8', '8'), ('9', '9'), ('a', 'a'), ('b', 'b')])] ++ List.replicate 3 hexClass ++
      [hyphenClass] ++ List.replicate 12 hexClass := rfl
  rw [hrow, uuidPattern, Pattern.language_inOrder]
  simp only [List.map_cons, List.map_nil, List.map_append, List.map_replicate, List.prod_append,
    List.prod_replicate, List.prod_cons, List.prod_nil, mul_one, Pattern.language_exactly,
    mul_assoc]
  rfl

theorem mem_language_uuidPattern_iff (cs : List Char) :
    cs ∈ uuidPattern.language ↔ cs.length = 36 ∧ ∀ i c, cs[i]? = some c → c ∈ uuidChars i := by
  rw [language_uuidPattern, Pattern.mem_range_prod_iff, List.forall₂_map_left_iff,
    List.forall₂_iff_get]
  simp only [List.length_range, List.get_eq_getElem, List.getElem_range, takes_uuidClass_iff,
    List.getElem?_eq_some_iff]
  constructor
  · rintro ⟨hlength, hall⟩
    refine ⟨hlength.symm, ?_⟩
    rintro i c ⟨hi, rfl⟩
    exact hall i (hlength ▸ hi) hi
  · rintro ⟨hlength, hall⟩
    exact ⟨hlength.symm, fun i _ hi => hall i cs[i] ⟨hi, rfl⟩⟩

theorem uuid_iff (s arg : String) :
    uuid (.str s) arg = true ↔
      s.length = 36 ∧ ∀ i c, s.toList[i]? = some c → c ∈ uuidChars i := by
  rw [uuid, Pattern.accepts_iff_mem_language, mem_language_uuidPattern_iff, String.length_toList]

/-- The lower-case text may stand for the text. -/
theorem uuid_iff_toLower (s arg : String) :
    uuid (.str s) arg = true ↔
      (s.toList.map Char.toLower).length = 36 ∧
        ∀ i c, (s.toList.map Char.toLower)[i]? = some c → c ∈ uuidChars i := by
  rw [uuid_iff, ← String.length_toList]
  simp [toLower_mem_uuidChars_iff]

theorem uuid_congr {s t : String} (h : s.toList.map Char.toLower = t.toList.map Char.toLower)
    (arg arg' : String) : uuid (.str s) arg = uuid (.str t) arg' := by
  rw [Bool.eq_iff_iff, uuid_iff_toLower, uuid_iff_toLower, h]

theorem uuid_of_not_ascii {s : String} (hc : c ∈ s.toList) (hwide : 128 ≤ c.toNat)
    (arg : String) : uuid (.str s) arg = false := by
  rw [Bool.eq_false_iff, ne_eq, uuid_iff]
  rintro ⟨-, hall⟩
  obtain ⟨i, hi⟩ := List.getElem?_of_mem hc
  exact absurd (toNat_lt_of_mem_uuidChars (hall i c hi)) (Nat.not_lt_of_le hwide)

/-- The rule `uuid` accepts a text of 36 characters that has at each position one of those for
the position, so the case of its letters does not matter and a character outside ASCII is never
accepted. -/
theorem uuid_characterization (s arg : String) :
    (uuid (.str s) arg = true ↔
      s.length = 36 ∧ ∀ i c, s.toList[i]? = some c → c ∈ uuidChars i) ∧
    (∀ t arg', s.toList.map Char.toLower = t.toList.map Char.toLower →
      uuid (.str s) arg = uuid (.str t) arg') ∧
    ((∃ c ∈ s.toList, 128 ≤ c.toNat) → uuid (.str s) arg = false) := by
  refine ⟨uuid_iff s arg, ?_, ?_⟩
  · intro t arg' h
    exact uuid_congr h arg arg'
  · rintro ⟨c, hc, hwide⟩
    exact uuid_of_not_ascii hc hwide arg

end RecordKit.DefaultRules
