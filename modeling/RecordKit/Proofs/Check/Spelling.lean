import RecordKit.Check.Tag
import RecordKit.Proofs.Text.Trimming

/-!
# How rules are spelled in a tag

A rule is spelled by its name, and behind an equals sign by its argument if it has one;
blanks may stand around both.  The terms of a tag stand between commas, and blank terms
spell nothing.  There is no escaping, so not every rule has a spelling:
`Rule.Expressible` says which ones have.

`parseRules_spelling` says that the rules of a tag are the ones that it spells, that they
always are expressible, and that every list of expressible rules is the list of some tag,
in particular of the plain one that `renderRules` writes.
-/

namespace RecordKit

open Text

namespace Rule

/-- A rule that a tag can spell.  Names and arguments have no blanks at their ends and
no commas, names have no equals signs, and a rule without argument has a name. -/
structure Expressible (r : Rule) : Prop where
  name_trimmed : Trimmed r.name.toList
  name_comma : ',' ∉ r.name.toList
  name_equals : '=' ∉ r.name.toList
  arg : ∀ arg, r.arg = some arg → Trimmed arg.toList ∧ ',' ∉ arg.toList
  bare : r.arg = none → r.name ≠ ""

/-- A term spells a rule, with any blanks around the name and the argument. -/
inductive Spells (r : Rule) : List Char → Prop
  | bare {before behind : List Char} (arg : r.arg = none) (before_blank : AllBlank before)
      (behind_blank : AllBlank behind) : Spells r (before ++ r.name.toList ++ behind)
  | withArg {before left right behind : List Char} {arg : String} (arg_eq : r.arg = some arg)
      (before_blank : AllBlank before) (left_blank : AllBlank left)
      (right_blank : AllBlank right) (behind_blank : AllBlank behind) :
      Spells r ((before ++ r.name.toList ++ left) ++ '=' :: (right ++ arg.toList ++ behind))

/-- The shortest spelling of a rule. -/
def text (r : Rule) : String :=
  match r.arg with
  | none => r.name
  | some arg => r.name ++ "=" ++ arg

theorem spells_text (r : Rule) : r.Spells r.text.toList := by
  unfold text
  cases harg : r.arg with
  | none =>
      have hspells := Spells.bare harg allBlank_nil allBlank_nil
      simpa using hspells
  | some arg =>
      have hspells := Spells.withArg harg allBlank_nil allBlank_nil allBlank_nil allBlank_nil
      simpa using hspells

end Rule

/-- Terms spell rules: each term is blank, or it spells the next rule. -/
inductive SpellRules : List (List Char) → List Rule → Prop
  | done : SpellRules [] []
  | blank {term : List Char} {terms : List (List Char)} {rules : List Rule}
      (blank : AllBlank term) (rest : SpellRules terms rules) : SpellRules (term :: terms) rules
  | rule {term : List Char} {terms : List (List Char)} {r : Rule} {rules : List Rule}
      (spells : r.Spells term) (rest : SpellRules terms rules) :
      SpellRules (term :: terms) (r :: rules)

/-- The tag of rules without any blanks. -/
def renderRules (rules : List Rule) : String :=
  ",".intercalate (rules.map Rule.text)

/-! ## One term -/

theorem comma_not_blank : isBlank ',' = false := by
  decide

theorem equals_not_blank : isBlank '=' = false := by
  decide

namespace Rule

/-- A term without an equals sign is a name. -/
theorem ofTerm_trim_of_bare {term : List Char} (h : '=' ∉ term) :
    ofTerm (trim term) = ⟨String.ofList (trim term), none⟩ := by
  have hcut : cut '=' (trim term) = none :=
    (cut_eq_none_iff '=' _).mpr fun hmem => h (trim_subset term hmem)
  simp only [ofTerm, hcut]

/-- What stands around the first equals sign may be trimmed at once. -/
theorem ofTerm_trim_of_equals {left : List Char} (h : '=' ∉ left) (right : List Char) :
    ofTerm (trim (left ++ '=' :: right)) =
      ⟨String.ofList (trim left), some (String.ofList (trim right))⟩ := by
  obtain ⟨before, hbefore, hleft⟩ := exists_trimStart left
  obtain ⟨behind, hbehind, hright⟩ := exists_trimEnd right
  have hcut : cut '=' (trim (left ++ '=' :: right)) = some (trimStart left, trimEnd right) := by
    rw [trim_append_cons left equals_not_blank right]
    exact cut_append (fun hmem => h (trimStart_subset left hmem)) _
  have hname : trim (trimStart left) = trim left := by
    have hsame := trim_append_append hbefore (trimStart left) allBlank_nil
    rwa [List.append_nil, ← hleft, eq_comm] at hsame
  have harg : trim (trimEnd right) = trim right := by
    have hsame := trim_append_append allBlank_nil (trimEnd right) hbehind
    rwa [List.nil_append, ← hright, eq_comm] at hsame
  simp only [ofTerm, hcut, hname, harg]

variable {r : Rule} {term : List Char}

theorem Spells.comma_not_mem (h : r.Spells term) (hr : r.Expressible) : ',' ∉ term := by
  cases h with
  | bare _ hbefore hbehind =>
      simp [hr.name_comma, hbefore.not_mem comma_not_blank, hbehind.not_mem comma_not_blank]
  | withArg harg hbefore hleft hright hbehind =>
      simp [hr.name_comma, (hr.arg _ harg).2, hbefore.not_mem comma_not_blank,
        hleft.not_mem comma_not_blank, hright.not_mem comma_not_blank,
        hbehind.not_mem comma_not_blank]

/-- A spelling of an expressible rule is not blank and is read as that rule. -/
theorem Spells.ofTerm_trim (h : r.Spells term) (hr : r.Expressible) :
    trim term ≠ [] ∧ ofTerm (trim term) = r := by
  obtain ⟨name, arg⟩ := r
  cases h with
  | @bare before behind harg hbefore hbehind =>
      obtain rfl : arg = none := harg
      have htrim : trim (before ++ name.toList ++ behind) = name.toList :=
        (trim_append_append hbefore _ hbehind).trans hr.name_trimmed.trim_eq
      have hequals : '=' ∉ before ++ name.toList ++ behind := by
        simp [hr.name_equals, hbefore.not_mem equals_not_blank, hbehind.not_mem equals_not_blank]
      rw [ofTerm_trim_of_bare hequals, htrim, String.ofList_toList]
      exact ⟨by simpa using hr.bare rfl, rfl⟩
  | @withArg before left right behind arg' harg hbefore hleft hright hbehind =>
      obtain rfl : arg = some arg' := harg
      have hequals : '=' ∉ before ++ name.toList ++ left := by
        simp [hr.name_equals, hbefore.not_mem equals_not_blank, hleft.not_mem equals_not_blank]
      constructor
      · rw [trim_append_cons _ equals_not_blank]
        simp
      · rw [ofTerm_trim_of_equals hequals, trim_append_append hbefore _ hleft,
          trim_append_append hright _ hbehind, hr.name_trimmed.trim_eq,
          (hr.arg arg' rfl).1.trim_eq, String.ofList_toList, String.ofList_toList]

theorem expressible_of_trim {name : List Char} (arg : Option (List Char)) (hcomma : ',' ∉ name)
    (hequals : '=' ∉ name) (harg : ∀ cs, arg = some cs → ',' ∉ cs)
    (hbare : arg = none → trim name ≠ []) :
    Expressible ⟨String.ofList (trim name), arg.map fun cs => String.ofList (trim cs)⟩ where
  name_trimmed := by simpa using trimmed_trim name
  name_comma := by simpa using fun hmem => hcomma (trim_subset name hmem)
  name_equals := by simpa using fun hmem => hequals (trim_subset name hmem)
  arg := by
    intro text htext
    obtain ⟨cs, hcs, rfl⟩ := Option.map_eq_some_iff.mp htext
    rw [String.toList_ofList]
    exact ⟨trimmed_trim cs, fun hmem => harg cs hcs (trim_subset cs hmem)⟩
  bare := by
    intro hnone
    simpa using hbare (Option.map_eq_none_iff.mp hnone)

/-- A term that is not blank spells the rule it is read as, and that rule is
expressible. -/
theorem spells_ofTerm (hcomma : ',' ∉ term) (hblank : trim term ≠ []) :
    (ofTerm (trim term)).Expressible ∧ (ofTerm (trim term)).Spells term := by
  cases hcut : cut '=' term with
  | none =>
      have hequals : '=' ∉ term := (cut_eq_none_iff '=' term).mp hcut
      rw [ofTerm_trim_of_bare hequals]
      obtain ⟨-, before, behind, hbefore, hbehind, hterm⟩ := (trim_eq_iff term _).mp rfl
      have hspells := Spells.bare (r := ⟨String.ofList (trim term), none⟩) rfl hbefore hbehind
      rw [String.toList_ofList, ← hterm] at hspells
      have hrule := expressible_of_trim none hcomma hequals (by simp) fun _ => hblank
      exact ⟨hrule, hspells⟩
  | some sides =>
      obtain ⟨left, right⟩ := sides
      obtain ⟨rfl, hequals⟩ := (cut_eq_some_iff '=' term left right).mp hcut
      rw [List.mem_append, List.mem_cons, not_or, not_or] at hcomma
      rw [ofTerm_trim_of_equals hequals]
      obtain ⟨-, before, behind, hbefore, hbehind, hleft⟩ := (trim_eq_iff left _).mp rfl
      obtain ⟨-, before', behind', hbefore', hbehind', hright⟩ := (trim_eq_iff right _).mp rfl
      have hspells := Spells.withArg
        (r := ⟨String.ofList (trim left), some (String.ofList (trim right))⟩) rfl hbefore hbehind
        hbefore' hbehind'
      rw [String.toList_ofList, String.toList_ofList, ← hleft, ← hright] at hspells
      have hrule := expressible_of_trim (some right) hcomma.1 hequals
        (by simpa using hcomma.2.2) (by simp)
      exact ⟨hrule, hspells⟩

end Rule

/-! ## All terms -/

/-- The rules of the terms of a tag. -/
def rulesOfTerms (terms : List (List Char)) : List Rule :=
  ((terms.map trim).filter (· ≠ [])).map Rule.ofTerm

theorem parseRules_eq_rulesOfTerms (tag : String) :
    parseRules tag = rulesOfTerms (pieces ',' tag.toList) :=
  rfl

theorem rulesOfTerms_cons (term : List Char) (terms : List (List Char)) :
    rulesOfTerms (term :: terms) =
      if trim term = [] then rulesOfTerms terms
      else Rule.ofTerm (trim term) :: rulesOfTerms terms := by
  by_cases h : trim term = [] <;> simp [rulesOfTerms, h]

/-- The rules of two tags with a comma between them are those of the one and then those
of the other. -/
theorem parseRules_append (a b : String) :
    parseRules (a ++ "," ++ b) = parseRules a ++ parseRules b := by
  have hjoined : (a ++ "," ++ b).toList = a.toList ++ ',' :: b.toList := by
    simp
  simp only [parseRules_eq_rulesOfTerms, hjoined, pieces_append]
  simp only [rulesOfTerms, List.map_append, List.filter_append]

/-- A blank tag asks for no rules. -/
theorem parseRules_of_isBlankTag {tag : String} (h : isBlankTag tag = true) :
    parseRules tag = [] := by
  have hblank : AllBlank tag.toList := List.all_eq_true.mp h
  have hpieces : pieces ',' tag.toList = [tag.toList] := by
    have hcomma : ∀ term ∈ [tag.toList], ',' ∉ term := by
      simpa using hblank.not_mem comma_not_blank
    simpa using pieces_intercalate (List.cons_ne_nil _ _) hcomma
  rw [parseRules_eq_rulesOfTerms, hpieces, rulesOfTerms_cons, if_pos (trim_of_allBlank hblank)]
  rfl

theorem SpellRules.rulesOfTerms_eq {terms : List (List Char)} {rules : List Rule}
    (h : SpellRules terms rules) (hrules : ∀ r ∈ rules, r.Expressible) :
    rulesOfTerms terms = rules := by
  induction h with
  | done => rfl
  | blank hblank _ ih => rw [rulesOfTerms_cons, if_pos (trim_of_allBlank hblank), ih hrules]
  | rule hspells _ ih =>
      rw [List.forall_mem_cons] at hrules
      obtain ⟨hne, hrule⟩ := hspells.ofTerm_trim hrules.1
      rw [rulesOfTerms_cons, if_neg hne, hrule, ih hrules.2]

theorem SpellRules.comma_not_mem {terms : List (List Char)} {rules : List Rule}
    (h : SpellRules terms rules) (hrules : ∀ r ∈ rules, r.Expressible) :
    ∀ term ∈ terms, ',' ∉ term := by
  induction h with
  | done => simp
  | blank hblank _ ih =>
      rw [List.forall_mem_cons]
      exact ⟨hblank.not_mem comma_not_blank, ih hrules⟩
  | rule hspells _ ih =>
      rw [List.forall_mem_cons] at hrules ⊢
      exact ⟨hspells.comma_not_mem hrules.1, ih hrules.2⟩

theorem spellRules_rulesOfTerms {terms : List (List Char)} (hcomma : ∀ term ∈ terms, ',' ∉ term) :
    (∀ r ∈ rulesOfTerms terms, r.Expressible) ∧ SpellRules terms (rulesOfTerms terms) := by
  induction terms with
  | nil => exact ⟨by simp [rulesOfTerms], .done⟩
  | cons term terms ih =>
      rw [List.forall_mem_cons] at hcomma
      obtain ⟨hrules, hspell⟩ := ih hcomma.2
      rw [rulesOfTerms_cons]
      by_cases hblank : trim term = []
      · rw [if_pos hblank]
        exact ⟨hrules, .blank ((trim_eq_nil_iff term).mp hblank) hspell⟩
      · rw [if_neg hblank]
        obtain ⟨hrule, hspells⟩ := Rule.spells_ofTerm hcomma.1 hblank
        exact ⟨List.forall_mem_cons.mpr ⟨hrule, hrules⟩, .rule hspells hspell⟩

/-! ## Tags -/

/-- The tag consists of terms that spell the rules, with commas between them. -/
def TagSpells (tag : String) (rules : List Rule) : Prop :=
  ∃ terms, SpellRules terms rules ∧ tag.toList = [','].intercalate terms

theorem parseRules_eq_of_tagSpells {tag : String} {rules : List Rule} (h : TagSpells tag rules)
    (hrules : ∀ r ∈ rules, r.Expressible) : parseRules tag = rules := by
  obtain ⟨terms, hspell, htag⟩ := h
  rw [parseRules_eq_rulesOfTerms, htag]
  cases terms with
  | nil =>
      cases hspell
      rfl
  | cons term terms =>
      rw [pieces_intercalate (List.cons_ne_nil _ _) (hspell.comma_not_mem hrules)]
      exact hspell.rulesOfTerms_eq hrules

theorem tagSpells_renderRules (rules : List Rule) : TagSpells (renderRules rules) rules := by
  refine ⟨rules.map fun r => r.text.toList, ?_, ?_⟩
  · induction rules with
    | nil => exact .done
    | cons r rest ih => exact .rule r.spells_text ih
  · simp [renderRules, String.toList_intercalate, Function.comp_def]

/-- The rules of a tag are expressible, and they are the rules that it spells. -/
theorem parseRules_eq_iff (tag : String) (rules : List Rule) :
    parseRules tag = rules ↔ (∀ r ∈ rules, r.Expressible) ∧ TagSpells tag rules := by
  constructor
  · rintro rfl
    rw [parseRules_eq_rulesOfTerms]
    obtain ⟨hrules, hspell⟩ := spellRules_rulesOfTerms fun _ => not_mem_of_mem_pieces
    exact ⟨hrules, _, hspell, (intercalate_pieces ',' tag.toList).symm⟩
  · rintro ⟨hrules, hspells⟩
    exact parseRules_eq_of_tagSpells hspells hrules

/-- The rules of a tag are the expressible rules that it spells, whatever blanks stand
around terms, names and arguments, and however many blank terms there are.  Every list
of expressible rules has such a tag, the one that renders it, and no other list has one.
So the rules of any tag come back when they are rendered and parsed again. -/
theorem parseRules_spelling (tag : String) (rules : List Rule) :
    (parseRules tag = rules ↔ (∀ r ∈ rules, r.Expressible) ∧ TagSpells tag rules) ∧
      (parseRules (renderRules rules) = rules ↔ ∀ r ∈ rules, r.Expressible) ∧
      parseRules (renderRules (parseRules tag)) = parseRules tag := by
  have hrendered (rules : List Rule) :
      parseRules (renderRules rules) = rules ↔ ∀ r ∈ rules, r.Expressible := by
    rw [parseRules_eq_iff, and_iff_left (tagSpells_renderRules rules)]
  refine ⟨parseRules_eq_iff tag rules, hrendered rules, ?_⟩
  rw [hrendered]
  exact ((parseRules_eq_iff tag _).mp rfl).1

/-- The name, the argument or both may be empty once there is an equals sign. -/
example : parseRules "= 5 ,,a==b, fixed =" =
    [⟨"", some "5"⟩, ⟨"a", some "=b"⟩, ⟨"fixed", some ""⟩] := by
  decide

end RecordKit
