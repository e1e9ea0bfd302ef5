import RecordKit.Text.Blank

/-!
# Tags

A tag is a list of rule terms with commas between them.  A term is a rule name,
or a name, an equals sign and an argument; only the first equals sign divides.
Blanks around terms, names and arguments do not count, and blank terms are left
out.
-/

namespace RecordKit

/-- A rule that a tag asks for. -/
structure Rule where
  name : String
  arg : Option String
deriving DecidableEq, Repr

namespace Rule

/-- The argument handed to the rule: a bare rule gets the empty text. -/
def argOrEmpty (r : Rule) : String :=
  r.arg.getD ""

/-- The rule of a trimmed term. -/
def ofTerm (term : List Char) : Rule :=
  match Text.cut '=' term with
  | some (name, arg) =>
      ⟨String.ofList (Text.trim name), some (String.ofList (Text.trim arg))⟩
  | none => ⟨String.ofList term, none⟩

end Rule

/-- The rules of a tag, in order. -/
def parseRules (tag : String) : List Rule :=
  (((Text.pieces ',' tag.toList).map Text.trim).filter (· ≠ [])).map Rule.ofTerm

/-- Whether a tag has nothing but blanks. -/
def isBlankTag (tag : String) : Bool :=
  tag.toList.all Text.isBlank

end RecordKit
