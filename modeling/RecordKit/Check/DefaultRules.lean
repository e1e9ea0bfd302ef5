import RecordKit.Record.View
import RecordKit.Text.Numeral
import RecordKit.Text.Pattern

/-!
# Default rules

A rule looks at the view of a field and at its argument.  A view of the wrong
kind or an argument that is no numeral makes a rule fail; rules have no errors.
-/

namespace RecordKit

/-- A rule: whether a view passes with an argument. -/
abbrev Predicate := View → String → Bool

namespace DefaultRules

open Text

/-- What is absent or an empty container fails, everything else passes. -/
def request : Predicate
  | .nil, _ => false
  | .seq size, _ | .map size, _ => size != 0
  | .bytes bs, _ => !bs.isEmpty
  | _, _ => true

/-- The integer that bounds apply to: a number, or the number of characters. -/
def measure? : View → Option Int
  | .int n => some n
  | .uint n => some n
  | .str s => some s.length
  | _ => none

/-- A bound is an unsigned 64-bit numeral. -/
def bound? (arg : String) : Option Nat :=
  unsigned? 0x10000000000000000 arg.toList

/-- Whether view and argument have a measure and a bound in a given relation. -/
def compareBound (holds : Int → Int → Bool) : Predicate := fun v arg =>
  match bound? arg, measure? v with
  | some bound, some m => holds m bound
  | _, _ => false

/-- The number or length is at least the argument. -/
def min : Predicate :=
  compareBound fun m bound => bound ≤ m

/-- The number or length is at most the argument. -/
def max : Predicate :=
  compareBound fun m bound => m ≤ bound

/-- The length of a text is the argument, a signed 64-bit numeral. -/
def fixed : Predicate
  | .str s, arg => signed? 0x8000000000000000 arg.toList == some (s.length : Int)
  | _, _ => false

def letters : Ranges :=
  [('a', 'z'), ('A', 'Z')]

def digits : Ranges :=
  [('0', '9')]

/-- The characters besides letters and digits that may stand before the at sign. -/
def localMarks : Ranges :=
  ".!#$%&'*+/=?^_`\x7b|\x7d~-".toList.map fun c => (c, c)

/-- A local part, an at sign, a first label of at most 63 characters that neither
starts nor ends with a hyphen, and further labels of two or more letters. -/
def emailPattern : Pattern :=
  .inOrder
    [ .some (.oneOf false (letters ++ digits ++ localMarks)),
      .char '@',
      .oneOf false (letters ++ digits),
      .optional (.seq (.atMost (.oneOf false (letters ++ digits ++ [('-', '-')])) 61)
        (.oneOf false (letters ++ digits))),
      .some (.seq (.char '.')
        (.seq (.exactly (.oneOf false letters) 2) (.many (.oneOf false letters)))) ]

def email : Predicate
  | .str s, _ => emailPattern.accepts s.toList
  | _, _ => false

/-- A hexadecimal digit of either case. -/
def hexDigit : Pattern :=
  .oneOf true [('0', '9'), ('a', 'f')]

/-- Five groups of hexadecimal digits with hyphens between them; the third group
starts with a version from 1 to 5, the fourth with a variant digit. -/
def uuidPattern : Pattern :=
  .inOrder
    [ .exactly hexDigit 8, .char '-',
      .exactly hexDigit 4, .char '-',
      .oneOf true [('1', '5')], .exactly hexDigit 3, .char '-',
      .oneOf true [('8', '8'), ('9', '9'), ('a', 'a'), ('b', 'b')], .exactly hexDigit 3, .char '-',
      .exactly hexDigit 12 ]

def uuid : Predicate
  | .str s, _ => uuidPattern.accepts s.toList
  | _, _ => false

/-- The default rules with their names. -/
def all : List (String × Predicate) :=
  [("request", request), ("min", min), ("max", max), ("email", email), ("uuid", uuid),
    ("fixed", fixed)]

end DefaultRules

end RecordKit
