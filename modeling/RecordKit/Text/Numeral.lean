import RecordKit.Text.Blank

/-!
# Whole numbers in decimal

A numeral is an optional sign and one or more ASCII digits, with any number of
leading zeros and nothing else.  A reader refuses a number outside the range it
is asked for, so a numeral is never silently reduced.
-/

namespace RecordKit.Text

/-- The value of an ASCII digit. -/
def digit? (c : Char) : Option Nat :=
  if '0' ≤ c ∧ c ≤ '9' then some (c.toNat - '0'.toNat) else none

/-- The value of digits read left to right after a value already read. -/
def digitsFrom : Nat → List Char → Option Nat
  | n, [] => some n
  | n, c :: rest => (digit? c).bind fun d => digitsFrom (10 * n + d) rest

/-- The value of one or more digits. -/
def digits? : List Char → Option Nat
  | [] => none
  | cs => digitsFrom 0 cs

/-- The value of digits after an optional plus sign, if it is below `bound`. -/
def unsigned? (bound : Nat) (cs : List Char) : Option Nat :=
  (digits? (match cs with | '+' :: rest => rest | _ => cs)).filter (· < bound)

/-- The value of digits after an optional sign, if it lies from `-bound` up to
but not including `bound`. -/
def signed? (bound : Nat) : List Char → Option Int
  | '-' :: rest => ((digits? rest).filter (· ≤ bound)).map fun n => -(n : Int)
  | cs => (unsigned? bound cs).map Int.ofNat

end RecordKit.Text
