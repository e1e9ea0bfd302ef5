import RecordKit.Document.Basic
import RecordKit.Document.Yaml.Node
import RecordKit.Number.Arithmetic

/-!
# What plain scalars mean

A plain scalar without a tag is null, a boolean, an integer, a float or, failing
these, its text.  Integers are decimal, or have a radix mark; decimal digits with
a zero in front are no number.  A float is rounded once; what is not finite has
no document but null.
-/

namespace RecordKit.Yaml

def isNull (s : String) : Bool :=
  s == "~" || s == "null" || s == "Null" || s == "NULL"

def bool? (s : String) : Option Bool :=
  if s == "true" || s == "True" || s == "TRUE" then some true
  else if s == "false" || s == "False" || s == "FALSE" then some false
  else none

/-- The number of one digit or more in a radix. -/
def radixDigits? (radix : Nat) (cs : List Char) : Option Nat :=
  if cs.isEmpty then none
  else
    cs.foldlM (fun n c => (hexDigit? c).bind fun d =>
      if d < radix then some (radix * n + d) else none) 0

/-- A text without the sign at its start. -/
def dropSign : List Char → List Char
  | '-' :: rest | '+' :: rest => rest
  | cs => cs

/-- Whether digits start with a zero that is not the only one. -/
def isPadded (cs : List Char) : Bool :=
  1 < cs.length && cs.head? == some '0' && cs.all Char.isDigit

/-- The number that a text without a sign stands for. -/
def unsigned? (cs : List Char) : Option Nat :=
  match cs with
  | '0' :: 'x' :: digits => radixDigits? 16 digits
  | '0' :: 'o' :: digits => radixDigits? 8 digits
  | '0' :: 'b' :: digits => radixDigits? 2 digits
  | digits => if isPadded digits then none else radixDigits? 10 digits

/-- The number that a text without a sign or with a plus sign stands for. -/
def natural? : List Char → Option Nat
  | '+' :: rest => unsigned? rest
  | cs => unsigned? cs

/-- The integer that a text stands for, of any size. -/
def integer? : List Char → Option Int
  | '-' :: rest => (unsigned? rest).map fun n => -(n : Int)
  | cs => (natural? cs).map Int.ofNat

/-- A decimal fraction: its digits as a number, how many there are, and the power
of ten that they count. -/
structure Decimal where
  digits : Nat
  count : Nat
  exponent : Int
deriving DecidableEq, Repr

/-- The exponent of a decimal, if the text is one or empty. -/
def exponent? : List Char → Option Int
  | [] => some 0
  | c :: rest =>
      if c == 'e' || c == 'E' then
        match rest with
        | '-' :: digits => (radixDigits? 10 digits).map fun n => -(n : Int)
        | '+' :: digits => (radixDigits? 10 digits).map Int.ofNat
        | digits => (radixDigits? 10 digits).map Int.ofNat
      else none

/-- The decimal that a text without a sign stands for.  There is a digit before
its point or after it. -/
def decimal? (cs : List Char) : Option Decimal := do
  let whole := cs.takeWhile Char.isDigit
  let (fraction, rest) :=
    match cs.dropWhile Char.isDigit with
    | '.' :: rest => (rest.takeWhile Char.isDigit, rest.dropWhile Char.isDigit)
    | rest => ([], rest)
  let digits ← radixDigits? 10 (whole ++ fraction)
  let exponent ← exponent? rest
  return ⟨digits, whole.length + fraction.length, exponent - fraction.length⟩

/-- The magnitude of a decimal.  One far outside the range of the format is not
computed digit by digit. -/
def Decimal.magnitude (d : Decimal) : Nat :=
  if d.digits = 0 ∨ d.count + d.exponent < -400 then 0
  else if 400 < d.exponent then binary64.infinity
  else binary64.nearestDecimal d.digits d.exponent

/-- The float that a text stands for, where `none` stands for what is not
finite and not a number. -/
def float? (s : String) : Option (Option UInt64) :=
  let (negative, signed, cs) : Bool × Bool × List Char :=
    match s.toList with
    | '-' :: rest => (true, true, rest)
    | '+' :: rest => (false, true, rest)
    | cs => (false, false, cs)
  let word := String.ofList cs
  if word == ".inf" || word == ".Inf" || word == ".INF" then some none
  else if !signed && (word == ".nan" || word == ".NaN" || word == ".NAN") then some none
  else
    (decimal? cs).bind fun d =>
      let magnitude := d.magnitude
      if magnitude = binary64.infinity then none
      else some (some (binary64.withSign negative magnitude).toUInt64)

def floatDocument : Option UInt64 → Document
  | some bits => .float bits
  | none => .null

def fits64 (n : Int) : Bool :=
  -0x8000000000000000 ≤ n && n < 0x10000000000000000

def fits128 (n : Int) : Bool :=
  -0x80000000000000000000000000000000 ≤ n && n < 0x100000000000000000000000000000000

/-- The document of a plain scalar without a tag.  An integer that needs more
than 64 bits is refused, one that needs more than 128 is read as a float. -/
def plainDocument? (s : String) : Option Document :=
  if s.isEmpty || isNull s then some .null
  else
    match bool? s with
    | some b => some (.bool b)
    | none =>
        match (integer? s.toList).filter fits128 with
        | some n => if fits64 n then some (.int n) else none
        | none =>
            if isPadded (dropSign s.toList) then some (.text s)
            else
              match float? s with
              | some f => some (floatDocument f)
              | none => some (.text s)

/-- The document of a scalar.  The tags of the core types hold for any style, and
the text must suit them; other tags make a text, as quotes do. -/
def scalarDocument? (tag : Option Tag) (style : ScalarStyle) (s : String) :
    Option Document :=
  let untagged := if style = .plain then plainDocument? s else some (.text s)
  match tag with
  | none => untagged
  | some tag =>
      if tag.isLocal then none
      else if tag = Tag.core "bool" then (bool? s).map .bool
      else if tag = Tag.core "int" then ((integer? s.toList).filter fits64).map .int
      else if tag = Tag.core "float" then (float? s).map floatDocument
      else if tag = Tag.core "null" then if isNull s then some .null else none
      else if tag.head? = some 0x21 then untagged
      else some (.text s)

end RecordKit.Yaml
