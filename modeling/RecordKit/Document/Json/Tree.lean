import RecordKit.Document.Json.Numeral
import RecordKit.Text.Utf8

/-!
# JSON syntax

The syntax tree of a JSON text, read from its bytes.  The tree keeps numerals
and strings as written: whether a number is in range and whether a string stands
for a text matters only where it is used.
-/

namespace RecordKit.Json

/-- A part of a string as written. -/
inductive Piece where
  | byte (b : UInt8)
  | escaped (b : UInt8)
  | codeUnit (n : Nat)
deriving DecidableEq, Repr

/-- A string as written. -/
abbrev RawString := List Piece

inductive Tree where
  | null
  | bool (b : Bool)
  | number (n : Numeral)
  | string (s : RawString)
  | array (items : List Tree)
  | object (members : List (RawString × Tree))
deriving Inhabited, Repr

/-- Input that is left to read. -/
abbrev Input := List UInt8

def isSpace (b : UInt8) : Bool :=
  b == 0x20 || b == 0x09 || b == 0x0A || b == 0x0D

def skipSpace (input : Input) : Input :=
  input.dropWhile isSpace

def digitOf? (b : UInt8) : Option Nat :=
  if 0x30 ≤ b ∧ b ≤ 0x39 then some (b.toNat - 0x30) else none

def hexOf? (b : UInt8) : Option Nat :=
  if 0x30 ≤ b ∧ b ≤ 0x39 then some (b.toNat - 0x30)
  else if 0x61 ≤ b ∧ b ≤ 0x66 then some (b.toNat - 0x57)
  else if 0x41 ≤ b ∧ b ≤ 0x46 then some (b.toNat - 0x37)
  else none

/-- The digits at the start of the input, and the rest. -/
def digits : Input → List Nat × Input
  | [] => ([], [])
  | b :: rest =>
      match digitOf? b with
      | some d => let (ds, rest') := digits rest; (d :: ds, rest')
      | none => ([], b :: rest)

/-- One digit or more. -/
def digits1? (input : Input) : Option (List Nat × Input) :=
  match digits input with
  | ([], _) => none
  | found => some found

/-- An exponent, if the input has one. -/
def exponent? : Input → Option (Option (Bool × List Nat) × Input)
  | b :: rest =>
      if b == 0x65 || b == 0x45 then
        let (negative, rest) := match rest with
          | 0x2B :: rest => (false, rest)
          | 0x2D :: rest => (true, rest)
          | rest => (false, rest)
        (digits1? rest).map fun (ds, rest) => (some (negative, ds), rest)
      else some (none, b :: rest)
  | [] => some (none, [])

/-- A fraction, if the input has one. -/
def fraction? : Input → Option (Option (List Nat) × Input)
  | 0x2E :: rest => (digits1? rest).map fun (ds, rest) => (some ds, rest)
  | rest => some (none, rest)

/-- A numeral.  Its whole part is zero or starts with another digit. -/
def numeral? (input : Input) : Option (Numeral × Input) := do
  let (negative, input) := match input with
    | 0x2D :: rest => (true, rest)
    | rest => (false, rest)
  let (whole, input) ← digits1? input
  if whole.head? = some 0 ∧ whole.length ≠ 1 then none
  else
    let (fraction, input) ← fraction? input
    let (exponent, input) ← exponent? input
    return (⟨negative, whole, fraction, exponent⟩, input)

/-- The byte of a short escape. -/
def shortEscape? (b : UInt8) : Option UInt8 :=
  if b == 0x22 || b == 0x5C || b == 0x2F then some b
  else if b == 0x62 then some 0x08
  else if b == 0x66 then some 0x0C
  else if b == 0x6E then some 0x0A
  else if b == 0x72 then some 0x0D
  else if b == 0x74 then some 0x09
  else none

/-- The number of four hexadecimal digits. -/
def hex4? (a b c d : UInt8) : Option Nat := do
  let a ← hexOf? a
  let b ← hexOf? b
  let c ← hexOf? c
  let d ← hexOf? d
  return 4096 * a + 256 * b + 16 * c + d

/-- A string after its opening quote.  Control characters must be escaped. -/
def rawString? : Input → Option (RawString × Input)
  | [] => none
  | 0x22 :: rest => some ([], rest)
  | 0x5C :: 0x75 :: a :: b :: c :: d :: rest => do
      let n ← hex4? a b c d
      let (s, rest) ← rawString? rest
      return (.codeUnit n :: s, rest)
  | 0x5C :: b :: rest => do
      let e ← shortEscape? b
      let (s, rest) ← rawString? rest
      return (.escaped e :: s, rest)
  | b :: rest =>
      if b < 0x20 || b == 0x5C then none
      else do
        let (s, rest) ← rawString? rest
        return (.byte b :: s, rest)

/-- The input after a given word. -/
def word? : List UInt8 → Input → Option Input
  | [], input => some input
  | w :: ws, b :: rest => if w == b then word? ws rest else none
  | _ :: _, [] => none

mutual

/-- A value, its white space before it skipped.  Each call spends fuel, and the
input is shorter after every other call. -/
def tree? : Nat → Input → Option (Tree × Input)
  | 0, _ => none
  | fuel + 1, input =>
      match skipSpace input with
      | [] => none
      | 0x6E :: rest => (word? "ull".toUTF8.toList rest).map fun rest => (.null, rest)
      | 0x74 :: rest => (word? "rue".toUTF8.toList rest).map fun rest => (.bool true, rest)
      | 0x66 :: rest => (word? "alse".toUTF8.toList rest).map fun rest => (.bool false, rest)
      | 0x22 :: rest => (rawString? rest).map fun (s, rest) => (.string s, rest)
      | 0x5B :: rest =>
          match skipSpace rest with
          | 0x5D :: rest => some (.array [], rest)
          | rest => (items? fuel rest).map fun (items, rest) => (.array items, rest)
      | 0x7B :: rest =>
          match skipSpace rest with
          | 0x7D :: rest => some (.object [], rest)
          | rest => (members? fuel rest).map fun (members, rest) => (.object members, rest)
      | rest => (numeral? rest).map fun (n, rest) => (.number n, rest)

/-- One item or more, up to the closing bracket. -/
def items? : Nat → Input → Option (List Tree × Input)
  | 0, _ => none
  | fuel + 1, input =>
      match tree? fuel input with
      | none => none
      | some (t, rest) =>
          match skipSpace rest with
          | 0x2C :: rest => (items? fuel rest).map fun (ts, rest) => (t :: ts, rest)
          | 0x5D :: rest => some ([t], rest)
          | _ => none

/-- One member or more, up to the closing brace. -/
def members? : Nat → Input → Option (List (RawString × Tree) × Input)
  | 0, _ => none
  | fuel + 1, input =>
      match skipSpace input with
      | 0x22 :: rest =>
          match rawString? rest with
          | none => none
          | some (key, rest) =>
              match skipSpace rest with
              | 0x3A :: rest =>
                  match tree? fuel rest with
                  | none => none
                  | some (t, rest) =>
                      match skipSpace rest with
                      | 0x2C :: rest =>
                          (members? fuel rest).map fun (ms, rest) => ((key, t) :: ms, rest)
                      | 0x7D :: rest => some ([(key, t)], rest)
                      | _ => none
              | _ => none
      | _ => none

end

/-- The tree of a whole text: one value and nothing after it but white space. -/
def Tree.parse? (input : Input) : Option Tree :=
  match tree? (2 * input.length + 2) input with
  | some (t, rest) => if (skipSpace rest).isEmpty then some t else none
  | none => none

end RecordKit.Json
