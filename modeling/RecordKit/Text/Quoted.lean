import RecordKit.Text.Visible

/-!
# Quoted texts

The quoted form of a text stands between double quotes, writes a backslash
before a quote or a backslash, has letters of its own for tab, newline, carriage
return and NUL, and a numeric escape for the other hidden characters.  A reader that knows
ASCII without numeric escapes only can be handed a text through `legible?`, which
keeps back every other one.
-/

namespace RecordKit.Text

/-- Lowercase hexadecimal digits without leading zeros. -/
def hex (n : Nat) : String :=
  String.ofList (Nat.toDigits 16 n)

/-- A character inside a quoted text. -/
def quotedChar (c : Char) : String :=
  match c with
  | '"' => "\\\""
  | '\\' => "\\\\"
  | '\n' => "\\n"
  | '\t' => "\\t"
  | '\r' => "\\r"
  | '\x00' => "\\0"
  | c =>
      if isHidden c then "\\u\x7b" ++ hex c.toNat ++ "\x7d"
      else c.toString

def quoted (s : String) : String :=
  "\"" ++ String.join (s.toList.map quotedChar) ++ "\""

/-- A character inside a JSON string: short escapes where JSON has them, and four
hexadecimal digits for the other characters below U+0020. -/
def jsonChar (c : Char) : String :=
  match c with
  | '"' => "\\\""
  | '\\' => "\\\\"
  | '\n' => "\\n"
  | '\t' => "\\t"
  | '\r' => "\\r"
  | '\x08' => "\\b"
  | '\x0c' => "\\f"
  | c =>
      if c.toNat < 0x20 then
        let digits := hex c.toNat
        "\\u" ++ String.ofList (List.replicate (4 - digits.length) '0') ++ digits
      else c.toString

def jsonQuoted (s : String) : String :=
  "\"" ++ String.join (s.toList.map jsonChar) ++ "\""

/-- Whether `\u` and an opening brace follow each other somewhere. -/
def hasNumericEscape : List Char → Bool
  | '\\' :: 'u' :: '\x7b' :: _ => true
  | _ :: rest => hasNumericEscape rest
  | [] => false

/-- A text that is ASCII throughout and shows no numeric escape. -/
def legible? (s : String) : Option String :=
  if s.toList.all (·.toNat < 0x80) && !hasNumericEscape s.toList then some s else none

end RecordKit.Text
