import RecordKit.Text.Utf8

/-!
# The characters of a YAML text

A glyph is a character with its place in the text.  Line ends are line feeds,
except for the two Unicode separators, which stand for themselves in scalars.
-/

namespace RecordKit.Yaml

/-- A place in a text, counted from zero: the bytes before it, its line, and the
characters before it in the line. -/
structure Place where
  index : Nat
  line : Nat
  column : Nat
deriving DecidableEq, Repr

/-- A character and its place. -/
structure Glyph where
  char : Char
  place : Place
deriving DecidableEq, Repr

/-- A text that is left to read. -/
abbrev Input := List Glyph

/-- Whether a character may stand in a text at all. -/
def isAllowed (c : Char) : Bool :=
  let n := c.toNat
  n == 0x9 || n == 0xA || n == 0xD || (0x20 ≤ n && n ≤ 0x7E) || n == 0x85 ||
    (0xA0 ≤ n && n ≤ 0xFFFD) || 0x10000 ≤ n

def isSpace (c : Char) : Bool :=
  c == ' ' || c == '\t'

def isBreak (c : Char) : Bool :=
  c == '\n' || c == '\u2028' || c == '\u2029'

/-- Whether a character may stand in the name of an anchor, a directive or a tag
handle. -/
def isNameChar (c : Char) : Bool :=
  c.isAlphanum || c == '_' || c == '-'

/-- Whether a character opens, closes or divides collections in brackets. -/
def isBracket (c : Char) : Bool :=
  ",[]\x7b\x7d".toList.contains c

/-- The line ends of a text as line feeds. -/
def unifyBreaks : List Char → List Char
  | [] => []
  | '\r' :: '\n' :: rest => '\n' :: unifyBreaks rest
  | c :: rest => (if c == '\r' || c.toNat == 0x85 then '\n' else c) :: unifyBreaks rest

/-- The place after a character. -/
def Place.after (p : Place) (c : Char) : Place :=
  let index := p.index + (Text.Utf8.encodeChar c).length
  if isBreak c then ⟨index, p.line + 1, 0⟩ else ⟨index, p.line, p.column + 1⟩

/-- Give each character its place. -/
def glyphsFrom : Place → List Char → Input
  | _, [] => []
  | p, c :: rest => ⟨c, p⟩ :: glyphsFrom (p.after c) rest

/-- The glyphs of a text in bytes.  Ill-formed bytes and control characters are
refused. -/
def glyphs? (bytes : List UInt8) : Option Input := do
  let chars ← Text.Utf8.wholes? (Text.Utf8.units bytes)
  if chars.all isAllowed then return glyphsFrom ⟨0, 0, 0⟩ (unifyBreaks chars) else none

/-- Whether the text ends here, or a space or a line end comes next. -/
def atGap : Input → Bool
  | [] => true
  | g :: _ => isSpace g.char || isBreak g.char

def startsWith (c : Char) : Input → Bool
  | [] => false
  | g :: _ => g.char == c

/-- Whether a line starts here with three of a given character, alone. -/
def atMarkerOf (c : Char) : Input → Bool
  | g :: h :: i :: rest =>
      g.place.column == 0 && g.char == c && h.char == c && i.char == c && atGap rest
  | _ => false

/-- Whether a marker between documents starts here. -/
def atMarker (input : Input) : Bool :=
  atMarkerOf '-' input || atMarkerOf '.' input

def skipSpaces (input : Input) : Input :=
  input.dropWhile (isSpace ·.char)

/-- The text after a comment, if one comes next. -/
def skipComment (input : Input) : Input :=
  if startsWith '#' input then input.dropWhile (!isBreak ·.char) else input

/-- The text after the spaces and the comment that may end a line, and after the
end of the line.  Nothing else may come before it. -/
def finishLine? (input : Input) : Option Input :=
  match skipComment (skipSpaces input) with
  | [] => some []
  | g :: rest => if isBreak g.char then some rest else none

/-- The characters of a class at the start of a text, and the rest. -/
def run (p : Char → Bool) (input : Input) : List Char × Input :=
  ((input.takeWhile (p ·.char)).map Glyph.char, input.dropWhile (p ·.char))

end RecordKit.Yaml
