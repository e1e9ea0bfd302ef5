import RecordKit.Document.Yaml.Glyph

/-!
# The texts of YAML scalars

A scalar is plain, quoted, or a block of lines.  In plain and quoted scalars a
line end between words becomes a space, or gives way to the empty lines after
it.  In a folded block the same holds between lines that start with no space.
-/

namespace RecordKit.Yaml

/-- How a scalar is written.  Only the literal block is told from the other
styles with delimiters. -/
inductive ScalarStyle where
  | plain
  | quoted
  | literal
  | folded
deriving DecidableEq, Repr

/-- What stands between two words: spaces in a line, or a line end and the empty
lines after it, or empty lines after a line end that an escape hides. -/
inductive Gap where
  | spaces (text : List Char)
  | breaks (first : Char) (more : List Char)
  | hidden (more : List Char)
deriving DecidableEq, Repr

namespace Gap

def none : Gap := .spaces []

/-- A gap with one more space or line end.  Spaces beside a line end do not
count. -/
def add (c : Char) : Gap → Gap
  | .spaces text => if isBreak c then .breaks c [] else .spaces (text ++ [c])
  | .breaks first more => .breaks first (if isBreak c then more ++ [c] else more)
  | .hidden more => .hidden (if isBreak c then more ++ [c] else more)

/-- Whether a gap goes beyond a line. -/
def isBroken : Gap → Bool
  | .spaces _ => false
  | _ => true

/-- What a line end and the empty lines after it stand for. -/
def foldBreaks (first : Char) (more : List Char) : List Char :=
  if first == '\n' then (if more.isEmpty then [' '] else more) else first :: more

/-- What a gap stands for. -/
def text : Gap → List Char
  | .spaces text => text
  | .breaks first more => foldBreaks first more
  | .hidden more => more

end Gap

/-! ## Plain scalars -/

/-- Where a plain scalar stands: in brackets or not, and the least column at
which it goes on in another line. -/
structure PlainPlace where
  inFlow : Bool
  indent : Nat

namespace PlainPlace

/-- Whether a plain scalar ends before a glyph that is no space. -/
def ends (p : PlainPlace) (gap : Gap) (g : Glyph) (rest : Input) : Bool :=
  (gap ≠ .none && (g.char == '#' || (!p.inFlow && g.place.column < p.indent))) ||
    atMarker (g :: rest) || (g.char == ':' && atGap rest) ||
    (p.inFlow && isBracket g.char)

/-- Whether a colon stands where it can neither end a plain scalar nor belong to
it. -/
def misplacesColon (p : PlainPlace) (g : Glyph) (rest : Input) : Bool :=
  p.inFlow && g.char == ':' &&
    (match rest with
    | [] => false
    | h :: _ => isBracket h.char || h.char == '?')

/-- Read a plain scalar on after a gap.  The gap at its end is no part of its
text.  A tab does not indent a line. -/
def readFrom (p : PlainPlace) : Gap → Input → Option (List Char × Gap × Input)
  | gap, [] => some ([], gap, [])
  | gap, g :: rest =>
      if isSpace g.char || isBreak g.char then
        if gap.isBroken && g.char == '\t' && g.place.column < p.indent then Option.none
        else p.readFrom (gap.add g.char) rest
      else if p.ends gap g rest then some ([], gap, g :: rest)
      else if p.misplacesColon g rest then Option.none
      else
        (p.readFrom .none rest).map fun (text, after) => (gap.text ++ g.char :: text, after)

end PlainPlace

/-! ## Quoted scalars -/

/-- The character of an escape of one letter. -/
def shortEscape? : Char → Option Char
  | '0' => some (Char.ofNat 0)
  | 'a' => some (Char.ofNat 0x07)
  | 'b' => some (Char.ofNat 0x08)
  | 't' | '\t' => some '\t'
  | 'n' => some '\n'
  | 'v' => some (Char.ofNat 0x0B)
  | 'f' => some (Char.ofNat 0x0C)
  | 'r' => some '\r'
  | 'e' => some (Char.ofNat 0x1B)
  | ' ' => some ' '
  | '"' => some '"'
  | '/' => some '/'
  | '\\' => some '\\'
  | 'N' => some (Char.ofNat 0x85)
  | '_' => some (Char.ofNat 0xA0)
  | 'L' => some (Char.ofNat 0x2028)
  | 'P' => some (Char.ofNat 0x2029)
  | _ => none

/-- The number of digits after an escape by code point. -/
def escapeDigits? : Char → Option Nat
  | 'x' => some 2
  | 'u' => some 4
  | 'U' => some 8
  | _ => none

def hexDigit? (c : Char) : Option Nat :=
  let n := c.toNat
  if 0x30 ≤ n ∧ n ≤ 0x39 then some (n - 0x30)
  else if 0x41 ≤ n ∧ n ≤ 0x46 then some (n - 0x37)
  else if 0x61 ≤ n ∧ n ≤ 0x66 then some (n - 0x57)
  else none

/-- The number that so many hexadecimal digits continue. -/
def hexFrom? : Nat → Nat → Input → Option Nat
  | 0, n, _ => some n
  | _ + 1, _, [] => none
  | count + 1, n, g :: rest => (hexDigit? g.char).bind fun d => hexFrom? count (16 * n + d) rest

def codePoint? (n : Nat) : Option Char :=
  if h : n.isValidChar then some (Char.ofNatAux n h) else none

/-- The character of an escape after its backslash, and how many glyphs it
takes besides its letter. -/
def escape? (letter : Char) (rest : Input) : Option (Char × Nat) :=
  match escapeDigits? letter with
  | some count => ((hexFrom? count 0 rest).bind codePoint?).map (·, count)
  | none => (shortEscape? letter).map (·, 0)

/-- Read a quoted scalar on after a gap, with so many glyphs to pass over first.
Between single quotes a quote is written twice; between double quotes there are
escapes, which may also hide a line end. -/
def quotedFrom? (quote : Char) : Nat → Gap → Input → Option (List Char × Input)
  | _, _, [] => none
  | pass + 1, gap, _ :: rest => quotedFrom? quote pass gap rest
  | 0, gap, g :: rest =>
      if isSpace g.char || isBreak g.char then quotedFrom? quote 0 (gap.add g.char) rest
      else if atMarker (g :: rest) then none
      else if g.char == quote then
        if quote == '\'' && startsWith '\'' rest then
          (quotedFrom? quote 1 .none rest).map fun (text, rest) =>
            (gap.text ++ '\'' :: text, rest)
        else some (gap.text, rest)
      else if quote == '"' && g.char == '\\' then
        match rest with
        | [] => none
        | e :: more =>
            if isBreak e.char then
              (quotedFrom? quote 0 (.hidden []) more).map fun (text, rest) =>
                (gap.text ++ text, rest)
            else
              match escape? e.char more with
              | none => none
              | some (c, count) =>
                  (quotedFrom? quote count .none more).map fun (text, rest) =>
                    (gap.text ++ c :: text, rest)
      else
        (quotedFrom? quote 0 .none rest).map fun (text, rest) =>
          (gap.text ++ g.char :: text, rest)

/-! ## Block scalars -/

/-- What becomes of the line ends after the last line of a block. -/
inductive Chomping where
  | strip
  | clip
  | keep
deriving DecidableEq, Repr

/-- What follows the indicator of a block: its chomping, and how much deeper
than its surroundings it is indented, if that is given. -/
structure BlockHeader where
  chomping : Chomping
  increment : Option Nat
deriving DecidableEq, Repr

namespace BlockHeader

/-- A sign for the chomping, if one comes next. -/
def chomping? : Input → Option (Chomping × Input)
  | [] => none
  | g :: rest =>
      if g.char == '+' then some (.keep, rest)
      else if g.char == '-' then some (.strip, rest)
      else none

/-- A digit for the indentation, if one comes next.  Zero is refused. -/
def increment? : Input → Option (Option Nat × Input)
  | [] => some (none, [])
  | g :: rest =>
      if !g.char.isDigit then some (none, g :: rest)
      else if g.char == '0' then none
      else some (some (g.char.toNat - 0x30), rest)

/-- Read a header: the chomping and the indentation in either order, and the
rest of the line. -/
def read? (input : Input) : Option (BlockHeader × Input) :=
  match chomping? input with
  | some (chomping, rest) => do
      let (increment, rest) ← increment? rest
      return (⟨chomping, increment⟩, ← finishLine? rest)
  | none => do
      let (increment, rest) ← increment? input
      let (chomping, rest) :=
        if increment.isSome then (chomping? rest).getD (.clip, rest) else (.clip, rest)
      return (⟨chomping, increment⟩, ← finishLine? rest)

end BlockHeader

/-- The line ends before the next line of a block, the greatest column up to
which it or an empty line is indented, and the rest.  The limit is the
indentation of the block where it is known; no tab may stand before it. -/
def blockGap? (limit : Option Nat) : Input → Option (List Char × Nat × Input)
  | [] => some ([], 0, [])
  | g :: rest =>
      let inside := limit.all (g.place.column < ·)
      if inside && g.char == ' ' then blockGap? limit rest
      else if inside && g.char == '\t' then none
      else if isBreak g.char then
        (blockGap? limit rest).map fun (ends, column, rest) =>
          (g.char :: ends, max column g.place.column, rest)
      else some ([], g.place.column, g :: rest)

/-- A line of a block that is not empty, its end, and the ends of the empty lines
after it. -/
structure BlockLine where
  text : List Char
  stop : Option Char
  more : List Char
deriving Repr

/-- Read the lines of a block.  Each takes a glyph, so the fuel is the length of
the input. -/
def blockLines? (indent : Nat) : Nat → Input → Option (List BlockLine × Input)
  | 0, input => some ([], input)
  | _ + 1, [] => some ([], [])
  | fuel + 1, g :: rest =>
      if g.place.column ≠ indent then some ([], g :: rest)
      else do
        let (text, rest) := run (!isBreak ·) (g :: rest)
        let (more, _, after) ← blockGap? (some indent) rest.tail
        let (lines, rest') ← blockLines? indent fuel after
        return (⟨text, rest.head?.map Glyph.char, more⟩ :: lines, rest')

namespace BlockLine

/-- Whether a line starts with a space or a tab. -/
def isIndented (l : BlockLine) : Bool :=
  l.text.head?.any isSpace

/-- What stands between a line and the next one. -/
def joint (folded : Bool) (l next : BlockLine) : List Char :=
  if folded && l.stop == some '\n' && !l.isIndented && !next.isIndented then
    Gap.foldBreaks '\n' l.more
  else l.stop.toList ++ l.more

/-- What is left of the line ends after the last line. -/
def tail (c : Chomping) (l : BlockLine) : List Char :=
  match c with
  | .strip => []
  | .clip => l.stop.toList
  | .keep => l.stop.toList ++ l.more

/-- The text of the lines of a block. -/
def join (folded : Bool) (c : Chomping) : List BlockLine → List Char
  | [] => []
  | [l] => l.text ++ l.tail c
  | l :: next :: rest => l.text ++ l.joint folded next ++ join folded c (next :: rest)

end BlockLine

/-- The indentation of a block: as its header says, or as its first lines show,
but deeper than its surroundings. -/
def blockIndent (outer : Option Nat) (shown : Nat) : Option Nat → Nat
  | some increment => outer.getD 0 + increment
  | none => max shown (match outer with | some n => n + 1 | none => 1)

/-- Read a block after its indicator.  The column of the block collection that it
stands in is given, if there is one. -/
def block? (folded : Bool) (outer : Option Nat) (input : Input) :
    Option (List Char × Input) := do
  let (header, input) ← BlockHeader.read? input
  let (ends, shown, input) ← blockGap? (header.increment.map (outer.getD 0 + ·)) input
  let indent := blockIndent outer shown header.increment
  let (lines, input) ← blockLines? indent input.length input
  let start := if lines.isEmpty && header.chomping ≠ .keep then [] else ends
  return (start ++ BlockLine.join folded header.chomping lines, input)

end RecordKit.Yaml
