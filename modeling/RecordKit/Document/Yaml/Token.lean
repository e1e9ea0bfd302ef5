import RecordKit.Document.Yaml.Tag

/-!
# YAML tokens

The tokens of a text.  In block context collections open and close by
indentation: a token that starts deeper than the open collections may open one,
and a token that starts less deep closes those it leaves.  A colon makes a key of
what stands before it in its line, so the token of the key, and that of a
collection that the key opens, go in front of tokens already found.
-/

namespace RecordKit.Yaml

/-- A token.  The end of the list of tokens is the end of the text. -/
inductive Token where
  | directive (d : Directive)
  | documentStart
  | documentEnd
  | blockSequence
  | blockMapping
  | blockEnd
  | flowSequence
  | flowSequenceEnd
  | flowMapping
  | flowMappingEnd
  | dash
  | comma
  | key
  | value
  | alias (name : List Char)
  | anchor (name : List Char)
  | tag (ref : TagRef)
  | scalar (style : ScalarStyle) (text : String)
deriving DecidableEq, Repr

/-- What may turn out to be a key: where it starts, how many tokens there are
before it, and whether nothing else is possible at its place. -/
structure Candidate where
  place : Place
  before : Nat
  required : Bool
deriving DecidableEq, Repr

/-- Whether a candidate lies too far behind a place: in another line, or more
than 1024 bytes before. -/
def Candidate.isStale (here : Place) (c : Candidate) : Bool :=
  c.place.line < here.line || c.place.index + 1024 < here.index

/-- A text on the way to its tokens.  `blocks` are the columns of the open block
collections and `outer` holds a candidate for each open bracket, both innermost
first; `candidate` belongs to the brackets that are open now. -/
structure Lexer where
  input : Input
  tokens : Array Token
  blocks : List Nat
  keyAllowed : Bool
  candidate : Option Candidate
  outer : List (Option Candidate)

namespace Lexer

def start (input : Input) : Lexer :=
  ⟨input, #[], [], true, none, []⟩

def inFlow (l : Lexer) : Bool :=
  !l.outer.isEmpty

/-- Whether a column is deeper than the open block collections. -/
def isDeeper (l : Lexer) (column : Nat) : Bool :=
  match l.blocks with
  | [] => true
  | n :: _ => n < column

/-- The least column at which a plain scalar goes on in another line. -/
def indent (l : Lexer) : Nat :=
  match l.blocks with
  | [] => 0
  | n :: _ => n + 1

def push (l : Lexer) (t : Token) : Lexer :=
  { l with tokens := l.tokens.push t }

/-- Put a token behind so many others. -/
def insert (l : Lexer) (before : Nat) (t : Token) : Lexer :=
  { l with tokens := l.tokens.insertIdxIfInBounds before t }

/-- Go on behind a token. -/
def advance (l : Lexer) (input : Input) : Lexer :=
  { l with input }

/-- Say whether a key may come next. -/
def allowKey (l : Lexer) (allowed : Bool) : Lexer :=
  { l with keyAllowed := allowed }

/-- Open a block collection if its column is deeper than the open ones. -/
def openBlock (l : Lexer) (column before : Nat) (t : Token) : Lexer :=
  if !l.inFlow && l.isDeeper column then
    { l.insert before t with blocks := column :: l.blocks }
  else l

/-- Close the block collections that are deeper than a column, or all of them. -/
def closeBlocks (l : Lexer) (column : Option Nat) : Lexer :=
  if l.inFlow then l
  else
    let closed := l.blocks.takeWhile fun n => column.all (· < n)
    { l with
      tokens := l.tokens ++ (closed.map fun _ => Token.blockEnd)
      blocks := l.blocks.drop closed.length }

/-- Give up the candidate for a key, unless it is required. -/
def dropCandidate? (l : Lexer) : Option Lexer :=
  if l.candidate.any (·.required) then none else some { l with candidate := none }

/-- Take what starts at a place as a candidate for a key, if one may come. -/
def addCandidate? (l : Lexer) (place : Place) : Option Lexer :=
  if l.keyAllowed then do
    let required := !l.inFlow && l.blocks.head? == some place.column
    let l ← l.dropCandidate?
    return { l with candidate := some ⟨place, l.tokens.size, required⟩ }
  else some l

/-- Drop the candidates that are stale.  None of them may be required. -/
def expire? (l : Lexer) (here : Place) : Option Lexer :=
  let stale (c : Option Candidate) : Bool := c.any (·.isStale here)
  if (l.candidate :: l.outer).any fun c => stale c && c.any (·.required) then none
  else
    let keep (c : Option Candidate) := if stale c then none else c
    some { l with candidate := keep l.candidate, outer := l.outer.map keep }

/-- Add a token that is no part of a key. -/
def separate? (l : Lexer) (t : Token) (allowed : Bool) (rest : Input) : Option Lexer :=
  l.dropCandidate?.map fun l => ((l.push t).allowKey allowed).advance rest

/-- Add a token that may start a key. -/
def content? (l : Lexer) (here : Place) (t : Token) (rest : Input) : Option Lexer :=
  (l.addCandidate? here).map fun l => ((l.push t).allowKey false).advance rest

def openFlow? (l : Lexer) (here : Place) (t : Token) (rest : Input) : Option Lexer :=
  (l.addCandidate? here).map fun l =>
    { (l.push t).advance rest with
      keyAllowed := true, candidate := none, outer := l.candidate :: l.outer }

def closeFlow? (l : Lexer) (t : Token) (rest : Input) : Option Lexer :=
  (l.separate? t false rest).map fun l =>
    match l.outer with
    | [] => l
    | candidate :: outer => { l with candidate, outer }

/-- Open a block collection at a place unless a bracket is open.  A key must be
allowed there. -/
def openBlockAt? (l : Lexer) (here : Place) (t : Token) : Option Lexer :=
  if l.inFlow then some l
  else if l.keyAllowed then some (l.openBlock here.column l.tokens.size t)
  else none

/-- A colon.  It follows a candidate, which is then a key, or a key with a mark
of its own. -/
def colon? (l : Lexer) (here : Place) (rest : Input) : Option Lexer :=
  match l.candidate with
  | some c =>
      let l := (l.insert c.before .key).openBlock c.place.column c.before .blockMapping
      some { (l.push .value).advance rest with keyAllowed := false, candidate := none }
  | none =>
      (l.openBlockAt? here .blockMapping).map fun l =>
        ((l.push .value).allowKey !l.inFlow).advance rest

/-- The name of an anchor, up to a space, a line end or an indicator. -/
def anchorName? (input : Input) : Option (List Char × Input) :=
  let (name, rest) := run isNameChar input
  if name.isEmpty then none
  else if atGap rest || "?:,]\x7d%@`".toList.any (startsWith · rest) then some (name, rest)
  else none

/-- A tag, up to a space or a line end, or up to a comma in brackets. -/
def tagToken? (l : Lexer) (input : Input) : Option (TagRef × Input) := do
  let (ref, rest) ← tagRef? input
  if atGap rest || (l.inFlow && startsWith ',' rest) then return (ref, rest) else none

def blockScalar? (l : Lexer) (folded : Bool) (rest : Input) : Option Lexer := do
  let l ← l.dropCandidate?
  let (text, rest) ← block? folded l.blocks.head? rest
  let style := if folded then ScalarStyle.folded else .literal
  return ((l.push (.scalar style (String.ofList text))).allowKey true).advance rest

def quotedScalar? (l : Lexer) (g : Glyph) (rest : Input) : Option Lexer := do
  let (text, rest) ← quotedFrom? g.char 0 .none rest
  l.content? g.place (.scalar .quoted (String.ofList text)) rest

/-- A plain scalar.  After a line end at its end a key may come. -/
def plainScalar? (l : Lexer) (g : Glyph) (rest : Input) : Option Lexer := do
  let (text, gap, rest) ← PlainPlace.readFrom ⟨l.inFlow, l.indent⟩ .none (g :: rest)
  let l ← l.content? g.place (.scalar .plain (String.ofList text)) rest
  return l.allowKey gap.isBroken

/-- Whether a plain scalar may start with a character. -/
def startsPlain (l : Lexer) (c : Char) (rest : Input) : Bool :=
  if c == '-' then !rest.head?.any (isSpace ·.char)
  else if c == '?' || c == ':' then !l.inFlow && !atGap rest
  else !isSpace c && !isBracket c && !"#&*!|>'\"%@`".toList.contains c

/-- Read the token that starts with a glyph. -/
def step? (l : Lexer) (g : Glyph) (rest : Input) : Option Lexer :=
  let here := g.place
  if here.column == 0 && g.char == '%' then do
    let (d, rest) ← directive? rest
    (l.closeBlocks none).separate? (.directive d) false rest
  else if atMarkerOf '-' (g :: rest) then
    (l.closeBlocks none).separate? .documentStart false (rest.drop 2)
  else if atMarkerOf '.' (g :: rest) then
    (l.closeBlocks none).separate? .documentEnd false (rest.drop 2)
  else
    match g.char with
    | '[' => l.openFlow? here .flowSequence rest
    | '\x7b' => l.openFlow? here .flowMapping rest
    | ']' => l.closeFlow? .flowSequenceEnd rest
    | '\x7d' => l.closeFlow? .flowMappingEnd rest
    | ',' => l.separate? .comma true rest
    | c =>
        if c == '-' && atGap rest then
          (l.openBlockAt? here .blockSequence).bind fun l => l.separate? .dash true rest
        else if c == '?' && (l.inFlow || atGap rest) then
          (l.openBlockAt? here .blockMapping).bind fun l => l.separate? .key (!l.inFlow) rest
        else if c == ':' && (l.inFlow || atGap rest) then l.colon? here rest
        else if c == '*' then
          (anchorName? rest).bind fun (name, rest) => l.content? here (.alias name) rest
        else if c == '&' then
          (anchorName? rest).bind fun (name, rest) => l.content? here (.anchor name) rest
        else if c == '!' then
          (l.tagToken? rest).bind fun (ref, rest) => l.content? here (.tag ref) rest
        else if c == '|' && !l.inFlow then l.blockScalar? false rest
        else if c == '>' && !l.inFlow then l.blockScalar? true rest
        else if c == '\'' || c == '"' then l.quotedScalar? g rest
        else if l.startsPlain c rest then l.plainScalar? g rest
        else none

/-- The next token, and whether a key may start with it.  Tabs count as spaces
only where no key may come, and a line end allows a key in block context.  A byte
order mark at the start of a line is passed over. -/
def toToken (inFlow : Bool) : Bool → Bool → Input → Bool × Input
  | allowed, _, [] => (allowed, [])
  | allowed, inComment, g :: rest =>
      if isBreak g.char then toToken inFlow (allowed || !inFlow) false rest
      else if inComment then toToken inFlow allowed true rest
      else if g.char == ' ' || (g.char == '\t' && (inFlow || !allowed)) then
        toToken inFlow allowed false rest
      else if g.char == '#' then toToken inFlow allowed true rest
      else if g.place.column == 0 && g.char == '\uFEFF' then toToken inFlow allowed false rest
      else (allowed, g :: rest)

/-- Read all tokens.  Each takes a glyph, so the fuel is more than the length of
the input. -/
def tokensFrom? : Nat → Lexer → Option (List Token)
  | 0, _ => none
  | fuel + 1, l =>
      match toToken l.inFlow l.keyAllowed false l.input with
      | (_, []) => (l.closeBlocks none).dropCandidate?.map (·.tokens.toList)
      | (allowed, g :: rest) => do
          let l ← (l.allowKey allowed).expire? g.place
          let l ← (l.closeBlocks (some g.place.column)).step? g rest
          tokensFrom? fuel l

end Lexer

def tokens? (input : Input) : Option (List Token) :=
  Lexer.tokensFrom? (input.length + 1) (Lexer.start input)

end RecordKit.Yaml
