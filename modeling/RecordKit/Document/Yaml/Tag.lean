import RecordKit.Document.Yaml.Scalar

/-!
# Tags and directives

A tag names the type of a node.  It is written in full between angle brackets,
or as a handle and the rest of it, where directives say what the handles stand
for.
-/

namespace RecordKit.Yaml

/-- The name of a type, in bytes. -/
abbrev Tag := List UInt8

namespace Tag

/-- The bytes that tags of the core types start with. -/
def corePart : Tag := Text.Utf8.encode "tag:yaml.org,2002:"

/-- The tag of a core type. -/
def core (name : String) : Tag := corePart ++ Text.Utf8.encode name

/-- The tag that says nothing but that there is one. -/
def nonSpecific : Tag := [0x21]

/-- Whether a tag is an application's own.  Such a tag starts with an exclamation
mark. -/
def isLocal (t : Tag) : Bool :=
  match t with
  | 0x21 :: rest => (Text.Utf8.decode? rest).isSome
  | _ => false

end Tag

/-- A tag as written. -/
inductive TagRef where
  | whole (tag : Tag)
  | short (handle : List Char) (rest : Tag)
deriving DecidableEq, Repr

/-- A directive before a document. -/
inductive Directive where
  | version (major minor : Nat)
  | handle (name : List Char) (start : Tag)
deriving DecidableEq, Repr

/-- What tag handles stand for.  The first entry of a handle counts. -/
abbrev Handles := List (List Char × Tag)

/-- The handles that need no directive. -/
def Handles.standard : Handles :=
  [(['!'], Tag.nonSpecific), (['!', '!'], Tag.corePart)]

/-- The tag that a written one stands for, if its handle is known. -/
def TagRef.resolve? (handles : Handles) : TagRef → Option Tag
  | .whole tag => some tag
  | .short handle rest => (handles.lookup handle).map (· ++ rest)

/-- Whether a character may stand in a tag.  Some may only where no bracket
could be meant. -/
def isTagChar (wide : Bool) (c : Char) : Bool :=
  isNameChar c || ";/?:@&=+$.%!~*'()".toList.contains c ||
    (wide && ",[]".toList.contains c)

/-- How many bytes follow the first byte of a character. -/
def followers? (byte : UInt8) : Option Nat :=
  if byte < 0x80 then some 0
  else if byte < 0xC0 then none
  else if byte < 0xE0 then some 1
  else if byte < 0xF0 then some 2
  else if byte < 0xF8 then some 3
  else none

/-- The bytes still due after one that is given by its digits. -/
def due? (owed : Nat) (byte : UInt8) : Option Nat :=
  match owed with
  | 0 => followers? byte
  | owed + 1 => if 0x80 ≤ byte ∧ byte < 0xC0 then some owed else none

/-- The bytes of a tag and the rest of the text, with so many bytes still due for
a character whose earlier bytes were given by their digits. -/
def tagBytesFrom? (wide : Bool) : Nat → Input → Option (List UInt8 × Input)
  | 0, [] => some ([], [])
  | _ + 1, [] => none
  | owed, g :: rest =>
      if g.char == '%' then
        match rest with
        | h :: l :: rest => do
            let byte := (16 * (← hexDigit? h.char) + (← hexDigit? l.char)).toUInt8
            let (bytes, rest) ← tagBytesFrom? wide (← due? owed byte) rest
            return (byte :: bytes, rest)
        | _ => none
      else if owed ≠ 0 then none
      else if isTagChar wide g.char then
        (tagBytesFrom? wide 0 rest).map fun (bytes, rest) =>
          (Text.Utf8.encodeChar g.char ++ bytes, rest)
      else some ([], g :: rest)

/-- The bytes of a tag.  A zero byte ends it early. -/
def tagBytes? (wide : Bool) (input : Input) : Option (List UInt8 × Input) :=
  (tagBytesFrom? wide 0 input).map fun (bytes, rest) => (bytes.takeWhile (· ≠ 0), rest)

/-- A handle after its exclamation mark: a name that may end in another one. -/
def handle (input : Input) : List Char × Input :=
  let (name, rest) := run isNameChar input
  if startsWith '!' rest then ('!' :: name ++ ['!'], rest.tail) else ('!' :: name, rest)

/-- Whether a handle ends in an exclamation mark of its own. -/
def isClosed (handle : List Char) : Bool :=
  1 < handle.length && handle.getLast? == some '!'

/-- A tag after its exclamation mark. -/
def tagRef? (input : Input) : Option (TagRef × Input) :=
  if startsWith '<' input then do
    let (tag, rest) ← tagBytes? true input.tail
    if rest.length = input.tail.length || !startsWith '>' rest then none
    else return (.whole tag, rest.tail)
  else
    let (name, rest) := handle input
    if isClosed name then do
      let (tag, rest') ← tagBytes? false rest
      if rest'.length = rest.length then none else return (.short name tag, rest')
    else do
      let (tag, rest) ← tagBytes? false input
      return (if tag.isEmpty then .whole Tag.nonSpecific else .short ['!'] tag, rest)

/-- A whole number of at most nine digits. -/
def versionNumber? (input : Input) : Option (Nat × Input) :=
  let (digits, rest) := run Char.isDigit input
  if digits.isEmpty || 9 < digits.length then none
  else some (digits.foldl (fun n c => 10 * n + (c.toNat - 0x30)) 0, rest)

/-- The version that a directive asks for. -/
def version? (input : Input) : Option (Directive × Input) := do
  let (major, rest) ← versionNumber? (skipSpaces input)
  if startsWith '.' rest then
    let (minor, rest) ← versionNumber? rest.tail
    return (.version major minor, rest)
  else none

/-- The meaning that a directive gives to a handle. -/
def handleMeaning? (input : Input) : Option (Directive × Input) :=
  let input := skipSpaces input
  if !startsWith '!' input then none
  else
    let (name, rest) := handle input.tail
    let after := skipSpaces rest
    if (name ≠ ['!'] && !isClosed name) || after.length = rest.length then none
    else do
      let (start, rest) ← tagBytes? true after
      if rest.length = after.length || !atGap rest then none
      else return (.handle name start, rest)

/-- A directive after its percent sign, with the rest of its line. -/
def directive? (input : Input) : Option (Directive × Input) := do
  let (name, rest) := run isNameChar input
  if !atGap rest then none
  else
    let (directive, rest) ←
      if name = "YAML".toList then version? rest
      else if name = "TAG".toList then handleMeaning? rest
      else none
    return (directive, ← finishLine? rest)

end RecordKit.Yaml
