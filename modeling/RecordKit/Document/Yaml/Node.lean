import RecordKit.Document.Yaml.Token

/-!
# YAML nodes

The node of the only document in a text, from its tokens.  An anchor names a
slot, and a slot holds the last node that took it; a name takes the slot whose
number is that of the different names before it.  An alias stands for a slot.
-/

namespace RecordKit.Yaml

/-- A node.  The entries of a mapping are as written. -/
inductive Node where
  | scalar (tag : Option Tag) (style : ScalarStyle) (text : String)
  | sequence (tag : Option Tag) (items : List Node)
  | mapping (tag : Option Tag) (entries : List (Node × Node))
  | alias (slot : Nat)
deriving Inhabited, Repr

namespace Node

/-- The node where none is written. -/
def blank : Node := .scalar none .plain ""

/-- Whether a node is a plain scalar without a text. -/
def isBlank : Node → Bool
  | .scalar _ .plain text => text.isEmpty
  | _ => false

end Node

/-- The nodes of a document.  There is no root if there is no document; `size`
counts the scalars and aliases and both ends of the collections. -/
structure NodeGraph where
  root : Option Node
  size : Nat
  slots : List (Nat × Node)

/-- What is read so far: the tokens left, the count of node starts and ends, the
slots of the anchors, the start of the last node in each slot, and the nodes that
have an anchor by their start. -/
structure Progress where
  tokens : List Token
  size : Nat
  slotOf : List (List Char × Nat)
  holder : List (Nat × Nat)
  anchored : List (Nat × Node)

/-- A step in reading nodes. -/
abbrev NodeReader := StateT Progress Option

namespace NodeReader

def peek : NodeReader (Option Token) := do
  return (← get).tokens.head?

def skip : NodeReader Unit :=
  modify fun s => { s with tokens := s.tokens.tail }

/-- Count starts and ends. -/
def count (n : Nat) : NodeReader Unit :=
  modify fun s => { s with size := s.size + n }

def blank : NodeReader Node := do
  count 1
  return .blank

/-- Give an anchor to the node that starts here. -/
def define (name : List Char) : NodeReader Unit :=
  modify fun s =>
    let slot := s.slotOf.length
    { s with
      slotOf := (name, slot) :: s.slotOf.filter (·.1 ≠ name)
      holder := (slot, s.size) :: s.holder.filter (·.1 ≠ slot) }

/-- The alias of an anchor that has been given. -/
def aliasOf (name : List Char) : NodeReader Node := do
  match (← get).slotOf.lookup name with
  | some slot => count 1; return .alias slot
  | none => failure

/-- Keep a node that has an anchor. -/
def keep (anchor : Option (List Char)) (start : Nat) (node : Node) : NodeReader Node := do
  if anchor.isSome then
    modify fun s => { s with anchored := (start, node) :: s.anchored }
  return node

/-- The anchor and the tag in front of a node, in either order. -/
def properties (handles : Handles) : NodeReader (Option (List Char) × Option Tag) := do
  match ← peek with
  | some (.anchor name) =>
      skip
      match ← peek with
      | some (.tag ref) => skip; return (some name, some (← ref.resolve? handles))
      | _ => return (some name, none)
  | some (.tag ref) =>
      skip
      let tag ← ref.resolve? handles
      match ← peek with
      | some (.anchor name) => skip; return (some name, some tag)
      | _ => return (none, some tag)
  | _ => return (none, none)

/-- Where a node stands: in brackets, in a block, or in a block mapping, where a
sequence need not be indented. -/
inductive Position where
  | flow
  | block
  | inMapping
deriving DecidableEq

/-- A node that has an anchor or a tag only. -/
def blankWith (anchor : Option (List Char)) (tag : Option Tag) (start : Nat) :
    NodeReader Node := do
  if anchor.isNone && tag.isNone then failure
  count 1
  keep anchor start (.scalar tag .plain "")

/-- Pass over the token that ends a collection. -/
def close {α : Type} : NodeReader (List α) := do
  skip
  count 1
  return []

/-- Pass over the comma that must follow an item, or none before the first. -/
def comma (first : Bool) : NodeReader Unit := do
  unless first do
    if (← peek) = some .comma then skip else failure

mutual

/-- A node.  Each call spends fuel, which bounds how deep the calls nest. -/
def node (handles : Handles) : Nat → Position → NodeReader Node
  | 0, _ => failure
  | fuel + 1, position => do
      match ← peek with
      | some (.alias name) => skip; aliasOf name
      | _ =>
          let (anchor, tag) ← properties handles
          let start := (← get).size
          anchor.forM define
          match ← peek, position with
          | some (.scalar style text), _ =>
              skip
              count 1
              keep anchor start (.scalar tag style text)
          | some .flowSequence, _ =>
              skip
              count 1
              keep anchor start (.sequence tag (← flowItems handles fuel true))
          | some .flowMapping, _ =>
              skip
              count 1
              keep anchor start (.mapping tag (← flowEntries handles fuel true))
          | some .dash, .inMapping =>
              count 1
              keep anchor start (.sequence tag (← openItems handles fuel))
          | some .blockSequence, .block | some .blockSequence, .inMapping =>
              skip
              count 1
              keep anchor start (.sequence tag (← blockItems handles fuel))
          | some .blockMapping, .block | some .blockMapping, .inMapping =>
              skip
              count 1
              keep anchor start (.mapping tag (← blockEntries handles fuel))
          | _, _ => blankWith anchor tag start

/-- A node, or a blank one before some tokens. -/
def nodeUnless (handles : Handles) : Nat → Position → List Token → NodeReader Node
  | 0, _, _ => failure
  | fuel + 1, position, stops => do
      match ← peek with
      | some t => if stops.contains t then blank else node handles fuel position
      | none => failure

/-- The items of a block sequence up to its end. -/
def blockItems (handles : Handles) : Nat → NodeReader (List Node)
  | 0 => failure
  | fuel + 1 => do
      match ← peek with
      | some .dash =>
          skip
          let item ← nodeUnless handles fuel .block [.dash, .blockEnd]
          return item :: (← blockItems handles fuel)
      | some .blockEnd => close
      | _ => failure

/-- The items of a sequence that is no deeper than the mapping it stands in. -/
def openItems (handles : Handles) : Nat → NodeReader (List Node)
  | 0 => failure
  | fuel + 1 => do
      match ← peek with
      | some .dash =>
          skip
          let item ← nodeUnless handles fuel .block [.dash, .key, .value, .blockEnd]
          return item :: (← openItems handles fuel)
      | _ => count 1; return []

/-- The entries of a block mapping up to its end.  A value may be left out. -/
def blockEntries (handles : Handles) : Nat → NodeReader (List (Node × Node))
  | 0 => failure
  | fuel + 1 => do
      match ← peek with
      | some .key =>
          skip
          let stops := [.key, .value, .blockEnd]
          let key ← nodeUnless handles fuel .inMapping stops
          let value ← valueUnless handles fuel .inMapping stops
          return (key, value) :: (← blockEntries handles fuel)
      | some .blockEnd => close
      | _ => failure

/-- The node after a colon, or a blank one. -/
def valueUnless (handles : Handles) : Nat → Position → List Token → NodeReader Node
  | 0, _, _ => failure
  | fuel + 1, position, stops => do
      if (← peek) = some .value then
        skip
        nodeUnless handles fuel position stops
      else blank

/-- The items of a sequence in brackets up to its end.  A key makes a mapping of
one entry. -/
def flowItems (handles : Handles) : Nat → Bool → NodeReader (List Node)
  | 0, _ => failure
  | fuel + 1, first => do
      if (← peek) = some .flowSequenceEnd then close
      else
        comma first
        match ← peek with
        | some .flowSequenceEnd => close
        | some .key =>
            skip
            count 1
            let entry ← flowPair handles fuel
            count 1
            return .mapping none [entry] :: (← flowItems handles fuel false)
        | _ =>
            let item ← node handles fuel .flow
            return item :: (← flowItems handles fuel false)

/-- The only entry of a mapping without brackets.  Where no key is written, the
token in its place is passed over. -/
def flowPair (handles : Handles) : Nat → NodeReader (Node × Node)
  | 0 => failure
  | fuel + 1 => do
      let stops := [.value, .comma, .flowSequenceEnd]
      let missing := (← peek).any stops.contains
      let key ← nodeUnless handles fuel .flow stops
      if missing then skip
      return (key, ← valueUnless handles fuel .flow [.comma, .flowSequenceEnd])

/-- The entries of a mapping in brackets up to its end.  A key without a mark
has no value. -/
def flowEntries (handles : Handles) : Nat → Bool → NodeReader (List (Node × Node))
  | 0, _ => failure
  | fuel + 1, first => do
      if (← peek) = some .flowMappingEnd then close
      else
        comma first
        match ← peek with
        | some .flowMappingEnd => close
        | some .key =>
            skip
            let key ← nodeUnless handles fuel .flow [.value, .comma, .flowMappingEnd]
            let value ← valueUnless handles fuel .flow [.comma, .flowMappingEnd]
            return (key, value) :: (← flowEntries handles fuel false)
        | _ =>
            let key ← node handles fuel .flow
            let value ← blank
            return (key, value) :: (← flowEntries handles fuel false)

end

/-- The directives before a document, added to those before them, up to the
start of the document.  There is at most one version, 1.1 or 1.2, and one meaning
for a handle. -/
def directives? : Bool → Handles → List Token → Option (Handles × List Token)
  | versioned, handles, .directive (.version major minor) :: rest =>
      if !versioned && major = 1 && (minor = 1 || minor = 2) then directives? true handles rest
      else none
  | versioned, handles, .directive (.handle name start) :: rest =>
      if (handles.lookup name).isSome then none
      else directives? versioned ((name, start) :: handles) rest
  | _, handles, .documentStart :: rest => some (handles, rest)
  | _, _, _ => none

/-- The root of a document after its start, which may be left out. -/
def root (handles : Handles) (fuel : Nat) : NodeReader Node := do
  match ← peek with
  | none | some (.directive _) | some .documentStart | some .documentEnd => blank
  | some _ => node handles fuel .block

end NodeReader

/-- The nodes of the document in a list of tokens.  There is at most one document,
and after it nothing but end markers. -/
def NodeGraph.ofTokens? (tokens : List Token) : Option NodeGraph := do
  let fuel := 4 * tokens.length + 4
  let start (tokens : List Token) : Progress := ⟨tokens, 0, [], [], []⟩
  match tokens with
  | [] => return ⟨none, 1, []⟩
  | t :: _ =>
      let (root, s) ←
        match t with
        | .directive _ | .documentStart => do
            let (handles, rest) ← NodeReader.directives? false [] tokens
            (NodeReader.root (handles ++ Handles.standard) fuel).run (start rest)
        | _ => (NodeReader.node Handles.standard fuel .block).run (start tokens)
      if s.tokens.all (· = .documentEnd) then
        let slots := s.holder.filterMap fun (slot, place) =>
          (s.anchored.lookup place).map (slot, ·)
        return ⟨some root, s.size, slots⟩
      else none

/-- The nodes of the document in a text in bytes. -/
def NodeGraph.read? (bytes : List UInt8) : Option NodeGraph := do
  ofTokens? (← tokens? (← glyphs? bytes))

end RecordKit.Yaml
