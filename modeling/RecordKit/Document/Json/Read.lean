import RecordKit.Document.Json.Tree

/-!
# Reading JSON

A syntax tree read as a document, as database settings or as application
settings.  Settings are objects, or arrays of their members in order.  Members
with unknown names are passed over, whatever they hold; a known name must not be
repeated.
-/

namespace RecordKit.Json

/-- The bytes of a string.  A code unit of the upper surrogate half must be
followed by one of the lower half, and no other one may be. -/
def stringBytes? : RawString → Option (List UInt8)
  | [] => some []
  | .byte b :: rest | .escaped b :: rest => (stringBytes? rest).map (b :: ·)
  | .codeUnit n :: rest =>
      if n < 0xD800 ∨ 0xE000 ≤ n then
        (stringBytes? rest).map (Text.Utf8.encodeChar (Char.ofNat n) ++ ·)
      else
        match rest with
        | .codeUnit m :: rest =>
            if n < 0xDC00 ∧ 0xDC00 ≤ m ∧ m < 0xE000 then
              let c := Char.ofNat (0x10000 + (n - 0xD800) * 0x400 + (m - 0xDC00))
              (stringBytes? rest).map (Text.Utf8.encodeChar c ++ ·)
            else none
        | _ => none

/-- The text of a string, if its bytes are well-formed. -/
def text? (s : RawString) : Option String :=
  (stringBytes? s).bind Text.Utf8.decode?

/-- Read every entry of a list. -/
def readAll {α β : Type} (read : α → Option β) : List α → Option (List β)
  | [] => some []
  | x :: rest => do
      let y ← read x
      let ys ← readAll read rest
      return y :: ys

/-- The document of a tree.  The collections in it nest less than `depth` deep. -/
def document? : Nat → Tree → Option Document
  | _, .null => some .null
  | _, .bool b => some (.bool b)
  | _, .number n => n.document?
  | _, .string s => (text? s).map .text
  | 0, _ => none
  | 1, _ => none
  | depth + 2, .array items => (readAll (document? (depth + 1)) items).map .list
  | depth + 2, .object members =>
      (readAll (fun (m : RawString × Tree) => do
        let key ← text? m.1
        let value ← document? (depth + 1) m.2
        return (key, value)) members).map Document.ofEntries

def readText? : Tree → Option String
  | .string s => text? s
  | _ => none

/-- A whole number below 2^16. -/
def readPortNumber? : Tree → Option Nat
  | .number n =>
      match n.int? with
      | some value => if 0 ≤ value ∧ value < 0x10000 then some value.toNat else none
      | none => none
  | _ => none

/-- Texts by name.  Later ones win. -/
def readOptions? : Tree → Option (List (String × String))
  | .object members =>
      readAll (fun (m : RawString × Tree) => do
        let key ← text? m.1
        let value ← readText? m.2
        return (key, value)) members
  | _ => none

def readTexts? : Tree → Option (List String)
  | .array items => readAll readText? items
  | _ => none

/-- The values of named members, each at most once.  Other members are passed
over, but their names must be texts. -/
def namedMembers? (names : List String) (members : List (RawString × Tree)) :
    Option (List (Option Tree)) := do
  let keyed ←
    readAll (fun (m : RawString × Tree) => (text? m.1).map fun key => (key, m.2)) members
  readAll (fun name =>
    match keyed.filter (·.1 == name) with
    | [] => some none
    | [m] => some (some m.2)
    | _ => none) names

/-- The values of the members of settings, by name or in order.  An array may
leave out members at its end, but has no more than there are. -/
def settings? (names : List String) : Tree → Option (List (Option Tree))
  | .object members => namedMembers? names members
  | .array items =>
      if items.length ≤ names.length then
        some (items.map some ++ List.replicate (names.length - items.length) none)
      else none
  | _ => none

/-- Database settings.  The options may be left out. -/
def readDatabase? (t : Tree) : Option DatabaseSettings := do
  match ← settings? ["host", "port", "options"] t with
  | [some host, some number, options] =>
      let options ← match options with
        | some t => readOptions? t
        | none => some []
      return ⟨← readText? host, ← readPortNumber? number, options⟩
  | _ => none

def readServer? (t : Tree) : Option ServerSettings := do
  match ← settings? ["addr", "port"] t with
  | [some addr, some number] => return ⟨← readText? addr, ← readPortNumber? number⟩
  | _ => none

/-- Application settings.  The environment may be left out. -/
def readApp? (t : Tree) : Option AppSettings := do
  match ← settings? ["server", "environment"] t with
  | [some server, environment] =>
      let environment ← match environment with
        | some t => readTexts? t
        | none => some []
      return ⟨← readServer? server, environment⟩
  | _ => none

/-- The document of a JSON text, read as what is asked for. -/
def load? (target : DocumentTarget) (input : Input) : Option Document :=
  (Tree.parse? input).bind fun t =>
    match target with
    | .value => document? maxDepth t
    | .database => (readDatabase? t).map (·.document)
    | .app => (readApp? t).map (·.document)

end RecordKit.Json
