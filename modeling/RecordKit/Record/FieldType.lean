import RecordKit.Number.Binary
import RecordKit.Record.Data
import RecordKit.Record.Kind
import RecordKit.Record.View
import RecordKit.Text.Utf8

/-!
# Field types

A field type says of which kind its values are, how a value is viewed and how a
value is built from a view.  Besides the built-in types there are user types,
whose author supplies all three; a user type may refuse any view.

Options and boxes are transparent: they are viewed as what they hold.  Numbers
are built from any numeric view, texts and byte sequences from either of both,
and no container is built from a view of its size.

A map shows how many entries it has and nothing of them, so its keys and values may
be of any type: one that is no field type stands among the user types, and only its
name is ever asked for.
-/

namespace RecordKit

/-- The identity of a struct type and the name by which it describes itself.
Two struct types are the same type exactly if both agree. -/
structure StructId where
  id : String
  name : String
deriving DecidableEq, Repr

/-- Field types, with user types from `C`. -/
inductive FieldType (C : Type) where
  | bool
  | int (t : IntType)
  | f32
  | f64
  | string
  | list (elem : FieldType C)
  | option (elem : FieldType C)
  | box (elem : FieldType C)
  | hashMap (key value : FieldType C)
  | treeMap (key value : FieldType C)
  | struct (id : StructId)
  | user (c : C)
deriving DecidableEq, Repr

/-- The behaviour of user types. -/
class UserType (C : Type) where
  /-- The kind that the type declares. -/
  kind : C → Kind
  /-- The full name of the type. -/
  typeName : C → String
  /-- The view of a value. -/
  view : C → Data → View
  /-- The value built from a view, if the type accepts it. -/
  ofView? : C → View → Option Data
  /-- The value of a new field. -/
  blank : C → Data

namespace FieldType

variable {C : Type}

def byteList : FieldType C :=
  list (int .byte)

def isByte : FieldType C → Bool
  | int t => t == .byte
  | _ => false

variable [UserType C]

def kind : FieldType C → Kind
  | bool => .bool
  | int t => if t.signed then .int else .uint
  | f32 | f64 => .float
  | string => .string
  | list elem => if elem.isByte then .bytes else .slice
  | option _ => .option
  | box _ => .pointer
  | hashMap _ _ | treeMap _ _ => .map
  | struct _ => .struct
  | user c => UserType.kind c

def typeName : FieldType C → String
  | bool => "bool"
  | int t => t.name
  | f32 => "f32"
  | f64 => "f64"
  | string => "alloc::string::String"
  | list elem => "alloc::vec::Vec<" ++ elem.typeName ++ ">"
  | option elem => "core::option::Option<" ++ elem.typeName ++ ">"
  | box elem => "alloc::boxed::Box<" ++ elem.typeName ++ ">"
  | hashMap key value =>
      "std::collections::hash::map::HashMap<" ++ key.typeName ++ ", " ++ value.typeName ++ ">"
  | treeMap key value =>
      "alloc::collections::btree::map::BTreeMap<" ++ key.typeName ++ ", " ++ value.typeName ++ ">"
  | struct id => id.id
  | user c => UserType.typeName c

/-- The view of a value.  Data of another type is viewed as nil. -/
def view : FieldType C → Data → View
  | bool, .bool b => .bool b
  | int t, .int n => if t.signed then .int n else .uint n.toNat
  | f32, .f32 bits => .float (widen bits)
  | f64, .f64 bits => .float bits
  | string, .text s => .str s
  | list _, .bytes bs => .bytes bs
  | list _, .list items => .seq items.length
  | option elem, .some value => elem.view value
  | box elem, value => elem.view value
  | hashMap _ _, .map entries => .map entries.length
  | treeMap _ _, .map entries => .map entries.length
  | struct id, .record _ => .struct id.name
  | user c, value => UserType.view c value
  | _, _ => .nil

/-- The integer that a numeric view gives in an integer type. -/
def intOfView? (t : IntType) : View → Option Int
  | .int n => some (t.wrap n)
  | .uint n => some (t.wrap n)
  | .float bits => some ((binary64.decode bits.toNat).toInt t)
  | _ => none

/-- The value built from a view, if there is one. -/
def ofView? : FieldType C → View → Option Data
  | bool, .bool b => some (.bool b)
  | int t, v => (intOfView? t v).map .int
  | f32, .int n => some (.f32 (binary32.ofInt n).toUInt32)
  | f32, .uint n => some (.f32 (binary32.ofInt n).toUInt32)
  | f32, .float bits => some (.f32 (narrow bits))
  | f64, .int n => some (.f64 (binary64.ofInt n).toUInt64)
  | f64, .uint n => some (.f64 (binary64.ofInt n).toUInt64)
  | f64, .float bits => some (.f64 bits)
  | string, .str s => some (.text s)
  | string, .bytes bs => some (.text (Text.Utf8.decodeLossy bs))
  | list elem, .str s => if elem.isByte then some (.bytes (Text.Utf8.encode s)) else none
  | list elem, .bytes bs => if elem.isByte then some (.bytes bs) else none
  | option _, .nil => some .none
  | option elem, v => (elem.ofView? v).map .some
  | box elem, v => elem.ofView? v
  | user c, v => UserType.ofView? c v
  | _, _ => none

/-- The value of a new field, where `structs` supplies new values of struct
types. -/
def blank (structs : StructId → Data) : FieldType C → Data
  | bool => .bool false
  | int _ => .int 0
  | f32 => .f32 0
  | f64 => .f64 0
  | string => .text ""
  | list elem => if elem.isByte then .bytes [] else .list []
  | option _ => .none
  | box elem => elem.blank structs
  | hashMap _ _ | treeMap _ _ => .map []
  | struct id => structs id
  | user c => UserType.blank c

end FieldType

end RecordKit
