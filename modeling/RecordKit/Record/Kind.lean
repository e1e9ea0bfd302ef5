/-!
# Kinds of fields

A kind is the coarse class of a field type.  Numeric kinds convert among
themselves, texts and byte sequences convert into each other, and no other pair
of kinds converts.
-/

namespace RecordKit

/-- The coarse class of a field type. -/
inductive Kind where
  | bool
  | int
  | uint
  | float
  | string
  | bytes
  | slice
  | map
  | option
  | pointer
  | struct
  | other
deriving DecidableEq, Repr

namespace Kind

/-- Every kind, in the order of the definition. -/
def all : List Kind :=
  [bool, int, uint, float, string, bytes, slice, map, option, pointer, struct, other]

def isNumeric : Kind → Bool
  | int | uint | float => true
  | _ => false

/-- Whether values of one kind can be converted into another kind. -/
def convertsTo (source target : Kind) : Bool :=
  (source.isNumeric && target.isNumeric) ||
    match source, target with
    | string, bytes | bytes, string => true
    | _, _ => false

def name : Kind → String
  | bool => "bool"
  | int => "int"
  | uint => "uint"
  | float => "float"
  | string => "string"
  | bytes => "bytes"
  | slice => "slice"
  | map => "map"
  | option => "option"
  | pointer => "pointer"
  | struct => "struct"
  | other => "other"

def ofName? (s : String) : Option Kind :=
  all.find? (·.name == s)

/-- The name of a kind with a capital letter. -/
def title (k : Kind) : String :=
  k.name.capitalize

theorem convertsTo_comm (a b : Kind) : a.convertsTo b = b.convertsTo a := by
  cases a <;> cases b <;> rfl

end Kind

end RecordKit
