import RecordKit.Number.Shortest

/-!
# Views of field values

A view is what reading a field shows: a scalar, a text, a byte sequence, or for
a container its size only.  A view has a text of its own, the one in which
failed checks report the value.
-/

namespace RecordKit

/-- The current value of a field as seen from outside. -/
inductive View where
  | nil
  | bool (b : Bool)
  | int (n : Int)
  | uint (n : Nat)
  | float (bits : UInt64)
  | str (s : String)
  | bytes (bytes : List UInt8)
  | seq (size : Nat)
  | map (size : Nat)
  | struct (name : String)
  | sealed (typeName : String)
deriving DecidableEq, Repr

def View.text : View → String
  | .nil => "<nil>"
  | .bool b => if b then "true" else "false"
  | .int n => toString n
  | .uint n => toString n
  | .float bits => Shortest.text binary64 bits.toNat
  | .str s => s
  | .bytes bs => "[" ++ ", ".intercalate (bs.map fun b => toString b.toNat) ++ "]"
  | .seq size => "[len=" ++ toString size ++ "]"
  | .map size => "map[len=" ++ toString size ++ "]"
  | .struct name => "\x7b" ++ name ++ "\x7d"
  | .sealed typeName => typeName

end RecordKit
