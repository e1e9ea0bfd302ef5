/-!
# Field data

`Data` holds the value of any field.  A record is a list of named members; the
operations on it look at the first member of a name.  Writing a member of a
record replaces it in place, and there is no way to add one.
-/

namespace RecordKit

/-- The value of a field of any type. -/
inductive Data where
  | bool (b : Bool)
  | int (n : Int)
  | f32 (bits : UInt32)
  | f64 (bits : UInt64)
  | text (s : String)
  | bytes (bytes : List UInt8)
  | list (items : List Data)
  | none
  | some (value : Data)
  | map (entries : List (Data × Data))
  | record (members : List (String × Data))
deriving Inhabited, Repr

namespace Data

/-- Replace the first value under a name in a list of named values. -/
def replaceMember (name : String) (value : Data) :
    List (String × Data) → Option (List (String × Data))
  | [] => Option.none
  | (n, old) :: rest =>
      if n = name then Option.some ((n, value) :: rest)
      else (replaceMember name value rest).map ((n, old) :: ·)

/-- The member of a record under a name. -/
def member? (owner : Data) (name : String) : Option Data :=
  match owner with
  | record members => members.lookup name
  | _ => Option.none

/-- The record with another value for an existing member. -/
def setMember? (owner : Data) (name : String) (value : Data) : Option Data :=
  match owner with
  | record members => (replaceMember name value members).map record
  | _ => Option.none

end Data

end RecordKit
