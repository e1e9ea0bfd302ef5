import RecordKit.Record.FieldType
import RecordKit.Text.Quoted

/-!
# Shapes of records

A shape describes a struct type: its identity and its fields in declaration
order.  A field may be exported, which lets copies write it; sealed, which hides
its value from views and conversions; or embedded, which promotes the fields of
the struct it holds.  Embedding is part of the shape itself, so it is finite.

A route leads to a field through embedded fields.
-/

namespace RecordKit

mutual

/-- The description of one field.  `inner` is the shape of an embedded struct,
`check` is the tag with its rules.  A field that does not resolve has no
accessor, so it can be neither read nor written. -/
structure Field (C : Type) where
  name : String
  type : FieldType C
  exported : Bool
  isSealed : Bool
  resolves : Bool
  check : Option String
  inner : Option (Shape C)

/-- The description of a struct type. -/
structure Shape (C : Type) where
  id : StructId
  fields : List (Field C)

end

structure Record where
  id : StructId
  data : Data

namespace Field

variable {C : Type}

/-- An exported field that resolves, without a tag. -/
def basic (name : String) (type : FieldType C) : Field C :=
  ⟨name, type, true, false, true, none, none⟩

/-- An exported field that embeds a struct. -/
def embedding (name : String) (inner : Shape C) : Field C :=
  { basic name (.struct inner.id) with inner := some inner }

/-- The value of the field in a record. -/
def get? (f : Field C) (owner : Data) : Option Data :=
  if f.resolves then owner.member? f.name else none

/-- The record with another value in the field. -/
def put? (f : Field C) (value owner : Data) : Option Data :=
  if f.resolves then owner.setMember? f.name value else none

variable [UserType C]

/-- The kind of a field.  A sealed field is of no particular kind. -/
def kind (f : Field C) : Kind :=
  if f.isSealed then .other else f.type.kind

/-- The view of a value of the field. -/
def view (f : Field C) (value : Data) : View :=
  if f.isSealed then .sealed f.type.typeName else f.type.view value

/-- The value for the field built from a view, if the field accepts it. -/
def ofView? (f : Field C) (v : View) : Option Data :=
  if f.isSealed then none else f.type.ofView? v

def summary (f : Field C) : String :=
  "FieldInfo \x7b name: " ++ Text.quoted f.name ++
    ", type_name: " ++ Text.quoted f.type.typeName ++
    ", kind: " ++ f.kind.title ++
    ", exported: " ++ toString f.exported ++
    ", embedded: " ++ toString f.inner.isSome ++
    ", check: " ++ (match f.check with
      | none => "None"
      | some tag => "Some(" ++ Text.quoted tag ++ ")") ++ " \x7d"

end Field

namespace Shape

variable {C : Type}

/-- The direct field of a name, the first one if there are several. -/
def field? (s : Shape C) (name : String) : Option (Field C) :=
  s.fields.find? (·.name == name)

variable [UserType C]

/-- The view of a field in a record of any type.  A field of one struct cannot
be read on a record of another. -/
def read? (s : Shape C) (f : Field C) (r : Record) : Option View :=
  if r.id = s.id then (f.get? r.data).map f.view else none

/-- The views of all fields in declaration order. -/
def readAll (s : Shape C) (r : Record) : List (String × Option View) :=
  s.fields.map fun f => (f.name, s.read? f r)

end Shape

/-- A field reached through embedded fields. -/
structure Route (C : Type) where
  via : List (Field C)
  last : Field C

namespace Route

variable {C : Type}

def steps (r : Route C) : List (Field C) :=
  r.via ++ [r.last]

def names (r : Route C) : List String :=
  r.steps.map (·.name)

/-- The names of a route with points between them. -/
def dotted (r : Route C) : String :=
  ".".intercalate r.names

/-- The route behind one more embedded field. -/
def under (f : Field C) (r : Route C) : Route C :=
  ⟨f :: r.via, r.last⟩

end Route

variable {C : Type}

/-- The value at the end of a path of fields. -/
def fetch? : List (Field C) → Data → Option Data
  | [], d => some d
  | f :: path, d => (f.get? d).bind (fetch? path)

/-- The record with another value at the end of a path of fields. -/
def replace? : List (Field C) → Data → Data → Option Data
  | [], value, _ => some value
  | f :: path, value, d =>
      (f.get? d).bind fun inner => (replace? path value inner).bind fun inner' => f.put? inner' d

end RecordKit
