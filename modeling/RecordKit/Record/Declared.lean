import RecordKit.Record.Shape

/-!
# Declared structs

A declared struct may have members that its shape leaves out.  They are part of
its records, but no view, copy or check reaches them.
-/

namespace RecordKit

/-- A declared struct: its shape, and the members that the shape leaves out. -/
structure Declared (C : Type) where
  shape : Shape C
  undescribed : List (String × FieldType C)

namespace Declared

variable {C : Type}

/-- The members of the struct's records with their types. -/
def members (d : Declared C) : List (String × FieldType C) :=
  (d.shape.fields.filter (·.resolves)).map (fun f => (f.name, f.type)) ++ d.undescribed

variable [UserType C]

/-- New values of declared struct types, the latest declaration first; a struct
holds only structs declared before it. -/
def blankOf : List (Declared C) → StructId → Data
  | [], _ => .record []
  | d :: earlier, id =>
      if d.shape.id = id then
        .record (d.members.map fun (name, type) => (name, type.blank (blankOf earlier)))
      else blankOf earlier id

end Declared

end RecordKit
