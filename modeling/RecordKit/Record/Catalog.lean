import RecordKit.Record.Shape

/-!
# Catalogs of shapes

A struct type has one description, and a catalog holds the descriptions of all
struct types by their identities.
-/

namespace RecordKit

variable {C : Type}

/-- The shapes of all struct types.  A shape belongs to its type, so each identity
has one. -/
structure Catalog (C : Type) where
  shape : StructId → Shape C
  shape_id : ∀ id, (shape id).id = id

/-- A shape is the one that the catalog has for its identity. -/
def Catalog.Describes (catalog : Catalog C) (s : Shape C) : Prop :=
  catalog.shape s.id = s

/-- The catalog of a list of shapes.  A type that is not listed has no fields. -/
def Catalog.ofShapes (shapes : List (Shape C)) : Catalog C where
  shape id := (shapes.find? (·.id = id)).getD ⟨id, []⟩
  shape_id := by
    intro id
    cases hfind : shapes.find? (·.id = id) with
    | none => rfl
    | some s =>
        have hid := List.find?_some hfind
        exact of_decide_eq_true hid

end RecordKit
