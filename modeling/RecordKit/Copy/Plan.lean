import RecordKit.Copy.Promotion

/-!
# Copy plans

A plan lists what copying one struct type into another does: an action for each
destination field that has a match, in depth-first declaration order.  Fields of
the same type are assigned, fields whose kinds convert are converted, and an
embedded struct without a match of its own is entered.
-/

namespace RecordKit

/-- One step of a copy: fill a destination field from a source field. -/
structure CopyAction (C : Type) where
  dest : Route C
  source : Route C
  conversion : Bool
  sourceKind : Kind
  destKind : Kind

/-- What copying `source` records into `dest` records does. -/
structure CopyPlan (C : Type) where
  source : StructId
  dest : StructId
  actions : List (CopyAction C)

variable {C : Type} [DecidableEq C] [UserType C]

/-- How a source field fills a destination field: without conversion if their
types are the same, with one if the kinds convert, else not at all. -/
def transfer? (source dest : Field C) : Option Bool :=
  if source.type = dest.type then some false
  else if source.kind.convertsTo dest.kind then some true
  else none

/-- The action that fills a destination field, if a source field matches it. -/
def matchField (source : Shape C) (dest : Route C) : Option (CopyAction C) :=
  (findSource source dest.last.name).bind fun route =>
    (transfer? route.last dest.last).map fun conversion =>
      ⟨dest, route, conversion, route.last.kind, dest.last.kind⟩

namespace CopyPlan

mutual

/-- The actions for the fields of a struct at a given depth. -/
def structActions (source : Shape C) (table : NameTable) (depth : Nat) (via : List (Field C)) :
    Shape C → List (CopyAction C)
  | ⟨_, fields⟩ => fieldActions source table depth via fields

/-- The actions for a list of fields at a given depth.  A field counts if its
name stands for it and if it is exported. -/
def fieldActions (source : Shape C) (table : NameTable) (depth : Nat) (via : List (Field C)) :
    List (Field C) → List (CopyAction C)
  | [] => []
  | ⟨name, type, exported, isSealed, resolves, check, inner⟩ :: rest =>
      let f : Field C := ⟨name, type, exported, isSealed, resolves, check, inner⟩
      (if table.promotes name depth && exported then
        match matchField source ⟨via, f⟩, inner with
        | some action, _ => [action]
        | none, some s => structActions source table (depth + 1) (via ++ [f]) s
        | none, none => []
      else []) ++ fieldActions source table depth via rest

end

/-- The plan for copying records of one shape into records of another. -/
def compile (source dest : Shape C) : CopyPlan C :=
  ⟨source.id, dest.id, structActions source (nameTable dest) 0 [] dest⟩

end CopyPlan

def CopyAction.summary (a : CopyAction C) : String :=
  "CopyAction \x7b dest: " ++ Text.quoted a.dest.dotted ++
    ", source: " ++ Text.quoted a.source.dotted ++
    ", conversion: " ++ toString a.conversion ++
    ", from: " ++ a.sourceKind.title ++
    ", to: " ++ a.destKind.title ++ " \x7d"

end RecordKit
