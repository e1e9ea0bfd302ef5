import RecordKit.Record.Shape

/-!
# Promoted names

The fields of an embedded struct are promoted: they can be named as if they were
fields of the struct around it.  A name stands for its occurrence at the
shallowest depth, provided that it is alone there.

Both sides of a copy follow this rule, each in its own way.  `nameTable` walks
all levels of a shape once and counts every name at its shallowest depth.
`findSource` searches one name level by level and stops at the first level that
has it.  `Shape.routesAt` lists the routes of a level directly.
-/

namespace RecordKit

variable {C : Type}

mutual

/-- The number of levels of a shape: one more than the deepest embedding. -/
def Shape.levels : Shape C → Nat
  | ⟨_, fields⟩ => Field.levelsOf fields + 1

/-- The greatest number of levels among the structs that fields embed. -/
def Field.levelsOf : List (Field C) → Nat
  | [] => 0
  | ⟨_, _, _, _, _, _, none⟩ :: rest => Field.levelsOf rest
  | ⟨_, _, _, _, _, _, some inner⟩ :: rest => max inner.levels (Field.levelsOf rest)

end

/-- The routes that pass through exactly `depth` embedded fields, in order. -/
def Shape.routesAt : Nat → Shape C → List (Route C)
  | 0, s => s.fields.map fun f => ⟨[], f⟩
  | depth + 1, s =>
      s.fields.flatMap fun f =>
        match f.inner with
        | none => []
        | some inner => (inner.routesAt depth).map (Route.under f)

/-- The shapes embedded directly in a level of shapes, in order. -/
def nextLevel (level : List (Shape C)) : List (Shape C) :=
  level.flatMap fun s => s.fields.filterMap (·.inner)

/-- What is known of a name: its shallowest depth and how often it occurs there. -/
structure Tally where
  depth : Nat
  count : Nat
deriving DecidableEq, Repr

/-- Tallies by name. -/
abbrev NameTable := List (String × Tally)

/-- Count one occurrence of a name.  Levels come in order, so a name that is
known from a shallower level keeps its tally. -/
def NameTable.note (depth : Nat) (name : String) : NameTable → NameTable
  | [] => [(name, ⟨depth, 1⟩)]
  | (n, tally) :: rest =>
      if n = name then
        (n, if tally.depth = depth then { tally with count := tally.count + 1 } else tally) :: rest
      else (n, tally) :: note depth name rest

/-- Count the names of a level. -/
def NameTable.noteLevel (depth : Nat) (level : List (Shape C)) (table : NameTable) : NameTable :=
  (level.flatMap fun s => s.fields.map (·.name)).foldl (fun t name => t.note depth name) table

/-- Count level after level, at most `fuel` of them. -/
def NameTable.noteLevels : Nat → Nat → List (Shape C) → NameTable → NameTable
  | 0, _, _, table => table
  | fuel + 1, depth, level, table =>
      noteLevels fuel (depth + 1) (nextLevel level) (table.noteLevel depth level)

/-- The tally of every name that occurs in a shape. -/
def nameTable (s : Shape C) : NameTable :=
  NameTable.noteLevels s.levels 0 [s] []

/-- Whether a name stands for an occurrence at a given depth. -/
def NameTable.promotes (table : NameTable) (name : String) (depth : Nat) : Bool :=
  table.lookup name == some ⟨depth, 1⟩

/-- A struct on the way of a search, with the embedded fields that lead to it. -/
abbrev Place (C : Type) := List (Field C) × Shape C

/-- The occurrences of a name on a level. -/
def occurrences (name : String) (level : List (Place C)) : List (Route C) :=
  level.flatMap fun (via, s) =>
    s.fields.filterMap fun f => if f.name = name then some ⟨via, f⟩ else none

/-- The structs of the next level.  The search goes on only where a level does
not have the name, so a field of that name is never entered. -/
def descend (name : String) (level : List (Place C)) : List (Place C) :=
  level.flatMap fun (via, s) =>
    s.fields.filterMap fun f =>
      if f.name = name then none else f.inner.map fun inner => (via ++ [f], inner)

/-- Search a name on at most `fuel` levels. -/
def searchLevels (name : String) : Nat → List (Place C) → Option (Route C)
  | 0, _ => none
  | fuel + 1, level =>
      match occurrences name level with
      | [] => searchLevels name fuel (descend name level)
      | [route] => if route.last.exported then some route else none
      | _ => none

/-- The route for which a name stands as a source: its only occurrence at the
shallowest depth, if that field is exported. -/
def findSource (s : Shape C) (name : String) : Option (Route C) :=
  searchLevels name s.levels [([], s)]

end RecordKit
