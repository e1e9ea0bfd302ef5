import RecordKit.Copy.Plan

/-!
# Running a plan

Actions run in plan order and the first that fails ends the copy.  What earlier
actions wrote stays, so an outcome has the destination beside the error.
-/

namespace RecordKit

/-- The side of a copy whose record is of the wrong type. -/
inductive CopySide where
  | destination
  | source
deriving DecidableEq, Repr

/-- Why a copy fails. -/
inductive CopyError where
  /-- A record is not of the type that the plan names. -/
  | wrongType (side : CopySide) (expected : String)
  /-- A field on one of the two routes has no value. -/
  | unresolved (dest source : String)
  /-- The destination field does not accept the value. -/
  | conversion (field : String) (source dest : Kind)
deriving DecidableEq, Repr

def CopySide.name : CopySide → String
  | .destination => "destination"
  | .source => "source"

def CopyError.message : CopyError → String
  | .wrongType side expected =>
      "[copier] invalid argument: " ++ side.name ++ " must be a " ++ expected
  | .unresolved dest source =>
      "[copier] invalid argument: field path " ++ dest ++ " <- " ++ source ++
        " does not resolve on the given values"
  | .conversion field source dest =>
      "[copier] cannot convert field '" ++ field ++ "' from " ++ source.name ++ " to " ++ dest.name

/-- The destination after a copy, and the error that ended it, if any. -/
structure CopyOutcome where
  dest : Data
  error : Option CopyError

variable {C : Type} [UserType C]

/-- The value that an action writes, if the destination field accepts it. -/
def CopyAction.transfer? (a : CopyAction C) (value : Data) : Option Data :=
  if a.conversion then a.dest.last.ofView? (a.source.last.view value) else some value

/-- Run one action.  Both routes must resolve before anything is converted. -/
def CopyAction.run (a : CopyAction C) (dest source : Data) : Except CopyError Data :=
  match fetch? a.dest.steps dest, fetch? a.source.steps source with
  | some _, some value =>
      match a.transfer? value with
      | none => .error (.conversion a.dest.dotted a.sourceKind a.destKind)
      | some value' =>
          match replace? a.dest.steps value' dest with
          | some dest' => .ok dest'
          | none => .error (.unresolved a.dest.dotted a.source.dotted)
  | _, _ => .error (.unresolved a.dest.dotted a.source.dotted)

/-- Run actions in order up to the first that fails. -/
def runActions (source : Data) : List (CopyAction C) → Data → CopyOutcome
  | [], dest => ⟨dest, none⟩
  | a :: rest, dest =>
      match a.run dest source with
      | .ok dest' => runActions source rest dest'
      | .error e => ⟨dest, some e⟩

/-- Copy one record into another.  The type of the destination is tested first. -/
def CopyPlan.run (plan : CopyPlan C) (dest source : Record) : CopyOutcome :=
  if dest.id ≠ plan.dest then ⟨dest.data, some (.wrongType .destination plan.dest.name)⟩
  else if source.id ≠ plan.source then ⟨dest.data, some (.wrongType .source plan.source.name)⟩
  else runActions source.data plan.actions dest.data

/-- Copy each record into a new one, up to the first that fails. -/
def CopyPlan.runEach (plan : CopyPlan C) (blank : Data) : List Data → Except CopyError (List Data)
  | [] => .ok []
  | item :: rest =>
      match plan.run ⟨plan.dest, blank⟩ ⟨plan.source, item⟩ with
      | ⟨dest, none⟩ => (plan.runEach blank rest).map (dest :: ·)
      | ⟨_, some e⟩ => .error e

/-- Copy a list of records of one shape into new records of another. -/
def copyList [DecidableEq C] (source dest : Shape C) (blank : Data) (items : List Data) :
    Except CopyError (List Data) :=
  match items with
  | [] => .ok []
  | items => (CopyPlan.compile source dest).runEach blank items

end RecordKit
