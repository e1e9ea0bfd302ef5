import RecordKit.Check.Registry
import RecordKit.Check.Tag
import RecordKit.Record.Shape

/-!
# Checking records

A check applies the rules of every tagged field to the current view of the
field.  Failed rules are collected in order.  A field that cannot be read or a
rule that nobody registered ends the check with an error instead.
-/

namespace RecordKit

/-- Why a check has no result. -/
inductive CheckError where
  /-- The record is not of the shape that it is checked against. -/
  | wrongType (expected : String)
  /-- A tagged field has no value. -/
  | unreadable (shape field : String)
  /-- A tag names a rule that is not registered. -/
  | unknownRule (name : String)
deriving DecidableEq, Repr

def CheckError.message : CheckError → String
  | .wrongType expected => "[validator] invalid argument: value must be a " ++ expected
  | .unreadable shape field =>
      "[validator] invalid argument: field " ++ shape ++ "." ++ field ++ " is unreadable"
  | .unknownRule name => "[validator] rule '" ++ name ++ "' is not registered"

/-- A rule that a field fails. -/
structure Failure where
  field : String
  kind : Kind
  value : String
  rule : String
deriving DecidableEq, Repr

def Failure.text (f : Failure) : String :=
  "[" ++ f.rule ++ " " ++ f.kind.name ++ " " ++ f.field ++ " " ++ f.value ++ "]"

def failuresText (failures : List Failure) : String :=
  ",".intercalate (failures.map Failure.text)

variable {C : Type} [UserType C]

/-- Apply rules to the view of a field, up to the first that is not registered. -/
def checkRules (registry : Registry) (f : Field C) (v : View) :
    List Rule → Except CheckError (List Failure)
  | [] => .ok []
  | rule :: rest =>
      match registry.lookup? rule.name with
      | none => .error (.unknownRule rule.name)
      | some passes =>
          let failed : List Failure :=
            if passes v rule.argOrEmpty then [] else [⟨f.name, f.kind, v.text, rule.name⟩]
          (checkRules registry f v rest).map (failed ++ ·)

/-- Check one field of a record.  A field without a tag, or with a blank one, is
not even read. -/
def checkField (registry : Registry) (s : Shape C) (r : Record) (f : Field C) :
    Except CheckError (List Failure) :=
  match f.check with
  | none => .ok []
  | some tag =>
      if isBlankTag tag then .ok []
      else
        match s.read? f r with
        | none => .error (.unreadable s.id.name f.name)
        | some v => checkRules registry f v (parseRules tag)

/-- Check fields in order, up to the first error. -/
def checkFields (registry : Registry) (s : Shape C) (r : Record) :
    List (Field C) → Except CheckError (List Failure)
  | [] => .ok []
  | f :: rest =>
      match checkField registry s r f with
      | .error e => .error e
      | .ok failed => (checkFields registry s r rest).map (failed ++ ·)

/-- Check a record against a shape. -/
def checkRecord (registry : Registry) (s : Shape C) (r : Record) :
    Except CheckError (List Failure) :=
  if r.id = s.id then checkFields registry s r s.fields else .error (.wrongType s.id.name)

end RecordKit
