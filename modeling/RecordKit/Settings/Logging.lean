import RecordKit.Settings.Caches
import RecordKit.Settings.FilterDirective

/-!
# Logging settings

A level, an output format, extra filter directives and whether lines show their
location, read from named variables.  Installing the settings checks the
directives in order; a process that logs already refuses every valid setting.
-/

namespace RecordKit

/-- The form of log lines. -/
inductive LogFormat where
  | json
  | pretty
deriving DecidableEq, Repr

namespace LogFormat

/-- The format of a name in any case.  Unknown names mean JSON. -/
def ofName (name : String) : LogFormat :=
  if LogLevel.lowered name = "pretty" then pretty else json

def name : LogFormat → String
  | json => "json"
  | pretty => "pretty"

end LogFormat

/-- Logging settings. -/
structure LogSettings where
  levelName : String
  format : LogFormat
  targetFilter : Option String
  includeLocation : Bool
deriving DecidableEq, Repr

namespace LogSettings

def production : LogSettings :=
  ⟨"info", .json, none, false⟩

def development : LogSettings :=
  ⟨"debug", .pretty, none, true⟩

/-- The settings in a set of variables. -/
def load (vars : Variables) : LogSettings :=
  { levelName := (vars "PUZZLE_LOG_LEVEL").getD "info"
    format := LogFormat.ofName ((vars "PUZZLE_LOG_FORMAT").getD "json")
    targetFilter := vars "PUZZLE_LOG_TARGET_FILTER"
    includeLocation := vars "PUZZLE_LOG_INCLUDE_LOCATION" == some "true" }

def level (s : LogSettings) : LogLevel :=
  LogLevel.ofName s.levelName

/-- The filter directives, blank ones left out. -/
def directives (s : LogSettings) : List (List Char) :=
  ((Text.pieces ',' (s.targetFilter.getD "").toList).map Text.trim).filter (· ≠ [])

/-- Why settings cannot be installed. -/
inductive InstallError where
  | invalidDirective (directive : String)
  | alreadyInstalled
deriving DecidableEq, Repr

def InstallError.message : InstallError → String
  | .invalidDirective directive => "Invalid log filter directive: " ++ directive
  | .alreadyInstalled => "Failed to initialize logging"

/-- The error that installing the settings in a logging process ends with. -/
def installAgain (s : LogSettings) : InstallError :=
  match s.directives.find? fun d => !FilterDirective.isValid d with
  | some d => .invalidDirective (String.ofList d)
  | none => .alreadyInstalled

end LogSettings

end RecordKit
