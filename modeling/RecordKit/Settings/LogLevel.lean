/-!
# Log levels

The severities of events and their names.  A name counts in any case, and what is
no name means the middle severity.
-/

namespace RecordKit

/-- The severity from which on lines are logged. -/
inductive LogLevel where
  | trace
  | debug
  | info
  | warn
  | error
deriving DecidableEq, Repr

namespace LogLevel

/-- The name of a level in capitals. -/
def title : LogLevel → String
  | trace => "TRACE"
  | debug => "DEBUG"
  | info => "INFO"
  | warn => "WARN"
  | error => "ERROR"

/-- Lower the capital letters of ASCII.  No other character becomes a letter of
one of the words that are looked up here. -/
def lowered (s : String) : String :=
  String.ofList (s.toList.map Char.toLower)

/-- The level of a name in any case.  Unknown names mean info. -/
def ofName (name : String) : LogLevel :=
  match lowered name with
  | "trace" => trace
  | "debug" => debug
  | "warn" => warn
  | "error" => error
  | _ => info

end LogLevel

end RecordKit
