import RecordKit.Document.Json.Read
import RecordKit.Document.Yaml.Read

/-!
# Loading documents

A document is loaded from a text or from a file, in one of two formats.  An error
says what could not be done, and names the file.
-/

namespace RecordKit

inductive DocumentFormat where
  | json
  | yaml
deriving DecidableEq, Repr

def DocumentFormat.name : DocumentFormat → String
  | .json => "JSON"
  | .yaml => "YAML"

/-- What may go wrong in loading a document. -/
inductive LoadError where
  | malformedText (format : DocumentFormat)
  | malformedFile (format : DocumentFormat) (path : String)
  | unreadable (path : String)
  | unresolved (path : String)
deriving DecidableEq, Repr

def LoadError.message : LoadError → String
  | .malformedText format => "Failed to parse " ++ format.name
  | .malformedFile format path => "Failed to parse " ++ format.name ++ " file " ++ path
  | .unreadable path => "Failed to open " ++ path
  | .unresolved path => "Failed to resolve path " ++ path

/-- The document of a text in bytes, read as what is asked for. -/
def DocumentFormat.load? : DocumentFormat → DocumentTarget → List UInt8 → Option Document
  | .json => Json.load?
  | .yaml => Yaml.load?

/-- Load a document from a text. -/
def loadText (format : DocumentFormat) (target : DocumentTarget) (text : String) :
    Except LoadError Document :=
  match format.load? target (Text.Utf8.encode text) with
  | some d => .ok d
  | none => .error (.malformedText format)

/-- Load a document from the contents of a file, which are missing if it cannot be
read.  An error names the absolute path, which an empty path does not have. -/
def loadFile (format : DocumentFormat) (target : DocumentTarget) (path absolute : String)
    (contents : Option (List UInt8)) : Except LoadError Document :=
  if path.isEmpty then .error (.unresolved path)
  else
    match contents with
    | none => .error (.unreadable absolute)
    | some bytes =>
        match format.load? target bytes with
        | some d => .ok d
        | none => .error (.malformedFile format absolute)

end RecordKit
