/-!
# Documents

A document is what a JSON or YAML text stands for.  It can be read as any value,
as the settings of a database connection, or as those of an application.
-/

namespace RecordKit

/-- A document of any form.  The keys of a map are distinct. -/
inductive Document where
  | null
  | bool (b : Bool)
  | int (n : Int)
  | float (bits : UInt64)
  | text (s : String)
  | list (items : List Document)
  | map (entries : List (String × Document))
deriving Inhabited, Repr

namespace Document

/-- Put a value under a key; a key that is there already keeps its place and
takes the new value. -/
def setEntry (key : String) (value : Document) :
    List (String × Document) → List (String × Document)
  | [] => [(key, value)]
  | (k, v) :: rest =>
      if k = key then (k, value) :: rest else (k, v) :: setEntry key value rest

/-- A map from entries of which later ones win. -/
def ofEntries (entries : List (String × Document)) : Document :=
  .map (entries.foldl (fun acc e => setEntry e.1 e.2 acc) [])

end Document

/-- Settings of a database connection. -/
structure DatabaseSettings where
  host : String
  portNumber : Nat
  options : List (String × String)

/-- Where a server listens. -/
structure ServerSettings where
  addr : String
  portNumber : Nat

/-- Settings of an application. -/
structure AppSettings where
  server : ServerSettings
  environment : List String

def DatabaseSettings.document (s : DatabaseSettings) : Document :=
  .map [("host", .text s.host), ("port", .int s.portNumber),
    ("options", Document.ofEntries (s.options.map fun (k, v) => (k, .text v)))]

def AppSettings.document (s : AppSettings) : Document :=
  .map [("server", .map [("addr", .text s.server.addr), ("port", .int s.server.portNumber)]),
    ("environment", .list (s.environment.map .text))]

/-- What a document is read as. -/
inductive DocumentTarget where
  | value
  | database
  | app
deriving DecidableEq, Repr

/-- Collections nest at most this deep in what is read. -/
def maxDepth : Nat := 128

end RecordKit
