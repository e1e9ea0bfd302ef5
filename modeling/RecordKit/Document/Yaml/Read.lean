import RecordKit.Document.Yaml.Plain

/-!
# Reading YAML

A node read as a document, as database settings or as application settings.
Where a text is wanted, any scalar gives its own.  A plain scalar without a text
stands for a collection without items.  Members with unknown names are passed
over, whatever they hold; a known name must not be repeated.
-/

namespace RecordKit.Yaml

/-- A reading that counts the aliases it follows. -/
abbrev Tracked := StateT Nat Option

namespace NodeGraph

/-- The node that a node stands for.  At most a hundred aliases are followed for
each start and end in the document. -/
def follow (g : NodeGraph) : Node → Tracked Node
  | .alias slot => do
      modify (· + 1)
      if 100 * g.size < (← get) then failure
      g.slots.lookup slot
  | node => return node

/-- The text of a scalar. -/
def text (g : NodeGraph) (node : Node) : Tracked String := do
  match ← g.follow node with
  | .scalar _ _ text => return text
  | _ => failure

/-- Whether a collection has a tag that an application must know. -/
def isForeign (tag : Option Tag) : Bool :=
  tag.any Tag.isLocal

/-- The document of a node.  The collections in it nest at most `depth` deep. -/
def document (g : NodeGraph) : Nat → Node → Tracked Document
  | depth, node => do
      match depth, ← g.follow node with
      | _, .scalar tag style text => scalarDocument? tag style text
      | depth + 1, .sequence tag items =>
          if isForeign tag then failure
          return .list (← items.mapM (g.document depth))
      | depth + 1, .mapping tag entries =>
          if isForeign tag then failure
          return .ofEntries (← entries.mapM fun (key, value) => do
            return (← g.text key, ← g.document depth value))
      | _, _ => failure

/-- A whole number below 2^16, plain or in a literal block with the tag of the
integers. -/
def portNumber (g : NodeGraph) (node : Node) : Tracked Nat := do
  match ← g.follow node with
  | .scalar tag style text =>
      if style = .plain || (style = .literal && tag = some (Tag.core "int")) then
        (natural? text.toList).filter (· < 0x10000)
      else failure
  | _ => failure

/-- The entries of a mapping. -/
def entries (g : NodeGraph) (node : Node) : Tracked (List (Node × Node)) := do
  match ← g.follow node with
  | .mapping _ entries => return entries
  | node => if node.isBlank then return [] else failure

/-- Texts by name.  Later ones win. -/
def options (g : NodeGraph) (node : Node) : Tracked (List (String × String)) := do
  (← g.entries node).mapM fun (key, value) => do return (← g.text key, ← g.text value)

def texts (g : NodeGraph) (node : Node) : Tracked (List String) := do
  match ← g.follow node with
  | .sequence _ items => items.mapM g.text
  | node => if node.isBlank then return [] else failure

/-- The values of named members, each at most once.  The names of all members
must be texts. -/
def members (g : NodeGraph) (names : List String) (node : Node) :
    Tracked (List (Option Node)) := do
  let keyed ← (← g.entries node).mapM fun (key, value) => do return (← g.text key, value)
  names.mapM fun name =>
    match keyed.filter (·.1 == name) with
    | [] => return none
    | [m] => return some m.2
    | _ => failure

/-- Database settings.  The options may be left out. -/
def database (g : NodeGraph) (node : Node) : Tracked DatabaseSettings := do
  match ← g.members ["host", "port", "options"] node with
  | [some host, some number, options] =>
      return ⟨← g.text host, ← g.portNumber number, ← (options.mapM g.options).map (·.getD [])⟩
  | _ => failure

def server (g : NodeGraph) (node : Node) : Tracked ServerSettings := do
  match ← g.members ["addr", "port"] node with
  | [some addr, some number] => return ⟨← g.text addr, ← g.portNumber number⟩
  | _ => failure

/-- Application settings.  The environment may be left out. -/
def app (g : NodeGraph) (node : Node) : Tracked AppSettings := do
  match ← g.members ["server", "environment"] node with
  | [some server, environment] =>
      return ⟨← g.server server, ← (environment.mapM g.texts).map (·.getD [])⟩
  | _ => failure

end NodeGraph

/-- The document of a YAML text, read as what is asked for.  Where a text holds no
document, its value is null. -/
def load? (target : DocumentTarget) (bytes : List UInt8) : Option Document := do
  let g ← NodeGraph.read? bytes
  match target, g.root with
  | .value, none => return .null
  | _, none => none
  | .value, some root => (g.document maxDepth root).run' 0
  | .database, some root => ((g.database root).run' 0).map (·.document)
  | .app, some root => ((g.app root).run' 0).map (·.document)

end RecordKit.Yaml
