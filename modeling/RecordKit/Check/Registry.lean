import RecordKit.Check.DefaultRules
import RecordKit.Shared.KeyMap

/-!
# Rule registries

A registry holds rules under their names.  Registering a name again replaces its
rule, and installing the default rules registers each of them.
-/

namespace RecordKit

/-- Rules by name. -/
abbrev Registry := KeyMap Predicate

namespace Registry

def empty : Registry := KeyMap.empty

def register (r : Registry) (name : String) (rule : Predicate) : Registry :=
  r.insert name rule

def unregister (r : Registry) (name : String) : Registry :=
  r.erase name

def lookup? (r : Registry) (name : String) : Option Predicate :=
  r.get? name

def setupDefaults (r : Registry) : Registry :=
  DefaultRules.all.foldl (fun r rule => r.register rule.1 rule.2) r

/-- The names of the rules in ascending order. -/
def ruleNames (r : Registry) : List String :=
  r.keys

end Registry

end RecordKit
