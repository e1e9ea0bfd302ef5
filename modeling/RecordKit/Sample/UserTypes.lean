import RecordKit.Check.Registry
import RecordKit.Record.Shape

/-!
# Sample user types and rules

User types that differ from the built-in ones in each respect: a number that no
view converts to, a number and a text that accept some views only, bytes that
accept none, a value that is always viewed as nil, and two types without views.
-/

namespace RecordKit

/-- Sample user types. -/
inductive SampleType where
  | cents
  | even
  | label
  | blob
  | ghost
  | duration
  | ipv4
deriving DecidableEq, Repr

namespace SampleType

def kind : SampleType → Kind
  | cents | ghost => .int
  | even => .uint
  | label => .string
  | blob => .bytes
  | duration | ipv4 => .other

def typeName : SampleType → String
  | cents => "cents"
  | even => "even"
  | label => "label"
  | blob => "blob"
  | ghost => "ghost"
  | duration => "core::time::Duration"
  | ipv4 => "core::net::ip_addr::Ipv4Addr"

def view : SampleType → Data → View
  | cents, .int n => .int n
  | even, .int n => .uint n.toNat
  | label, .text s => .str s
  | blob, .bytes bs => .bytes bs
  | duration, _ => .sealed duration.typeName
  | ipv4, _ => .sealed ipv4.typeName
  | _, _ => .nil

/-- The value built from a view.  An even number takes even numbers, a label
takes texts of at most eight characters, and a ghost takes what is absent. -/
def ofView? : SampleType → View → Option Data
  | even, .int n => if 0 ≤ n ∧ n % 2 = 0 then some (.int n) else none
  | even, .uint n => if n % 2 = 0 then some (.int n) else none
  | label, .str s => if s.length ≤ 8 then some (.text s) else none
  | ghost, .nil => some (.int (-1))
  | _, _ => none

def blank : SampleType → Data
  | cents | even | ghost | duration => .int 0
  | label => .text ""
  | blob => .bytes []
  | ipv4 => .text "0.0.0.0"

instance : UserType SampleType where
  kind := kind
  typeName := typeName
  view := view
  ofView? := ofView?
  blank := blank

end SampleType

/-- Sample rules by name: one that everything passes, one that nothing passes,
texts that start with the argument, even numbers, and values whose text is the
argument. -/
def sampleRule? : String → Option Predicate
  | "always" => some fun _ _ => true
  | "never" => some fun _ _ => false
  | "prefix" => some fun
      | .str s, arg => arg.toList.isPrefixOf s.toList
      | _, _ => false
  | "even" => some fun
      | .int n, _ => n % 2 == 0
      | .uint n, _ => n % 2 == 0
      | _, _ => false
  | "shows" => some fun v arg => v.text == arg
  | _ => none

/-- A default or sample rule by name. -/
def ruleByName? (name : String) : Option Predicate :=
  (DefaultRules.all.lookup name).or (sampleRule? name)

end RecordKit
