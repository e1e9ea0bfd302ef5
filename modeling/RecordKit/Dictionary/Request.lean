import RecordKit.Dictionary.Basic

/-!
# Requests to a dictionary

What may be asked of a dictionary with values of any types, and what it answers.
-/

namespace RecordKit

/-- A request to a dictionary. -/
inductive DictRequest (τ ν : Type) where
  | name
  | record (key : String) (value : TypedValue τ ν)
  /-- Record a value without asking for the one that it replaces. -/
  | recordValue (key : String) (value : TypedValue τ ν)
  | find (key : String)
  | findAs (key : String) (type : τ)
  | contains (key : String)
  | remove (key : String)
  | removeAll
  | purge
  | size
  | isEmpty
  | summary

inductive DictAnswer (τ ν : Type) where
  | value (v : Option (TypedValue τ ν))
  | untyped (v : Option ν)
  | flag (b : Bool)
  | count (n : Nat)
  | text (s : String)
  | done
deriving DecidableEq, Repr

variable {τ ν : Type} [DecidableEq τ]

/-- Answer one request. -/
def DictRequest.answer (now : Instant) (d : Dict (TypedValue τ ν)) :
    DictRequest τ ν → DictAnswer τ ν × Dict (TypedValue τ ν)
  | name => (.text d.name, d)
  | record key value =>
      let (old, d) := d.record now key value
      (.value old, d)
  | recordValue key value => (.done, (d.record now key value).2)
  | find key =>
      let (found, d) := d.find now key
      (.value found, d)
  | findAs key type =>
      let (found, d) := d.findAs now key type
      (.untyped found, d)
  | contains key => (.flag (d.contains now key), d)
  | remove key =>
      let (old, d) := d.remove now key
      (.value old, d)
  | removeAll => (.done, d.removeAll)
  | purge =>
      let (count, d) := d.purge now
      (.count count, d)
  | size => (.count d.size, d)
  | isEmpty => (.flag d.store.isEmpty, d)
  | summary => (.text d.summary, d)

end RecordKit
