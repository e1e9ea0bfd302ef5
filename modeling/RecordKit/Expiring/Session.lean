import RecordKit.Expiring.Store

/-!
# Sessions with an expiring store

A session is a clock and a store.  `step` answers one request, `run` a list of
them; time passes only through `advance`.
-/

namespace RecordKit

/-- A request to a store, or the passing of time. -/
inductive StoreRequest (κ α : Type) where
  | insert (key : κ) (value : α)
  | get (key : κ)
  | contains (key : κ)
  | remove (key : κ)
  | purge
  | clear
  | advance (span : Span)

inductive StoreAnswer (α : Type) where
  | value (v : Option α)
  | flag (b : Bool)
  | count (n : Nat)
  | done
deriving DecidableEq, Repr

structure StoreSession (κ α : Type) where
  now : Instant
  store : Store κ α

namespace StoreSession

variable {κ α : Type} [DecidableEq κ]

def step (s : StoreSession κ α) : StoreRequest κ α → StoreAnswer α × StoreSession κ α
  | .insert key value =>
      let (old, store) := s.store.insert s.now key value
      (.value old, { s with store })
  | .get key =>
      let (found, store) := s.store.get s.now key
      (.value found, { s with store })
  | .contains key => (.flag (s.store.contains s.now key), s)
  | .remove key =>
      let (old, store) := s.store.remove s.now key
      (.value old, { s with store })
  | .purge =>
      let (count, store) := s.store.purge s.now
      (.count count, { s with store })
  | .clear => (.done, { s with store := s.store.clear })
  | .advance d => (.done, { s with now := s.now.advance d })

/-- The session after a list of requests. -/
def run (s : StoreSession κ α) (requests : List (StoreRequest κ α)) : StoreSession κ α :=
  requests.foldl (fun s r => (s.step r).2) s

end StoreSession

end RecordKit
