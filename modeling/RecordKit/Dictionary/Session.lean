import RecordKit.Dictionary.Basic
import RecordKit.Expiring.Session

/-!
# Sessions with a dictionary

A dictionary takes the requests of a store with text keys.  `step` answers one of
them and `run` a list, as in a session with its store.
-/

namespace RecordKit

structure DictSession (α : Type) where
  now : Instant
  dict : Dict α

namespace DictSession

variable {α : Type}

def step (s : DictSession α) : StoreRequest String α → StoreAnswer α × DictSession α
  | .insert key value =>
      let (old, dict) := s.dict.record s.now key value
      (.value old, { s with dict })
  | .get key =>
      let (found, dict) := s.dict.find s.now key
      (.value found, { s with dict })
  | .contains key => (.flag (s.dict.contains s.now key), s)
  | .remove key =>
      let (old, dict) := s.dict.remove s.now key
      (.value old, { s with dict })
  | .purge =>
      let (count, dict) := s.dict.purge s.now
      (.count count, { s with dict })
  | .clear => (.done, { s with dict := s.dict.removeAll })
  | .advance d => (.done, { s with now := s.now.advance d })

/-- The session after a list of requests. -/
def run (s : DictSession α) (requests : List (StoreRequest String α)) : DictSession α :=
  requests.foldl (fun s r => (s.step r).2) s

/-- The session with the store of the dictionary. -/
def storeSession (s : DictSession α) : StoreSession String α :=
  ⟨s.now, s.dict.store⟩

/-- A dictionary answers like its store and changes it alike. -/
theorem step_storeSession (s : DictSession α) (r : StoreRequest String α) :
    (s.step r).1 = (s.storeSession.step r).1 ∧
      (s.step r).2.storeSession = (s.storeSession.step r).2 := by
  cases r <;> exact ⟨rfl, rfl⟩

theorem run_storeSession (s : DictSession α) (requests : List (StoreRequest String α)) :
    (s.run requests).storeSession = s.storeSession.run requests := by
  induction requests generalizing s with
  | nil => rfl
  | cons r rest ih =>
      change ((s.step r).2.run rest).storeSession = (s.storeSession.step r).2.run rest
      rw [ih, (s.step_storeSession r).2]

end DictSession

end RecordKit
