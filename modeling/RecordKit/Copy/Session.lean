import RecordKit.Copy.Cache

/-!
# Sessions with a cache of copiers

A session is a clock and a cache, which all handles of the cache share.  `step` answers
one request, `run` a list of them; time passes only through `advance`.
-/

namespace RecordKit

/-- A request to a cache of copiers, or the passing of time. -/
inductive CacheRequest (C : Type) where
  | get (source dest : Shape C)
  | copy (source dest : Shape C) (d s : Data)
  | copyList (source dest : Shape C) (blank : Data) (items : List Data)
  | contains (source dest : StructId)
  | size
  | purge
  | clear
  | advance (span : Span)

inductive CacheAnswer (C : Type) where
  | copier (c : Copier C)
  | copied (outcome : CopyOutcome)
  | copiedList (items : Except CopyError (List Data))
  | flag (b : Bool)
  | count (n : Nat)
  | done

structure CacheSession (C : Type) where
  now : Instant
  cache : CopierCache C

namespace CacheSession

variable {C : Type} [DecidableEq C] [UserType C]

def step (s : CacheSession C) : CacheRequest C → CacheAnswer C × CacheSession C
  | .get source dest =>
      let (copier, cache) := s.cache.get s.now source dest
      (.copier copier, { s with cache })
  | .copy source dest d record =>
      let (outcome, cache) := s.cache.copy s.now source dest d record
      (.copied outcome, { s with cache })
  | .copyList source dest blank items =>
      let (result, cache) := s.cache.copyList s.now source dest blank items
      (.copiedList result, { s with cache })
  | .contains source dest => (.flag (s.cache.contains s.now source dest), s)
  | .size => (.count s.cache.size, s)
  | .purge =>
      let (count, cache) := s.cache.purge s.now
      (.count count, { s with cache })
  | .clear => (.done, { s with cache := s.cache.clear })
  | .advance span => (.done, { s with now := s.now.advance span })

/-- The session after a list of requests. -/
def run (s : CacheSession C) (requests : List (CacheRequest C)) : CacheSession C :=
  requests.foldl (fun s r => (s.step r).2) s

end CacheSession

end RecordKit
