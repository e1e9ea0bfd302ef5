import RecordKit.Time.Instant

/-!
# Expiring stores

A store keeps a bounded number of entries under keys, each until a deadline that
is fixed when the entry is inserted.  Entries stand in order of their last use,
the most recent first; inserting a new key into a full store drops the last one.
Entries past their deadline keep their room until they are met by `get` or
removed, but no operation returns their value.
-/

namespace RecordKit

/-- A stored value.  Without a deadline it never expires. -/
structure Entry (κ α : Type) where
  key : κ
  value : α
  deadline : Option Instant

/-- Whether the deadline of an entry has come. -/
def Entry.isExpired {κ α : Type} (e : Entry κ α) (now : Instant) : Bool :=
  e.deadline.any (· ≤ now)

/-- The value of an entry whose deadline has not come. -/
def Entry.live? {κ α : Type} (e : Entry κ α) (now : Instant) : Option α :=
  if e.isExpired now then none else some e.value

/-- A store with room for `capacity` entries that live for `lifetime`. -/
structure Store (κ α : Type) where
  lifetime : Span
  capacity : Nat
  capacity_pos : 0 < capacity
  entries : List (Entry κ α)

namespace Store

variable {κ α : Type}

def empty (lifetime : Span) (capacity : Nat) (capacity_pos : 0 < capacity) : Store κ α :=
  ⟨lifetime, capacity, capacity_pos, []⟩

/-- The number of entries, expired ones included. -/
def size (s : Store κ α) : Nat :=
  s.entries.length

def isEmpty (s : Store κ α) : Bool :=
  s.entries.isEmpty

def clear (s : Store κ α) : Store κ α :=
  { s with entries := [] }

/-- The keys of the expired entries. -/
def staleKeys (now : Instant) (s : Store κ α) : List κ :=
  (s.entries.filter (·.isExpired now)).map (·.key)

variable [DecidableEq κ]

def entry? (s : Store κ α) (key : κ) : Option (Entry κ α) :=
  s.entries.find? (·.key = key)

/-- The entries under other keys. -/
def others (s : Store κ α) (key : κ) : List (Entry κ α) :=
  s.entries.filter (·.key ≠ key)

/-- Whether there is a live entry under a key.  The order of use stays. -/
def contains (now : Instant) (key : κ) (s : Store κ α) : Bool :=
  (s.entry? key).any fun e => !e.isExpired now

/-- The live value under a key, which becomes the most recent one.  An expired
entry is dropped. -/
def get (now : Instant) (key : κ) (s : Store κ α) : Option α × Store κ α :=
  match s.entry? key with
  | none => (none, s)
  | some e =>
      if e.isExpired now then (none, { s with entries := s.others key })
      else (some e.value, { s with entries := e :: s.others key })

/-- Put a value under a key with a new deadline and return the live value that
it replaces.  Only a new key can push an entry out. -/
def insert (now : Instant) (key : κ) (value : α) (s : Store κ α) : Option α × Store κ α :=
  let e : Entry κ α := ⟨key, value, now.add? s.lifetime⟩
  match s.entry? key with
  | some old => (old.live? now, { s with entries := e :: s.others key })
  | none =>
      let kept := if s.entries.length < s.capacity then s.entries else s.entries.dropLast
      (none, { s with entries := e :: kept })

/-- Remove the entry under a key and return its value if it was live. -/
def remove (now : Instant) (key : κ) (s : Store κ α) : Option α × Store κ α :=
  ((s.entry? key).bind (·.live? now), { s with entries := s.others key })

/-- The store without the entry under a key. -/
def erase (s : Store κ α) (key : κ) : Store κ α :=
  { s with entries := s.others key }

/-- Drop the expired entries and tell how many there were.  Their keys are collected
first and then taken out one after another. -/
def purge (now : Instant) (s : Store κ α) : Nat × Store κ α :=
  let stale := s.staleKeys now
  (stale.length, stale.foldl erase s)

end Store

end RecordKit
