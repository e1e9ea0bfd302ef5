import RecordKit.Text.Utf8

/-!
# Maps with text keys

A map from texts to values, kept in ascending order of the bytes of the keys and
with each key once.
-/

namespace RecordKit

/-- Whether one text comes before another in the order of their bytes. -/
def keyLt (a b : String) : Prop :=
  Text.Utf8.encode a < Text.Utf8.encode b

instance (a b : String) : Decidable (keyLt a b) :=
  inferInstanceAs (Decidable (Text.Utf8.encode a < Text.Utf8.encode b))

/-- Entries in ascending order of their keys. -/
structure KeyMap (α : Type) where
  entries : List (String × α)

namespace KeyMap

variable {α : Type}

def empty : KeyMap α := ⟨[]⟩

/-- The value under a key. -/
def get? (m : KeyMap α) (key : String) : Option α :=
  m.entries.lookup key

/-- Put a value into ascending entries, in place of one under the same key. -/
def place (key : String) (value : α) : List (String × α) → List (String × α)
  | [] => [(key, value)]
  | (k, v) :: rest =>
      if key = k then (key, value) :: rest
      else if keyLt key k then (key, value) :: (k, v) :: rest
      else (k, v) :: place key value rest

def insert (m : KeyMap α) (key : String) (value : α) : KeyMap α :=
  ⟨place key value m.entries⟩

def erase (m : KeyMap α) (key : String) : KeyMap α :=
  ⟨m.entries.filter (·.1 ≠ key)⟩

def keys (m : KeyMap α) : List String :=
  m.entries.map (·.1)

def size (m : KeyMap α) : Nat :=
  m.entries.length

theorem lookup_place_self (key : String) (value : α) (entries : List (String × α)) :
    (place key value entries).lookup key = some value := by
  induction entries with
  | nil => simp [place]
  | cons e rest ih =>
      obtain ⟨k, v⟩ := e
      simp only [place]
      split
      · simp
      · next hk =>
          split
          · simp
          · simp [List.lookup_cons, beq_eq_false_iff_ne.mpr hk, ih]

theorem lookup_place_other {key other : String} (h : other ≠ key) (value : α)
    (entries : List (String × α)) :
    (place key value entries).lookup other = entries.lookup other := by
  have h' : (other == key) = false := beq_eq_false_iff_ne.mpr h
  induction entries with
  | nil => simp [place, List.lookup_cons, h']
  | cons e rest ih =>
      obtain ⟨k, v⟩ := e
      simp only [place]
      split
      · next hk => subst hk; simp [List.lookup_cons, h']
      · split
        · simp [List.lookup_cons, h']
        · simp [List.lookup_cons, ih]

@[simp] theorem get?_insert_self (m : KeyMap α) (key : String) (value : α) :
    (m.insert key value).get? key = some value :=
  lookup_place_self key value m.entries

theorem get?_insert_other (m : KeyMap α) {key other : String} (h : other ≠ key) (value : α) :
    (m.insert key value).get? other = m.get? other :=
  lookup_place_other h value m.entries

end KeyMap

end RecordKit
