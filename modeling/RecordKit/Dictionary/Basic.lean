import RecordKit.Expiring.Store
import RecordKit.Settings.Caches
import RecordKit.Text.Quoted

/-!
# Dictionaries

A dictionary is a named expiring store with text keys.  Its values may be of any
field type: a value carries its type, and it can be asked for at one type only.
-/

namespace RecordKit

/-- A value with the type it was recorded at. -/
structure TypedValue (τ ν : Type) where
  type : τ
  value : ν
deriving DecidableEq, Repr

/-- A named store. -/
structure Dict (α : Type) where
  name : String
  store : Store String α

namespace Dict

variable {α : Type}

def defaultCapacity : Nat := 1024

/-- A dictionary without entries.  A capacity of zero means the default. -/
def withLimits (name : String) (lifetime : Span) (capacity : Nat) : Dict α :=
  if h : 0 < capacity then ⟨name, Store.empty lifetime capacity h⟩
  else ⟨name, Store.empty lifetime defaultCapacity (by decide)⟩

def withSettings (name : String) (settings : CacheSettings) : Dict α :=
  withLimits name settings.dictLifetime settings.dictCapacity

def new (name : String) : Dict α :=
  withSettings name CacheSettings.default

def size (d : Dict α) : Nat :=
  d.store.size

def summary (d : Dict α) : String :=
  "DataDict \x7b name: DictKey(" ++ Text.quoted d.name ++ "), ttl: " ++ d.store.lifetime.text ++
    ", .. \x7d"

/-- Put a value under a key and return the live value that it replaces. -/
def record (now : Instant) (key : String) (value : α) (d : Dict α) : Option α × Dict α :=
  let (old, store) := d.store.insert now key value
  (old, { d with store })

/-- The live value under a key, which becomes the most recent one. -/
def find (now : Instant) (key : String) (d : Dict α) : Option α × Dict α :=
  let (found, store) := d.store.get now key
  (found, { d with store })

/-- The live value under a key if it was recorded at a given type.  A value of
another type stays, and becomes the most recent one all the same. -/
def findAs {τ ν : Type} [DecidableEq τ] (now : Instant) (key : String) (type : τ)
    (d : Dict (TypedValue τ ν)) : Option ν × Dict (TypedValue τ ν) :=
  let (found, d) := d.find now key
  ((found.filter (·.type = type)).map (·.value), d)

def contains (now : Instant) (key : String) (d : Dict α) : Bool :=
  d.store.contains now key

def remove (now : Instant) (key : String) (d : Dict α) : Option α × Dict α :=
  let (old, store) := d.store.remove now key
  (old, { d with store })

def removeAll (d : Dict α) : Dict α :=
  { d with store := d.store.clear }

def purge (now : Instant) (d : Dict α) : Nat × Dict α :=
  let (count, store) := d.store.purge now
  (count, { d with store })

end Dict

end RecordKit
