import RecordKit.Proofs.Record.Access
import RecordKit.Proofs.Shape.Routes
import RecordKit.Record.Catalog

/-!
# Typed data

`FieldType.Holds` says which data are values of a field type.  What a struct type
holds is read off the shape that a catalog has for it, so that types may be recursive
through options, boxes and containers; values are finite all the same.

* `FieldType.Holds.get?`: a record has a value of the right type in each field that
  resolves.
* `Shape.Derived.fetch?`: so has every route of a derived shape.
-/

namespace RecordKit

variable {C : Type}

namespace FieldType

/-- The data that are values of a field type.  A record has a member for every field
that resolves, and may have undescribed ones.  Nothing is known of the values of user
types. -/
inductive Holds (catalog : Catalog C) : FieldType C → Data → Prop
  | bool (b : Bool) : Holds catalog .bool (.bool b)
  | int {t : IntType} {n : Int} (range : t.Holds n) : Holds catalog (.int t) (.int n)
  | f32 (bits : UInt32) : Holds catalog .f32 (.f32 bits)
  | f64 (bits : UInt64) : Holds catalog .f64 (.f64 bits)
  | string (s : String) : Holds catalog .string (.text s)
  | bytes (bs : List UInt8) : Holds catalog (.list (.int .byte)) (.bytes bs)
  | list {elem : FieldType C} {items : List Data} (other : elem.isByte = false)
      (held : ∀ item ∈ items, Holds catalog elem item) : Holds catalog (.list elem) (.list items)
  | absent (elem : FieldType C) : Holds catalog (.option elem) .none
  | given {elem : FieldType C} {value : Data} (held : Holds catalog elem value) :
      Holds catalog (.option elem) (.some value)
  | box {elem : FieldType C} {value : Data} (held : Holds catalog elem value) :
      Holds catalog (.box elem) value
  | hashMap {key value : FieldType C} {entries : List (Data × Data)}
      (keys : ∀ entry ∈ entries, Holds catalog key entry.1)
      (values : ∀ entry ∈ entries, Holds catalog value entry.2) :
      Holds catalog (.hashMap key value) (.map entries)
  | treeMap {key value : FieldType C} {entries : List (Data × Data)}
      (keys : ∀ entry ∈ entries, Holds catalog key entry.1)
      (values : ∀ entry ∈ entries, Holds catalog value entry.2) :
      Holds catalog (.treeMap key value) (.map entries)
  | struct {id : StructId} {members : List (String × Data)}
      (present : ∀ f ∈ (catalog.shape id).fields, f.resolves = true →
        (members.lookup f.name).isSome = true)
      (held : ∀ f ∈ (catalog.shape id).fields, f.resolves = true →
        ∀ value, members.lookup f.name = some value → Holds catalog f.type value) :
      Holds catalog (.struct id) (.record members)
  | user (c : C) (value : Data) : Holds catalog (.user c) value

/-- The records of a described struct type. -/
theorem Holds.of_described {catalog : Catalog C} {s : Shape C} (hs : catalog.Describes s)
    {members : List (String × Data)}
    (present : ∀ f ∈ s.fields, f.resolves = true → (members.lookup f.name).isSome = true)
    (held : ∀ f ∈ s.fields, f.resolves = true →
      ∀ value, members.lookup f.name = some value → Holds catalog f.type value) :
    Holds catalog (.struct s.id) (.record members) := by
  rw [← hs] at present held
  exact .struct present held

theorem Holds.get? {catalog : Catalog C} {s : Shape C} (hs : catalog.Describes s) {d : Data}
    (hd : Holds catalog (.struct s.id) d) {f : Field C} (hf : f ∈ s.fields)
    (hresolves : f.resolves = true) :
    ∃ value, f.get? d = some value ∧ Holds catalog f.type value := by
  cases hd with
  | struct present held =>
      rw [hs] at present held
      obtain ⟨value, hvalue⟩ := Option.isSome_iff_exists.mp (present f hf hresolves)
      have hget : f.get? (.record _) = some value :=
        (f.get?_eq_some_iff _ value).mpr ⟨hresolves, hvalue⟩
      exact ⟨value, hget, held f hf hresolves value hvalue⟩

end FieldType

/-! ## Derived shapes -/

/-- An embedded field is of the struct type that it embeds, with the shape that the
catalog has for it. -/
def Field.EmbedsDescribed (catalog : Catalog C) (f : Field C) : Prop :=
  ∀ inner, f.inner = some inner → f.type = .struct inner.id ∧ catalog.Describes inner

/-- A shape as it is derived from a struct type: all its accessors resolve, and what it
embeds is described by the same catalog. -/
structure Shape.Derived (catalog : Catalog C) (s : Shape C) : Prop where
  described : catalog.Describes s
  resolves : ∀ p ∈ s.routes, p.last.resolves = true
  embeds : ∀ p ∈ s.routes, p.last.EmbedsDescribed catalog

namespace Shape

variable {catalog : Catalog C} {s : Shape C}

theorem Derived.inner (hs : s.Derived catalog) {f : Field C} (hf : f ∈ s.fields)
    {inner : Shape C} (hinner : f.inner = some inner) : inner.Derived catalog where
  described := (hs.embeds _ (mem_routes_direct hf) inner hinner).2
  resolves := fun p hp => hs.resolves (p.under f) (mem_routes_under hf hinner hp)
  embeds := fun p hp => hs.embeds (p.under f) (mem_routes_under hf hinner hp)

/-- A shape is derived if its own fields resolve and embed derived shapes. -/
theorem derived_of_fields (hs : catalog.Describes s) (hresolves : ∀ f ∈ s.fields, f.resolves = true)
    (hembeds : ∀ f ∈ s.fields, ∀ inner, f.inner = some inner →
      f.type = .struct inner.id ∧ inner.Derived catalog) : s.Derived catalog where
  described := hs
  resolves := by
    intro p hp
    obtain ⟨f, hf, rfl | ⟨inner, hinner, q, hq, rfl⟩⟩ := (s.mem_routes_iff p).mp hp
    · exact hresolves f hf
    · exact (hembeds f hf inner hinner).2.resolves q hq
  embeds := by
    intro p hp
    obtain ⟨f, hf, rfl | ⟨inner, hinner, q, hq, rfl⟩⟩ := (s.mem_routes_iff p).mp hp
    · intro inner hinner
      exact ⟨(hembeds f hf inner hinner).1, (hembeds f hf inner hinner).2.described⟩
    · exact (hembeds f hf inner hinner).2.embeds q hq

/-- Every route of a derived shape leads to a value of the type at its end. -/
theorem Derived.fetch? (hs : s.Derived catalog) {d : Data}
    (hd : (FieldType.struct s.id).Holds catalog d) {p : Route C} (hp : p ∈ s.routes) :
    ∃ value, RecordKit.fetch? p.steps d = some value ∧ p.last.type.Holds catalog value := by
  induction s using Shape.embedding_induction generalizing d p with
  | step s ih =>
      obtain ⟨f, hf, hp⟩ := (s.mem_routes_iff p).mp hp
      have hresolves : f.resolves = true := hs.resolves _ (mem_routes_direct hf)
      obtain ⟨value, hget, hvalue⟩ := hd.get? hs.described hf hresolves
      rcases hp with rfl | ⟨inner, hinner, q, hq, rfl⟩
      · refine ⟨value, ?_, hvalue⟩
        simp [hget]
      · have htype : f.type = .struct inner.id :=
          (hs.embeds _ (mem_routes_direct hf) inner hinner).1
        rw [htype] at hvalue
        obtain ⟨last, hlast, hheld⟩ := ih f hf inner hinner (hs.inner hf hinner) hvalue hq
        refine ⟨last, ?_, hheld⟩
        simp [RecordKit.fetch?, hget, hlast]

/-- Every route of a shape leads to a value. -/
def Fits (s : Shape C) (d : Data) : Prop :=
  ∀ p ∈ s.routes, (RecordKit.fetch? p.steps d).isSome = true

theorem Derived.fits (hs : s.Derived catalog) {d : Data}
    (hd : (FieldType.struct s.id).Holds catalog d) : s.Fits d := by
  intro p hp
  obtain ⟨value, hvalue, -⟩ := hs.fetch? hd hp
  simp [hvalue]

end Shape

end RecordKit
