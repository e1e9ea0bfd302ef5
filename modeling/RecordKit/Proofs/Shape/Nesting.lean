import RecordKit.Proofs.Record.Typing
import RecordKit.Proofs.Shape.Promotion

/-!
# Nestings of one record

The same leaves, the fields that embed nothing, can be nested in many ways.  A shape is
unambiguous if all its fields are exported and no name occurs twice in it, at whatever
depth: then every name stands for its only occurrence, and the leaves make a map from
names to types.

* `Shape.mem_routes_behind`, `Shape.eq_or_behind`: the routes below an embedded field
  are those of the struct that it embeds.
* `Shape.Unambiguous.standsFor`: every route stands for its name.
-/

namespace RecordKit

variable {C : Type}

/-! ## Below an embedded field -/

@[simp] theorem Route.steps_behind (via : List (Field C)) (p : Route C) :
    (p.behind via).steps = via ++ p.steps := by
  simp [Route.behind, Route.steps]

namespace Shape

theorem mem_routes_behind {s inner : Shape C} {r x : Route C} (hr : r ∈ s.routes)
    (hinner : r.last.inner = some inner) (hx : x ∈ inner.routes) :
    x.behind r.steps ∈ s.routes := by
  induction s using Shape.embedding_induction generalizing r with
  | step s ih =>
      obtain ⟨f, hf, rfl | ⟨below, hbelow, q, hq, rfl⟩⟩ := (s.mem_routes_iff r).mp hr
      · exact mem_routes_under hf hinner hx
      · exact mem_routes_under hf hbelow (ih f hf below hbelow hq hinner)

/-- A route that passes through a field, or ends there, ends there or goes on in the
struct that the field embeds. -/
theorem eq_or_behind {s : Shape C} {r p : Route C} (hp : p ∈ s.routes) (hr : r.AtOrAbove p) :
    p = r ∨ ∃ inner x, r.last.inner = some inner ∧ x ∈ inner.routes ∧ p = x.behind r.steps := by
  induction s using Shape.embedding_induction generalizing r p with
  | step s ih =>
      obtain ⟨f, hf, rfl | ⟨inner, hinner, q, hq, rfl⟩⟩ := (s.mem_routes_iff p).mp hp
      · exact Or.inl ((Route.atOrAbove_direct_iff f r).mp hr).symm
      · rcases (Route.atOrAbove_under_iff f r q).mp hr with rfl | ⟨r', rfl, hr'⟩
        · exact Or.inr ⟨inner, q, hinner, hq, rfl⟩
        · rcases ih f hf inner hinner hq hr' with rfl | ⟨below, x, hbelow, hx, rfl⟩
          · exact Or.inl rfl
          · exact Or.inr ⟨below, x, hbelow, hx, rfl⟩

/-! ## Leaves -/

/-- The routes to the fields that embed nothing. -/
def leaves (s : Shape C) : List (Route C) :=
  s.routes.filter fun p => p.last.inner.isNone

theorem mem_leaves_iff (s : Shape C) (p : Route C) :
    p ∈ s.leaves ↔ p ∈ s.routes ∧ p.last.inner = none := by
  rw [leaves, List.mem_filter, Option.isNone_iff_eq_none]

/-- The names of the leaves with their types. -/
def leafTypes (s : Shape C) : List (String × FieldType C) :=
  s.leaves.map fun p => (p.last.name, p.last.type)

/-! ## Unambiguous shapes -/

/-- All fields of a shape, at whatever depth, are exported and have different names.  An
embedded field embeds the struct of its own type, whose shape is the catalog's. -/
structure Unambiguous (catalog : Catalog C) (s : Shape C) : Prop where
  exported : ∀ p ∈ s.routes, p.last.exported = true
  names : (s.routes.map (·.last.name)).Nodup
  embeds : ∀ p ∈ s.routes, p.last.EmbedsDescribed catalog

/-- If no name occurs twice in a shape, the fields of each struct have distinct names. -/
theorem distinctNames_of_names_nodup {s : Shape C} (h : (s.routes.map (·.last.name)).Nodup) :
    s.DistinctNames := by
  induction s using Shape.embedding_induction with
  | step s ih =>
      have hfields : ((s.routesAt 0).map (·.last.name)).Nodup := by
        rw [Shape.routesAt_eq_filter]
        exact h.sublist (List.filter_sublist.map _)
      refine .intro (by simpa [Shape.routesAt, Function.comp_def] using hfields) ?_
      intro f hf inner hinner
      have hbelow : (inner.routes.map (Route.under f)).Sublist s.routes := by
        have hroutes : f.routes.Sublist s.routes := by
          obtain ⟨before, after, hsplit⟩ := List.mem_iff_append.mp hf
          rw [Shape.routes_eq_flatMap, hsplit, List.flatMap_append, List.flatMap_cons]
          exact (List.sublist_append_left _ _).trans (List.sublist_append_right _ _)
        have htail : (inner.routes.map (Route.under f)).Sublist f.routes := by
          simp [Field.routes, hinner]
        exact htail.trans hroutes
      have hnames := h.sublist (hbelow.map _)
      rw [List.map_map] at hnames
      exact ih f hf inner hinner hnames

namespace Unambiguous

variable {catalog : Catalog C} {s : Shape C}

theorem distinctNames (hs : s.Unambiguous catalog) : s.DistinctNames :=
  distinctNames_of_names_nodup hs.names

theorem eq_of_name (hs : s.Unambiguous catalog) {p q : Route C} (hp : p ∈ s.routes)
    (hq : q ∈ s.routes) (hname : p.last.name = q.last.name) : p = q :=
  List.inj_on_of_nodup_map hs.names hp hq hname

theorem standsFor (hs : s.Unambiguous catalog) {p : Route C} (hp : p ∈ s.routes) :
    s.StandsFor p := by
  refine ⟨hp, ?_⟩
  intro r hr hname
  obtain rfl := hs.eq_of_name hr hp hname
  exact ⟨Nat.le_refl _, fun _ => rfl⟩

/-- In two unambiguous shapes, embedded fields of one type embed one shape. -/
theorem inner_eq {s' : Shape C} (hs : s.Unambiguous catalog) (hs' : s'.Unambiguous catalog)
    {p q : Route C} (hp : p ∈ s.routes) (hq : q ∈ s'.routes) {inner inner' : Shape C}
    (hinner : p.last.inner = some inner) (hinner' : q.last.inner = some inner')
    (htype : p.last.type = q.last.type) : inner = inner' := by
  obtain ⟨hp, hdescribes⟩ := hs.embeds p hp inner hinner
  obtain ⟨hq, hdescribes'⟩ := hs'.embeds q hq inner' hinner'
  have hid : inner.id = inner'.id := by
    rw [hp, hq] at htype
    exact FieldType.struct.inj htype
  calc
    inner = catalog.shape inner.id := hdescribes.symm
    _ = catalog.shape inner'.id := by rw [hid]
    _ = inner' := hdescribes'

end Unambiguous

/-! ## Nestings of the same leaves -/

/-- Two unambiguous shapes have the same map from leaf names to types. -/
structure Renests (catalog : Catalog C) (s s' : Shape C) : Prop where
  left : s.Unambiguous catalog
  right : s'.Unambiguous catalog
  leafTypes : ∀ leaf, leaf ∈ s.leafTypes ↔ leaf ∈ s'.leafTypes

namespace Renests

variable {catalog : Catalog C} {s s' : Shape C}

theorem symm (h : s.Renests catalog s') : s'.Renests catalog s :=
  ⟨h.right, h.left, fun leaf => (h.leafTypes leaf).symm⟩

theorem exists_leaf (h : s.Renests catalog s') {p : Route C} (hp : p ∈ s.leaves) :
    ∃ q ∈ s'.leaves, q.last.name = p.last.name ∧ q.last.type = p.last.type := by
  have hmem : (p.last.name, p.last.type) ∈ s.leafTypes := List.mem_map_of_mem hp
  obtain ⟨q, hq, hleaf⟩ := List.mem_map.mp ((h.leafTypes _).mp hmem)
  exact ⟨q, hq, congrArg Prod.fst hleaf, congrArg Prod.snd hleaf⟩

/-- Whatever has the name of a leaf is a leaf of the same type. -/
theorem leaf_of_name (h : s.Renests catalog s') {p q : Route C} (hp : p ∈ s.leaves)
    (hq : q ∈ s'.routes) (hname : p.last.name = q.last.name) :
    q.last.inner = none ∧ p.last.type = q.last.type := by
  obtain ⟨r, hr, hrname, hrtype⟩ := h.exists_leaf hp
  obtain ⟨hroute, hinner⟩ := (s'.mem_leaves_iff r).mp hr
  obtain rfl := h.right.eq_of_name hroute hq (hrname.trans hname)
  exact ⟨hinner, hrtype.symm⟩

/-- Fields of one name are leaves of one type, or both embed a struct. -/
theorem leaf_or_embedded (h : s.Renests catalog s') {p q : Route C} (hp : p ∈ s.routes)
    (hq : q ∈ s'.routes) (hname : p.last.name = q.last.name) :
    (p.last.inner = none ∧ q.last.inner = none ∧ p.last.type = q.last.type) ∨
      ∃ inner inner', p.last.inner = some inner ∧ q.last.inner = some inner' := by
  cases hpinner : p.last.inner with
  | none =>
      exact Or.inl ⟨rfl, h.leaf_of_name ((s.mem_leaves_iff p).mpr ⟨hp, hpinner⟩) hq hname⟩
  | some inner =>
      cases hqinner : q.last.inner with
      | none =>
          have hleaf := (s'.mem_leaves_iff q).mpr ⟨hq, hqinner⟩
          have hnone := (h.symm.leaf_of_name hleaf hp hname.symm).1
          rw [hpinner] at hnone
          cases hnone
      | some inner' => exact Or.inr ⟨inner, inner', rfl, rfl⟩

end Renests

end Shape

end RecordKit
