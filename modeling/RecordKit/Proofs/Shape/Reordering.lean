import RecordKit.Proofs.Shape.Promotion

/-!
# The order of fields

Two shapes may differ only in the order of their fields, and of the fields of the structs
that they embed.  Such shapes have the same routes, if one looks only at what the fields on
a route say for themselves (`Route.bare`) and not at the structs that they embed.

What a name stands for depends on the routes alone, and not on their order.  So all walks
over the two shapes agree:

* `Shape.Reordered.sameRoutes`: the routes of one shape are those of the other;
* `Shape.SameRoutes.findSource_eq`: the search finds the same route;
* `Shape.SameRoutes.promotes_eq`: the table lets the same names pass.
-/

namespace RecordKit

variable {C : Type}

/-! ## Routes without what they pass by -/

/-- A field without the struct that it embeds. -/
def Field.bare (f : Field C) : Field C :=
  { f with inner := none }

/-- A route whose fields do not show the structs that they embed.  All that is left out is
what lies beside the route. -/
def Route.bare (p : Route C) : Route C :=
  ⟨p.via.map Field.bare, p.last.bare⟩

namespace Route

@[simp] theorem bare_direct (f : Field C) : (⟨[], f⟩ : Route C).bare = ⟨[], f.bare⟩ := rfl

@[simp] theorem bare_under (f : Field C) (p : Route C) :
    (p.under f).bare = p.bare.under f.bare := rfl

@[simp] theorem depth_bare (p : Route C) : p.bare.depth = p.depth :=
  List.length_map Field.bare

end Route

/-- The routes that start with an embedded field. -/
theorem Field.map_bare_routes {f : Field C} {inner : Shape C} (hinner : f.inner = some inner) :
    f.routes.map Route.bare =
      ⟨[], f.bare⟩ :: (inner.routes.map Route.bare).map (Route.under f.bare) := by
  simp [Field.routes, hinner, Function.comp_def]

namespace Shape

/-! ## Reordered shapes -/

/-- Two shapes differ only in the order of fields: of their own ones, or of those of the
structs that they embed, at whatever depth.  The shapes may describe different structs, but
what they embed is of the same types. -/
inductive Reordered : Shape C → Shape C → Prop
  | perm {s s' : Shape C} (fields : s.fields.Perm s'.fields) : Reordered s s'
  | within {s s' inner inner' : Shape C} (before : List (Field C)) (f : Field C)
      (after : List (Field C)) (fields : s.fields = before ++ f :: after)
      (fields' : s'.fields = before ++ { f with inner := some inner' } :: after)
      (embeds : f.inner = some inner) (sameType : inner'.id = inner.id)
      (h : Reordered inner inner') : Reordered s s'
  | trans {s s' s'' : Shape C} (h : Reordered s s') (h' : Reordered s' s'') : Reordered s s''

/-- Two shapes have the same routes, up to the order in which they are listed. -/
def SameRoutes (s s' : Shape C) : Prop :=
  (s.routes.map Route.bare).Perm (s'.routes.map Route.bare)

theorem Reordered.sameRoutes {s s' : Shape C} (h : s.Reordered s') : s.SameRoutes s' := by
  unfold SameRoutes
  induction h with
  | perm fields =>
      rw [routes_eq_flatMap, routes_eq_flatMap]
      exact (fields.flatMap_right Field.routes).map Route.bare
  | within _ _ _ fields fields' embeds _ _ ih =>
      rw [routes_eq_flatMap, routes_eq_flatMap, fields, fields']
      simp only [List.flatMap_append, List.flatMap_cons, List.map_append]
      refine List.Perm.append_left _ (List.Perm.append_right _ ?_)
      rw [Field.map_bare_routes embeds, Field.map_bare_routes rfl]
      exact (ih.map _).cons _
  | trans _ _ ih ih' => exact ih.trans ih'

/-! ## What names stand for -/

/-- The routes of a name on one level are found among the bare ones as well. -/
theorem map_bare_named (s : Shape C) (depth : Nat) (name : String) :
    (s.named depth name).map Route.bare =
      ((s.routes.map Route.bare).filter fun p => p.depth = depth).filter fun p =>
        p.last.name = name := by
  rw [named, routesAt_eq_filter, List.filter_map, List.filter_map]
  simp only [Function.comp_def, Route.depth_bare]
  rfl

namespace SameRoutes

variable {s s' : Shape C}

theorem symm (h : s.SameRoutes s') : s'.SameRoutes s :=
  List.Perm.symm h

theorem named_perm (h : s.SameRoutes s') (depth : Nat) (name : String) :
    ((s.named depth name).map Route.bare).Perm ((s'.named depth name).map Route.bare) := by
  rw [map_bare_named, map_bare_named]
  exact (List.Perm.filter _ h).filter _

theorem length_named (h : s.SameRoutes s') (depth : Nat) (name : String) :
    (s.named depth name).length = (s'.named depth name).length := by
  simpa using (h.named_perm depth name).length_eq

theorem named_eq_nil_iff (h : s.SameRoutes s') (depth : Nat) (name : String) :
    s.named depth name = [] ↔ s'.named depth name = [] := by
  rw [← List.length_eq_zero_iff, ← List.length_eq_zero_iff, h.length_named]

theorem exists_findSource (h : s.SameRoutes s') {name : String} {p : Route C}
    (hfind : findSource s name = some p) :
    ∃ p', findSource s' name = some p' ∧ p'.bare = p.bare := by
  obtain ⟨hnamed, hbefore, hexported⟩ := (findSource_eq_some_iff_named s name p).mp hfind
  have hperm := h.named_perm p.depth name
  rw [hnamed, List.map_singleton, List.singleton_perm] at hperm
  obtain ⟨p', hnamed', hbare⟩ := List.map_eq_singleton_iff.mp hperm.symm
  have hdepth : p'.depth = p.depth := by
    rw [← p'.depth_bare, hbare, p.depth_bare]
  have hexported' : p'.last.exported = true := by
    have hlast := congrArg (fun r : Route C => r.last.exported) hbare
    exact hlast.trans hexported
  have hbefore' : ∀ j < p'.depth, s'.named j name = [] := by
    intro j hj
    exact (h.named_eq_nil_iff j name).mp (hbefore j (hdepth ▸ hj))
  have hfind' : findSource s' name = some p' :=
    (findSource_eq_some_iff_named s' name p').mpr ⟨hdepth ▸ hnamed', hbefore', hexported'⟩
  exact ⟨p', hfind', hbare⟩

/-- The search for a name finds the same route in both shapes, or none in either. -/
theorem findSource_eq (h : s.SameRoutes s') (name : String) :
    (findSource s name).map Route.bare = (findSource s' name).map Route.bare := by
  cases hfind : findSource s name with
  | some p =>
      obtain ⟨p', hfind', hbare⟩ := h.exists_findSource hfind
      simp [hfind', hbare]
  | none =>
      cases hfind' : findSource s' name with
      | some p' =>
          obtain ⟨p, hp, -⟩ := h.symm.exists_findSource hfind'
          rw [hfind] at hp
          cases hp
      | none => rfl

/-- The tables of both shapes let the same names pass. -/
theorem promotes_eq (h : s.SameRoutes s') (name : String) (depth : Nat) :
    (nameTable s).promotes name depth = (nameTable s').promotes name depth := by
  rw [Bool.eq_iff_iff]
  simp only [NameTable.promotes, beq_iff_eq, lookup_nameTable_eq_some_iff, h.length_named,
    h.named_eq_nil_iff]

end SameRoutes

end Shape

end RecordKit
