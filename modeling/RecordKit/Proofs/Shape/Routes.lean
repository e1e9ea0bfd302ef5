import Mathlib.Data.List.Flatten
import Mathlib.Data.List.Nodup
import RecordKit.Copy.Promotion

/-!
# The routes of a shape

`Shape.routes` lists every field of a shape with the embedded fields that lead
to it, in depth-first declaration order.  It is the yardstick for everything
that walks a shape in another order.

* `Shape.embedding_induction` is induction over embedded structs.
* `Shape.routesAt_eq_filter` finds each level of a shape inside the list.
* `Shape.routes_nodup` and `Shape.atOrAbove_of_names` hold where the fields of
  each struct have distinct names: no route is listed twice, and routes can be
  told apart by their names alone.
-/

namespace RecordKit

variable {C : Type}

theorem eq_singleton_iff_of_nodup {α : Type} {l : List α} (hl : l.Nodup) {a : α} :
    l = [a] ↔ ∀ b, b ∈ l ↔ b = a := by
  rw [← List.perm_singleton, List.perm_ext_iff_of_nodup hl (List.nodup_singleton a)]
  simp only [List.mem_singleton]

/-! ## Routes above others -/

namespace Route

/-- The number of embedded fields that a route passes through. -/
def depth (p : Route C) : Nat :=
  p.via.length

/-- The first route ends at a field that the second one passes through or ends
at: its fields are the first fields of the second. -/
def AtOrAbove (r p : Route C) : Prop :=
  r.steps <+: p.steps

@[simp] theorem steps_mk (via : List (Field C)) (f : Field C) :
    (⟨via, f⟩ : Route C).steps = via ++ [f] := rfl

@[simp] theorem steps_under (f : Field C) (p : Route C) : (p.under f).steps = f :: p.steps := rfl

@[simp] theorem names_under (f : Field C) (p : Route C) :
    (p.under f).names = f.name :: p.names := rfl

@[simp] theorem depth_under (f : Field C) (p : Route C) : (p.under f).depth = p.depth + 1 := rfl

@[simp] theorem last_under (f : Field C) (p : Route C) : (p.under f).last = p.last := rfl

@[simp] theorem names_direct (f : Field C) : (⟨[], f⟩ : Route C).names = [f.name] := rfl

theorem names_ne_nil (p : Route C) : p.names ≠ [] := by
  simp [names, steps]

theorem steps_length (p : Route C) : p.steps.length = p.depth + 1 := by
  simp [steps, depth]

theorem steps_injective {p q : Route C} (h : p.steps = q.steps) : p = q := by
  obtain ⟨hvia, hlast⟩ := List.append_inj' h rfl
  cases p
  cases q
  simp_all

theorem under_injective (f : Field C) : Function.Injective (Route.under f) := by
  intro p q h
  apply steps_injective
  have hsteps := congrArg steps h
  simpa using hsteps

theorem AtOrAbove.refl (p : Route C) : p.AtOrAbove p :=
  List.prefix_rfl

theorem AtOrAbove.trans {p q r : Route C} (hpq : p.AtOrAbove q) (hqr : q.AtOrAbove r) :
    p.AtOrAbove r :=
  List.IsPrefix.trans hpq hqr

theorem AtOrAbove.depth_le {r p : Route C} (h : r.AtOrAbove p) : r.depth ≤ p.depth := by
  have hlength := h.length_le
  rw [steps_length, steps_length] at hlength
  omega

theorem AtOrAbove.eq_of_depth {r p : Route C} (h : r.AtOrAbove p) (hdepth : p.depth ≤ r.depth) :
    r = p := by
  apply steps_injective
  apply List.IsPrefix.eq_of_length_le h
  rw [steps_length, steps_length]
  omega

/-- Only a direct field itself is at or above it. -/
theorem atOrAbove_direct_iff (f : Field C) (r : Route C) :
    r.AtOrAbove ⟨[], f⟩ ↔ r = ⟨[], f⟩ := by
  constructor
  · intro h
    exact h.eq_of_depth (Nat.zero_le _)
  · rintro rfl
    exact AtOrAbove.refl _

/-- What is at or above a route behind an embedded field is that field or lies
behind it as well. -/
theorem atOrAbove_under_iff (f : Field C) (r p : Route C) :
    r.AtOrAbove (p.under f) ↔ r = ⟨[], f⟩ ∨ ∃ q : Route C, q.under f = r ∧ q.AtOrAbove p := by
  constructor
  · intro h
    obtain ⟨via, last⟩ := r
    cases via with
    | nil =>
        have hstep : last = f := by
          simpa [AtOrAbove] using h
        exact Or.inl (by rw [hstep])
    | cons g via =>
        have hsteps : g = f ∧ via ++ [last] <+: p.steps := by
          simpa [AtOrAbove] using h
        obtain ⟨rfl, hrest⟩ := hsteps
        exact Or.inr ⟨⟨via, last⟩, rfl, hrest⟩
  · rintro (rfl | ⟨q, rfl, hq⟩)
    · simp [AtOrAbove]
    · simpa [AtOrAbove] using hq

end Route

/-! ## Induction over embedded structs -/

theorem Shape.sizeOf_inner_lt {s inner : Shape C} {f : Field C} (hf : f ∈ s.fields)
    (hinner : f.inner = some inner) : sizeOf inner < sizeOf s := by
  have hfields := List.sizeOf_lt_of_mem hf
  have hfield : sizeOf inner < sizeOf f := by
    cases f
    simp only at hinner
    subst hinner
    simp +arith
  cases s
  simp only [Shape.mk.sizeOf_spec] at hfields ⊢
  omega

/-- A property of shapes holds of all of them if it passes from the structs that
a shape embeds directly to the shape itself. -/
@[elab_as_elim]
theorem Shape.embedding_induction {motive : Shape C → Prop}
    (step : ∀ s : Shape C,
      (∀ f ∈ s.fields, ∀ inner, f.inner = some inner → motive inner) → motive s)
    (s : Shape C) : motive s :=
  step s fun f hf inner hinner =>
    have := Shape.sizeOf_inner_lt hf hinner
    Shape.embedding_induction step inner
termination_by sizeOf s

/-! ## All routes in depth-first declaration order -/

mutual

/-- The routes to all fields of a shape.  A field comes before those that it
embeds, and these come before the fields declared after it. -/
def Shape.routes : Shape C → List (Route C)
  | ⟨_, fields⟩ => Field.routesOf fields

/-- The routes to fields and to all that they embed. -/
def Field.routesOf : List (Field C) → List (Route C)
  | [] => []
  | ⟨name, type, exported, isSealed, resolves, check, none⟩ :: rest =>
      ⟨[], ⟨name, type, exported, isSealed, resolves, check, none⟩⟩ :: Field.routesOf rest
  | ⟨name, type, exported, isSealed, resolves, check, some inner⟩ :: rest =>
      let f : Field C := ⟨name, type, exported, isSealed, resolves, check, some inner⟩
      ⟨[], f⟩ :: (inner.routes.map (Route.under f) ++ Field.routesOf rest)

end

/-- The routes that start with a given field. -/
def Field.routes (f : Field C) : List (Route C) :=
  ⟨[], f⟩ :: f.inner.toList.flatMap fun inner => inner.routes.map (Route.under f)

theorem Field.routesOf_eq_flatMap (fields : List (Field C)) :
    Field.routesOf fields = fields.flatMap Field.routes := by
  induction fields with
  | nil => rfl
  | cons f rest ih =>
      obtain ⟨name, type, exported, isSealed, resolves, check, inner⟩ := f
      cases inner <;> simp [Field.routesOf, Field.routes, ih]

theorem Shape.routes_eq_flatMap (s : Shape C) : s.routes = s.fields.flatMap Field.routes := by
  cases s
  exact Field.routesOf_eq_flatMap _

theorem Field.mem_routes_iff (f : Field C) (p : Route C) :
    p ∈ f.routes ↔
      p = ⟨[], f⟩ ∨ ∃ inner, f.inner = some inner ∧ ∃ q ∈ inner.routes, q.under f = p := by
  simp [Field.routes]

theorem Shape.mem_routes_iff (s : Shape C) (p : Route C) :
    p ∈ s.routes ↔
      ∃ f ∈ s.fields,
        p = ⟨[], f⟩ ∨ ∃ inner, f.inner = some inner ∧ ∃ q ∈ inner.routes, q.under f = p := by
  rw [Shape.routes_eq_flatMap, List.mem_flatMap]
  simp only [Field.mem_routes_iff]

theorem Shape.mem_routes_direct {s : Shape C} {f : Field C} (hf : f ∈ s.fields) :
    (⟨[], f⟩ : Route C) ∈ s.routes :=
  (s.mem_routes_iff _).mpr ⟨f, hf, Or.inl rfl⟩

theorem Shape.mem_routes_under {s inner : Shape C} {f : Field C} (hf : f ∈ s.fields)
    (hinner : f.inner = some inner) {p : Route C} (hp : p ∈ inner.routes) :
    p.under f ∈ s.routes :=
  (s.mem_routes_iff _).mpr ⟨f, hf, Or.inr ⟨inner, hinner, p, hp, rfl⟩⟩

/-- What is at or above a route of a shape is a route of the shape. -/
theorem Shape.mem_routes_of_atOrAbove {s : Shape C} {r p : Route C} (hp : p ∈ s.routes)
    (hr : r.AtOrAbove p) : r ∈ s.routes := by
  induction s using Shape.embedding_induction generalizing r p with
  | step s ih =>
      rw [Shape.mem_routes_iff] at hp ⊢
      obtain ⟨f, hf, rfl | ⟨inner, hinner, q, hq, rfl⟩⟩ := hp
      · exact ⟨f, hf, Or.inl ((Route.atOrAbove_direct_iff f r).mp hr)⟩
      · refine ⟨f, hf, ?_⟩
        rcases (Route.atOrAbove_under_iff f r q).mp hr with rfl | ⟨r', rfl, hr'⟩
        · exact Or.inl rfl
        · exact Or.inr ⟨inner, hinner, r', ih f hf inner hinner hq hr', rfl⟩

/-! ## Levels -/

theorem Shape.routesAt_succ (s : Shape C) (depth : Nat) :
    s.routesAt (depth + 1) =
      s.fields.flatMap fun f =>
        f.inner.toList.flatMap fun inner => (inner.routesAt depth).map (Route.under f) := by
  rw [Shape.routesAt]
  congr 1
  funext f
  cases f.inner <;> simp

theorem Field.filter_routes_zero (f : Field C) :
    f.routes.filter (fun p => p.depth = 0) = [⟨[], f⟩] := by
  rw [Field.routes, List.filter_cons_of_pos (by rfl), List.filter_flatMap]
  simp [List.filter_map, Function.comp_def]

theorem Field.filter_routes_succ (f : Field C) (depth : Nat) :
    f.routes.filter (fun p => p.depth = depth + 1) =
      f.inner.toList.flatMap fun inner =>
        (inner.routes.filter fun p => p.depth = depth).map (Route.under f) := by
  rw [Field.routes, List.filter_cons_of_neg (by simp [Route.depth]), List.filter_flatMap]
  simp [List.filter_map, Function.comp_def]

/-- The routes of a level stand in the same order among all routes. -/
theorem Shape.routesAt_eq_filter (s : Shape C) (depth : Nat) :
    s.routesAt depth = s.routes.filter fun p => p.depth = depth := by
  induction s using Shape.embedding_induction generalizing depth with
  | step s ih =>
      rw [Shape.routes_eq_flatMap, List.filter_flatMap]
      cases depth with
      | zero => simp only [Shape.routesAt, Field.filter_routes_zero, List.map_eq_flatMap]
      | succ depth =>
          rw [Shape.routesAt_succ]
          simp only [Field.filter_routes_succ]
          apply List.flatMap_congr
          intro f hf
          apply List.flatMap_congr
          intro inner hinner
          rw [ih f hf inner (Option.mem_toList.mp hinner)]

theorem Shape.mem_routesAt_iff (s : Shape C) (depth : Nat) (p : Route C) :
    p ∈ s.routesAt depth ↔ p ∈ s.routes ∧ p.depth = depth := by
  rw [Shape.routesAt_eq_filter, List.mem_filter, decide_eq_true_iff]

theorem Field.levels_le_levelsOf {fields : List (Field C)} {f : Field C} {inner : Shape C}
    (hf : f ∈ fields) (hinner : f.inner = some inner) :
    inner.levels ≤ Field.levelsOf fields := by
  induction fields with
  | nil => simp at hf
  | cons g rest ih =>
      obtain ⟨name, type, exported, isSealed, resolves, check, embedded⟩ := g
      rcases List.mem_cons.mp hf with rfl | hrest
      · simp only at hinner
        subst hinner
        exact Nat.le_max_left _ _
      · have hle := ih hrest
        cases embedded <;> simp only [Field.levelsOf] <;> omega

theorem Shape.levels_inner_lt {s inner : Shape C} {f : Field C} (hf : f ∈ s.fields)
    (hinner : f.inner = some inner) : inner.levels < s.levels := by
  have hle := Field.levels_le_levelsOf hf hinner
  cases s
  exact Nat.lt_succ_of_le hle

/-- No route reaches beyond the levels of its shape. -/
theorem Shape.depth_lt_levels {s : Shape C} {p : Route C} (hp : p ∈ s.routes) :
    p.depth < s.levels := by
  induction s using Shape.embedding_induction generalizing p with
  | step s ih =>
      rw [Shape.mem_routes_iff] at hp
      obtain ⟨f, hf, rfl | ⟨inner, hinner, q, hq, rfl⟩⟩ := hp
      · cases s
        simp [Route.depth, Shape.levels]
      · have hdepth := ih f hf inner hinner hq
        have hlevels := Shape.levels_inner_lt hf hinner
        rw [Route.depth_under]
        omega

/-! ## Distinct names -/

/-- The fields of a struct have distinct names, and so have those of each struct
that it embeds at any depth. -/
inductive Shape.DistinctNames : Shape C → Prop
  | intro {s : Shape C} (names : (s.fields.map (·.name)).Nodup)
      (embedded : ∀ f ∈ s.fields, ∀ inner, f.inner = some inner → DistinctNames inner) :
      DistinctNames s

namespace Shape.DistinctNames

theorem names {s : Shape C} (hs : s.DistinctNames) : (s.fields.map (·.name)).Nodup := by
  cases hs with
  | intro names _ => exact names

theorem embedded {s inner : Shape C} (hs : s.DistinctNames) {f : Field C} (hf : f ∈ s.fields)
    (hinner : f.inner = some inner) : inner.DistinctNames := by
  cases hs with
  | intro _ embedded => exact embedded f hf inner hinner

theorem field_eq {s : Shape C} (hs : s.DistinctNames) {f g : Field C} (hf : f ∈ s.fields)
    (hg : g ∈ s.fields) (hname : f.name = g.name) : f = g :=
  List.inj_on_of_nodup_map hs.names hf hg hname

end Shape.DistinctNames

mutual

/-- The test for distinct names. -/
def Shape.namesDiffer : Shape C → Bool
  | ⟨_, fields⟩ => decide (fields.map (·.name)).Nodup && Field.namesDifferBelow fields

/-- The test for the structs that fields embed. -/
def Field.namesDifferBelow : List (Field C) → Bool
  | [] => true
  | ⟨_, _, _, _, _, _, none⟩ :: rest => Field.namesDifferBelow rest
  | ⟨_, _, _, _, _, _, some inner⟩ :: rest => inner.namesDiffer && Field.namesDifferBelow rest

end

theorem Field.namesDifferBelow_iff (fields : List (Field C)) :
    Field.namesDifferBelow fields = true ↔
      ∀ f ∈ fields, ∀ inner, f.inner = some inner → inner.namesDiffer = true := by
  induction fields with
  | nil => simp [Field.namesDifferBelow]
  | cons f rest ih =>
      obtain ⟨name, type, exported, isSealed, resolves, check, inner⟩ := f
      cases inner with
      | none => simp [Field.namesDifferBelow, ih]
      | some inner => simp [Field.namesDifferBelow, ih]

theorem Shape.namesDiffer_iff (s : Shape C) : s.namesDiffer = true ↔ s.DistinctNames := by
  induction s using Shape.embedding_induction with
  | step s ih =>
      have htest : s.namesDiffer = true ↔ (s.fields.map (·.name)).Nodup ∧
          ∀ f ∈ s.fields, ∀ inner, f.inner = some inner → inner.namesDiffer = true := by
        cases s
        rw [Shape.namesDiffer, Bool.and_eq_true, decide_eq_true_iff, Field.namesDifferBelow_iff]
      rw [htest]
      constructor
      · rintro ⟨hnames, hbelow⟩
        exact .intro hnames fun f hf inner hinner =>
          (ih f hf inner hinner).mp (hbelow f hf inner hinner)
      · intro hs
        exact ⟨hs.names, fun f hf inner hinner =>
          (ih f hf inner hinner).mpr (hs.embedded hf hinner)⟩

instance (s : Shape C) : Decidable s.DistinctNames :=
  decidable_of_iff _ s.namesDiffer_iff

theorem Field.head?_steps_of_mem_routes {f : Field C} {p : Route C} (hp : p ∈ f.routes) :
    p.steps.head? = some f := by
  rcases (Field.mem_routes_iff f p).mp hp with rfl | ⟨_, _, q, _, rfl⟩ <;> rfl

/-- With distinct names, no route is listed twice. -/
theorem Shape.routes_nodup {s : Shape C} (hs : s.DistinctNames) : s.routes.Nodup := by
  induction s using Shape.embedding_induction with
  | step s ih =>
      rw [Shape.routes_eq_flatMap, List.nodup_flatMap]
      constructor
      · intro f hf
        rw [Field.routes, List.nodup_cons]
        constructor
        · intro hmem
          simp only [List.mem_flatMap, List.mem_map] at hmem
          obtain ⟨_, _, p, _, hp⟩ := hmem
          have hdepth := congrArg Route.depth hp
          rw [Route.depth_under] at hdepth
          exact Nat.succ_ne_zero _ hdepth
        · cases hinner : f.inner with
          | none => simp
          | some inner =>
              simpa using (ih f hf inner hinner (hs.embedded hf hinner)).map
                (Route.under_injective f)
      -- Routes from different fields differ in their first step.
      · have hfields : s.fields.Pairwise fun f g => f.name ≠ g.name :=
          List.pairwise_map.mp hs.names
        refine hfields.imp ?_
        intro f g hname p hpf hpg
        have hfg := (Field.head?_steps_of_mem_routes hpf).symm.trans
          (Field.head?_steps_of_mem_routes hpg)
        exact hname (by rw [Option.some.inj hfg])

/-- With distinct names, a route whose names begin another one's is at or above
it. -/
theorem Shape.atOrAbove_of_names {s : Shape C} (hs : s.DistinctNames) {p q : Route C}
    (hp : p ∈ s.routes) (hq : q ∈ s.routes) (hnames : p.names <+: q.names) : p.AtOrAbove q := by
  induction s using Shape.embedding_induction generalizing p q with
  | step s ih =>
      rw [Shape.mem_routes_iff] at hp hq
      obtain ⟨f, hf, hp⟩ := hp
      obtain ⟨g, hg, hq⟩ := hq
      -- The first names agree, so both routes start at the same field.
      have hfg : f = g := by
        apply hs.field_eq hf hg
        rcases hp with rfl | ⟨_, _, p, _, rfl⟩ <;> rcases hq with rfl | ⟨_, _, q, _, rfl⟩ <;>
          simp at hnames <;> simp [hnames]
      subst hfg
      rcases hp with rfl | ⟨inner, hinner, p, hp, rfl⟩
      · rcases hq with rfl | ⟨_, _, q, _, rfl⟩
        · exact Route.AtOrAbove.refl _
        · exact (Route.atOrAbove_under_iff f _ q).mpr (Or.inl rfl)
      · rcases hq with rfl | ⟨inner', hinner', q, hq, rfl⟩
        · simp [p.names_ne_nil] at hnames
        · obtain rfl : inner = inner' := Option.some.inj (hinner.symm.trans hinner')
          have habove : p.AtOrAbove q :=
            ih f hf inner hinner (hs.embedded hf hinner) hp hq (by simpa using hnames)
          exact (Route.atOrAbove_under_iff f _ q).mpr (Or.inr ⟨p, rfl, habove⟩)

end RecordKit
