import RecordKit.Proofs.Copy.Failure

/-!
# Complete copies

A source may have each exported field of a destination among its own fields, with the same
name and the same type.  The names of direct fields stand for these fields, whatever the
two structs embed.  So the plan is one assignment for each exported direct field of the
destination, embedded structs are taken whole and not entered, and the copy cannot fail.

* `CopyPlan.actionsAt_of_supplied`: what the compiler makes of one field.
* `CopyPlan.compile_dests_of_supplies`, `CopyPlan.direct_of_mem_compile`: the plan.
* `CopyPlan.run_compile_complete`: the copy.
-/

namespace RecordKit

variable {C : Type}

namespace Shape

/-- Each exported direct field of the destination is an exported direct field of the source
as well: one with the same name and the same type. -/
def Supplies (source dest : Shape C) : Prop :=
  ∀ f ∈ dest.fields, f.exported = true →
    ∃ g ∈ source.fields, g.exported = true ∧ g.name = f.name ∧ g.type = f.type

instance [DecidableEq C] (source dest : Shape C) : Decidable (source.Supplies dest) :=
  inferInstanceAs (Decidable (∀ f ∈ dest.fields, f.exported = true →
    ∃ g ∈ source.fields, g.exported = true ∧ g.name = f.name ∧ g.type = f.type))

/-- A struct supplies itself. -/
theorem supplies_self (s : Shape C) : s.Supplies s :=
  fun f hf hexported => ⟨f, hf, hexported, rfl, rfl⟩

/-- Every exported direct field has a value. -/
def ExportedFit (s : Shape C) (d : Data) : Prop :=
  ∀ f ∈ s.fields, f.exported = true → (f.get? d).isSome = true

instance (s : Shape C) (d : Data) : Decidable (s.ExportedFit d) :=
  inferInstanceAs (Decidable (∀ f ∈ s.fields, f.exported = true → (f.get? d).isSome = true))

end Shape

variable [UserType C]

/-- The assignment from one direct field to another. -/
def CopyAction.direct (source dest : Field C) : CopyAction C :=
  ⟨⟨[], dest⟩, ⟨[], source⟩, false, source.kind, dest.kind⟩

namespace CopyPlan

variable [DecidableEq C] {source dest : Shape C}

/-! ## The plan -/

theorem matchField_of_supplied (hsource : source.DistinctNames) {f g : Field C}
    (hg : g ∈ source.fields) (hexported : g.exported = true) (hname : g.name = f.name)
    (htype : g.type = f.type) : matchField source ⟨[], f⟩ = some (.direct g f) := by
  have hfind : findSource source f.name = some ⟨[], g⟩ :=
    (findSource_eq_some_iff hsource f.name _).mpr
      ⟨Shape.standsFor_direct hsource hg, hname, hexported⟩
  have htransfer : transfer? g f = some false := if_pos htype
  exact (matchField_eq_some_iff source _ _).mpr ⟨rfl, hfind, htransfer, rfl, rfl⟩

/-- The compiler passes over a field that is not exported, and it assigns an exported one
from the field that the source supplies. -/
theorem actionsAt_of_supplied (hsource : source.DistinctNames) (hdest : dest.DistinctNames)
    (hsupplies : source.Supplies dest) {f : Field C} (hf : f ∈ dest.fields) :
    (f.exported = false ∧ actionsAt source (nameTable dest) 0 [] f = []) ∨
      (f.exported = true ∧ ∃ g ∈ source.fields, g.exported = true ∧ g.name = f.name ∧
        g.type = f.type ∧ actionsAt source (nameTable dest) 0 [] f = [.direct g f]) := by
  unfold actionsAt
  cases hexported : f.exported with
  | false => exact Or.inl ⟨rfl, by simp⟩
  | true =>
      obtain ⟨g, hg, hgexported, hname, htype⟩ := hsupplies f hf hexported
      have hpromotes : (nameTable dest).promotes f.name 0 = true :=
        (promotes_nameTable_iff hdest (Shape.mem_routes_direct hf)).mpr
          (Shape.standsFor_direct hdest hf)
      refine Or.inr ⟨rfl, g, hg, hgexported, hname, htype, ?_⟩
      rw [hpromotes, matchField_of_supplied hsource hg hgexported hname htype]
      rfl

/-- The plan fills the exported direct fields, each once and in declaration order. -/
theorem compile_dests_of_supplies (hsource : source.DistinctNames) (hdest : dest.DistinctNames)
    (hsupplies : source.Supplies dest) :
    (compile source dest).actions.map CopyAction.dest =
      (dest.fields.filter (·.exported)).map fun f => ⟨[], f⟩ := by
  have hblock : ∀ f ∈ dest.fields,
      (actionsAt source (nameTable dest) 0 [] f).map CopyAction.dest =
        (if f.exported then some (⟨[], f⟩ : Route C) else none).toList := by
    intro f hf
    rcases actionsAt_of_supplied hsource hdest hsupplies hf with
      ⟨hexported, hactions⟩ | ⟨hexported, g, -, -, -, -, hactions⟩
    · simp [hactions, hexported]
    · simp [hactions, hexported, CopyAction.direct]
  calc (structActions source (nameTable dest) 0 [] dest).map CopyAction.dest
    _ = dest.fields.flatMap fun f => (if f.exported then some ⟨[], f⟩ else none).toList := by
      rw [structActions_eq_flatMap, List.map_flatMap]
      exact List.flatMap_congr hblock
    _ = dest.fields.filterMap fun f => if f.exported then some ⟨[], f⟩ else none :=
      (List.filterMap_eq_flatMap_toList _ _).symm
    _ = (dest.fields.filter (·.exported)).map fun f => ⟨[], f⟩ := by
      rw [← List.filterMap_eq_map', List.filterMap_filter]

/-- Every action assigns a direct field from the one that the source supplies. -/
theorem direct_of_mem_compile (hsource : source.DistinctNames) (hdest : dest.DistinctNames)
    (hsupplies : source.Supplies dest) {a : CopyAction C}
    (ha : a ∈ (compile source dest).actions) :
    ∃ f ∈ dest.fields, ∃ g ∈ source.fields, f.exported = true ∧ g.exported = true ∧
      g.name = f.name ∧ g.type = f.type ∧ a = .direct g f := by
  have hmem : a ∈ structActions source (nameTable dest) 0 [] dest := ha
  rw [structActions_eq_flatMap, List.mem_flatMap] at hmem
  obtain ⟨f, hf, hmem⟩ := hmem
  rcases actionsAt_of_supplied hsource hdest hsupplies hf with
    ⟨-, hactions⟩ | ⟨hexported, g, hg, hgexported, hname, htype, hactions⟩
  · simp [hactions] at hmem
  · rw [hactions, List.mem_singleton] at hmem
    exact ⟨f, hf, g, hg, hexported, hgexported, hname, htype, hmem⟩

/-- Every exported direct field is filled. -/
theorem exists_action_of_exported (hsource : source.DistinctNames) (hdest : dest.DistinctNames)
    (hsupplies : source.Supplies dest) {f : Field C} (hf : f ∈ dest.fields)
    (hexported : f.exported = true) :
    ∃ a ∈ (compile source dest).actions, a.dest = ⟨[], f⟩ := by
  have hdests := compile_dests_of_supplies hsource hdest hsupplies
  have hmem : (⟨[], f⟩ : Route C) ∈ (compile source dest).actions.map CopyAction.dest := by
    rw [hdests]
    exact List.mem_map_of_mem (List.mem_filter.mpr ⟨hf, hexported⟩)
  exact List.mem_map.mp hmem

/-! ## The copy -/

/-- A complete copy cannot fail: what is assigned is there. -/
theorem run_compile_supplies_ok (hsource : source.DistinctNames) (hdest : dest.DistinctNames)
    (hsupplies : source.Supplies dest) {d s : Data} (hd : dest.ExportedFit d)
    (hs : source.ExportedFit s) : (runActions s (compile source dest).actions d).error = none := by
  rw [runActions_error_eq_none_iff (compile_dests_apart source dest)]
  intro a ha e hfails
  obtain ⟨f, hf, g, hg, hexported, hgexported, -, -, rfl⟩ :=
    direct_of_mem_compile hsource hdest hsupplies ha
  have hdestSome := hd f hf hexported
  have hsourceSome := hs g hg hgexported
  rcases hfails with (hnone | hnone) | ⟨-, -, hconversion, -⟩
  · simp [CopyAction.direct, Option.isSome_iff_ne_none.mp hdestSome] at hnone
  · simp [CopyAction.direct, Option.isSome_iff_ne_none.mp hsourceSome] at hnone
  · cases hconversion

/-- Let each exported direct field of the destination be supplied by a direct field of the
source, whatever else the two structs have and embed.  Then the plan has one assignment
for each exported direct field, in declaration order, and no other action; both of its
routes are single steps, so embedded structs are taken whole.  On all records in which the
exported direct fields resolve the copy succeeds.  After it, each exported direct field has
the value of the source's field of its name, and each direct field that is not exported has
the value that it had before.  A struct supplies itself, so all this holds when a record is
copied to a record of its own type. -/
theorem run_compile_complete (hsource : source.DistinctNames) (hdest : dest.DistinctNames)
    (hsupplies : source.Supplies dest) {d s : Data} (hd : dest.ExportedFit d)
    (hs : source.ExportedFit s) :
    let plan := compile source dest
    let out := plan.run ⟨dest.id, d⟩ ⟨source.id, s⟩
    plan.actions.map CopyAction.dest =
        ((dest.fields.filter (·.exported)).map fun f => ⟨[], f⟩) ∧
      (∀ a ∈ plan.actions, a.conversion = false ∧ ∃ g ∈ source.fields, g.exported = true ∧
        g.name = a.dest.last.name ∧ g.type = a.dest.last.type ∧ a.source = ⟨[], g⟩) ∧
      out.error = none ∧
      (∀ f ∈ dest.fields, f.exported = true →
        ∀ g ∈ source.fields, g.name = f.name → f.get? out.dest = g.get? s) ∧
      (∀ f ∈ dest.fields, f.exported = false → out.dest.member? f.name = d.member? f.name) ∧
      dest.Supplies dest := by
  intro plan out
  have hout : out = runActions s plan.actions d := run_of_ids rfl rfl
  have hok : (runActions s plan.actions d).error = none :=
    run_compile_supplies_ok hsource hdest hsupplies hd hs
  rw [hout]
  refine ⟨compile_dests_of_supplies hsource hdest hsupplies, ?_, hok, ?_, ?_,
    dest.supplies_self⟩
  · intro a ha
    obtain ⟨f, -, g, hg, -, hgexported, hname, htype, rfl⟩ :=
      direct_of_mem_compile hsource hdest hsupplies ha
    exact ⟨rfl, g, hg, hgexported, hname, htype, rfl⟩
  · intro f hf hexported g hg hname
    obtain ⟨a, ha, haf⟩ := exists_action_of_exported hsource hdest hsupplies hf hexported
    obtain ⟨f', -, g', hg', -, -, hname', -, rfl⟩ :=
      direct_of_mem_compile hsource hdest hsupplies ha
    obtain rfl : f' = f := congrArg Route.last haf
    -- The source has one field of that name.
    obtain rfl : g' = g := hsource.field_eq hg' hg (hname'.trans hname.symm)
    have hfilled := runActions_filled (compile_dests_apart source dest) hok _ ha
    simpa [CopyAction.direct] using hfilled.fetch?_eq rfl
  · intro f hf hexported
    have hkept : (runActions s plan.actions d).dest.dig? [f.name] = d.dig? [f.name] := by
      apply dig?_runActions
      intro a ha
      obtain ⟨f', hf', g, -, hexported', -, -, -, rfl⟩ :=
        direct_of_mem_compile hsource hdest hsupplies ha
      have hname : f.name ≠ f'.name := by
        intro hname
        rw [hdest.field_eq hf hf' hname, hexported'] at hexported
        cases hexported
      exact (apart_cons_iff _ _ _ _).mpr (Or.inl hname)
    simpa [Data.dig?] using hkept

/-- A part with a name and a picture, which no view converts to. -/
def part : Shape SampleType :=
  Sample.shape "Part"
    [ .basic "name" .string,
      .basic "picture" (.user .blob) ]

/-- A spare part, which also has a name. -/
def spare : Shape SampleType :=
  Sample.shape "Spare" [.basic "name" .string]

/-- A part and how many there are of it, with a spare part that is not exported. -/
def kit : Shape SampleType :=
  Sample.shape "Kit"
    [ .basic "count" (Sample.unsigned .w8),
      .embedding "part" part,
      Sample.unexported (.embedding "spare" spare) ]

/-- What is asked for of a kit.  It keeps a spare part of its own. -/
def kitOrder : Shape SampleType :=
  Sample.shape "KitOrder"
    [ Sample.unexported (.embedding "spare" spare),
      .embedding "part" part,
      .basic "count" (Sample.unsigned .w8) ]

/-- The part is taken whole, with the picture that could not be converted.  Neither the
order nor a second kit gets the spare part. -/
theorem run_kit_to_order_and_kit :
    let partOf (name : String) (byte : UInt8) : Data :=
      .record [("name", .text name), ("picture", .bytes [byte])]
    let spareOf (name : String) : Data := .record [("name", .text name)]
    let s : Data := .record [("count", .int 3), ("part", partOf "bolt" 7), ("spare", spareOf "nut")]
    let d : Data := .record [("spare", spareOf "pin"), ("part", partOf "" 0), ("count", .int 0)]
    let order := (compile kit kitOrder).run ⟨kitOrder.id, d⟩ ⟨kit.id, s⟩
    let second := (compile kit kit).run ⟨kit.id, d⟩ ⟨kit.id, s⟩
    (compile kit kitOrder).actions.map (·.dest.dotted) = ["part", "count"] ∧
      (order.error = none ∧ order.dest.member? "part" = some (partOf "bolt" 7) ∧
        order.dest.member? "spare" = some (spareOf "pin")) ∧
      (second.error = none ∧ second.dest.member? "spare" = some (spareOf "pin")) := by
  intro partOf spareOf s d order second
  have hkit : kit.DistinctNames := by decide
  have horder : kitOrder.DistinctNames := by decide
  have hsupplies : kit.Supplies kitOrder := by decide
  have hd : kitOrder.ExportedFit d := by decide
  have hd' : kit.ExportedFit d := by decide
  have hs : kit.ExportedFit s := by decide
  have hspare : Sample.unexported (.embedding "spare" spare) ∈ kitOrder.fields := by
    simp [kitOrder, Sample.shape]
  have hspare' : Sample.unexported (.embedding "spare" spare) ∈ kit.fields := by
    simp [kit, Sample.shape]
  have hpart : Field.embedding "part" part ∈ kitOrder.fields := by
    simp [kitOrder, Sample.shape]
  have hpart' : Field.embedding "part" part ∈ kit.fields := by
    simp [kit, Sample.shape]
  obtain ⟨-, -, hok, htaken, hkept, -⟩ := run_compile_complete hkit horder hsupplies hd hs
  obtain ⟨-, -, hok', -, hkept', -⟩ := run_compile_complete hkit hkit kit.supplies_self hd' hs
  refine ⟨by decide, ⟨hok, ?_, hkept _ hspare rfl⟩, hok', hkept' _ hspare' rfl⟩
  exact htaken _ hpart rfl _ hpart' rfl

end CopyPlan

end RecordKit
