import RecordKit.Proofs.Copy.Plan

/-!
# Copying one field into a nested struct

A struct with a single exported field asks the destination where the field of that name
is.  The search for source names gives one answer: the only occurrence on the
shallowest level.  A plan gives the same answer if it can get there, and it
enters an embedded field only if that field's own name stands for it as well.

`CopyPlan.compile_single_field` draws the line between the two exactly.  The
search passes through hidden and ambiguous embedded fields and the plan does
not: `CopyPlan.compile_single_field_ambiguous_parent` has the smallest shapes in
which they part.
-/

namespace RecordKit

variable {C : Type} [DecidableEq C] [UserType C]

namespace CopyPlan

/-- From a struct with a single exported field, only the route for which its name
stands can be filled, and it is filled by assignment. -/
theorem eq_of_mem_compile_single {source dest : Shape C} (hsource : source.DistinctNames)
    (hdest : dest.DistinctNames) {f : Field C}
    (honly : ∀ r ∈ source.routes, r.last.exported = true → r = ⟨[], f⟩) {q : Route C}
    (hfind : findSource dest f.name = some q) (htype : q.last.type = f.type) {a : CopyAction C}
    (ha : a ∈ (compile source dest).actions) :
    a = ⟨q, ⟨[], f⟩, false, f.kind, q.last.kind⟩ := by
  obtain ⟨hq, hqname, -⟩ := (findSource_eq_some_iff hdest f.name q).mp hfind
  obtain ⟨hstands, hname, hexported, htransfer, hsourceKind, hdestKind⟩ :=
    source_of_mem_compile hsource hdest ha
  obtain ⟨-, hdestStands, -⟩ := (mem_compile_iff hdest a).mp ha
  have hsourceRoute : a.source = ⟨[], f⟩ := honly a.source hstands.1 hexported
  -- Both routes of that name stand for it, so there is only one.
  have hdestRoute : a.dest = q := by
    apply (hdestStands _ (Route.AtOrAbove.refl _)).1.unique hq
    rw [← hname, hsourceRoute, hqname]
  have hconversion : a.conversion = false := by
    rw [((transfer?_eq_some_iff _ _ _).mp htransfer).2, hsourceRoute, hdestRoute, htype]
  obtain ⟨destRoute, sourceRoute, conversion, sourceKind, destKind⟩ := a
  dsimp only at hsourceRoute hdestRoute hconversion hsourceKind hdestKind
  subst hsourceRoute hdestRoute hconversion hsourceKind hdestKind
  rfl

/-- That route is filled if every field on the way stands for its own name. -/
theorem fills_compile_single_iff {source dest : Shape C} (hsource : source.DistinctNames)
    (hdest : dest.DistinctNames) (hexported : ∀ r ∈ dest.routes, r.last.exported = true)
    {f : Field C} (hf : f ∈ source.fields) (hfexported : f.exported = true)
    (honly : ∀ r ∈ source.routes, r.last.exported = true → r = ⟨[], f⟩) {q : Route C}
    (hfind : findSource dest f.name = some q) (htype : q.last.type = f.type) :
    (compile source dest).Fills q ↔ ∀ r : Route C, r.AtOrAbove q → dest.StandsFor r := by
  obtain ⟨hq, hqname, -⟩ := (findSource_eq_some_iff hdest f.name q).mp hfind
  rw [fills_compile_iff hdest, isSome_matchField_iff hsource]
  constructor
  · rintro ⟨hstands, -⟩ r hr
    exact (hstands r hr).1
  · intro hstands
    refine ⟨fun r hr => ⟨hstands r hr, hexported r (hstands r hr).1⟩, ?_, ?_⟩
    · rintro r hr hne ⟨a, ha, rfl⟩
      rw [eq_of_mem_compile_single hsource hdest honly hfind htype ha] at hne
      exact hne rfl
    · exact ⟨⟨[], f⟩, Shape.standsFor_direct hsource hf, hqname.symm, hfexported, Or.inl htype.symm⟩

/-- Let every field of the destination be exported, and let a name stand for the
route `q` there.  The plan from a struct whose single exported field has that
name and the type at the end of `q` is one assignment, to `q`, exactly if each
embedded field on the way stands for its own name; otherwise the plan is
empty. -/
theorem compile_single_field {source dest : Shape C} (hsource : source.DistinctNames)
    (hdest : dest.DistinctNames) (hexported : ∀ r ∈ dest.routes, r.last.exported = true)
    {f : Field C} (hf : f ∈ source.fields) (hfexported : f.exported = true)
    (honly : ∀ r ∈ source.routes, r.last.exported = true → r = ⟨[], f⟩) {q : Route C}
    (hfind : findSource dest f.name = some q) (htype : q.last.type = f.type) :
    let plan := compile source dest
    ((∃ a, plan.actions = [a] ∧ a.conversion = false ∧ a.dest = q) ↔
        ∀ r : Route C, r.AtOrAbove q → r ≠ q → dest.StandsFor r) ∧
      (¬(∀ r : Route C, r.AtOrAbove q → r ≠ q → dest.StandsFor r) → plan.actions = []) := by
  intro plan
  obtain ⟨hq, -, -⟩ := (findSource_eq_some_iff hdest f.name q).mp hfind
  have hfills : plan.Fills q ↔ ∀ r : Route C, r.AtOrAbove q → r ≠ q → dest.StandsFor r := by
    rw [fills_compile_single_iff hsource hdest hexported hf hfexported honly hfind htype]
    constructor
    · intro hstands r hr _
      exact hstands r hr
    · intro hstands r hr
      by_cases hrq : r = q
      · exact hrq ▸ hq
      · exact hstands r hr hrq
  have heq {a : CopyAction C} (ha : a ∈ plan.actions) :
      a = ⟨q, ⟨[], f⟩, false, f.kind, q.last.kind⟩ :=
    eq_of_mem_compile_single hsource hdest honly hfind htype ha
  rw [← hfills]
  refine ⟨⟨?_, ?_⟩, ?_⟩
  · rintro ⟨a, hactions, -, hdestRoute⟩
    exact ⟨a, by simp [hactions], hdestRoute⟩
  · rintro ⟨a, ha, hdestRoute⟩
    have hconversion : a.conversion = false := by
      rw [heq ha]
    have hactions : plan.actions = [a] := by
      rw [eq_singleton_iff_of_nodup (compile_dests_nodup hdest).of_map]
      intro b
      constructor
      · intro hb
        rw [heq hb, heq ha]
      · rintro rfl
        exact ha
    exact ⟨a, hactions, hconversion, hdestRoute⟩
  · intro hunfilled
    rw [List.eq_nil_iff_forall_not_mem]
    intro a ha
    exact hunfilled ⟨a, ha, by rw [heq ha]⟩

/-- A struct that shows nothing but a creator. -/
def creatorOnly : Shape SampleType :=
  Sample.shape "S"
    [ Sample.unexported (.basic "id" .string), .basic "created_by" .string ]

/-- It fills the promoted creator of the nested copy and nothing else. -/
theorem compile_creatorOnly :
    creatorOnly.DistinctNames ∧ Sample.nestedCopy.DistinctNames ∧
      (∀ r ∈ Sample.nestedCopy.routes, r.last.exported = true) ∧
      (∀ r ∈ creatorOnly.routes, r.last.exported = true → r = ⟨[], .basic "created_by" .string⟩) ∧
      ∃ q a, findSource Sample.nestedCopy "created_by" = some q ∧ q.last.type = .string ∧
        (compile creatorOnly Sample.nestedCopy).actions = [a] ∧
        a.conversion = false ∧ a.dest = q := by
  have hsource : creatorOnly.DistinctNames := by
    decide
  have honly : ∀ r ∈ creatorOnly.routes, r.last.exported = true →
      r = ⟨[], .basic "created_by" .string⟩ := by
    intro r hr hexported
    obtain ⟨g, hg, hr⟩ := (Shape.mem_routes_iff creatorOnly r).mp hr
    rcases List.mem_pair.mp hg with rfl | rfl
    · rcases hr with rfl | ⟨E, hE, -⟩
      · cases hexported
      · cases hE
    · rcases hr with rfl | ⟨E, hE, -⟩
      · rfl
      · cases hE
  have hdest : Sample.nestedCopy.DistinctNames := by
    decide
  have hexported : ∀ r ∈ Sample.nestedCopy.routes, r.last.exported = true := by
    decide
  let audit : Field SampleType := .embedding "audit" Sample.audit
  let q : Route SampleType := ⟨[audit], .basic "created_by" .string⟩
  have hfind : findSource Sample.nestedCopy "created_by" = some q := by
    rfl
  have haudit : Sample.nestedCopy.StandsFor ⟨[], audit⟩ := by
    rw [← promotes_nameTable_iff hdest]
    · decide
    · exact (Shape.mem_routes_iff _ _).mpr ⟨audit, by simp [Sample.nestedCopy, Sample.shape, audit],
        Or.inl rfl⟩
  have habove : ∀ r : Route SampleType, r.AtOrAbove q → r ≠ q → Sample.nestedCopy.StandsFor r := by
    intro r hr hne
    rcases (Route.atOrAbove_under_iff audit r ⟨[], q.last⟩).mp hr with rfl | ⟨r', rfl, hr'⟩
    · exact haudit
    · exact absurd (congrArg (Route.under audit) ((Route.atOrAbove_direct_iff _ r').mp hr')) hne
  have hmem : (.basic "created_by" .string : Field SampleType) ∈ creatorOnly.fields := by
    simp [creatorOnly, Sample.shape]
  obtain ⟨a, ha, hconversion, hroute⟩ :=
    (compile_single_field hsource hdest hexported hmem rfl honly hfind rfl).1.mpr habove
  exact ⟨hsource, hdest, hexported, honly, q, a, hfind, rfl, ha, hconversion, hroute⟩

/-- A destination that reaches the field `n` through one of two fields `e`. -/
def twoParents : Shape SampleType :=
  Sample.shape "D"
    [ .embedding "p" (Sample.shape "P"
        [ .embedding "e" (Sample.shape "E" [ .basic "n" (Sample.signed .w32) ]) ]),
      .embedding "r" (Sample.shape "R" [ .basic "e" (Sample.signed .w32) ]) ]

/-- A struct with the field `n` only. -/
def single : Shape SampleType :=
  Sample.shape "S" [ .basic "n" (Sample.signed .w32) ]

/-- The search finds `p.e.n` where the plan does not get there: the name `e` is
ambiguous. -/
theorem compile_single_field_ambiguous_parent :
    ¬∀ (source dest : Shape SampleType) (f : Field SampleType) (q : Route SampleType),
      source.DistinctNames → dest.DistinctNames →
        (∀ r ∈ dest.routes, r.last.exported = true) → source.fields = [f] →
          f.exported = true → findSource dest f.name = some q → q.last.type = f.type →
            ∃ a, (compile source dest).actions = [a] ∧ a.conversion = false ∧ a.dest = q := by
  intro h
  obtain ⟨a, ha, -⟩ := h single twoParents (.basic "n" (Sample.signed .w32)) _ (by decide)
    (by decide) (by decide) rfl rfl (by rfl) rfl
  have hnone : (compile single twoParents).actions = [] := by
    rfl
  rw [hnone] at ha
  cases ha

end CopyPlan

end RecordKit
