import RecordKit.Proofs.Copy.Conversion
import RecordKit.Proofs.Shape.Nesting

/-!
# Renesting loses nothing

Between two nestings of the same leaves a plan only assigns.  Where both have the same
embedded struct under one name, it is assigned whole; any other embedded struct of the
destination is entered, and its leaves are looked up in the source.  Either way each leaf
of the destination ends up with the value of the leaf of its name, so that copying there
and back restores every leaf.

* `CopyPlan.assigns_of_mem_compile`: an action assigns a leaf or a whole embedded struct.
* `CopyPlan.exists_action_above`: every leaf is at or below a route that is filled.
* `CopyPlan.run_compile_renesting`: a copy, and the copy back.
-/

namespace RecordKit

variable {C : Type} [UserType C]

namespace CopyPlan

variable [DecidableEq C] {catalog : Catalog C} {source dest : Shape C} {a : CopyAction C}

/-! ## The plan -/

/-- An action assigns, and it assigns leaves to leaves and embedded structs to embedded
structs of the same shape. -/
theorem assigns_of_mem_compile (h : source.Renests catalog dest)
    (ha : a ∈ (compile source dest).actions) :
    a.conversion = false ∧ a.source.last.inner = a.dest.last.inner := by
  obtain ⟨hsource, hname⟩ := source_mem_routes ha
  have hdest := dest_mem_routes ha
  obtain ⟨hmatch, hassign⟩ := (transfer?_eq_some_iff _ _ _).mp (transfer_of_mem_compile ha)
  rcases h.leaf_or_embedded hsource hdest hname with
    ⟨hleaf, hleaf', htype⟩ | ⟨inner, inner', hinner, hinner'⟩
  · exact ⟨hassign.mpr htype, by rw [hleaf, hleaf']⟩
  · have htype : a.source.last.type = a.dest.last.type := by
      refine hmatch.resolve_right ?_
      intro hconverts
      -- The kind of structs does not convert.
      have hkind := (Field.kind_of_convertsTo hconverts).2
      rw [hkind, (h.left.embeds _ hsource inner hinner).1] at hconverts
      cases hk : a.dest.last.kind <;> rw [hk] at hconverts <;> cases hconverts
    have hsame := h.left.inner_eq h.right hsource hdest hinner hinner' htype
    exact ⟨hassign.mpr htype, by rw [hinner, hinner', hsame]⟩

/-- Every leaf of the destination lies at or below a route that is filled. -/
theorem exists_action_above (h : source.Renests catalog dest) {q : Route C}
    (hq : q ∈ dest.leaves) : ∃ a ∈ (compile source dest).actions, a.dest.AtOrAbove q := by
  obtain ⟨hroute, -⟩ := (dest.mem_leaves_iff q).mp hq
  obtain ⟨p, hp, hname, htype⟩ := h.symm.exists_leaf hq
  obtain ⟨hproute, -⟩ := (source.mem_leaves_iff p).mp hp
  have hmatched : (matchField source q).isSome = true :=
    (isSome_matchField_iff h.left.distinctNames q).mpr
      ⟨p, h.left.standsFor hproute, hname, h.left.exported p hproute, Or.inl htype⟩
  have hstands : ∀ r : Route C, r.AtOrAbove q → dest.StandsFor r ∧ r.last.exported = true := by
    intro r hr
    have hr := Shape.mem_routes_of_atOrAbove hroute hr
    exact ⟨h.right.standsFor hr, h.right.exported r hr⟩
  obtain ⟨r, hr, a, ha, rfl⟩ := exists_fills_of_matched h.right.distinctNames hmatched hstands
  exact ⟨a, ha, hr⟩

/-! ## The copy -/

/-- What lies at or below a filled route has been copied from a field of its name. -/
theorem exists_source_of_filled (h : source.Renests catalog dest)
    (ha : a ∈ (compile source dest).actions) {s out : Data} (hfilled : a.Filled s out)
    {q : Route C} (hq : q ∈ dest.routes) (habove : a.dest.AtOrAbove q) :
    ∃ p ∈ source.routes, p.last.name = q.last.name ∧ p.last.inner = q.last.inner ∧
      fetch? q.steps out = fetch? p.steps s := by
  obtain ⟨hassigns, hinner⟩ := assigns_of_mem_compile h ha
  obtain ⟨hsource, hname⟩ := source_mem_routes ha
  have hsame := hfilled.fetch?_eq hassigns
  rcases Shape.eq_or_behind hq habove with rfl | ⟨inner, x, hdestInner, hx, rfl⟩
  · exact ⟨a.source, hsource, hname, hinner, hsame⟩
  -- The struct was assigned whole, so the source has the same route behind its field.
  · have hp := Shape.mem_routes_behind hsource (hinner.trans hdestInner) hx
    refine ⟨x.behind a.source.steps, hp, rfl, rfl, ?_⟩
    rw [Route.steps_behind, Route.steps_behind, fetch?_append, fetch?_append, hsame]

/-- A copy from one nesting into another succeeds: both ends of every action resolve, and
nothing is converted. -/
theorem run_compile_renests_ok (h : source.Renests catalog dest) {d s : Data} (hd : dest.Fits d)
    (hs : source.Fits s) : (runActions s (compile source dest).actions d).error = none := by
  rw [runActions_error_eq_none_iff (compile_dests_apart source dest)]
  intro a ha e hfails
  have hdest := hd a.dest (dest_mem_routes ha)
  have hsource := hs a.source (source_mem_routes ha).1
  rcases hfails with (hnone | hnone) | ⟨-, -, hconversion, -⟩
  · simp [hnone] at hdest
  · simp [hnone] at hsource
  · rw [(assigns_of_mem_compile h ha).1] at hconversion
    cases hconversion

/-- The destination still has all its routes. -/
theorem fits_of_filled (h : source.Renests catalog dest) {d s out : Data} (hd : dest.Fits d)
    (hs : source.Fits s) (hfilled : ∀ a ∈ (compile source dest).actions, a.Filled s out)
    (hkept : ∀ names : List String,
      (∀ a ∈ (compile source dest).actions, Apart names a.dest.names) →
        out.dig? names = d.dig? names) : dest.Fits out := by
  intro q hq
  by_cases habove : ∃ a ∈ (compile source dest).actions, a.dest.AtOrAbove q
  · obtain ⟨a, ha, habove⟩ := habove
    obtain ⟨p, hp, -, -, hsame⟩ := exists_source_of_filled h ha (hfilled a ha) hq habove
    rw [hsame]
    exact hs p hp
  · by_cases hbelow : ∃ a ∈ (compile source dest).actions, q.AtOrAbove a.dest
    -- Where an action has written below, the way there still resolves.
    · obtain ⟨a, ha, behind, hsteps⟩ := hbelow
      obtain ⟨_, written, -, -, hwritten⟩ := hfilled a ha
      rw [← hsteps, fetch?_append] at hwritten
      obtain ⟨value, hvalue, -⟩ := Option.bind_eq_some_iff.mp hwritten
      simp [hvalue]
    · have hapart : ∀ a ∈ (compile source dest).actions, Apart q.names a.dest.names := by
        intro a ha
        have hroute := dest_mem_routes ha
        have hdistinct := h.right.distinctNames
        exact ⟨fun hp => hbelow ⟨a, ha, Shape.atOrAbove_of_names hdistinct hq hroute hp⟩,
          fun hp => habove ⟨a, ha, Shape.atOrAbove_of_names hdistinct hroute hq hp⟩⟩
      rw [fetch?_congr (hkept q.names hapart)]
      exact hd q hq

/-- After the copy, each leaf has the value of the source's leaf of its name. -/
theorem run_compile_leaves (h : source.Renests catalog dest) {d s : Data} (hd : dest.Fits d)
    (hs : source.Fits s) :
    let out := (compile source dest).run ⟨dest.id, d⟩ ⟨source.id, s⟩
    out.error = none ∧ dest.Fits out.dest ∧
      ∀ q ∈ dest.leaves, ∃ p ∈ source.leaves, p.last.name = q.last.name ∧
        fetch? q.steps out.dest = fetch? p.steps s := by
  intro out
  have hrun : out = runActions s (compile source dest).actions d := run_of_ids rfl rfl
  have hok := run_compile_renests_ok h hd hs
  have hfilled := runActions_filled (compile_dests_apart source dest) hok
  have hfits := fits_of_filled h hd hs hfilled fun _ hapart => dig?_runActions hapart d
  rw [← hrun] at hok hfilled hfits
  refine ⟨hok, hfits, ?_⟩
  intro q hq
  obtain ⟨hroute, hleaf⟩ := (dest.mem_leaves_iff q).mp hq
  obtain ⟨a, ha, habove⟩ := exists_action_above h hq
  obtain ⟨p, hp, hname, hinner, hsame⟩ :=
    exists_source_of_filled h ha (hfilled a ha) hroute habove
  exact ⟨p, (source.mem_leaves_iff p).mpr ⟨hp, hinner.trans hleaf⟩, hname, hsame⟩

/-- Let two unambiguous shapes have the same map from leaf names to types.  On records in
which every route resolves, a copy from one into the other succeeds, and each leaf of the
destination has the value of the source's leaf of its name.  The copy back into any record
of the first shape succeeds as well, and restores every leaf. -/
theorem run_compile_renesting (h : source.Renests catalog dest) {s d s' : Data}
    (hs : source.Fits s) (hd : dest.Fits d) (hs' : source.Fits s') :
    let there := (compile source dest).run ⟨dest.id, d⟩ ⟨source.id, s⟩
    let back := (compile dest source).run ⟨source.id, s'⟩ ⟨dest.id, there.dest⟩
    there.error = none ∧
      (∀ q ∈ dest.leaves, ∃ p ∈ source.leaves, p.last.name = q.last.name ∧
        fetch? q.steps there.dest = fetch? p.steps s) ∧
      back.error = none ∧
      ∀ p ∈ source.leaves, fetch? p.steps back.dest = fetch? p.steps s := by
  intro there back
  obtain ⟨hthere, hfits, hleaves⟩ := run_compile_leaves h hd hs
  obtain ⟨hback, -, hleaves'⟩ := run_compile_leaves h.symm hs' hfits
  refine ⟨hthere, hleaves, hback, ?_⟩
  intro p hp
  obtain ⟨q, hq, hqname, hqsame⟩ := hleaves' p hp
  obtain ⟨r, hr, hrname, hrsame⟩ := hleaves q hq
  have hrp : r = p := by
    have hroute := ((source.mem_leaves_iff r).mp hr).1
    have hroute' := ((source.mem_leaves_iff p).mp hp).1
    exact h.left.eq_of_name hroute hroute' (hrname.trans hqname)
  exact hqsame.trans (hrp ▸ hrsame)

/-- Where something is sent to. -/
def address : Shape SampleType :=
  Sample.shape "Address" [ .basic "street" .string, .basic "city" .string ]

/-- A letter embeds its audit and its address. -/
def letter : Shape SampleType :=
  Sample.shape "Letter"
    [ .embedding "audit" Sample.audit,
      .embedding "address" address,
      .basic "body" .string ]

/-- What is inside an envelope. -/
def content : Shape SampleType :=
  Sample.shape "Content" [ .basic "body" .string, .embedding "audit" Sample.audit ]

/-- An envelope shows the address and embeds the rest, the audit one level further down. -/
def envelope : Shape SampleType :=
  Sample.shape "Envelope"
    [ .basic "city" .string,
      .embedding "content" content,
      .basic "street" .string ]

/-- From a letter into an envelope the audit is assigned whole, and everything else leaf
by leaf; the letter that comes back is the one that went in. -/
theorem run_letter_envelope :
    let catalog := Catalog.ofShapes [Sample.audit, address, letter, content, envelope]
    let s : Data := .record
      [ ("audit", .record [("created_by", .text "me"), ("version", .int 3)]),
        ("address", .record [("street", .text "Main"), ("city", .text "Ulm")]),
        ("body", .text "hello") ]
    let d : Data := .record
      [ ("city", .text ""),
        ("content", .record
          [("body", .text ""), ("audit", .record [("created_by", .text ""), ("version", .int 0)])]),
        ("street", .text "") ]
    let s' : Data := .record
      [ ("audit", .record [("created_by", .text ""), ("version", .int 0)]),
        ("address", .record [("street", .text ""), ("city", .text "")]),
        ("body", .text "") ]
    let there := (compile letter envelope).run ⟨envelope.id, d⟩ ⟨letter.id, s⟩
    let back := (compile envelope letter).run ⟨letter.id, s'⟩ ⟨envelope.id, there.dest⟩
    letter.Renests catalog envelope ∧ letter.Fits s ∧ envelope.Fits d ∧ letter.Fits s' ∧
      (compile letter envelope).actions.map (·.dest.dotted) =
        ["city", "content.body", "content.audit", "street"] ∧
      there.error = none ∧ back.error = none ∧
      ∀ p ∈ letter.leaves, fetch? p.steps back.dest = fetch? p.steps s := by
  intro catalog s d s' there back
  have haudit : Sample.audit.Derived catalog :=
    Shape.derived_of_fields rfl (by decide)
      (by simp [Sample.audit, Sample.shape, Sample.checked, Field.basic])
  have haddress : address.Derived catalog :=
    Shape.derived_of_fields rfl (by decide) (by simp [address, Sample.shape, Field.basic])
  have hletter : letter.Derived catalog := by
    refine Shape.derived_of_fields rfl (by decide) ?_
    simpa [letter, Sample.shape, Field.basic, Field.embedding] using ⟨haudit, haddress⟩
  have hcontent : content.Derived catalog := by
    refine Shape.derived_of_fields rfl (by decide) ?_
    simpa [content, Sample.shape, Field.basic, Field.embedding] using haudit
  have henvelope : envelope.Derived catalog := by
    refine Shape.derived_of_fields rfl (by decide) ?_
    simpa [envelope, Sample.shape, Field.basic, Field.embedding] using hcontent
  have hleaves : letter.leafTypes.Perm envelope.leafTypes := by
    decide
  have hrenests : letter.Renests catalog envelope :=
    { left := ⟨by decide, by decide, hletter.embeds⟩
      right := ⟨by decide, by decide, henvelope.embeds⟩
      leafTypes := fun _ => hleaves.mem_iff }
  have hs : letter.Fits s := by
    unfold Shape.Fits
    decide
  have hd : envelope.Fits d := by
    unfold Shape.Fits
    decide
  have hs' : letter.Fits s' := by
    unfold Shape.Fits
    decide
  obtain ⟨hthere, -, hback, hrestored⟩ := run_compile_renesting hrenests hs hd hs'
  exact ⟨hrenests, hs, hd, hs', by decide, hthere, hback, hrestored⟩

end CopyPlan

end RecordKit
