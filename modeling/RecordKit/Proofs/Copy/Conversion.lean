import RecordKit.Proofs.Copy.Failure
import RecordKit.Proofs.Record.Typing

/-!
# Conversions that cannot fail

The compiler decides by kinds whether a source field can be converted into a
destination field; whether a value is converted is decided later, by the destination
type, on what the source type shows of the value.  For built-in types the two agree: a
type of a kind that converts shows its values as views of that kind
(`FieldType.Holds.kind?_view`), and it accepts every view of a kind that converts into
its own (`FieldType.isSome_ofView?`).  Options, boxes and containers do not keep to
this, but no kind converts from or into theirs.

So a copy between derived shapes on typed records fails only through a user type, one
that refuses a view or one that does not show its values as it declares them
(`CopyPlan.run_compile_sound`).
-/

namespace RecordKit

/-- The kind of values that are shown this way, if they are shown at all. -/
def View.kind? : View → Option Kind
  | .nil | .sealed _ => none
  | .bool _ => some .bool
  | .int _ => some .int
  | .uint _ => some .uint
  | .float _ => some .float
  | .str _ => some .string
  | .bytes _ => some .bytes
  | .seq _ => some .slice
  | .map _ => some .map
  | .struct _ => some .struct

/-! ## Kinds that convert -/

namespace Kind

theorem isNumeric_of_convertsTo {a b : Kind} (h : a.convertsTo b = true)
    (ha : a.isNumeric = true) : b.isNumeric = true := by
  revert h ha
  cases a <;> cases b <;> decide

theorem eq_bytes_of_convertsTo {k : Kind} (h : string.convertsTo k = true) : k = bytes := by
  revert h
  cases k <;> decide

theorem eq_string_of_convertsTo {k : Kind} (h : bytes.convertsTo k = true) : k = string := by
  revert h
  cases k <;> decide

end Kind

/-! ## Built-in types -/

variable {C : Type}

namespace FieldType

/-- Whether no user type occurs in a type, where it does not matter what a map is of.
Its keys and values need not be field types. -/
def isBuiltIn : FieldType C → Bool
  | list elem | option elem | box elem => elem.isBuiltIn
  | user _ => false
  | _ => true

theorem ne_user_of_isBuiltIn {t : FieldType C} (h : t.isBuiltIn = true) (c : C) :
    t ≠ .user c := by
  rintro rfl
  cases h

theorem eq_byte_of_isByte {elem : FieldType C} (h : elem.isByte = true) :
    elem = .int .byte := by
  cases elem with
  | int t => rw [eq_of_beq h]
  | _ => cases h

/-- The types of numbers, user types apart. -/
def IsNumber (t : FieldType C) : Prop :=
  (∃ i, t = .int i) ∨ t = .f32 ∨ t = .f64

/-- The types of texts and byte sequences, user types apart. -/
def IsText (t : FieldType C) : Prop :=
  t = .string ∨ t = .byteList

variable [UserType C] {catalog : Catalog C}

theorem kind_int (i : IntType) :
    kind (.int i : FieldType C) = .int ∨ kind (.int i : FieldType C) = .uint := by
  cases hsigned : i.signed <;> simp [kind, hsigned]

/-- Among the built-in types, only numbers and texts are of kinds that convert. -/
theorem number_or_text_of_convertsTo {t : FieldType C} (huser : ∀ c, t ≠ .user c) {k : Kind}
    (hconverts : t.kind.convertsTo k = true) :
    (t.IsNumber ∧ k.isNumeric = true) ∨ (t.IsText ∧ (k = .string ∨ k = .bytes)) := by
  cases t with
  | int i =>
      refine Or.inl ⟨Or.inl ⟨i, rfl⟩, ?_⟩
      apply Kind.isNumeric_of_convertsTo hconverts
      rcases kind_int (C := C) i with hkind | hkind <;> rw [hkind] <;> rfl
  | f32 => exact Or.inl ⟨Or.inr (Or.inl rfl), Kind.isNumeric_of_convertsTo hconverts rfl⟩
  | f64 => exact Or.inl ⟨Or.inr (Or.inr rfl), Kind.isNumeric_of_convertsTo hconverts rfl⟩
  | string => exact Or.inr ⟨Or.inl rfl, Or.inr (Kind.eq_bytes_of_convertsTo hconverts)⟩
  | list elem =>
      cases hbyte : elem.isByte with
      | true =>
          rw [kind, hbyte] at hconverts
          refine Or.inr ⟨Or.inr ?_, Or.inl (Kind.eq_string_of_convertsTo hconverts)⟩
          rw [eq_byte_of_isByte hbyte, byteList]
      | false =>
          rw [kind, hbyte] at hconverts
          cases k <;> cases hconverts
  | bool | option | box | hashMap | treeMap | struct => cases k <;> cases hconverts
  | user c => exact absurd rfl (huser c)

/-- A built-in type of a kind that converts shows its values as of that kind. -/
theorem Holds.kind?_view {t : FieldType C} {value : Data} (h : Holds catalog t value)
    (huser : ∀ c, t ≠ .user c) {k : Kind} (hconverts : t.kind.convertsTo k = true) :
    (t.view value).kind? = some t.kind := by
  rcases number_or_text_of_convertsTo huser hconverts with ⟨hnumber, -⟩ | ⟨htext, -⟩
  · rcases hnumber with ⟨i, rfl⟩ | rfl | rfl
    · cases h
      cases hsigned : i.signed <;> simp [view, kind, hsigned, View.kind?]
    · cases h
      rfl
    · cases h
      rfl
  · rcases htext with rfl | rfl
    · cases h
      rfl
    · cases h with
      | bytes => rfl
      | list hother => cases hother

theorem IsNumber.isSome_ofView? {t : FieldType C} (ht : t.IsNumber) {v : View} {k : Kind}
    (hview : v.kind? = some k) (hk : k.isNumeric = true) : (t.ofView? v).isSome = true := by
  cases v with
  | int | uint | float => rcases ht with ⟨i, rfl⟩ | rfl | rfl <;> rfl
  | nil | sealed => cases hview
  | bool | str | bytes | seq | map | struct =>
      cases hview
      cases hk

theorem IsText.isSome_ofView? {t : FieldType C} (ht : t.IsText) {v : View} {k : Kind}
    (hview : v.kind? = some k) (hk : k = .string ∨ k = .bytes) :
    (t.ofView? v).isSome = true := by
  cases v with
  | str | bytes => rcases ht with rfl | rfl <;> rfl
  | nil | sealed => cases hview
  | bool | int | uint | float | seq | map | struct =>
      cases hview
      simp at hk

/-- A built-in type accepts every view of a kind that converts into its own. -/
theorem isSome_ofView? {t : FieldType C} (huser : ∀ c, t ≠ .user c) {v : View} {k : Kind}
    (hview : v.kind? = some k) (hconverts : k.convertsTo t.kind = true) :
    (t.ofView? v).isSome = true := by
  rw [Kind.convertsTo_comm] at hconverts
  rcases number_or_text_of_convertsTo huser hconverts with ⟨hnumber, hk⟩ | ⟨htext, hk⟩
  · exact hnumber.isSome_ofView? hview hk
  · exact htext.isSome_ofView? hview hk

end FieldType

variable [UserType C]

/-- Only fields that are not sealed have a kind that converts. -/
theorem Field.kind_of_convertsTo {f : Field C} {k : Kind}
    (hconverts : f.kind.convertsTo k = true) : f.isSealed = false ∧ f.kind = f.type.kind := by
  unfold Field.kind at hconverts ⊢
  cases hsealed : f.isSealed with
  | true =>
      rw [if_pos hsealed] at hconverts
      cases k <;> cases hconverts
  | false => simp

/-! ## One action -/

/-- An action converts between open fields, the destination type does not accept the view
of the value, and a user type is at fault: that of the destination, or that of the
source, which does not show the value as of the kind that it declares. -/
structure CopyAction.UserFault (a : CopyAction C) (value : Data) : Prop where
  converts : a.conversion = true
  sourceOpen : a.source.last.isSealed = false
  destOpen : a.dest.last.isSealed = false
  rejected : a.dest.last.type.ofView? (a.source.last.type.view value) = none
  fault : (∃ c, a.dest.last.type = .user c) ∨
    ∃ c, a.source.last.type = .user c ∧ (UserType.view c value).kind? ≠ some (UserType.kind c)

variable [DecidableEq C] {catalog : Catalog C}

/-- If a value is not transferred between fields whose kinds convert, a user type is at
fault. -/
theorem CopyAction.userFault_of_rejected {a : CopyAction C} {value : Data}
    (hvalue : a.source.last.type.Holds catalog value)
    (htransfer : RecordKit.transfer? a.source.last a.dest.last = some a.conversion)
    (hconversion : a.conversion = true)
    (hview : a.dest.last.ofView? (a.source.last.view value) = none) : a.UserFault value := by
  obtain ⟨hmatch, hassign⟩ := (transfer?_eq_some_iff _ _ _).mp htransfer
  have hconverts : a.source.last.kind.convertsTo a.dest.last.kind = true := by
    refine hmatch.resolve_left ?_
    intro htype
    rw [hassign.mpr htype] at hconversion
    cases hconversion
  obtain ⟨hsource, hsourceKind⟩ := Field.kind_of_convertsTo hconverts
  obtain ⟨hdest, hdestKind⟩ :=
    Field.kind_of_convertsTo ((Kind.convertsTo_comm _ _).trans hconverts)
  rw [hsourceKind, hdestKind] at hconverts
  simp only [Field.ofView?, Field.view, hsource, hdest, Bool.false_eq_true, if_false] at hview
  refine ⟨hconversion, hsource, hdest, hview, ?_⟩
  by_cases hdestUser : ∃ c, a.dest.last.type = .user c
  · exact Or.inl hdestUser
  -- A built-in destination accepts the value if it is shown as of its kind.
  · have hkind : (a.source.last.type.view value).kind? ≠ some a.source.last.type.kind := by
      intro hkind
      have hsome := FieldType.isSome_ofView? (not_exists.mp hdestUser) hkind hconverts
      rw [hview] at hsome
      cases hsome
    by_cases hsourceUser : ∃ c, a.source.last.type = .user c
    · obtain ⟨c, htype⟩ := hsourceUser
      rw [htype] at hkind
      exact Or.inr ⟨c, htype, by simpa [FieldType.view, FieldType.kind] using hkind⟩
    · exact absurd (hvalue.kind?_view (not_exists.mp hsourceUser) hconverts) hkind

/-! ## Compiled plans -/

/-- Every field that is not sealed is of a built-in type. -/
def Shape.BuiltIn (s : Shape C) : Prop :=
  ∀ p ∈ s.routes, p.last.isSealed = true ∨ p.last.type.isBuiltIn = true

namespace CopyPlan

/-- On typed records of derived shapes, an action of a plan fails only through a user
type. -/
theorem fails_of_mem_compile {source dest : Shape C} (hsource : source.Derived catalog)
    (hdest : dest.Derived catalog) {d s : Data} (hd : (FieldType.struct dest.id).Holds catalog d)
    (hs : (FieldType.struct source.id).Holds catalog s) {a : CopyAction C}
    (ha : a ∈ (compile source dest).actions) {e : CopyError} (hfails : a.Fails d s e) :
    ∃ value, fetch? a.source.steps s = some value ∧
      e = .conversion a.dest.dotted a.source.last.kind a.dest.last.kind ∧ a.UserFault value := by
  obtain ⟨value, hvalue, hheld⟩ := hsource.fetch? hs (source_mem_routes ha).1
  have hresolves := hdest.fits hd a.dest (dest_mem_routes ha)
  rcases hfails with (hnone | hnone) | ⟨-, hvalue', hconversion, hview⟩
  · simp [hnone] at hresolves
  · simp [hnone] at hvalue
  · obtain rfl := Option.some.inj (hvalue.symm.trans hvalue')
    obtain ⟨hsourceKind, hdestKind⟩ := kinds_of_mem_compile ha
    exact ⟨value, hvalue, by rw [hsourceKind, hdestKind],
      CopyAction.userFault_of_rejected hheld (transfer_of_mem_compile ha) hconversion hview⟩

/-- Copying typed records of derived shapes succeeds if each field is sealed or of a
built-in type.  With user types in the shapes it can fail, but only with the conversion
error of an action that converts, and only if the user type of the destination refuses
the view or the user type of the source does not show the value as it declares it. -/
theorem run_compile_sound {source dest : Shape C} (hsource : source.Derived catalog)
    (hdest : dest.Derived catalog) {d s : Data} (hd : (FieldType.struct dest.id).Holds catalog d)
    (hs : (FieldType.struct source.id).Holds catalog s) :
    let plan := compile source dest
    let out := plan.run ⟨dest.id, d⟩ ⟨source.id, s⟩
    (source.BuiltIn → dest.BuiltIn → out.error = none) ∧
      ∀ e, out.error = some e → ∃ a ∈ plan.actions, ∃ value,
        fetch? a.source.steps s = some value ∧
          e = .conversion a.dest.dotted a.source.last.kind a.dest.last.kind ∧
          a.UserFault value := by
  intro plan out
  have hfault : ∀ e, out.error = some e → ∃ a ∈ plan.actions, ∃ value,
      fetch? a.source.steps s = some value ∧
        e = .conversion a.dest.dotted a.source.last.kind a.dest.last.kind ∧
        a.UserFault value := by
    intro e he
    have hout : out = runActions s plan.actions d := run_of_ids rfl rfl
    rw [hout] at he
    obtain ⟨a, ha, hfails⟩ := exists_fails_of_error (compile_dests_apart source dest) he
    exact ⟨a, ha, fails_of_mem_compile hsource hdest hd hs ha hfails⟩
  refine ⟨?_, hfault⟩
  intro hsourceBuiltIn hdestBuiltIn
  rw [Option.eq_none_iff_forall_ne_some]
  intro e he
  obtain ⟨a, ha, value, -, -, huser⟩ := hfault e he
  -- A user type in an open field contradicts the assumption on its side.
  rcases huser.fault with ⟨c, htype⟩ | ⟨c, htype, -⟩
  · have hbuiltIn := hdestBuiltIn a.dest (dest_mem_routes ha)
    simp [huser.destOpen, htype, FieldType.isBuiltIn] at hbuiltIn
  · have hbuiltIn := hsourceBuiltIn a.source (source_mem_routes ha).1
    simp [huser.sourceOpen, htype, FieldType.isBuiltIn] at hbuiltIn

/-- What was measured, and how long after the start. -/
def measured : Shape SampleType :=
  Sample.shape "Measured"
    [ .basic "value" .f32,
      Sample.sealedField (.basic "after" (.user .duration)) ]

/-- A reading embeds what was measured. -/
def reading : Shape SampleType :=
  Sample.shape "Reading"
    [ .basic "sensor" .string,
      .embedding "measured" measured,
      .basic "notes" (.option .string) ]

/-- The reading in a flat form with other types. -/
def readingRow : Shape SampleType :=
  Sample.shape "ReadingRow"
    [ .basic "sensor" .byteList,
      .basic "value" (Sample.signed .w16),
      Sample.sealedField (.basic "after" (.user .duration)),
      .basic "notes" (.option .string) ]

/-- A reading fits into its flat form: the text becomes bytes and the value a whole
number. -/
theorem run_reading_readingRow :
    let catalog := Catalog.ofShapes [measured, reading, readingRow]
    let d : Data := .record
      [("sensor", .bytes []), ("value", .int 0), ("after", .int 0), ("notes", .none)]
    let s : Data := .record
      [ ("sensor", .text "north"),
        ("measured", .record [("value", .f32 0x41bc0000), ("after", .int 9)]),
        ("notes", .some (.text "dry")) ]
    reading.Derived catalog ∧ readingRow.Derived catalog ∧
      (FieldType.struct readingRow.id).Holds catalog d ∧
      (FieldType.struct reading.id).Holds catalog s ∧ reading.BuiltIn ∧ readingRow.BuiltIn ∧
      ((compile reading readingRow).run ⟨readingRow.id, d⟩ ⟨reading.id, s⟩).error = none := by
  intro catalog d s
  have hmeasured : measured.Derived catalog :=
    Shape.derived_of_fields rfl (by decide) (by simp [measured, Sample.shape, Sample.sealedField,
      Field.basic])
  have hreading : reading.Derived catalog := by
    refine Shape.derived_of_fields rfl (by decide) ?_
    simpa [reading, Sample.shape, Field.basic, Field.embedding] using hmeasured
  have hrow : readingRow.Derived catalog :=
    Shape.derived_of_fields rfl (by decide) (by simp [readingRow, Sample.shape, Sample.sealedField,
      Field.basic])
  have hd : (FieldType.struct readingRow.id).Holds catalog d := by
    have hfields : FieldType.byteList.Holds catalog (.bytes []) ∧
        (Sample.signed .w16).Holds catalog (.int 0) ∧
        (FieldType.user .duration).Holds catalog (.int 0) ∧
        (FieldType.option .string).Holds catalog .none :=
      ⟨.bytes [], .int (by decide), .user _ _, .absent _⟩
    refine .of_described hrow.described (by decide) ?_
    simpa [readingRow, Sample.shape, Field.basic, Sample.sealedField, List.lookup_cons]
      using hfields
  have hs : (FieldType.struct reading.id).Holds catalog s := by
    have hinner : (FieldType.struct measured.id).Holds catalog
        (.record [("value", .f32 0x41bc0000), ("after", .int 9)]) := by
      have hfields : FieldType.f32.Holds catalog (.f32 0x41bc0000) ∧
          (FieldType.user .duration).Holds catalog (.int 9) := ⟨.f32 _, .user _ _⟩
      refine .of_described hmeasured.described (by decide) ?_
      simpa [measured, Sample.shape, Field.basic, Sample.sealedField, List.lookup_cons]
        using hfields
    have hsensor : FieldType.string.Holds catalog (.text "north") := .string "north"
    have hnotes : (FieldType.option .string).Holds catalog (.some (.text "dry")) :=
      .given (.string "dry")
    refine .of_described hreading.described (by decide) ?_
    simpa [reading, Sample.shape, Field.basic, Field.embedding, List.lookup_cons]
      using And.intro hsensor (And.intro hinner hnotes)
  have hreadingBuiltIn : reading.BuiltIn := by
    unfold Shape.BuiltIn
    decide
  have hrowBuiltIn : readingRow.BuiltIn := by
    unfold Shape.BuiltIn
    decide
  exact ⟨hreading, hrow, hd, hs, hreadingBuiltIn, hrowBuiltIn,
    (run_compile_sound hreading hrow hd hs).1 hreadingBuiltIn hrowBuiltIn⟩

/-- A value that is declared as a number and shown as nothing. -/
def ghostly : Shape SampleType :=
  Sample.shape "Ghostly" [ .basic "n" (.user .ghost) ]

/-- A number of that name. -/
def numbered : Shape SampleType :=
  Sample.shape "Numbered" [ .basic "n" (Sample.signed .w64) ]

/-- A copy can fail though no user type refuses a value: a ghost is declared as a number,
and the number it is copied into finds nothing to convert. -/
theorem run_compile_ghostly :
    ¬∀ (catalog : Catalog SampleType) (source dest : Shape SampleType) (d s : Data),
      source.Derived catalog → dest.Derived catalog →
        (FieldType.struct dest.id).Holds catalog d → (FieldType.struct source.id).Holds catalog s →
          ∀ e, ((compile source dest).run ⟨dest.id, d⟩ ⟨source.id, s⟩).error = some e →
            ∃ a ∈ (compile source dest).actions, ∃ value c,
              fetch? a.source.steps s = some value ∧ a.dest.last.type = .user c ∧
                UserType.ofView? c (a.source.last.view value) = none := by
  intro h
  let catalog := Catalog.ofShapes [ghostly, numbered]
  have hghostly : ghostly.Derived catalog :=
    Shape.derived_of_fields rfl (by decide) (by simp [ghostly, Sample.shape, Field.basic])
  have hnumbered : numbered.Derived catalog :=
    Shape.derived_of_fields rfl (by decide) (by simp [numbered, Sample.shape, Field.basic])
  have hd : (FieldType.struct numbered.id).Holds catalog (.record [("n", .int 0)]) := by
    have hn : (Sample.signed .w64).Holds catalog (.int 0) := .int (by decide)
    refine .of_described hnumbered.described (by decide) ?_
    simpa [numbered, Sample.shape, Field.basic, List.lookup_cons] using hn
  have hs : (FieldType.struct ghostly.id).Holds catalog (.record [("n", .int 5)]) := by
    have hn : (FieldType.user .ghost).Holds catalog (.int 5) := .user _ _
    refine .of_described hghostly.described (by decide) ?_
    simpa [ghostly, Sample.shape, Field.basic, List.lookup_cons] using hn
  obtain ⟨a, ha, value, c, -, htype, -⟩ := h catalog ghostly numbered _ _ hghostly hnumbered hd hs
    (.conversion "n" .int .int) (by rfl)
  have hopen : ∀ a ∈ (compile ghostly numbered).actions, a.dest.last.type.isBuiltIn = true := by
    decide
  exact FieldType.ne_user_of_isBuiltIn (hopen a ha) c htype

end CopyPlan

end RecordKit
