import RecordKit.Copy.Run
import RecordKit.Proofs.Copy.Separation

/-!
# Unexported data stays where it is

An action looks at its source record along one route only, and the routes that a compiled
plan reads end in exported fields.  So two source records that agree on their exported
fields cannot be told apart by a copy: not by the destination, not by the error, and not
by what a failed copy has written.

* `CopyPlan.run_congr_source`: a plan sees nothing but the routes that it reads.
* `CopyPlan.exported_of_mem_compile`: these end in exported fields.
* `CopyPlan.run_compile_noninterference`: what that means for a copy.
-/

namespace RecordKit

variable {C : Type}

/-! ## What two records have in common -/

/-- Two records agree on every exported field of a shape, at whatever depth.  The embedded
fields that lead there need not be exported. -/
def Shape.AgreeOnExported (s : Shape C) (d d' : Data) : Prop :=
  ∀ p ∈ s.routes, p.last.exported = true → fetch? p.steps d = fetch? p.steps d'

/-- Records that differ in no direct field but unexported ones that embed nothing agree
on every exported field. -/
theorem Shape.agreeOnExported_of_fields {s : Shape C} {d d' : Data}
    (h : ∀ f ∈ s.fields, f.exported = true ∨ f.inner.isSome = true → f.get? d = f.get? d') :
    s.AgreeOnExported d d' := by
  intro p hp hexported
  obtain ⟨f, hf, rfl | ⟨inner, hinner, q, -, rfl⟩⟩ := (s.mem_routes_iff p).mp hp
  · have hget := h f hf (Or.inl hexported)
    simp only [Route.steps_mk, List.nil_append, fetch?, hget]
  · have hget := h f hf (Or.inr (by simp [hinner]))
    simp only [Route.steps_under, fetch?, hget]

/-! ## What a plan reads -/

section

variable [UserType C] {s s' : Data}

theorem CopyAction.run_congr_source {a : CopyAction C}
    (h : fetch? a.source.steps s = fetch? a.source.steps s') (d : Data) :
    a.run d s = a.run d s' := by
  unfold CopyAction.run
  rw [h]

theorem runActions_congr_source {actions : List (CopyAction C)}
    (h : ∀ a ∈ actions, fetch? a.source.steps s = fetch? a.source.steps s') (d : Data) :
    runActions s actions d = runActions s' actions d := by
  induction actions generalizing d with
  | nil => rfl
  | cons a rest ih =>
      rw [List.forall_mem_cons] at h
      unfold runActions
      rw [CopyAction.run_congr_source h.1 d]
      cases a.run d s' with
      | ok d' => exact ih h.2 d'
      | error e => rfl

end

namespace CopyPlan

variable [UserType C]

theorem run_congr_source {plan : CopyPlan C} {s s' : Record} (hid : s.id = s'.id)
    (h : ∀ a ∈ plan.actions, fetch? a.source.steps s.data = fetch? a.source.steps s'.data)
    (d : Record) : plan.run d s = plan.run d s' := by
  unfold CopyPlan.run
  rw [hid, runActions_congr_source h d.data]

variable [DecidableEq C]

/-- The search for a source field ends at the name, and gives nothing if the field there
is not exported. -/
theorem exported_of_mem_compile {source dest : Shape C} {a : CopyAction C}
    (ha : a ∈ (compile source dest).actions) : a.source.last.exported = true := by
  obtain ⟨-, hfind, -⟩ := (matchField_eq_some_iff source _ a).mp (matchField_of_mem_compile ha)
  exact ((findSource_eq_some_iff_named source _ a.source).mp hfind).2.2

/-- Two source records that agree on every exported field, at whatever depth, are copied
alike into every destination: with the same error or none, and with the same destination
in the end.  So what an unexported direct field holds never matters to a copy, unless it
embeds a struct with exported fields. -/
theorem run_compile_noninterference (source dest : Shape C) {s s' : Record}
    (hid : s.id = s'.id) (d : Record) :
    (source.AgreeOnExported s.data s'.data →
        (compile source dest).run d s = (compile source dest).run d s') ∧
      ((∀ f ∈ source.fields, f.exported = true ∨ f.inner.isSome = true →
          f.get? s.data = f.get? s'.data) →
        (compile source dest).run d s = (compile source dest).run d s') := by
  have hagree : source.AgreeOnExported s.data s'.data →
      (compile source dest).run d s = (compile source dest).run d s' := by
    intro h
    apply run_congr_source hid
    intro a ha
    exact h a.source (source_mem_routes ha).1 (exported_of_mem_compile ha)
  exact ⟨hagree, fun h => hagree (Shape.agreeOnExported_of_fields h)⟩

/-- A place with a door that is nobody's business. -/
def site : Shape SampleType :=
  Sample.shape "Site"
    [ .basic "code" .string,
      Sample.unexported (.basic "door" (Sample.unsigned .w16)) ]

/-- A badge with a pin of its own, for a site that shows only through its fields. -/
def badge : Shape SampleType :=
  Sample.shape "Badge"
    [ .basic "holder" .string,
      Sample.unexported (.basic "pin" (Sample.unsigned .w16)),
      Sample.unexported (.embedding "site" site) ]

/-- All that a badge has, side by side. -/
def badgeView : Shape SampleType :=
  Sample.shape "BadgeView"
    [ .basic "holder" .string,
      .basic "pin" (Sample.unsigned .w16),
      .basic "code" FieldType.byteList,
      .basic "door" (Sample.unsigned .w16) ]

/-- The code of the site is copied through an unexported field, the door and the pin are
not copied, and neither shows in the outcome. -/
theorem run_badge_badgeView :
    let badgeOf (pin door : Int) : Record := ⟨badge.id, .record
      [ ("holder", .text "me"), ("pin", .int pin),
        ("site", .record [("code", .text "A"), ("door", .int door)]) ]⟩
    let d : Record := ⟨badgeView.id, .record
      [("holder", .text ""), ("pin", .int 0), ("code", .bytes []), ("door", .int 0)]⟩
    let plan := compile badge badgeView
    badge.AgreeOnExported (badgeOf 1234 1).data (badgeOf 9876 2).data ∧
      plan.run d (badgeOf 1234 1) = plan.run d (badgeOf 9876 2) ∧
      plan.run d (badgeOf 1234 1) = plan.run d (badgeOf 9876 1) ∧
      (plan.run d (badgeOf 1234 1)).error = none ∧
      (plan.run d (badgeOf 1234 1)).dest.dig? ["code"] = some (.bytes [65]) ∧
      (plan.run d (badgeOf 1234 1)).dest.dig? ["pin"] = some (.int 0) := by
  intro badgeOf d plan
  -- The routes of a badge: its three fields, and the two below the site.
  have hagree : badge.AgreeOnExported (badgeOf 1234 1).data (badgeOf 9876 2).data := by
    intro p hp hexported
    rcases hp with _ | ⟨_, _ | ⟨_, _ | ⟨_, _ | ⟨_, _ | ⟨_, hp⟩⟩⟩⟩⟩
    all_goals first | rfl | cases hexported | cases hp
  have hfields : ∀ f ∈ badge.fields, f.exported = true ∨ f.inner.isSome = true →
      f.get? (badgeOf 1234 1).data = f.get? (badgeOf 9876 1).data := by
    intro f hf hvisible
    rcases hf with _ | ⟨_, _ | ⟨_, _ | ⟨_, hf⟩⟩⟩
    · rfl
    · rcases hvisible with hvisible | hvisible <;> cases hvisible
    · rfl
    · cases hf
  have hid : (badgeOf 1234 1).id = (badgeOf 9876 2).id := rfl
  have hid' : (badgeOf 1234 1).id = (badgeOf 9876 1).id := rfl
  exact ⟨hagree, (run_compile_noninterference badge badgeView hid d).1 hagree,
    (run_compile_noninterference badge badgeView hid' d).2 hfields, by rfl, by rfl, by rfl⟩

end CopyPlan

end RecordKit
