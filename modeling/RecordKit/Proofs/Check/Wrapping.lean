import Mathlib.Data.List.Basic
import RecordKit.Proofs.Check.Registrations
import RecordKit.Proofs.Check.Spelling
import RecordKit.Proofs.Record.Access

/-!
# Checks of options and boxes

A check sees the view of a field and reports its name and its kind.  An option that holds a
value and a box are viewed as what they hold, so they pass and fail the same rules with the
same texts, and only the kind in the report differs.  An absent value is viewed as nil, which
no default rule accepts whatever its argument is.

`checkRecord_sees_through` says this of whole records: one field of a struct type takes
another type (`Shape.retype`), and its value is wrapped or taken away
(`Record.withMember`).
-/

namespace RecordKit

/-- Two records of one type that differ in one member at most. -/
structure Record.AgreeBut (name : String) (r r' : Record) : Prop where
  id : r'.id = r.id
  member : ∀ other, other ≠ name → r'.data.member? other = r.data.member? other

/-- The record with another value for a member that it has. -/
def Record.withMember (r : Record) (name : String) (value : Data) : Record :=
  { r with data := (r.data.setMember? name value).getD r.data }

/-- A failure as it is reported if the field of a name is of another kind. -/
def Failure.rekind (name : String) (k : Kind) (e : Failure) : Failure :=
  if e.field = name then { e with kind := k } else e

/-- Every default rule is registered under its name, whatever else is registered. -/
def Registry.HasDefaults (registry : Registry) : Prop :=
  ∀ name rule, DefaultRules.all.lookup name = some rule → registry.lookup? name = some rule

/-- Whether a rule of a tag asks for a default rule. -/
def Rule.isDefault (rule : Rule) : Bool :=
  (DefaultRules.all.lookup rule.name).isSome

variable {C : Type}

/-- The field, of another type if it goes by the name. -/
def Field.retype (name : String) (t : FieldType C) (f : Field C) : Field C :=
  if f.name = name then { f with type := t } else f

/-- The struct type with another type for the field of a name. -/
def Shape.retype (name : String) (t : FieldType C) (s : Shape C) : Shape C :=
  { s with fields := s.fields.map (Field.retype name t) }

/-! ## Members -/

namespace Record

variable {r : Record} {name : String} {value : Data}

theorem member?_withMember_self (h : (r.data.member? name).isSome = true) (value : Data) :
    (r.withMember name value).data.member? name = some value := by
  rw [← Data.isSome_setMember? _ value] at h
  obtain ⟨data, hdata⟩ := Option.isSome_iff_exists.mp h
  rw [withMember, hdata, Option.getD_some]
  exact Data.member?_setMember?_self hdata

theorem agreeBut_withMember (r : Record) (name : String) (value : Data) :
    r.AgreeBut name (r.withMember name value) where
  id := rfl
  member := by
    intro other hother
    unfold withMember
    cases hset : r.data.setMember? name value with
    | none => rfl
    | some data => exact Data.member?_setMember?_other hother hset

theorem agreeBut_refl (r : Record) (name : String) : r.AgreeBut name r :=
  ⟨rfl, fun _ _ => rfl⟩

end Record

/-! ## The default rules -/

theorem Registry.hasDefaults_setupDefaults (registry : Registry) :
    registry.setupDefaults.HasDefaults := by
  intro name rule hrule
  rw [registry.lookup?_setupDefaults, hrule]
  rfl

/-- No default rule accepts what is absent. -/
theorem DefaultRules.rejects_nil {name : String} {passes : Predicate}
    (h : DefaultRules.all.lookup name = some passes) (arg : String) :
    passes .nil arg = false := by
  have hmem : passes ∈ DefaultRules.all.map (·.2) := by
    obtain ⟨before, behind, hall, -⟩ := List.lookup_eq_some_iff.mp h
    simp [hall]
  have hbound (holds : Int → Int → Bool) : compareBound holds .nil arg = false := by
    unfold compareBound
    cases bound? arg <;> rfl
  simp only [DefaultRules.all, List.map_cons, List.map_nil, List.mem_cons, List.not_mem_nil,
    or_false] at hmem
  rcases hmem with rfl | rfl | rfl | rfl | rfl | rfl
  · rfl
  · exact hbound _
  · exact hbound _
  · rfl
  · rfl
  · rfl

/-! ## One field of another type -/

variable {name : String} {t : FieldType C} {f : Field C}

theorem Field.name_retype : (f.retype name t).name = f.name := by
  unfold Field.retype
  split <;> rfl

theorem Field.tag?_retype : (f.retype name t).tag? = f.tag? := by
  unfold Field.retype
  split <;> rfl

theorem Field.get?_retype (d : Data) : (f.retype name t).get? d = f.get? d := by
  unfold Field.retype
  split <;> rfl

/-- The same task on the field of another type. -/
def CheckTask.retype (name : String) (t : FieldType C) : CheckTask C → CheckTask C
  | read f => read (f.retype name t)
  | apply f rule => apply (f.retype name t) rule

theorem Field.tasks_retype (f : Field C) :
    (f.retype name t).tasks = f.tasks.map (CheckTask.retype name t) := by
  unfold Field.tasks
  rw [Field.tag?_retype]
  cases f.tag? with
  | none => rfl
  | some tag => simp [CheckTask.retype, Function.comp_def]

theorem Shape.tasks_retype (s : Shape C) :
    (s.retype name t).tasks = s.tasks.map (CheckTask.retype name t) := by
  simp only [Shape.tasks, Shape.retype, List.flatMap_map, List.map_flatMap, Field.tasks_retype]

theorem Field.kind_retype [UserType C] (hsealed : f.name = name → f.isSealed = false) :
    (f.retype name t).kind = if f.name = name then t.kind else f.kind := by
  unfold Field.retype
  split
  · next hname => simp [Field.kind, hsealed hname]
  · rfl

theorem Field.view_retype [UserType C] (hname : f.name = name) (hsealed : f.isSealed = false)
    (value : Data) : (f.retype name t).view value = t.view value := by
  simp [Field.retype, Field.view, hname, hsealed]

theorem Shape.read?_retype [UserType C] {s : Shape C} {r : Record} (f : Field C) :
    (s.retype name t).read? f r = s.read? f r :=
  rfl

namespace CheckTask

/-- The field that a task is about. -/
def field : CheckTask C → Field C
  | read f => f
  | apply f _ => f

theorem field_mem_of_mem_tasks {s : Shape C} {task : CheckTask C} (h : task ∈ s.tasks) :
    task.field ∈ s.fields := by
  obtain ⟨f, hf, htask⟩ := List.mem_flatMap.mp h
  obtain ⟨tag, -, rfl | ⟨rule, -, rfl⟩⟩ := (f.mem_tasks_iff task).mp htask
  · exact hf
  · exact hf

/-- The rules of one field, or some of them, are applied in their order. -/
theorem applied_sublist_tasks {s : Shape C} (hf : f ∈ s.fields) {tag : String}
    (htag : f.tag? = some tag) (p : Rule → Bool) :
    (((parseRules tag).filter p).map (apply f)).Sublist s.tasks := by
  have htasks : f.tasks = read f :: (parseRules tag).map (apply f) := by
    rw [Field.tasks, htag]
  have hfield : (((parseRules tag).filter p).map (apply f)).Sublist f.tasks := by
    rw [htasks]
    exact (List.filter_sublist.map _).cons _
  exact hfield.trans (List.sublist_flatten_of_mem (List.mem_map_of_mem hf))

variable [UserType C] {registry : Registry} {s : Shape C} {r r' : Record} {task : CheckTask C}

/-- What stands in the way of a task does not depend on what the field shows. -/
theorem obstacle?_retype
    (hread : (s.read? (task.field.retype name t) r').isSome = (s.read? task.field r).isSome) :
    (task.retype name t).obstacle? registry (s.retype name t) r' =
      task.obstacle? registry s r := by
  cases task with
  | read f =>
      rw [field] at hread
      rw [retype, obstacle?, obstacle?, Shape.read?_retype, Field.name_retype, hread]
      rfl
  | apply f rule => rfl

theorem failure?_retype (hread : s.read? (task.field.retype name t) r' = s.read? task.field r)
    (hsealed : task.field.name = name → task.field.isSealed = false) :
    (task.retype name t).failure? registry (s.retype name t) r' =
      (task.failure? registry s r).map (Failure.rekind name t.kind) := by
  cases task with
  | read f => rfl
  | apply f rule =>
      rw [field] at hread hsealed
      rw [retype, failure?, failure?, Shape.read?_retype, Field.name_retype,
        Field.kind_retype hsealed, hread]
      cases s.read? f r with
      | none => rfl
      | some v =>
          cases registry.lookup? rule.name with
          | none => rfl
          | some passes =>
              cases hpasses : passes v (rule.arg.getD "") with
              | true => simp [hpasses]
              | false => by_cases hname : f.name = name <;> simp [hpasses, Failure.rekind, hname]

theorem settle_map {s' : Shape C} {g : CheckTask C → CheckTask C} {h : Failure → Failure}
    {tasks : List (CheckTask C)}
    (hobstacle : ∀ task ∈ tasks, (g task).obstacle? registry s' r' = task.obstacle? registry s r)
    (hfailure : ∀ task ∈ tasks,
      (g task).failure? registry s' r' = (task.failure? registry s r).map h) :
    settle registry s' r' (tasks.map g) = (settle registry s r tasks).map (List.map h) := by
  have hfirst : (tasks.map g).findSome? (obstacle? registry s' r') =
      tasks.findSome? (obstacle? registry s r) := by
    rw [List.findSome?_map, ← List.head?_filterMap, ← List.head?_filterMap]
    exact congrArg List.head? (List.filterMap_congr hobstacle)
  have hfailures : (tasks.map g).filterMap (failure? registry s' r') =
      (tasks.filterMap (failure? registry s r)).map h := by
    rw [List.filterMap_map, List.map_filterMap]
    exact List.filterMap_congr hfailure
  rw [settle, settle, hfirst, hfailures]
  cases tasks.findSome? (obstacle? registry s r) <;> rfl

theorem eq_of_settle {tasks : List (CheckTask C)} {failures : List Failure}
    (h : settle registry s r tasks = .ok failures) :
    (∀ task ∈ tasks, task.obstacle? registry s r = none) ∧
      failures = tasks.filterMap (failure? registry s r) := by
  refine ⟨(settle_eq_ok_iff registry s r tasks).mp ⟨failures, h⟩, ?_⟩
  unfold settle at h
  split at h
  · cases h
  · exact (Except.ok.inj h).symm

end CheckTask

open CheckTask

variable [UserType C] (registry : Registry) {s : Shape C} {r r' : Record}

/-- A check of the other type has the same outcome, but for the kind, if the field shows
the same. -/
theorem checkRecord_retype (hid : r'.id = r.id)
    (hread : ∀ f ∈ s.fields, s.read? (f.retype name t) r' = s.read? f r)
    (hsealed : ∀ f ∈ s.fields, f.name = name → f.isSealed = false) :
    checkRecord registry (s.retype name t) r' =
      (checkRecord registry s r).map (List.map (Failure.rekind name t.kind)) := by
  by_cases hs : r.id = s.id
  · have hs' : r'.id = (s.retype name t).id := hid.trans hs
    rw [checkRecord_of_id registry hs, checkRecord_of_id registry hs', Shape.tasks_retype]
    refine settle_map (fun task htask => ?_) (fun task htask => ?_)
    · exact obstacle?_retype (by rw [hread _ (field_mem_of_mem_tasks htask)])
    · have hf := field_mem_of_mem_tasks htask
      exact failure?_retype (hread _ hf) (hsealed _ hf)
  · have hs' : r'.id ≠ (s.retype name t).id := fun h => hs (hid.symm.trans h)
    rw [checkRecord_of_other_id registry hs, checkRecord_of_other_id registry hs']
    rfl

/-- A check of the other type has an outcome if the field is readable or not as before. -/
theorem checkRecord_retype_ok_iff (hid : r'.id = r.id)
    (hread : ∀ f ∈ s.fields, (s.read? (f.retype name t) r').isSome = (s.read? f r).isSome) :
    (∃ failures, checkRecord registry (s.retype name t) r' = .ok failures) ↔
      ∃ failures, checkRecord registry s r = .ok failures := by
  by_cases hs : r.id = s.id
  · have hs' : r'.id = (s.retype name t).id := hid.trans hs
    rw [checkRecord_of_id registry hs, checkRecord_of_id registry hs', Shape.tasks_retype,
      settle_eq_ok_iff, settle_eq_ok_iff, List.forall_mem_map]
    refine forall₂_congr fun task htask => ?_
    rw [obstacle?_retype (hread _ (field_mem_of_mem_tasks htask))]
  · have hs' : r'.id ≠ (s.retype name t).id := fun h => hs (hid.symm.trans h)
    rw [checkRecord_of_other_id registry hs, checkRecord_of_other_id registry hs']
    simp

/-! ## Options and boxes -/

section

variable {x y : Data} {t' : FieldType C}

/-- A field of another type is read as before if its value is viewed as before. -/
theorem Shape.read?_retype_of_view (h : r.AgreeBut name r') (hx : r.data.member? name = some x)
    (hy : r'.data.member? name = some y)
    (hf : f.name = name → f.type = t ∧ f.isSealed = false) (hview : t'.view y = t.view x) :
    s.read? (f.retype name t') r' = s.read? f r := by
  unfold read?
  rw [h.id, Field.get?_retype]
  by_cases hname : f.name = name
  · obtain ⟨rfl, hsealed⟩ := hf hname
    have hshown : f.view x = f.type.view x := by simp [Field.view, hsealed]
    by_cases hresolves : f.resolves = true <;>
      simp [Field.get?, hname, hx, hy, hresolves, Field.view_retype hname hsealed, hview, hshown]
  · simp [Field.get?, Field.retype, hname, h.member f.name hname]

theorem Shape.isSome_read?_retype (h : r.AgreeBut name r') (hx : r.data.member? name = some x)
    (hy : r'.data.member? name = some y) :
    (s.read? (f.retype name t') r').isSome = (s.read? f r).isSome := by
  unfold read?
  rw [h.id, Field.get?_retype]
  by_cases hid : r.id = s.id
  · rw [if_pos hid, if_pos hid, Option.isSome_map, Option.isSome_map]
    by_cases hname : f.name = name
    · by_cases hresolves : f.resolves = true <;> simp [Field.get?, hname, hx, hy, hresolves]
    · simp [Field.get?, h.member f.name hname]
  · rw [if_neg hid, if_neg hid]

end

/-! ## Absent options -/

section

variable {registry} {elem : FieldType C} {tag : String} {failures : List Failure}

theorem eq_of_checkRecord_ok (h : checkRecord registry s r = .ok failures) :
    (∀ task ∈ s.tasks, task.obstacle? registry s r = none) ∧
      failures = s.tasks.filterMap (failure? registry s r) := by
  by_cases hid : r.id = s.id
  · rw [checkRecord_of_id registry hid] at h
    exact eq_of_settle h
  · rw [checkRecord_of_other_id registry hid] at h
    cases h

/-- What an absent option shows, if it can be read. -/
theorem Shape.eq_nil_of_read?_absent {v : View} (htype : f.type = .option elem)
    (hsealed : f.isSealed = false) (hy : r.data.member? f.name = some .none)
    (hread : s.read? f r = some v) : v = .nil := by
  obtain ⟨-, hread⟩ := Option.ite_none_right_eq_some.mp hread
  obtain ⟨value, hget, rfl⟩ := Option.map_eq_some_iff.mp hread
  obtain ⟨-, hvalue⟩ := (f.get?_eq_some_iff r.data value).mp hget
  obtain rfl : Data.none = value := Option.some.inj (hy.symm.trans hvalue)
  simp [Field.view, hsealed, htype, FieldType.view]

/-- A default rule in the tag of an absent option fails, and the report shows nil. -/
theorem CheckTask.failure?_absent (hregistry : registry.HasDefaults) (htype : f.type = .option elem)
    (hsealed : f.isSealed = false) (hread : s.read? f r = some .nil) {rule : Rule}
    (hrule : rule.isDefault = true) :
    (apply f rule).failure? registry s r = some ⟨f.name, .option, "<nil>", rule.name⟩ := by
  obtain ⟨passes, hpasses⟩ := Option.isSome_iff_exists.mp hrule
  have hkind : f.kind = .option := by simp [Field.kind, hsealed, htype, FieldType.kind]
  simp [failure?, hread, hregistry _ _ hpasses, DefaultRules.rejects_nil hpasses, hkind, View.text]

/-- All default rules in the tag of an absent option are among the failures, in their
order. -/
theorem absent_failures_sublist (hregistry : registry.HasDefaults) (hf : f ∈ s.fields)
    (htype : f.type = .option elem) (hsealed : f.isSealed = false)
    (hy : r.data.member? f.name = some .none) (htag : f.check = some tag)
    (hcheck : checkRecord registry s r = .ok failures) :
    (((parseRules tag).filter Rule.isDefault).map fun rule =>
      (⟨f.name, .option, "<nil>", rule.name⟩ : Failure)).Sublist failures := by
  cases hblank : isBlankTag tag with
  | true => simp [parseRules_of_isBlankTag hblank]
  | false =>
      have htag' : f.tag? = some tag := (f.tag?_eq_some_iff tag).mpr ⟨htag, hblank⟩
      obtain ⟨hclear, rfl⟩ := eq_of_checkRecord_ok hcheck
      -- The field can be read, because the check had an outcome.
      have hread : s.read? f r = some .nil := by
        have hmem : CheckTask.read f ∈ s.tasks :=
          List.mem_flatMap.mpr ⟨f, hf, (f.mem_tasks_iff _).mpr ⟨tag, htag', Or.inl rfl⟩⟩
        obtain ⟨v, hv⟩ := Option.isSome_iff_exists.mp
          ((obstacle?_read_eq_none_iff registry s r f).mp (hclear _ hmem))
        rw [hv, Shape.eq_nil_of_read?_absent htype hsealed hy hv]
      have hfailures : ((parseRules tag).filter Rule.isDefault).map
          (fun rule => (⟨f.name, .option, "<nil>", rule.name⟩ : Failure)) =
            (((parseRules tag).filter Rule.isDefault).map (CheckTask.apply f)).filterMap
              (failure? registry s r) := by
        rw [List.filterMap_map, ← List.filterMap_eq_map]
        refine List.filterMap_congr fun rule hrule => ?_
        exact (failure?_absent hregistry htype hsealed hread (List.mem_filter.mp hrule).2).symm
      rw [hfailures]
      exact (applied_sublist_tasks hf htag' Rule.isDefault).filterMap _

end

/-- Let one field of a struct type be of type `t` and hold `x`.  If it is an option of `t` that
holds `x` instead, or a box of `t`, a check has the same outcome, with the same errors or the
same failures in the same order and with the same texts, and only the kind of that field is
another.  If the option is absent, a check has an outcome as before, and where the default
rules are registered, each of them that the tag of the field asks for fails, whatever its
argument is. -/
theorem checkRecord_sees_through (s : Shape C) (r : Record) (name : String) (t : FieldType C)
    (x : Data) (hfield : ∀ f ∈ s.fields, f.name = name → f.type = t ∧ f.isSealed = false)
    (hx : r.data.member? name = some x) :
    checkRecord registry (s.retype name (.option t)) (r.withMember name (.some x)) =
        (checkRecord registry s r).map (List.map (Failure.rekind name .option)) ∧
      checkRecord registry (s.retype name (.box t)) r =
        (checkRecord registry s r).map (List.map (Failure.rekind name .pointer)) ∧
      ((∃ failures, checkRecord registry (s.retype name (.option t)) (r.withMember name .none) =
          .ok failures) ↔ ∃ failures, checkRecord registry s r = .ok failures) ∧
      (registry.HasDefaults → ∀ f ∈ s.fields, f.name = name →
        ∀ tag, f.check = some tag → ∀ failures,
          checkRecord registry (s.retype name (.option t)) (r.withMember name .none) =
              .ok failures →
            (((parseRules tag).filter Rule.isDefault).map fun rule =>
              (⟨name, .option, "<nil>", rule.name⟩ : Failure)).Sublist failures) := by
  have hpresent : (r.data.member? name).isSome = true := by simp [hx]
  have hsealed : ∀ f ∈ s.fields, f.name = name → f.isSealed = false :=
    fun f hf hname => (hfield f hf hname).2
  have hmember (value : Data) := Record.member?_withMember_self hpresent value
  have hother (value : Data) := r.agreeBut_withMember name value
  refine ⟨?_, ?_, ?_, ?_⟩
  · exact checkRecord_retype registry rfl
      (fun f hf => Shape.read?_retype_of_view (hother _) hx (hmember _) (hfield f hf) rfl) hsealed
  · exact checkRecord_retype registry rfl
      (fun f hf => Shape.read?_retype_of_view (r.agreeBut_refl name) hx hx (hfield f hf) rfl)
      hsealed
  · exact checkRecord_retype_ok_iff registry rfl
      fun f _ => Shape.isSome_read?_retype (hother _) hx (hmember _)
  · rintro hregistry f hf rfl tag htag failures hcheck
    let f' : Field C := { f with type := .option t }
    have hf' : f' ∈ (s.retype f.name (.option t)).fields :=
      List.mem_map.mpr ⟨f, hf, if_pos rfl⟩
    exact absent_failures_sublist (f := f') hregistry hf' rfl (hsealed f hf rfl) (hmember .none)
      htag hcheck

/-- A version that is too low, by itself, in an option, in a box and absent. -/
theorem checkRecord_sees_through_version :
    let registry := Registry.empty.setupDefaults
    let s := Sample.audit
    let t := Sample.unsigned .w32
    let r : Record := ⟨s.id, .record [("created_by", .text "ada"), ("version", .int 0)]⟩
    (∀ f ∈ s.fields, f.name = "version" → f.type = t ∧ f.isSealed = false) ∧
      r.data.member? "version" = some (.int 0) ∧
      checkRecord registry s r = .ok [⟨"version", .uint, "0", "min"⟩] ∧
      checkRecord registry (s.retype "version" (.option t))
        (r.withMember "version" (.some (.int 0))) = .ok [⟨"version", .option, "0", "min"⟩] ∧
      checkRecord registry (s.retype "version" (.box t)) r =
        .ok [⟨"version", .pointer, "0", "min"⟩] ∧
      ∃ failures, checkRecord registry (s.retype "version" (.option t))
          (r.withMember "version" .none) = .ok failures ∧
        ⟨"version", .option, "<nil>", "min"⟩ ∈ failures := by
  intro registry s t r
  have hfield : ∀ f ∈ s.fields, f.name = "version" → f.type = t ∧ f.isSealed = false := by
    decide
  have hx : r.data.member? "version" = some (.int 0) := rfl
  have hcheck : checkRecord registry s r = .ok [⟨"version", .uint, "0", "min"⟩] := rfl
  obtain ⟨hpresent, hbox, hok, habsent⟩ :=
    checkRecord_sees_through registry s r "version" t (.int 0) hfield hx
  obtain ⟨failures, hfailures⟩ := hok.mpr ⟨_, hcheck⟩
  have hsublist := habsent (Registry.hasDefaults_setupDefaults _) _
    (List.mem_cons_of_mem _ List.mem_cons_self) rfl _ rfl failures hfailures
  refine ⟨hfield, hx, hcheck, ?_, ?_, failures, hfailures, ?_⟩
  · rw [hpresent, hcheck]
    rfl
  · rw [hbox, hcheck]
    rfl
  · exact hsublist.subset (by decide)

end RecordKit
