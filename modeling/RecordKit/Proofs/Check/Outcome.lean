import RecordKit.Check.Run
import RecordKit.Sample.Records

/-!
# The outcome of a check

A check has a plain list of tasks: for each tagged field in declaration order, to
read the field and then to apply the rules of its tag in their order.  A task may
meet an obstacle, or find a failure.  `checkRecord_characterization` says that the
first obstacle is the outcome if there is one, and otherwise all failures are, in
the order of the tasks.  The nested loops with their early exits never show.
-/

namespace RecordKit

variable {C : Type}

/-- One thing that a check has to do. -/
inductive CheckTask (C : Type) where
  | read (f : Field C)
  | apply (f : Field C) (rule : Rule)

/-- The tag of a field, if it has a character that is not blank. -/
def Field.tag? (f : Field C) : Option String :=
  f.check.filter fun tag => tag.toList.any fun c => !Text.isBlank c

/-- To read a tagged field comes before its rules. -/
def Field.tasks (f : Field C) : List (CheckTask C) :=
  match f.tag? with
  | none => []
  | some tag => .read f :: (parseRules tag).map (.apply f)

def Shape.tasks (s : Shape C) : List (CheckTask C) :=
  s.fields.flatMap Field.tasks

/-- The same fields with other structs embedded in them. -/
def Shape.withInner (s : Shape C) (inner : Field C → Option (Shape C)) : Shape C :=
  { s with fields := s.fields.map fun f => { f with inner := inner f } }

theorem Field.tag?_eq_some_iff (f : Field C) (tag : String) :
    f.tag? = some tag ↔ f.check = some tag ∧ isBlankTag tag = false := by
  unfold Field.tag? isBlankTag
  rw [Option.filter_eq_some_iff, List.all_eq_false, List.any_eq_true]
  simp

theorem Field.mem_tasks_iff (f : Field C) (task : CheckTask C) :
    task ∈ f.tasks ↔ ∃ tag, f.tag? = some tag ∧
      (task = .read f ∨ ∃ rule ∈ parseRules tag, task = .apply f rule) := by
  unfold Field.tasks
  cases f.tag? with
  | none => simp
  | some tag => simp [eq_comm]

variable [UserType C] (registry : Registry) (s : Shape C) (r : Record)

namespace CheckTask

/-- What keeps a task from being done: the field has no value, or nobody has
registered the rule. -/
def obstacle? : CheckTask C → Option CheckError
  | read f => if (s.read? f r).isSome then none else some (.unreadable s.id.name f.name)
  | apply _ rule =>
      if (registry.lookup? rule.name).isSome then none else some (.unknownRule rule.name)

theorem obstacle?_read_eq_none_iff (f : Field C) :
    (read f).obstacle? registry s r = none ↔ (s.read? f r).isSome := by
  unfold obstacle?
  cases hread : s.read? f r <;> simp [hread]

theorem obstacle?_apply_eq_none_iff (f : Field C) (rule : Rule) :
    (apply f rule).obstacle? registry s r = none ↔ (registry.lookup? rule.name).isSome := by
  unfold obstacle?
  cases hlookup : registry.lookup? rule.name <;> simp [hlookup]

/-- What a task finds: the rule does not accept the view of the field with the
argument, which is empty if there is none. -/
def failure? : CheckTask C → Option Failure
  | read _ => none
  | apply f rule => do
      let v ← s.read? f r
      let passes ← registry.lookup? rule.name
      if passes v (rule.arg.getD "") then none else some ⟨f.name, f.kind, v.text, rule.name⟩

/-- The first obstacle of a list of tasks, or else all failures. -/
def settle (tasks : List (CheckTask C)) : Except CheckError (List Failure) :=
  match tasks.findSome? (obstacle? registry s r) with
  | some e => .error e
  | none => .ok (tasks.filterMap (failure? registry s r))

variable {registry s r} in
/-- After an obstacle nothing counts any more. -/
theorem settle_append_of_error {tasks : List (CheckTask C)} {e : CheckError}
    (h : settle registry s r tasks = .error e) (more : List (CheckTask C)) :
    settle registry s r (tasks ++ more) = .error e := by
  unfold settle at h ⊢
  rw [List.findSome?_append]
  cases hfirst : tasks.findSome? (obstacle? registry s r) with
  | some first =>
      rw [hfirst] at h
      exact h
  | none =>
      rw [hfirst] at h
      cases h

variable {registry s r} in
theorem settle_append_of_ok {tasks : List (CheckTask C)} {failed : List Failure}
    (h : settle registry s r tasks = .ok failed) (more : List (CheckTask C)) :
    settle registry s r (tasks ++ more) = (settle registry s r more).map (failed ++ ·) := by
  unfold settle at h ⊢
  rw [List.findSome?_append, List.filterMap_append]
  cases hfirst : tasks.findSome? (obstacle? registry s r) with
  | some first =>
      rw [hfirst] at h
      cases h
  | none =>
      rw [hfirst] at h
      cases h
      cases more.findSome? (obstacle? registry s r) <;> rfl

theorem settle_eq_ok_iff (tasks : List (CheckTask C)) :
    (∃ failures, settle registry s r tasks = .ok failures) ↔
      ∀ task ∈ tasks, task.obstacle? registry s r = none := by
  unfold settle
  rw [← List.findSome?_eq_none_iff]
  cases tasks.findSome? (obstacle? registry s r) <;> simp

end CheckTask

open CheckTask

/-- Nothing stands in the way of a field: without a tag there is nothing to do, and
otherwise it can be read and the rules of the tag are registered. -/
theorem Field.forall_tasks_iff (f : Field C) :
    (∀ task ∈ f.tasks, task.obstacle? registry s r = none) ↔
      ∀ tag, f.tag? = some tag →
        (s.read? f r).isSome ∧ ∀ rule ∈ parseRules tag, (registry.lookup? rule.name).isSome := by
  constructor
  · intro hclear tag htag
    have htask : ∀ task : CheckTask C,
        (task = .read f ∨ ∃ rule ∈ parseRules tag, task = .apply f rule) →
          task.obstacle? registry s r = none := fun task htask =>
      hclear task ((f.mem_tasks_iff task).mpr ⟨tag, htag, htask⟩)
    constructor
    · exact (obstacle?_read_eq_none_iff registry s r f).mp (htask _ (Or.inl rfl))
    · intro rule hrule
      exact (obstacle?_apply_eq_none_iff registry s r f rule).mp
        (htask _ (Or.inr ⟨rule, hrule, rfl⟩))
  · intro hclear task htask
    obtain ⟨tag, htag, rfl | ⟨rule, hrule, rfl⟩⟩ := (f.mem_tasks_iff task).mp htask
    · exact (obstacle?_read_eq_none_iff registry s r f).mpr (hclear tag htag).1
    · exact (obstacle?_apply_eq_none_iff registry s r f rule).mpr ((hclear tag htag).2 rule hrule)

/-! ## The loops of a check -/

theorem checkRules_eq_settle {f : Field C} {v : View} (hread : s.read? f r = some v)
    (rules : List Rule) :
    checkRules registry f v rules = settle registry s r (rules.map (.apply f)) := by
  induction rules with
  | nil => rfl
  | cons rule rest ih =>
      have hcons : (rule :: rest).map (CheckTask.apply f) =
          [.apply f rule] ++ rest.map (.apply f) := rfl
      rw [hcons, checkRules]
      cases hlookup : registry.lookup? rule.name with
      | none =>
          have hfirst : settle registry s r [.apply f rule] = .error (.unknownRule rule.name) := by
            simp [settle, obstacle?, hlookup]
          simp only [settle_append_of_error hfirst]
      | some passes =>
          have hfirst : settle registry s r [.apply f rule] =
              .ok (if passes v rule.argOrEmpty then [] else
                [⟨f.name, f.kind, v.text, rule.name⟩]) := by
            by_cases hpasses : passes v rule.argOrEmpty = true <;>
              simp_all [settle, obstacle?, failure?, Rule.argOrEmpty]
          simp only [settle_append_of_ok hfirst, ih]

theorem checkField_of_no_tag {f : Field C} (h : f.tag? = none) :
    checkField registry s r f = .ok [] := by
  unfold checkField
  cases hcheck : f.check with
  | none => rfl
  | some tag =>
      cases hblank : isBlankTag tag with
      | true => simp only [hblank, if_true]
      | false =>
          rw [(f.tag?_eq_some_iff tag).mpr ⟨hcheck, hblank⟩] at h
          cases h

theorem checkField_eq_settle (f : Field C) :
    checkField registry s r f = settle registry s r f.tasks := by
  cases htag : f.tag? with
  | none =>
      rw [checkField_of_no_tag registry s r htag]
      simp [Field.tasks, htag, settle]
  | some tag =>
      obtain ⟨hcheck, hblank⟩ := (f.tag?_eq_some_iff tag).mp htag
      have htasks : f.tasks = [.read f] ++ (parseRules tag).map (.apply f) := by
        simp [Field.tasks, htag]
      rw [htasks]
      cases hread : s.read? f r with
      | none =>
          have hfirst : settle registry s r [.read f] =
              .error (.unreadable s.id.name f.name) := by
            simp [settle, obstacle?, hread]
          rw [settle_append_of_error hfirst]
          simp [checkField, hcheck, hblank, hread]
      | some v =>
          have hfirst : settle registry s r [.read f] = .ok [] := by
            simp [settle, obstacle?, failure?, hread]
          have hfield : checkField registry s r f = checkRules registry f v (parseRules tag) := by
            simp [checkField, hcheck, hblank, hread]
          rw [settle_append_of_ok hfirst, hfield, checkRules_eq_settle registry s r hread]
          cases settle registry s r ((parseRules tag).map (.apply f)) <;> rfl

theorem checkFields_eq_settle (fields : List (Field C)) :
    checkFields registry s r fields = settle registry s r (fields.flatMap Field.tasks) := by
  induction fields with
  | nil => rfl
  | cons f rest ih =>
      rw [checkFields, checkField_eq_settle, List.flatMap_cons]
      cases hfirst : settle registry s r f.tasks with
      | error e => rw [settle_append_of_error hfirst]
      | ok failed => rw [settle_append_of_ok hfirst, ih]

variable {s r} in
theorem checkRecord_of_id (hid : r.id = s.id) :
    checkRecord registry s r = settle registry s r s.tasks := by
  rw [checkRecord, if_pos hid, checkFields_eq_settle]
  rfl

variable {s r} in
/-- A record of another type is refused before any field is looked at. -/
theorem checkRecord_of_other_id (hid : r.id ≠ s.id) :
    checkRecord registry s r = .error (.wrongType s.id.name) :=
  if_neg hid

/-- Once a field is viewed, only its name and its kind count. -/
theorem checkRules_eq_of_field {f g : Field C} (hname : f.name = g.name) (hkind : f.kind = g.kind)
    (v : View) (rules : List Rule) :
    checkRules registry f v rules = checkRules registry g v rules := by
  induction rules with
  | nil => rfl
  | cons rule rest ih => rw [checkRules, checkRules, hname, hkind, ih]

/-! ## Embedded structs -/

theorem checkField_inner (f : Field C) (inner : Option (Shape C)) :
    checkField registry s r { f with inner := inner } = checkField registry s r f := by
  have hrules (v : View) (rules : List Rule) :
      checkRules registry { f with inner := inner } v rules = checkRules registry f v rules :=
    checkRules_eq_of_field registry (f := { f with inner := inner }) (g := f) rfl rfl v rules
  unfold checkField
  simp only [hrules]
  rfl

/-- What is embedded in a field has no say in a check of the fields. -/
theorem checkRecord_withInner (inner : Field C → Option (Shape C)) :
    checkRecord registry (s.withInner inner) r = checkRecord registry s r := by
  have hfields : ∀ fields : List (Field C),
      checkFields registry (s.withInner inner) r
        (fields.map fun f => { f with inner := inner f }) = checkFields registry s r fields := by
    intro fields
    induction fields with
    | nil => rfl
    | cons f rest ih =>
        rw [List.map_cons, checkFields, checkFields, ih]
        rw [show checkField registry (s.withInner inner) r { f with inner := inner f } =
          checkField registry s r f from checkField_inner registry s r f (inner f)]
  unfold checkRecord
  rw [show (s.withInner inner).fields = s.fields.map fun f => { f with inner := inner f } from rfl,
    hfields]
  rfl

/-! ## The outcome -/

/-- A record of another type is refused whatever the fields and rules are.  For a
record of the shape's own type the first obstacle is the outcome: a tagged field
that cannot be read, or a rule of its tag that is not registered.  Without an
obstacle, which means that all tagged fields can be read and all their rules are
registered, the outcome is the list of all failures in order.  Tags inside embedded
structs do not count. -/
theorem checkRecord_characterization :
    checkRecord registry s r =
        (if r.id = s.id then
          match s.tasks.findSome? (obstacle? registry s r) with
          | some first => .error first
          | none => .ok (s.tasks.filterMap (failure? registry s r))
        else .error (.wrongType s.id.name)) ∧
      ((∃ failures, checkRecord registry s r = .ok failures) ↔
        r.id = s.id ∧ ∀ f ∈ s.fields, ∀ tag, f.tag? = some tag →
          (s.read? f r).isSome ∧
            ∀ rule ∈ parseRules tag, (registry.lookup? rule.name).isSome) ∧
      ∀ inner, checkRecord registry (s.withInner inner) r = checkRecord registry s r := by
  have houtcome : checkRecord registry s r =
      if r.id = s.id then settle registry s r s.tasks else .error (.wrongType s.id.name) := by
    unfold checkRecord Shape.tasks
    rw [checkFields_eq_settle]
  refine ⟨houtcome, ?_, checkRecord_withInner registry s r⟩
  rw [houtcome]
  by_cases hid : r.id = s.id
  · simp only [hid, if_true, true_and]
    rw [settle_eq_ok_iff, Shape.tasks, List.forall_mem_flatMap]
    exact forall₂_congr fun f _ => f.forall_tasks_iff registry s r
  · simp [hid]

/-- A rule that nobody registered ends the check, and the failure found before it is
not reported. -/
example :
    let fails : Field SampleType := { Field.basic "a" .bool with check := some "never" }
    let stops : Field SampleType := { Field.basic "b" .bool with check := some "unknown" }
    let s := Sample.shape "S" [fails, stops]
    checkRecord (Registry.empty.register "never" fun _ _ => false) s
      ⟨s.id, .record [("a", .bool true), ("b", .bool true)]⟩ = .error (.unknownRule "unknown") := by
  rfl

end RecordKit
