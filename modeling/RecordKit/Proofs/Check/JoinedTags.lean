import RecordKit.Proofs.Check.Outcome
import RecordKit.Proofs.Check.Spelling

/-!
# Joined tags

Two tags with a comma between them ask for the rules of both, in order.  A check of a
single field with the joined tag is the check with the first tag followed by the check
with the second one: `checkRecord_joined` says so for failures and for errors alike.

Blank tags need a word.  A field with a blank tag is not read, but two blank tags joined
are a tag with a comma in it, so the field is read then.  That is why the field has to be
readable, and `checkField_tagged` says that nothing else is different about blank tags.
-/

namespace RecordKit

variable {C : Type}

/-- The field with another tag. -/
def Field.tagged (f : Field C) (tag : String) : Field C :=
  { f with check := some tag }

variable [UserType C] {registry : Registry} {s : Shape C} {r : Record}

open CheckTask in
/-- Rules after other rules: the failures are put together, and an error of the first
ones keeps the others from being applied. -/
theorem checkRules_append {f : Field C} {v : View} (hread : s.read? f r = some v)
    (rules more : List Rule) :
    checkRules registry f v (rules ++ more) = (do
      let first ← checkRules registry f v rules
      let second ← checkRules registry f v more
      return first ++ second) := by
  simp only [checkRules_eq_settle registry s r hread, List.map_append]
  cases hfirst : settle registry s r (rules.map (.apply f)) with
  | error e => exact settle_append_of_error hfirst _
  | ok first =>
      rw [settle_append_of_ok hfirst]
      cases settle registry s r (more.map (.apply f)) <;> rfl

/-- A readable field is checked by the rules of its tag.  A blank tag has none, so it
makes no difference that the field is not read then. -/
theorem checkField_tagged {f : Field C} {v : View} (hread : s.read? f r = some v)
    (tag : String) :
    checkField registry s r (f.tagged tag) = checkRules registry f v (parseRules tag) := by
  have hcheck : (f.tagged tag).check = some tag := rfl
  have htagged : s.read? (f.tagged tag) r = some v := hread
  have hrules : checkRules registry (f.tagged tag) v (parseRules tag) =
      checkRules registry f v (parseRules tag) :=
    checkRules_eq_of_field registry (f := f.tagged tag) (g := f) rfl rfl v _
  unfold checkField
  cases hblank : isBlankTag tag with
  | true => simp [hcheck, hblank, parseRules_of_isBlankTag hblank, checkRules]
  | false => simp only [hcheck, hblank, htagged, hrules, Bool.false_eq_true, if_false]

/-- A struct of one field is checked by checking the field. -/
theorem checkRecord_single {id : StructId} (hid : r.id = id) (f : Field C) :
    checkRecord registry ⟨id, [f]⟩ r = checkField registry ⟨id, [f]⟩ r f := by
  rw [checkRecord, if_pos hid, checkFields]
  cases checkField registry ⟨id, [f]⟩ r f with
  | error e => rfl
  | ok failed => simp [checkFields, Except.map]

/-- Joining two tags with a comma joins their rules, whatever the tags are.  For a struct
of one field that is readable in records of the struct, the check with the joined tag
gives the failures of the first tag followed by those of the second one if the checks
with both tags succeed, and otherwise the error of the first of them that fails. -/
theorem checkRecord_joined (a b : String) :
    parseRules (a ++ "," ++ b) = parseRules a ++ parseRules b ∧
      ∀ (registry : Registry) (id : StructId) (f : Field C) (r : Record),
        (r.id = id → ((⟨id, [f]⟩ : Shape C).read? f r).isSome = true) →
          let outcome (tag : String) := checkRecord registry ⟨id, [f.tagged tag]⟩ r
          outcome (a ++ "," ++ b) = (do
            let first ← outcome a
            let second ← outcome b
            return first ++ second) := by
  refine ⟨parseRules_append a b, ?_⟩
  intro registry id f r hread outcome
  by_cases hid : r.id = id
  · obtain ⟨v, hv⟩ := Option.isSome_iff_exists.mp (hread hid)
    have houtcome (tag : String) : outcome tag = checkRules registry f v (parseRules tag) := by
      have hfield : (⟨id, [f.tagged tag]⟩ : Shape C).read? f r = some v := hv
      rw [← checkField_tagged hfield tag, ← checkRecord_single hid]
    rw [houtcome, houtcome, houtcome, parseRules_append, checkRules_append hv]
  · -- A record of another type is refused before any tag is looked at.
    have houtcome (tag : String) : outcome tag = .error (.wrongType id.name) :=
      checkRecord_of_other_id registry hid
    rw [houtcome, houtcome, houtcome]
    rfl

/-- A text of two characters under two tags, of which the first ends in a blank term. -/
theorem checkRecord_joined_pair :
    let registry := Registry.empty.setupDefaults
    let f : Field SampleType := .basic "code" .string
    let id : StructId := ⟨"S", "S"⟩
    let r : Record := ⟨id, .record [("code", .text "ab")]⟩
    let outcome (tag : String) := checkRecord registry ⟨id, [f.tagged tag]⟩ r
    (r.id = id → ((⟨id, [f]⟩ : Shape SampleType).read? f r).isSome = true) ∧
      outcome " min = 3, " = .ok [⟨"code", .string, "ab", "min"⟩] ∧
      outcome "fixed=4,max=1" =
        .ok [⟨"code", .string, "ab", "fixed"⟩, ⟨"code", .string, "ab", "max"⟩] ∧
      outcome (" min = 3, " ++ "," ++ "fixed=4,max=1") =
        .ok [⟨"code", .string, "ab", "min"⟩, ⟨"code", .string, "ab", "fixed"⟩,
          ⟨"code", .string, "ab", "max"⟩] := by
  intro registry f id r outcome
  have hread : r.id = id → ((⟨id, [f]⟩ : Shape SampleType).read? f r).isSome = true :=
    fun _ => rfl
  have hfirst : outcome " min = 3, " = .ok [⟨"code", .string, "ab", "min"⟩] := rfl
  have hsecond : outcome "fixed=4,max=1" =
      .ok [⟨"code", .string, "ab", "fixed"⟩, ⟨"code", .string, "ab", "max"⟩] := rfl
  have hjoined : outcome (" min = 3, " ++ "," ++ "fixed=4,max=1") = (do
      let first ← outcome " min = 3, "
      let second ← outcome "fixed=4,max=1"
      return first ++ second) :=
    (checkRecord_joined " min = 3, " "fixed=4,max=1").2 registry id f r hread
  refine ⟨hread, hfirst, hsecond, ?_⟩
  rw [hjoined, hfirst, hsecond]
  rfl

/-- The field has to be readable: two blank tags pass without a look at it, and joined
they do not. -/
example :
    let f : Field SampleType := { Field.basic "a" .bool with resolves := false }
    let outcome (tag : String) :=
      checkRecord Registry.empty (Sample.shape "S" [f.tagged tag]) ⟨⟨"S", "S"⟩, .record []⟩
    outcome "" = .ok [] ∧ outcome ("" ++ "," ++ "") = .error (.unreadable "S" "a") := by
  exact ⟨rfl, rfl⟩

end RecordKit
