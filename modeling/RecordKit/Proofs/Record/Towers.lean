import RecordKit.Proofs.Number.Nearest
import RecordKit.Proofs.Record.Conversion
import RecordKit.Proofs.Record.Typing

/-!
# Towers of options and boxes

An option shows what it holds, and so does a box; only an absent value shows as nil, at
whichever layer it is absent.  So a value in a tower of options and boxes can be built
again from its own view, with one thing lost: where the tower has several options and one
of them is absent, the value that comes back is absent at the outermost one
(`FieldType.tower_round_trip`).  What is at the foot of the tower comes back as it was,
32-bit numbers included, which are shown with 64 bits.
-/

namespace RecordKit

/-- Equal data, where all patterns that are no number count as one value. -/
inductive Data.SameValue : Data → Data → Prop
  | refl (d : Data) : SameValue d d
  | nan32 {a b : UInt32} (ha : binary32.decode a.toNat = .nan)
      (hb : binary32.decode b.toNat = .nan) : SameValue (.f32 a) (.f32 b)
  | nan64 {a b : UInt64} (ha : binary64.decode a.toNat = .nan)
      (hb : binary64.decode b.toNat = .nan) : SameValue (.f64 a) (.f64 b)
  | some {a b : Data} (h : SameValue a b) : SameValue (.some a) (.some b)

/-- Whether an option in the data is absent, at any layer. -/
def Data.hasAbsent : Data → Bool
  | .none => true
  | .some value => value.hasAbsent
  | _ => false

variable {C : Type}

namespace FieldType

/-- The types at the foot of a tower. -/
def isFoot : FieldType C → Bool
  | bool | int _ | f32 | f64 | string => true
  | list elem => elem.isByte
  | _ => false

/-- Options and boxes, in any number and order, on a foot. -/
inductive IsTower : FieldType C → Prop
  | foot {t : FieldType C} (h : t.isFoot = true) : IsTower t
  | option {elem : FieldType C} (h : IsTower elem) : IsTower (.option elem)
  | box {elem : FieldType C} (h : IsTower elem) : IsTower (.box elem)

/-- The number of options in a tower. -/
def optionLayers : FieldType C → Nat
  | option elem => elem.optionLayers + 1
  | box elem => elem.optionLayers
  | _ => 0

/-- The value that is absent at the outermost option of a tower, if there is an option.
A box adds nothing to the data that it holds. -/
def absent? : FieldType C → Option Data
  | option _ => some .none
  | box elem => elem.absent?
  | _ => none

variable {catalog : Catalog C} {t : FieldType C} {x : Data}

theorem Holds.hasAbsent_of_foot (h : t.Holds catalog x) (ht : t.isFoot = true) :
    x.hasAbsent = false := by
  cases h with
  | bool | int | f32 | f64 | string | bytes | list => rfl
  | absent | given | box | hashMap | treeMap | struct | user => cases ht

/-! ## Absent values -/

theorem IsTower.hasAbsent_of_no_option (ht : t.IsTower) (h : t.Holds catalog x)
    (hlayers : t.optionLayers = 0) : x.hasAbsent = false := by
  induction ht with
  | foot hfoot => exact h.hasAbsent_of_foot hfoot
  | option _ _ => cases hlayers
  | box _ ih =>
      cases h with
      | box held => exact ih held hlayers

/-- With an absent value among the values of a tower there is one that is absent at the
outermost option.  In a tower of one option there is no other. -/
theorem IsTower.exists_absent (ht : t.IsTower) (h : t.Holds catalog x)
    (habsent : x.hasAbsent = true) :
    ∃ y, t.absent? = some y ∧ t.Holds catalog y ∧ y.hasAbsent = true ∧
      (t.optionLayers ≤ 1 → y = x) := by
  induction ht with
  | foot hfoot =>
      rw [h.hasAbsent_of_foot hfoot] at habsent
      cases habsent
  | @option elem helem _ =>
      refine ⟨.none, rfl, .absent elem, rfl, ?_⟩
      intro hlayers
      cases h with
      | absent => rfl
      | given held =>
          -- An absent value below the only option would need another option.
          have hnone : elem.optionLayers = 0 := Nat.le_zero.mp (Nat.le_of_succ_le_succ hlayers)
          have hpresent := helem.hasAbsent_of_no_option held hnone
          rw [Data.hasAbsent, hpresent] at habsent
          cases habsent
  | box _ ih =>
      cases h with
      | box held =>
          obtain ⟨y, hy, hheld, hyAbsent, hunique⟩ := ih held
          exact ⟨y, hy, .box hheld, hyAbsent, hunique⟩

/-! ## Views -/

variable [UserType C]

theorem Holds.view_ne_nil_of_foot (h : t.Holds catalog x) (ht : t.isFoot = true) :
    t.view x ≠ .nil := by
  cases h with
  | @int i n _ =>
      unfold view
      split <;> nofun
  | bool | f32 | f64 | string | bytes | list => nofun
  | absent | given | box | hashMap | treeMap | struct | user => cases ht

/-- A 32-bit number comes back from its view, which has 64 bits. -/
theorem sameValue_narrow_widen (bits : UInt32) :
    (Data.f32 (narrow (widen bits))).SameValue (.f32 bits) ∧
      widen (narrow (widen bits)) = widen bits := by
  rw [narrow_widen]
  by_cases hnan : binary32.decode bits.toNat = .nan
  · have hone : binary32.decode binary32.nan.toUInt32.toNat = .nan := by decide
    rw [if_pos hnan]
    refine ⟨.nan32 hone hnan, ?_⟩
    simp only [widen, BinaryFormat.convert, hnan, hone]
  · rw [if_neg hnan]
    exact ⟨.refl _, rfl⟩

/-- A value at the foot of a tower comes back from its view. -/
theorem Holds.round_trip_of_foot (h : t.Holds catalog x) (ht : t.isFoot = true) :
    ∃ y, t.ofView? (t.view x) = some y ∧ t.Holds catalog y ∧ t.view y = t.view x ∧
      y.SameValue x := by
  cases h with
  | @int i n range =>
      have hback := convert?_int_eq (C := C) i range
      rw [IntType.wrap_eq_self_iff.mpr range] at hback
      exact ⟨_, hback, .int range, rfl, .refl _⟩
  | f32 bits =>
      obtain ⟨hsame, hview⟩ := sameValue_narrow_widen bits
      exact ⟨_, rfl, .f32 _, congrArg View.float hview, hsame⟩
  | bool b => exact ⟨_, rfl, .bool b, rfl, .refl _⟩
  | f64 bits => exact ⟨_, rfl, .f64 bits, rfl, .refl _⟩
  | string s => exact ⟨_, rfl, .string s, rfl, .refl _⟩
  | bytes bs => exact ⟨_, rfl, .bytes bs, rfl, .refl _⟩
  | list other => exact absurd ht (by simp [isFoot, other])
  | absent | given | box | hashMap | treeMap | struct | user => cases ht

/-- A tower shows nil exactly for the values that are absent at some layer. -/
theorem IsTower.view_eq_nil_iff (ht : t.IsTower) (h : t.Holds catalog x) :
    t.view x = .nil ↔ x.hasAbsent = true := by
  induction ht generalizing x with
  | foot hfoot => simp [h.view_ne_nil_of_foot hfoot, h.hasAbsent_of_foot hfoot]
  | option _ ih =>
      cases h with
      | absent => exact ⟨fun _ => rfl, fun _ => rfl⟩
      | given held => exact ih held
  | box _ ih =>
      cases h with
      | box held => exact ih held

/-- Nil is read at the outermost option. -/
theorem IsTower.ofView?_nil (ht : t.IsTower) : t.ofView? .nil = t.absent? := by
  induction ht with
  | @foot t hfoot =>
      cases t with
      | bool | int | f32 | f64 | string | list => rfl
      | option | box | hashMap | treeMap | struct | user => cases hfoot
  | option _ _ => rfl
  | box _ ih => exact ih

/-- Any other view is read by what the option is of. -/
theorem ofView?_option_of_ne_nil (elem : FieldType C) {v : View} (hv : v ≠ .nil) :
    (option elem).ofView? v = (elem.ofView? v).map .some := by
  cases v with
  | nil => exact absurd rfl hv
  | _ => rfl

/-! ## The tower -/

/-- Without an absent option a value comes back as it was. -/
theorem IsTower.round_trip_of_present (ht : t.IsTower) (h : t.Holds catalog x)
    (hpresent : x.hasAbsent = false) :
    ∃ y, t.ofView? (t.view x) = some y ∧ t.Holds catalog y ∧ t.view y = t.view x ∧
      y.SameValue x := by
  induction ht generalizing x with
  | foot hfoot => exact h.round_trip_of_foot hfoot
  | @option elem helem ih =>
      cases h with
      | absent => cases hpresent
      | @given _ value held =>
          obtain ⟨y, hread, hheld, hview, hsame⟩ := ih held hpresent
          have hshown : elem.view value ≠ .nil := by
            rw [ne_eq, helem.view_eq_nil_iff held, Bool.not_eq_true]
            exact hpresent
          have hread' : (FieldType.option elem).ofView? (elem.view value) = some (.some y) := by
            rw [ofView?_option_of_ne_nil elem hshown, hread, Option.map_some]
          exact ⟨.some y, hread', .given hheld, hview, .some hsame⟩
  | @box elem _ ih =>
      cases h with
      | box held =>
          obtain ⟨y, hread, hheld, hview, hsame⟩ := ih held hpresent
          exact ⟨y, hread, .box hheld, hview, hsame⟩

/-- Every value of a tower of options and boxes on a Boolean, a number, a text or a byte
sequence gives a view from which the type builds a value that shows the same.  It is the
value itself if the tower has one option at most or no option of the value is absent;
otherwise it is the value that is absent at the outermost option. -/
theorem tower_round_trip (ht : t.IsTower) (h : t.Holds catalog x) :
    ∃ y, t.ofView? (t.view x) = some y ∧ t.Holds catalog y ∧ t.view y = t.view x ∧
      (t.optionLayers ≤ 1 ∨ x.hasAbsent = false → y.SameValue x) ∧
      (x.hasAbsent = true → t.absent? = some y) := by
  cases hx : x.hasAbsent with
  | false =>
      obtain ⟨y, hread, hheld, hview, hsame⟩ := ht.round_trip_of_present h hx
      exact ⟨y, hread, hheld, hview, fun _ => hsame, nofun⟩
  | true =>
      obtain ⟨y, habsent, hheld, hyAbsent, hunique⟩ := ht.exists_absent h hx
      have hview := (ht.view_eq_nil_iff h).mpr hx
      refine ⟨y, ?_, hheld, ?_, ?_, fun _ => habsent⟩
      · rw [hview, ht.ofView?_nil, habsent]
      · rw [hview, ht.view_eq_nil_iff hheld, hyAbsent]
      · rintro (hlayers | hpresent)
        · rw [hunique hlayers]
          exact .refl x
        · cases hpresent

/-- Two options with a box between them, on 32-bit numbers.  A value that is absent inside
comes back as absent outside, and a pattern that is no number as one of them. -/
theorem tower_round_trip_f32 :
    let t : FieldType SampleType := .option (.box (.option .f32))
    let catalog : Catalog SampleType := Catalog.ofShapes []
    let inner : Data := .some .none
    let odd : Data := .some (.some (.f32 0xffc00001))
    t.IsTower ∧ t.Holds catalog inner ∧ t.Holds catalog odd ∧
      (∃ y, t.ofView? (t.view inner) = some y ∧ t.absent? = some y) ∧
      ∃ y, t.ofView? (t.view odd) = some y ∧ y.SameValue odd := by
  intro t catalog inner odd
  have ht : t.IsTower := .option (.box (.option (.foot rfl)))
  have hinner : t.Holds catalog inner := .given (.box (.absent _))
  have hodd : t.Holds catalog odd := .given (.box (.given (.f32 _)))
  obtain ⟨y, hread, -, -, -, habsent⟩ := tower_round_trip ht hinner
  obtain ⟨z, hread', -, -, hsame, -⟩ := tower_round_trip ht hodd
  exact ⟨ht, hinner, hodd, ⟨y, hread, habsent rfl⟩, z, hread', hsame (Or.inr rfl)⟩

end FieldType

end RecordKit
