/-!
# Shared objects

A pool holds objects under numbers.  Whoever has the number of an object reaches
that object, so all holders see each other's changes, and objects with different
numbers never affect each other.  Objects stay for good.
-/

namespace RecordKit

/-- Objects under the numbers `0, 1, 2, …`. -/
structure Pool (α : Type) where
  objects : List α

namespace Pool

variable {α : Type}

def empty : Pool α := ⟨[]⟩

def get? (p : Pool α) (ref : Nat) : Option α :=
  p.objects[ref]?

/-- Add an object and return its number. -/
def add (p : Pool α) (object : α) : Nat × Pool α :=
  (p.objects.length, ⟨p.objects ++ [object]⟩)

def set (p : Pool α) (ref : Nat) (object : α) : Pool α :=
  ⟨p.objects.set ref object⟩

theorem get?_add_new (p : Pool α) (object : α) :
    (p.add object).2.get? (p.add object).1 = some object := by
  simp [add, get?]

theorem get?_add_old (p : Pool α) (object : α) {ref : Nat} (h : ref < p.objects.length) :
    (p.add object).2.get? ref = p.get? ref := by
  simp [add, get?, List.getElem?_append_left h]

theorem get?_set_other (p : Pool α) (object : α) {ref other : Nat} (h : ref ≠ other) :
    (p.set ref object).get? other = p.get? other := by
  simp [set, get?, List.getElem?_set_ne h]

theorem get?_set_self (p : Pool α) (object : α) {ref : Nat} (h : ref < p.objects.length) :
    (p.set ref object).get? ref = some object := by
  simp [set, get?, h]

theorem set_of_get? {p : Pool α} {object : α} {ref : Nat} (h : p.get? ref = some object) :
    p.set ref object = p := by
  obtain ⟨hlt, rfl⟩ := List.getElem?_eq_some_iff.mp h
  simp [set]

end Pool

end RecordKit
