import RecordKit.Copy.Run
import RecordKit.Proofs.Number.Range
import RecordKit.Proofs.Text.Utf8.Units
import RecordKit.Sample.UserTypes

/-!
# Values converted through their views

A converting action builds the value of its destination field from the view of its source
field.  What that does depends on the two types alone (`FieldType.convert?`,
`CopyAction.transfer?_eq_convert?`).

* `FieldType.convert_int_congruent`: between integer types a number is wrapped into the
  range, and a type of at least as many bits gives it back.
* `FieldType.convert_text_lossy`: texts and byte sequences are each other's UTF-8, and a
  text at the front of a byte sequence is read as if nothing stood behind it.
-/

namespace RecordKit

variable {C : Type} [UserType C]

/-- The value that a type builds from the view of a value of another type. -/
def FieldType.convert? (source dest : FieldType C) (value : Data) : Option Data :=
  dest.ofView? (source.view value)

/-- An action between fields that are not sealed converts between their types. -/
theorem CopyAction.transfer?_eq_convert? {a : CopyAction C} (h : a.conversion = true)
    (hsource : a.source.last.isSealed = false) (hdest : a.dest.last.isSealed = false)
    (value : Data) : a.transfer? value = a.source.last.type.convert? a.dest.last.type value := by
  simp only [transfer?, h, if_true, Field.view, Field.ofView?, hsource, hdest, Bool.false_eq_true,
    if_false, FieldType.convert?]

/-- The value that comes back from a type. -/
def FieldType.convertBack? (source dest : FieldType C) (value : Data) : Option Data :=
  (source.convert? dest value).bind (dest.convert? source)

namespace FieldType

/-! ## Integers -/

/-- An integer is shown with its sign, or as a natural number. -/
theorem view_int_cases {t : IntType} {n : Int} (h : t.Holds n) :
    (int t : FieldType C).view (.int n) = .int n ∨
      ∃ k : Nat, (int t : FieldType C).view (.int n) = .uint k ∧ (k : Int) = n := by
  obtain ⟨signed, width⟩ := t
  cases signed with
  | true => exact Or.inl rfl
  | false =>
      have hn : (n.toNat : Int) = n := Int.toNat_of_nonneg h.1
      exact Or.inr ⟨n.toNat, rfl, hn⟩

theorem convert?_int_eq {a : IntType} (b : IntType) {n : Int} (h : a.Holds n) :
    (int a : FieldType C).convert? (int b) (.int n) = some (.int (b.wrap n)) := by
  rw [convert?]
  rcases view_int_cases (C := C) h with hview | ⟨k, hview, rfl⟩
  · rw [hview]
    rfl
  · rw [hview]
    rfl

/-- A number converted into an integer type becomes the one number of its range that is
congruent to it modulo two to the number of bits.  So it stays as it is exactly if it lies
in the range, and a type of at least as many bits gives back every number, whatever the
two signs are. -/
theorem convert_int_congruent (a b : IntType) {n : Int} (h : a.Holds n) :
    ∃ m, (int a : FieldType C).convert? (int b) (.int n) = some (.int m) ∧
      (∀ k, k = m ↔ b.Holds k ∧ k ≡ n [ZMOD 2 ^ b.bits]) ∧
      (m = n ↔ b.Holds n) ∧
      (a.bits ≤ b.bits → (int b : FieldType C).convert? (int a) (.int m) = some (.int n)) := by
  refine ⟨b.wrap n, convert?_int_eq b h, fun k => IntType.eq_wrap_iff, IntType.wrap_eq_self_iff, ?_⟩
  intro hbits
  rw [convert?_int_eq a (b.wrap_holds n), IntType.wrap_wrap hbits, IntType.wrap_eq_self_iff.mpr h]

/-- Two types of 64 bits: the greatest number without a sign is minus one with a sign, and
comes back. -/
theorem convert_int_greatest :
    let a : IntType := ⟨false, .size⟩
    let b : IntType := ⟨true, .w64⟩
    let n : Int := 0xFFFFFFFFFFFFFFFF
    a.Holds n ∧ ¬b.Holds n ∧
      (int a : FieldType SampleType).convert? (int b) (.int n) = some (.int (-1)) ∧
      (int b : FieldType SampleType).convert? (int a) (.int (-1)) = some (.int n) := by
  intro a b n
  have hn : a.Holds n := by decide
  obtain ⟨m, hconvert, hunique, -, hback⟩ := convert_int_congruent (C := SampleType) a b hn
  obtain rfl : -1 = m := (hunique (-1)).mpr ⟨by decide, by decide⟩
  exact ⟨hn, by decide, hconvert, hback (by decide)⟩

/-! ## Texts and byte sequences -/

open Text.Utf8

theorem convert?_string_byteList (s : String) :
    (string : FieldType C).convert? byteList (.text s) = some (.bytes (encode s)) :=
  rfl

theorem convert?_byteList_string (bytes : List UInt8) :
    (byteList : FieldType C).convert? string (.bytes bytes) = some (.text (decodeLossy bytes)) :=
  rfl

theorem convertBack?_string (s : String) :
    (string : FieldType C).convertBack? byteList (.text s) = some (.text s) := by
  rw [convertBack?, convert?_string_byteList, Option.bind_some, convert?_byteList_string,
    decodeLossy_encode]

theorem convertBack?_byteList (bytes : List UInt8) :
    (byteList : FieldType C).convertBack? string (.bytes bytes) =
      some (.bytes (encode (decodeLossy bytes))) := by
  rw [convertBack?, convert?_byteList_string, Option.bind_some, convert?_string_byteList]

/-- A byte sequence becomes the text of its characters with U+FFFD for every ill-formed
stretch, and a text that is put in front of it stays in front.  So a text comes back from
byte sequences; a byte sequence comes back from texts exactly if it is well-formed, and
what comes back in its place otherwise is well-formed and stays. -/
theorem convert_text_lossy (s : String) (bytes : List UInt8) :
    (∃ parts t, Divided bytes parts ∧ t = String.ofList (parts.map (·.getD replacement)) ∧
      (string : FieldType C).ofView? (.bytes bytes) = some (.text t) ∧
        (string : FieldType C).ofView? (.bytes (s.toUTF8.data.toList ++ bytes)) =
          some (.text (s ++ t))) ∧
      (string : FieldType C).convert? byteList (.text s) = some (.bytes s.toUTF8.data.toList) ∧
      (string : FieldType C).convertBack? byteList (.text s) = some (.text s) ∧
      ((byteList : FieldType C).convertBack? string (.bytes bytes) = some (.bytes bytes) ↔
        bytes.toByteArray.IsValidUTF8) ∧
      ∃ back, (byteList : FieldType C).convertBack? string (.bytes bytes) = some back ∧
        (byteList : FieldType C).convertBack? string back = some back := by
  have hutf8 : s.toUTF8.data.toList = encode s := by
    rw [String.toUTF8_eq_toByteArray, ← toByteArray_encode, List.data_toByteArray]
  rw [hutf8]
  refine ⟨⟨units bytes, decodeLossy bytes, divided_units bytes, rfl, rfl, ?_⟩,
    convert?_string_byteList s, convertBack?_string s, ?_, ?_⟩
  · exact congrArg (fun t => some (Data.text t)) (decodeLossy_encode_append s bytes)
  · rw [convertBack?_byteList, isValidUTF8_iff, Option.some.injEq, Data.bytes.injEq]
    constructor
    · intro h
      exact ⟨decodeLossy bytes, h⟩
    · rintro ⟨t, rfl⟩
      rw [decodeLossy_encode]
  · refine ⟨.bytes (encode (decodeLossy bytes)), convertBack?_byteList bytes, ?_⟩
    rw [convertBack?_byteList, decodeLossy_encode]

end FieldType

end RecordKit
