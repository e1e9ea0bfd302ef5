import RecordKit.Proofs.Text.Utf8.Character

/-!
# Characters and ill-formed stretches

Bytes divide into characters and ill-formed stretches.  A stretch begins where no character
starts, and it is the longest start of a character there, or a single byte if even that
starts none.  `units_eq_iff` says that reading divides bytes in this way, which is the only
one.

Reading has no memory across a character, so what stands behind a text is read as if it
stood alone (`decodeLossy_encode_append`).
-/

namespace RecordKit.Text.Utf8

variable {byte : UInt8} {bytes rest : List UInt8} {c d : Char} {b b' : Begun}

/-! ## Characters and ill-formed stretches -/

theorem unitsFrom_of_whole (h : (Step.begun b).feed bytes = .whole c) (rest : List UInt8) :
    unitsFrom (some b) (bytes ++ rest) = some c :: units rest := by
  induction bytes generalizing b with
  | nil => cases h
  | cons byte more ih =>
      rw [Step.feed] at h
      rw [List.cons_append, unitsFrom]
      cases hnext : b.extend byte with
      | whole d =>
          rw [hnext, feed_whole_iff] at h
          obtain ⟨rfl, rfl⟩ := h
          rfl
      | begun next =>
          rw [hnext] at h
          exact ih h
      | ill =>
          rw [hnext] at h
          exact absurd h feed_ill_ne

theorem unitsFrom_of_begun (h : (Step.begun b).feed bytes = .begun b') (rest : List UInt8) :
    unitsFrom (some b) (bytes ++ rest) = unitsFrom (some b') rest := by
  induction bytes generalizing b with
  | nil =>
      obtain rfl := Step.begun.inj h
      rfl
  | cons byte more ih =>
      rw [Step.feed] at h
      rw [List.cons_append, unitsFrom]
      cases hnext : b.extend byte with
      | begun next =>
          rw [hnext] at h
          exact ih h
      | whole d | ill =>
          rw [hnext] at h
          cases more <;> cases h

theorem units_encodeChar_append (c : Char) (rest : List UInt8) :
    units (encodeChar c ++ rest) = some c :: units rest := by
  have hread := readChar_encodeChar c
  cases hbytes : encodeChar c with
  | nil =>
      rw [hbytes] at hread
      cases hread
  | cons byte more =>
      rw [hbytes, readChar] at hread
      rw [List.cons_append, units, unitsFrom]
      cases hfirst : opening byte with
      | whole d =>
          rw [hfirst, feed_whole_iff] at hread
          obtain ⟨rfl, rfl⟩ := hread
          rfl
      | begun first =>
          rw [hfirst] at hread
          exact unitsFrom_of_whole hread rest
      | ill =>
          rw [hfirst] at hread
          exact absurd hread feed_ill_ne

/-- The first byte of the rest, if there is one, does not go on with the character. -/
def BreaksOff (b : Begun) (rest : List UInt8) : Prop :=
  ∀ byte, rest.head? = some byte → b.extend byte = .ill

/-- The byte that breaks a character off is read again. -/
theorem unitsFrom_of_breaksOff (h : BreaksOff b rest) :
    unitsFrom (some b) rest = none :: units rest := by
  cases rest with
  | nil => rfl
  | cons byte more =>
      rw [unitsFrom, h byte rfl, units, unitsFrom]

theorem units_of_breaksOff (hread : readChar bytes = .begun b) (h : BreaksOff b rest) :
    units (bytes ++ rest) = none :: units rest := by
  cases bytes with
  | nil => cases hread
  | cons byte more =>
      rw [readChar] at hread
      rw [List.cons_append, units, unitsFrom]
      cases hfirst : opening byte with
      | begun first =>
          rw [hfirst] at hread
          exact (unitsFrom_of_begun hread rest).trans (unitsFrom_of_breaksOff h)
      | whole d | ill =>
          rw [hfirst] at hread
          cases more <;> cases hread

/-- A stretch at which no character starts, and which is the longest start of a character
there, or a single byte if even that starts none. -/
structure IllFormed (stretch rest : List UInt8) : Prop where
  not_empty : stretch ≠ []
  no_char : ∀ c, ¬encodeChar c <+: stretch ++ rest
  start : Begins stretch ∨ stretch.length = 1
  longest : ∀ start, start <+: stretch ++ rest → Begins start → start.length ≤ stretch.length

/-- Bytes divided into characters and ill-formed stretches, `none` for each stretch. -/
inductive Divided : List UInt8 → List (Option Char) → Prop
  | done : Divided [] []
  | char (c : Char) {rest : List UInt8} {parts : List (Option Char)}
      (divided : Divided rest parts) :
      Divided (encodeChar c ++ rest) (some c :: parts)
  | ill {stretch rest : List UInt8} {parts : List (Option Char)} (ill : IllFormed stretch rest)
      (divided : Divided rest parts) : Divided (stretch ++ rest) (none :: parts)

/-- Only one stretch at the front of some bytes is ill-formed. -/
theorem IllFormed.unique {stretch stretch' rest rest' : List UInt8} (h : IllFormed stretch rest)
    (h' : IllFormed stretch' rest') (heq : stretch ++ rest = stretch' ++ rest') :
    stretch = stretch' ∧ rest = rest' := by
  have hle : ∀ {s t r u : List UInt8}, IllFormed s r → IllFormed t u → s ++ r = t ++ u →
      t.length ≤ s.length := by
    intro s t r u hs ht heq
    rcases ht.start with hbegins | hone
    · exact hs.longest t (heq ▸ List.prefix_append t u) hbegins
    · rw [hone]
      exact List.length_pos_iff.mpr hs.not_empty
  exact List.append_inj heq (Nat.le_antisymm (hle h' h heq.symm) (hle h h' heq))

theorem illFormed_of_breaksOff (hread : readChar bytes = .begun b) (h : BreaksOff b rest) :
    IllFormed bytes rest := by
  have hne : bytes ≠ [] := by
    rintro rfl
    cases hread
  have hbegins : Begins bytes := by
    rw [← readChar_ne_ill_iff hne, hread]
    exact Step.noConfusion
  have hlongest : ∀ start, start <+: bytes ++ rest → Begins start →
      start.length ≤ bytes.length := by
    intro start hstart hstartBegins
    apply Nat.le_of_not_lt
    intro hlonger
    -- A longer start would go on with the byte that breaks the character off.
    obtain ⟨more, rfl⟩ : bytes <+: start :=
      List.prefix_of_prefix_length_le (List.prefix_append bytes rest) hstart (by omega)
    rw [List.prefix_append_right_inj] at hstart
    cases more with
    | nil => simp at hlonger
    | cons byte more =>
        obtain ⟨last, rfl⟩ := hstart
        have hill : readChar (bytes ++ [byte]) = .ill := by
          rw [readChar_append hne, hread, Step.feed, h byte rfl, Step.feed_nil]
        have hgoesOn : Begins (bytes ++ [byte]) := hstartBegins.of_prefix ⟨more, by simp⟩
        exact (readChar_ne_ill_iff (by simp)).mpr hgoesOn hill
  refine ⟨hne, ?_, Or.inl hbegins, hlongest⟩
  intro c hc
  have hprefix : encodeChar c <+: bytes :=
    List.prefix_of_prefix_length_le hc (List.prefix_append bytes rest)
      (hlongest _ hc ⟨c, List.prefix_rfl⟩)
  rw [hbegins.eq_encodeChar hprefix, readChar_encodeChar] at hread
  cases hread

theorem illFormed_of_opening (h : opening byte = .ill) (rest : List UInt8) :
    IllFormed [byte] rest := by
  have hbegins : ∀ start, start <+: [byte] ++ rest → Begins start → start = [] := by
    rintro (_ | ⟨first, more⟩) hstart hstartBegins
    · rfl
    · obtain rfl : first = byte := (List.cons_prefix_cons.mp hstart).1
      have hfirst : Begins [first] := hstartBegins.of_prefix (List.prefix_append [first] more)
      exact absurd h ((readChar_ne_ill_iff (List.cons_ne_nil _ _)).mpr hfirst)
  refine ⟨List.cons_ne_nil _ _, ?_, Or.inr rfl, ?_⟩
  · intro c hc
    exact encodeChar_ne_nil c (hbegins _ hc ⟨c, List.prefix_rfl⟩)
  · intro start hstart hstartBegins
    rw [hbegins start hstart hstartBegins]
    exact Nat.zero_le 1

/-- A character that has begun is ended by the bytes behind it, or broken off. -/
theorem exists_whole_or_breaksOff (hread : readChar bytes = .begun b) (rest : List UInt8) :
    (∃ c behind, bytes ++ rest = encodeChar c ++ behind) ∨
      ∃ stretch behind last, bytes ++ rest = stretch ++ behind ∧ readChar stretch = .begun last ∧
        BreaksOff last behind := by
  induction rest generalizing bytes b with
  | nil => exact Or.inr ⟨bytes, [], b, rfl, hread, by simp [BreaksOff]⟩
  | cons byte rest ih =>
      have hne : bytes ≠ [] := by
        rintro rfl
        cases hread
      have hnext : readChar (bytes ++ [byte]) = b.extend byte := by
        rw [readChar_append hne, hread, Step.feed, Step.feed_nil]
      rw [List.append_cons]
      cases hstep : b.extend byte with
      | whole c =>
          rw [hstep, readChar_eq_whole_iff] at hnext
          exact Or.inl ⟨c, rest, by rw [hnext]⟩
      | begun next => exact ih (hnext.trans hstep)
      | ill =>
          refine Or.inr ⟨bytes, byte :: rest, b, by simp, hread, ?_⟩
          intro other hother
          obtain rfl := Option.some.inj hother
          exact hstep

/-- The first unit of some bytes is the character or the ill-formed stretch at their
front. -/
theorem units_cases (h : bytes ≠ []) :
    (∃ c rest, bytes = encodeChar c ++ rest ∧ units bytes = some c :: units rest) ∨
      ∃ stretch rest, bytes = stretch ++ rest ∧ IllFormed stretch rest ∧
        units bytes = none :: units rest := by
  cases bytes with
  | nil => exact absurd rfl h
  | cons byte more =>
      cases hfirst : opening byte with
      | whole c =>
          have hread : readChar [byte] = .whole c := hfirst ▸ rfl
          rw [readChar_eq_whole_iff] at hread
          refine Or.inl ⟨c, more, ?_, ?_⟩
          · rw [← hread]
            rfl
          · rw [← units_encodeChar_append, ← hread]
            rfl
      | begun first =>
          have hread : readChar [byte] = .begun first := hfirst ▸ rfl
          rcases exists_whole_or_breaksOff hread more with ⟨c, rest, hbytes⟩ |
            ⟨stretch, rest, last, hbytes, hstretch, hbreaks⟩
          · have hunits := (congrArg units hbytes).trans (units_encodeChar_append c rest)
            exact Or.inl ⟨c, rest, hbytes, hunits⟩
          · exact Or.inr ⟨stretch, rest, hbytes, illFormed_of_breaksOff hstretch hbreaks,
              (congrArg units hbytes).trans (units_of_breaksOff hstretch hbreaks)⟩
      | ill =>
          refine Or.inr ⟨[byte], more, rfl, illFormed_of_opening hfirst more, ?_⟩
          rw [units, unitsFrom, hfirst]
          rfl

theorem units_illFormed_append {stretch : List UInt8} (h : IllFormed stretch rest) :
    units (stretch ++ rest) = none :: units rest := by
  have hne : stretch ++ rest ≠ [] := by
    simp [h.not_empty]
  rcases units_cases hne with ⟨c, behind, hbytes, -⟩ | ⟨other, behind, hbytes, hother, hunits⟩
  · exact absurd ⟨behind, hbytes.symm⟩ (h.no_char c)
  · rw [hunits, (h.unique hother hbytes).2]

theorem divided_units (bytes : List UInt8) : Divided bytes (units bytes) := by
  generalize hlength : bytes.length = n
  induction n using Nat.strongRecOn generalizing bytes with
  | ind n ih =>
      by_cases hne : bytes = []
      · rw [hne]
        exact .done
      · rcases units_cases hne with ⟨c, rest, rfl, hunits⟩ | ⟨stretch, rest, rfl, hill, hunits⟩
        · rw [hunits]
          refine .char c (ih rest.length ?_ rest rfl)
          have hpos : 0 < (encodeChar c).length := List.length_pos_iff.mpr (encodeChar_ne_nil c)
          rw [← hlength, List.length_append]
          omega
        · rw [hunits]
          refine .ill hill (ih rest.length ?_ rest rfl)
          have hpos : 0 < stretch.length := List.length_pos_iff.mpr hill.not_empty
          rw [← hlength, List.length_append]
          omega

/-- Bytes are read as the characters and ill-formed stretches that they divide into, in
the one way in which they do. -/
theorem units_eq_iff (bytes : List UInt8) (parts : List (Option Char)) :
    units bytes = parts ↔ Divided bytes parts := by
  constructor
  · rintro rfl
    exact divided_units bytes
  · intro h
    induction h with
    | done => rfl
    | char c _ ih => rw [units_encodeChar_append, ih]
    | ill hill _ ih => rw [units_illFormed_append hill, ih]

/-- A character that breaks off, a letter, and the two bytes of a surrogate that breaks off. -/
example : units [0xE2, 0x82, 0x41, 0xED, 0xA0] = [none, some 'A', none, none] := by
  decide

/-! ## Texts -/

theorem units_encodeList_append (cs : List Char) (bytes : List UInt8) :
    units (encodeList cs ++ bytes) = cs.map some ++ units bytes := by
  induction cs with
  | nil => rfl
  | cons c rest ih =>
      rw [encodeList, List.flatMap_cons, List.append_assoc, units_encodeChar_append]
      exact congrArg (some c :: ·) ih

/-- What stands behind a text has no say in how the text is read, nor the text in how the
rest is. -/
theorem decodeLossy_encode_append (s : String) (bytes : List UInt8) :
    decodeLossy (encode s ++ bytes) = s ++ decodeLossy bytes := by
  unfold decodeLossy encode
  rw [units_encodeList_append, List.map_append, String.ofList_append, List.map_map]
  simp [Function.comp_def]

@[simp] theorem decodeLossy_encode (s : String) : decodeLossy (encode s) = s := by
  have h := decodeLossy_encode_append s []
  rwa [List.append_nil, show decodeLossy [] = "" from rfl, String.append_empty] at h

theorem encode_injective {s t : String} (h : encode s = encode t) : s = t := by
  rw [← decodeLossy_encode s, h, decodeLossy_encode]

theorem encodeChar_eq_utf8EncodeChar (c : Char) : encodeChar c = String.utf8EncodeChar c := by
  have hvalid : c.toNat < 0xD800 ∨ 0xDFFF < c.toNat ∧ c.toNat < 0x110000 := c.valid
  unfold encodeChar String.utf8EncodeChar
  rw [Char.toNat_val]
  generalize c.toNat = n at hvalid
  by_cases h1 : n < 0x80
  · simp [h1, show n ≤ 127 by omega]
  by_cases h2 : n < 0x800
  · have hbits : n / 64 % 32 = n / 64 := by omega
    simp [h1, h2, show ¬n ≤ 127 by omega, show n ≤ 2047 by omega, hbits, Nat.add_comm]
  by_cases h3 : n < 0x10000
  · have hbits : n / 4096 % 16 = n / 4096 := by omega
    simp [h1, h2, h3, show ¬n ≤ 127 by omega, show ¬n ≤ 2047 by omega, show n ≤ 65535 by omega,
      hbits, Nat.add_comm]
  · have hbits : n / 262144 % 8 = n / 262144 := by omega
    simp [h1, h2, h3, show ¬n ≤ 127 by omega, show ¬n ≤ 2047 by omega, show ¬n ≤ 65535 by omega,
      hbits, Nat.add_comm]

/-- The bytes of a text are those of the built-in encoding. -/
theorem toByteArray_encode (s : String) : (encode s).toByteArray = s.toByteArray := by
  have hchar : encodeChar = String.utf8EncodeChar := funext encodeChar_eq_utf8EncodeChar
  rw [← String.utf8Encode_toList, List.utf8Encode, encode, encodeList, hchar]

/-- Bytes are well-formed exactly if they encode a text. -/
theorem isValidUTF8_iff (bytes : List UInt8) :
    bytes.toByteArray.IsValidUTF8 ↔ ∃ s, encode s = bytes := by
  constructor
  · rintro ⟨cs, hcs⟩
    refine ⟨String.ofList cs, List.toByteArray_inj.mp ?_⟩
    rw [toByteArray_encode, String.toByteArray_ofList, hcs]
  · rintro ⟨s, rfl⟩
    rw [toByteArray_encode]
    exact s.isValidUTF8

end RecordKit.Text.Utf8
