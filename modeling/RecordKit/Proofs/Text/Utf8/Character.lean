import RecordKit.Text.Utf8

/-!
# The bytes of one character

A machine reads the bytes of a character one after the other.  `readChar_eq_whole_iff` says
that it ends with a character on the bytes that encode it and on no others, so longer forms
than needed, surrogates and values above U+10FFFF never become characters.
`readChar_ne_ill_iff` says that it goes on as long as some character begins with the bytes
so far.
-/

namespace RecordKit.Text.Utf8

/-! ## The bytes of one character -/

theorem toNat_ofNat {n : Nat} (h : n.isValidChar) : (Char.ofNat n).toNat = n := by
  rw [Char.ofNat, dif_pos h]
  rfl

/-- The byte with six bits of a character after its first byte. -/
def trailing (bits : Nat) : UInt8 :=
  (0x80 + bits).toUInt8

theorem toNat_toUInt8 {n : Nat} (h : n < 256) : n.toUInt8.toNat = n := by
  simp [Nat.mod_eq_of_lt h]

theorem eq_toUInt8_iff {byte : UInt8} {n : Nat} (h : n < 256) :
    byte = n.toUInt8 ↔ byte.toNat = n := by
  rw [← UInt8.toNat_inj, toNat_toUInt8 h]

theorem exists_trailing {byte : UInt8} (hlow : 0x80 ≤ byte.toNat) (hhigh : byte.toNat ≤ 0xBF) :
    ∃ bits < 64, byte = trailing bits := by
  refine ⟨byte.toNat - 0x80, by omega, ?_⟩
  unfold trailing
  rw [eq_toUInt8_iff (by omega)]
  omega

theorem encodeChar_ofNat_one {n : Nat} (h : n < 0x80) :
    encodeChar (Char.ofNat n) = [n.toUInt8] := by
  have hvalid : n.isValidChar := Or.inl (by omega)
  simp only [encodeChar, toNat_ofNat hvalid, if_pos h]

theorem encodeChar_ofNat_two {k l : Nat} (hk : 2 ≤ k) (hk' : k < 32) (hl : l < 64) :
    encodeChar (Char.ofNat (64 * k + l)) = [(0xC0 + k).toUInt8, trailing l] := by
  have hvalid : (64 * k + l).isValidChar := Or.inl (by omega)
  have hn : (64 * k + l) / 64 = k ∧ (64 * k + l) % 64 = l := by omega
  simp only [encodeChar, toNat_ofNat hvalid]
  rw [if_neg (by omega), if_pos (by omega), hn.1, hn.2]
  rfl

theorem encodeChar_ofNat_three {k l m : Nat} (hl : l < 64) (hm : m < 64)
    (hlow : 0x800 ≤ 64 * (64 * k + l) + m) (hhigh : 64 * (64 * k + l) + m < 0x10000)
    (hvalid : (64 * (64 * k + l) + m).isValidChar) :
    encodeChar (Char.ofNat (64 * (64 * k + l) + m)) =
      [(0xE0 + k).toUInt8, trailing l, trailing m] := by
  generalize hn : 64 * (64 * k + l) + m = n at hlow hhigh hvalid
  have hbits : n / 4096 = k ∧ n / 64 % 64 = l ∧ n % 64 = m := by omega
  simp only [encodeChar, toNat_ofNat hvalid]
  rw [if_neg (by omega), if_neg (by omega), if_pos hhigh, hbits.1, hbits.2.1, hbits.2.2]
  rfl

theorem encodeChar_ofNat_four {k l m n : Nat} (hl : l < 64) (hm : m < 64) (hn : n < 64)
    (hlow : 0x10000 ≤ 64 * (64 * (64 * k + l) + m) + n)
    (hvalid : (64 * (64 * (64 * k + l) + m) + n).isValidChar) :
    encodeChar (Char.ofNat (64 * (64 * (64 * k + l) + m) + n)) =
      [(0xF0 + k).toUInt8, trailing l, trailing m, trailing n] := by
  generalize hv : 64 * (64 * (64 * k + l) + m) + n = v at hlow hvalid
  have hbits : v / 262144 = k ∧ v / 4096 % 64 = l ∧ v / 64 % 64 = m ∧ v % 64 = n := by omega
  simp only [encodeChar, toNat_ofNat hvalid]
  rw [if_neg (by omega), if_neg (by omega), if_neg (by omega), hbits.1, hbits.2.1, hbits.2.2.1,
    hbits.2.2.2]
  rfl

/-! ## The machine on the bytes of one character -/

theorem opening_one {n : Nat} (h : n < 0x80) : opening n.toUInt8 = .whole (Char.ofNat n) := by
  simp only [opening, toNat_toUInt8 (show n < 256 by omega), if_pos h]

theorem opening_two {k : Nat} (hk : 2 ≤ k) (hk' : k < 32) :
    opening (0xC0 + k).toUInt8 = .begun ⟨0, 0x80, 0xBF, k⟩ := by
  have hbits : (0xC0 + k) % 32 = k := by omega
  simp only [opening, toNat_toUInt8 (show 0xC0 + k < 256 by omega), hbits]
  rw [if_neg (by omega), if_neg (by omega), if_pos (by omega)]

theorem opening_three : ∀ k < 16, opening (0xE0 + k).toUInt8 =
    .begun ⟨1, if k = 0 then 0xA0 else 0x80, if k = 13 then 0x9F else 0xBF, k⟩ := by
  decide +kernel

theorem opening_four : ∀ k < 5, opening (0xF0 + k).toUInt8 =
    .begun ⟨2, if k = 0 then 0x90 else 0x80, if k = 4 then 0x8F else 0xBF, k⟩ := by
  decide +kernel

/-- A byte that does not begin a character in one of four ways begins none. -/
theorem opening_cases (byte : UInt8) :
    (∃ n < 0x80, byte = n.toUInt8) ∨ (∃ k < 32, 2 ≤ k ∧ byte = (0xC0 + k).toUInt8) ∨
      (∃ k < 16, byte = (0xE0 + k).toUInt8) ∨ (∃ k < 5, byte = (0xF0 + k).toUInt8) ∨
      opening byte = .ill := by
  have hlt : byte.toNat < 256 := byte.toNat_lt
  generalize hn : byte.toNat = n at hlt
  have hbyte : byte = n.toUInt8 := (eq_toUInt8_iff hlt).mpr hn
  have hbase : ∀ base ≤ n, byte = (base + (n - base)).toUInt8 := by
    intro base hle
    rw [hbyte, Nat.add_sub_cancel' hle]
  by_cases h1 : n < 0x80
  · exact Or.inl ⟨n, h1, hbyte⟩
  by_cases h2 : n < 0xC2
  · simp [opening, hn, h1, h2]
  by_cases h3 : n < 0xE0
  · exact Or.inr (Or.inl ⟨n - 0xC0, by omega, by omega, hbase 0xC0 (by omega)⟩)
  by_cases h4 : n < 0xF0
  · exact Or.inr (Or.inr (Or.inl ⟨n - 0xE0, by omega, hbase 0xE0 (by omega)⟩))
  by_cases h5 : n < 0xF5
  · exact Or.inr (Or.inr (Or.inr (Or.inl ⟨n - 0xF0, by omega, hbase 0xF0 (by omega)⟩)))
  · refine Or.inr (Or.inr (Or.inr (Or.inr ?_)))
    simp only [opening, hn]
    repeat rw [if_neg (by omega)]

/-- The step that bytes make of a step.  A whole character takes no more bytes. -/
def Step.feed : Step → List UInt8 → Step
  | step, [] => step
  | .begun b, byte :: rest => (b.extend byte).feed rest
  | .whole _, _ :: _ | .ill, _ :: _ => .ill

@[simp] theorem Step.feed_nil (step : Step) : step.feed [] = step := by
  cases step <;> rfl

/-- The step that bytes make from the start of a character. -/
def readChar : List UInt8 → Step
  | [] => .ill
  | byte :: rest => (opening byte).feed rest

theorem Step.feed_append (step : Step) (bytes more : List UInt8) :
    step.feed (bytes ++ more) = (step.feed bytes).feed more := by
  induction bytes generalizing step with
  | nil => simp
  | cons byte rest ih =>
      cases step with
      | begun b => exact ih (b.extend byte)
      | whole c | ill => cases more <;> rfl

/-- The step that six more bits make of a character. -/
def Begun.next (b : Begun) (bits : Nat) : Step :=
  match b.owed with
  | 0 => .whole (Char.ofNat (64 * b.acc + bits))
  | owed + 1 => .begun ⟨owed, 0x80, 0xBF, 64 * b.acc + bits⟩

theorem Begun.extend_trailing {b : Begun} {bits : Nat} (h : bits < 64)
    (hlow : b.low ≤ 0x80 + bits) (hhigh : 0x80 + bits ≤ b.high) :
    b.extend (trailing bits) = b.next bits := by
  have hbits : (0x80 + bits) % 64 = bits := by omega
  simp only [extend, trailing, toNat_toUInt8 (show 0x80 + bits < 256 by omega), hbits]
  rw [if_pos ⟨hlow, hhigh⟩]
  rfl

theorem Begun.extend_eq_ill {b : Begun} {byte : UInt8}
    (h : ¬(b.low ≤ byte.toNat ∧ byte.toNat ≤ b.high)) : b.extend byte = .ill := by
  simp only [extend, if_neg h]

variable {owed low high acc : Nat} {bytes : List UInt8} {c d : Char}

theorem feed_whole_iff : (Step.whole d).feed bytes = .whole c ↔ bytes = [] ∧ d = c := by
  cases bytes <;> simp [Step.feed]

theorem feed_ill_ne : Step.ill.feed bytes ≠ .whole c := by
  cases bytes <;> simp [Step.feed]

/-- The bytes that make a whole character of one that has begun. -/
theorem feed_begun_iff (hlow : 0x80 ≤ low) (hhigh : high ≤ 0xBF) :
    (Step.begun ⟨owed, low, high, acc⟩).feed bytes = .whole c ↔
      ∃ bits < 64, (low ≤ 0x80 + bits ∧ 0x80 + bits ≤ high) ∧ ∃ rest,
        bytes = trailing bits :: rest ∧
          (Begun.next ⟨owed, low, high, acc⟩ bits).feed rest = .whole c := by
  constructor
  · intro h
    cases bytes with
    | nil => cases h
    | cons byte rest =>
        rw [Step.feed] at h
        by_cases hrange : low ≤ byte.toNat ∧ byte.toNat ≤ high
        · obtain ⟨bits, hbits, rfl⟩ : ∃ bits < 64, byte = trailing bits :=
            exists_trailing (by omega) (by omega)
          rw [trailing, toNat_toUInt8 (by omega)] at hrange
          rw [Begun.extend_trailing hbits hrange.1 hrange.2] at h
          exact ⟨bits, hbits, hrange, rest, rfl, h⟩
        · rw [Begun.extend_eq_ill hrange] at h
          exact absurd h feed_ill_ne
  · rintro ⟨bits, hbits, hrange, rest, rfl, h⟩
    rw [Step.feed, Begun.extend_trailing hbits hrange.1 hrange.2]
    exact h

/-- The byte that makes a whole character of one that owes none besides it. -/
theorem feed_last_iff :
    (Step.begun ⟨0, 0x80, 0xBF, acc⟩).feed bytes = .whole c ↔
      ∃ bits < 64, bytes = [trailing bits] ∧ Char.ofNat (64 * acc + bits) = c := by
  rw [feed_begun_iff (by decide) (by decide)]
  constructor
  · rintro ⟨bits, hbits, -, rest, rfl, h⟩
    obtain ⟨rfl, rfl⟩ := feed_whole_iff.mp h
    exact ⟨bits, hbits, rfl, rfl⟩
  · rintro ⟨bits, hbits, rfl, rfl⟩
    exact ⟨bits, hbits, ⟨Nat.le_add_right _ _, by omega⟩, [], rfl, rfl⟩

theorem eq_encodeChar_of_readChar (h : readChar bytes = .whole c) : bytes = encodeChar c := by
  cases bytes with
  | nil => cases h
  | cons byte rest =>
      rcases opening_cases byte with ⟨n, hn, rfl⟩ | ⟨k, hk, hk', rfl⟩ | ⟨k, hk, rfl⟩ |
        ⟨k, hk, rfl⟩ | hill
      · rw [readChar, opening_one hn] at h
        cases rest with
        | nil =>
            obtain rfl := Step.whole.inj h
            exact (encodeChar_ofNat_one hn).symm
        | cons byte rest => cases h
      · rw [readChar, opening_two hk' hk, feed_last_iff] at h
        obtain ⟨l, hl, rfl, rfl⟩ := h
        exact (encodeChar_ofNat_two hk' hk hl).symm
      · rw [readChar, opening_three k hk,
          feed_begun_iff (by split <;> omega) (by split <;> omega)] at h
        obtain ⟨l, hl, ⟨hlow, hhigh⟩, rest, rfl, h⟩ := h
        obtain ⟨m, hm, rfl, rfl⟩ := feed_last_iff.mp h
        have hvalid : (64 * (64 * k + l) + m).isValidChar := by
          unfold Nat.isValidChar
          split at hhigh <;> omega
        exact (encodeChar_ofNat_three hl hm (by split at hlow <;> omega) (by omega) hvalid).symm
      · rw [readChar, opening_four k hk,
          feed_begun_iff (by split <;> omega) (by split <;> omega)] at h
        obtain ⟨l, hl, ⟨hlow, hhigh⟩, rest, rfl, h⟩ := h
        obtain ⟨m, hm, -, rest, rfl, hlast⟩ := (feed_begun_iff (by decide) (by decide)).mp h
        obtain ⟨n, hn, rfl, rfl⟩ := feed_last_iff.mp hlast
        have hlow : 0x10000 ≤ 64 * (64 * (64 * k + l) + m) + n := by
          split at hlow <;> omega
        have hvalid : (64 * (64 * (64 * k + l) + m) + n).isValidChar := by
          unfold Nat.isValidChar
          split at hhigh <;> omega
        exact (encodeChar_ofNat_four hl hm hn hlow hvalid).symm
      · rw [readChar, hill] at h
        exact absurd h feed_ill_ne

theorem readChar_encodeChar (c : Char) : readChar (encodeChar c) = .whole c := by
  have hvalid : c.toNat.isValidChar := c.valid
  have hc : Char.ofNat c.toNat = c := c.ofNat_toNat
  generalize c.toNat = n at hvalid hc
  subst hc
  have hbound : n < 0xD800 ∨ 0xDFFF < n ∧ n < 0x110000 := hvalid
  by_cases h1 : n < 0x80
  · rw [encodeChar_ofNat_one h1, readChar, opening_one h1]
    rfl
  by_cases h2 : n < 0x800
  · obtain ⟨k, l, hl, rfl⟩ : ∃ k l, l < 64 ∧ n = 64 * k + l := ⟨n / 64, n % 64, by omega, by omega⟩
    rw [encodeChar_ofNat_two (by omega) (by omega) hl, readChar, opening_two (by omega) (by omega),
      feed_last_iff]
    exact ⟨l, hl, rfl, rfl⟩
  by_cases h3 : n < 0x10000
  · obtain ⟨k, l, m, hl, hm, rfl⟩ : ∃ k l m, l < 64 ∧ m < 64 ∧ n = 64 * (64 * k + l) + m :=
      ⟨n / 4096, n / 64 % 64, n % 64, by omega, by omega, by omega⟩
    rw [encodeChar_ofNat_three hl hm (by omega) h3 hvalid, readChar, opening_three k (by omega),
      feed_begun_iff (by split <;> omega) (by split <;> omega)]
    refine ⟨l, hl, ⟨by split <;> omega, by split <;> omega⟩, _, rfl, ?_⟩
    exact feed_last_iff.mpr ⟨m, hm, rfl, rfl⟩
  · obtain ⟨k, l, m, i, hl, hm, hi, rfl⟩ : ∃ k l m i, l < 64 ∧ m < 64 ∧ i < 64 ∧
        n = 64 * (64 * (64 * k + l) + m) + i :=
      ⟨n / 262144, n / 4096 % 64, n / 64 % 64, n % 64, by omega, by omega, by omega, by omega⟩
    rw [encodeChar_ofNat_four hl hm hi (by omega) hvalid, readChar, opening_four k (by omega),
      feed_begun_iff (by split <;> omega) (by split <;> omega)]
    refine ⟨l, hl, ⟨by split <;> omega, by split <;> omega⟩, _, rfl, ?_⟩
    refine (feed_begun_iff (by decide) (by decide)).mpr
      ⟨m, hm, ⟨Nat.le_add_right _ _, by omega⟩, _, rfl, ?_⟩
    exact feed_last_iff.mpr ⟨i, hi, rfl, rfl⟩

theorem encodeChar_ne_nil (c : Char) : encodeChar c ≠ [] := by
  intro h
  have hread := readChar_encodeChar c
  rw [h] at hread
  cases hread

theorem readChar_eq_whole_iff : readChar bytes = .whole c ↔ bytes = encodeChar c := by
  constructor
  · exact eq_encodeChar_of_readChar
  · rintro rfl
    exact readChar_encodeChar c

/-! ## Starts of characters -/

/-- Some character begins with the bytes. -/
def Begins (bytes : List UInt8) : Prop :=
  ∃ c, bytes <+: encodeChar c

theorem Begins.of_prefix {start bytes : List UInt8} (h : Begins bytes) (hstart : start <+: bytes) :
    Begins start := by
  obtain ⟨c, hc⟩ := h
  exact ⟨c, hstart.trans hc⟩

/-- A character that has begun can go on with a trailing byte. -/
structure Begun.Open (b : Begun) : Prop where
  low : 0x80 ≤ b.low
  range : b.low ≤ b.high
  high : b.high ≤ 0xBF

theorem open_trailing (owed acc : Nat) : Begun.Open ⟨owed, 0x80, 0xBF, acc⟩ where
  low := Nat.le_refl 0x80
  range := show 0x80 ≤ 0xBF by decide
  high := Nat.le_refl 0xBF

variable {byte : UInt8} {rest : List UInt8} {b b' : Begun}

theorem open_of_opening (h : opening byte = .begun b) : b.Open := by
  rcases opening_cases byte with ⟨n, hn, rfl⟩ | ⟨k, hk, hk', rfl⟩ | ⟨k, hk, rfl⟩ |
    ⟨k, hk, rfl⟩ | hill
  · rw [opening_one hn] at h
    cases h
  · rw [opening_two hk' hk] at h
    obtain rfl := Step.begun.inj h
    exact open_trailing 0 k
  · rw [opening_three k hk] at h
    obtain rfl := Step.begun.inj h
    exact ⟨by dsimp only; split <;> omega, by dsimp only; split <;> split <;> omega,
      by dsimp only; split <;> omega⟩
  · rw [opening_four k hk] at h
    obtain rfl := Step.begun.inj h
    exact ⟨by dsimp only; split <;> omega, by dsimp only; split <;> split <;> omega,
      by dsimp only; split <;> omega⟩
  · rw [hill] at h
    cases h

theorem open_of_extend (h : b.extend byte = .begun b') : b'.Open := by
  simp only [Begun.extend] at h
  split at h
  · split at h
    · cases h
    · obtain rfl := Step.begun.inj h
      exact open_trailing _ _
  · cases h

theorem Begun.Open.feed (hb : b.Open) (h : (Step.begun b).feed bytes = .begun b') : b'.Open := by
  induction bytes generalizing b with
  | nil =>
      obtain rfl := Step.begun.inj h
      exact hb
  | cons byte rest ih =>
      rw [Step.feed] at h
      cases hnext : b.extend byte with
      | begun next =>
          rw [hnext] at h
          exact ih (open_of_extend hnext) h
      | whole c | ill =>
          rw [hnext] at h
          cases rest <;> cases h

theorem open_of_readChar (h : readChar bytes = .begun b) : b.Open := by
  cases bytes with
  | nil => cases h
  | cons byte rest =>
      rw [readChar] at h
      cases hfirst : opening byte with
      | begun first =>
          rw [hfirst] at h
          exact (open_of_opening hfirst).feed h
      | whole c | ill =>
          rw [hfirst] at h
          cases rest <;> cases h

/-- The least byte of the range takes a character on. -/
theorem Begun.Open.exists_whole_of_next (hb : b.Open)
    (h : ∃ bytes c, (b.next (b.low - 0x80)).feed bytes = .whole c) :
    ∃ bytes c, (Step.begun b).feed bytes = .whole c := by
  obtain ⟨bytes, c, h⟩ := h
  obtain ⟨hlow, hrange, hhigh⟩ := hb
  have hbits : b.low - 0x80 < 64 ∧ b.low ≤ 0x80 + (b.low - 0x80) ∧
      0x80 + (b.low - 0x80) ≤ b.high := by omega
  exact ⟨trailing (b.low - 0x80) :: bytes, c,
    (feed_begun_iff hlow hhigh).mpr ⟨_, hbits.1, hbits.2, bytes, rfl, h⟩⟩

theorem Begun.Open.exists_whole (hb : b.Open) :
    ∃ bytes c, (Step.begun b).feed bytes = .whole c := by
  obtain ⟨owed, low, high, acc⟩ := b
  induction owed generalizing low high acc with
  | zero => exact hb.exists_whole_of_next ⟨[], _, rfl⟩
  | succ owed ih => exact hb.exists_whole_of_next (ih _ _ _ (open_trailing owed _))

theorem readChar_append (h : bytes ≠ []) (more : List UInt8) :
    readChar (bytes ++ more) = (readChar bytes).feed more := by
  cases bytes with
  | nil => exact absurd rfl h
  | cons byte rest => exact Step.feed_append _ rest more

/-- Bytes are ill-formed exactly if no character begins with them. -/
theorem readChar_ne_ill_iff (h : bytes ≠ []) : readChar bytes ≠ .ill ↔ Begins bytes := by
  constructor
  · intro hread
    cases hstep : readChar bytes with
    | whole c =>
        rw [readChar_eq_whole_iff] at hstep
        exact ⟨c, hstep ▸ List.prefix_rfl⟩
    | begun b =>
        obtain ⟨more, c, hmore⟩ := (open_of_readChar hstep).exists_whole
        rw [← hstep, ← readChar_append h, readChar_eq_whole_iff] at hmore
        exact ⟨c, more, hmore⟩
    | ill => exact absurd hstep hread
  · rintro ⟨c, more, hmore⟩ hill
    have hwhole := readChar_encodeChar c
    rw [← hmore, readChar_append h, hill] at hwhole
    exact feed_ill_ne hwhole

/-- No character begins with another one. -/
theorem Begins.eq_encodeChar (h : Begins bytes) (hc : encodeChar c <+: bytes) :
    bytes = encodeChar c := by
  obtain ⟨d, more, hmore⟩ := h
  obtain ⟨between, rfl⟩ := hc
  have hread := readChar_encodeChar d
  rw [← hmore, List.append_assoc, readChar_append (encodeChar_ne_nil c), readChar_encodeChar,
    feed_whole_iff, List.append_eq_nil_iff] at hread
  rw [hread.1.1, List.append_nil]

end RecordKit.Text.Utf8
