import RecordKit.Text.Numeral

/-!
# What a numeral denotes

Readers of whole numbers are compared with the value that core gives to decimal digits,
`Nat.ofDigitChars`.  `Denotes` says that a text consists of one or more ASCII digits with
that value, so leading zeros do not count, and `SpellsNat` allows a plus sign before them.

* `unsigned?_eq_some_iff`: a reader accepts exactly the numerals below its bound.
* `signed?_of_spellsNat`: a reader of signed numbers reads the same numerals, up to its own
  bound.
-/

namespace RecordKit.Text

/-- One or more ASCII digits, with any number of leading zeros, that denote a number. -/
structure Denotes (cs : List Char) (n : Nat) : Prop where
  ne_nil : cs ≠ []
  isDigit : ∀ c ∈ cs, c.isDigit = true
  value : Nat.ofDigitChars 10 cs 0 = n

/-- Digits that denote a number, after an optional plus sign. -/
inductive SpellsNat : List Char → Nat → Prop
  | plain {cs : List Char} {n : Nat} (digits : Denotes cs n) : SpellsNat cs n
  | plus {cs : List Char} {n : Nat} (digits : Denotes cs n) : SpellsNat ('+' :: cs) n

theorem digit?_eq_some_iff (c : Char) (d : Nat) :
    digit? c = some d ↔ c.isDigit = true ∧ c.toNat - '0'.toNat = d := by
  unfold digit?
  rw [Option.ite_none_right_eq_some, Option.some.injEq]
  refine and_congr_left fun _ => ?_
  rw [Char.isDigit, Bool.and_eq_true, decide_eq_true_eq, decide_eq_true_eq]
  rfl

/-- Digits read after a value are read as core reads them. -/
theorem digitsFrom_eq_some_iff (cs : List Char) (before n : Nat) :
    digitsFrom before cs = some n ↔
      (∀ c ∈ cs, c.isDigit = true) ∧ Nat.ofDigitChars 10 cs before = n := by
  induction cs generalizing before with
  | nil => simp [digitsFrom]
  | cons c rest ih =>
      rw [digitsFrom, Option.bind_eq_some_iff, List.forall_mem_cons, Nat.ofDigitChars_cons]
      constructor
      · rintro ⟨d, hd, hrest⟩
        obtain ⟨hc, rfl⟩ := (digit?_eq_some_iff c d).mp hd
        obtain ⟨hdigits, hvalue⟩ := (ih _).mp hrest
        exact ⟨⟨hc, hdigits⟩, hvalue⟩
      · rintro ⟨⟨hc, hdigits⟩, hvalue⟩
        exact ⟨_, (digit?_eq_some_iff c _).mpr ⟨hc, rfl⟩, (ih _).mpr ⟨hdigits, hvalue⟩⟩

theorem digits?_eq_some_iff (cs : List Char) (n : Nat) :
    digits? cs = some n ↔ Denotes cs n := by
  cases cs with
  | nil => exact ⟨nofun, fun h => absurd rfl h.ne_nil⟩
  | cons c rest =>
      rw [digits?, digitsFrom_eq_some_iff]
      · exact ⟨fun h => ⟨List.cons_ne_nil _ _, h.1, h.2⟩, fun h => ⟨h.isDigit, h.value⟩⟩
      · nofun

theorem Denotes.not_plus {cs : List Char} {n : Nat} : ¬Denotes ('+' :: cs) n := by
  intro h
  have hplus := h.isDigit '+' List.mem_cons_self
  revert hplus
  decide

/-- The reader of unsigned numbers accepts exactly the numerals below its bound. -/
theorem unsigned?_eq_some_iff (bound : Nat) (cs : List Char) (n : Nat) :
    unsigned? bound cs = some n ↔ SpellsNat cs n ∧ n < bound := by
  unfold unsigned?
  rw [Option.filter_eq_some_iff, digits?_eq_some_iff, decide_eq_true_eq]
  refine and_congr_left fun _ => ?_
  split
  · next rest =>
      constructor
      · exact .plus
      · intro h
        cases h with
        | plain hdigits => exact absurd hdigits Denotes.not_plus
        | plus hdigits => exact hdigits
  · next hplus =>
      constructor
      · exact .plain
      · intro h
        cases h with
        | plain hdigits => exact hdigits
        | plus hdigits => exact absurd rfl (hplus _)

/-- Signs and zeros before a number do not count, and a bound is not reached. -/
example : unsigned? 43 "+0042".toList = some 42 ∧ unsigned? 42 "42".toList = none := by
  decide

theorem SpellsNat.unique {cs : List Char} {m n : Nat} (hm : SpellsNat cs m)
    (hn : SpellsNat cs n) : m = n := by
  have hread := (unsigned?_eq_some_iff (m + n + 1) cs m).mpr ⟨hm, by omega⟩
  rw [(unsigned?_eq_some_iff (m + n + 1) cs n).mpr ⟨hn, by omega⟩] at hread
  exact (Option.some.inj hread).symm

/-- A reader of signed numbers takes a numeral without a minus sign if the number is below
its bound. -/
theorem signed?_of_spellsNat {cs : List Char} {n : Nat} (h : SpellsNat cs n) (bound : Nat) :
    signed? bound cs = if n < bound then some (n : Int) else none := by
  have hminus : ∀ rest, cs ≠ '-' :: rest := by
    rintro rest rfl
    cases h with
    | plain hdigits =>
        have hdigit := hdigits.isDigit '-' List.mem_cons_self
        revert hdigit
        decide
  unfold signed?
  split
  · next rest => exact absurd rfl (hminus rest)
  · split
    · next hn =>
        rw [(unsigned?_eq_some_iff bound cs n).mpr ⟨h, hn⟩]
        rfl
    · next hn =>
        have hnone : unsigned? bound cs = none := by
          rw [Option.eq_none_iff_forall_ne_some]
          intro m hm
          obtain ⟨hspells, hbound⟩ := (unsigned?_eq_some_iff bound cs m).mp hm
          exact hn (h.unique hspells ▸ hbound)
        rw [hnone]
        rfl

end RecordKit.Text
