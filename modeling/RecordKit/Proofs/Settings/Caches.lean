import Mathlib.Algebra.Order.Ring.Nat
import RecordKit.Copy.Cache
import RecordKit.Dictionary.Basic
import RecordKit.Proofs.Text.Numerals
import RecordKit.Proofs.Text.Trimming

/-!
# What variables say about caches

A variable sets a number if it holds a numeral of a 64-bit number, with blanks around it
or none.  Each of the four settings of caches has the number that its own variable sets,
and its default if that variable sets none (`CacheSettings.number?_load_iff`).

So settings that are written to their variables in decimal come back when they are loaded
(`CacheSettings.load_write`), and a cache or a dictionary has the capacity that is set for
it, unless that is zero (`CacheSettings.load_characterization`).
-/

namespace RecordKit

/-! ## Numerals between blanks -/

namespace Text

theorem isBlank_of_isDigit {c : Char} (h : c.isDigit = true) : isBlank c = false := by
  have hrange : 48 ≤ c.toNat ∧ c.toNat ≤ 57 := by
    simpa [Char.isDigit, UInt32.le_iff_toNat_le] using h
  simp [isBlank]
  omega

theorem SpellsNat.not_blank {cs : List Char} {n : Nat} (h : SpellsNat cs n) :
    ∀ c ∈ cs, isBlank c = false := by
  cases h with
  | plain digits => exact fun c hc => isBlank_of_isDigit (digits.isDigit c hc)
  | plus digits =>
      intro c hc
      rcases List.mem_cons.mp hc with rfl | hc
      · decide
      · exact isBlank_of_isDigit (digits.isDigit c hc)

theorem SpellsNat.trimmed {cs : List Char} {n : Nat} (h : SpellsNat cs n) : Trimmed cs where
  first := fun c hc => h.not_blank c (List.mem_of_head? hc)
  last := fun c hc => h.not_blank c (List.mem_of_getLast? hc)

/-- A number in decimal is a numeral of that number. -/
theorem spellsNat_toString (n : Nat) : SpellsNat (toString n).toList n := by
  refine .plain ⟨?_, ?_, ?_⟩ <;> rw [Nat.toString_eq_repr, Nat.toList_repr]
  · exact Nat.toDigits_ne_nil
  · exact fun c hc => Nat.isDigit_of_mem_toDigits (by decide) (by decide) hc
  · exact Nat.ofDigitChars_toDigits (by decide) (by decide)

/-- A text that holds a 64-bit number: a numeral with blanks around it or none. -/
def HoldsNumber (text : String) (n : Nat) : Prop :=
  ∃ before numeral behind, AllBlank before ∧ AllBlank behind ∧
    text.toList = before ++ numeral ++ behind ∧ SpellsNat numeral n ∧ n < 2 ^ 64

theorem unsigned?_trim_eq_some_iff (text : String) (n : Nat) :
    unsigned? (2 ^ 64) (trim text.toList) = some n ↔ HoldsNumber text n := by
  rw [unsigned?_eq_some_iff]
  constructor
  · intro h
    obtain ⟨-, before, behind, hbefore, hbehind, htext⟩ := (trim_eq_iff _ _).mp rfl
    exact ⟨before, trim text.toList, behind, hbefore, hbehind, htext, h.1, h.2⟩
  · intro h
    obtain ⟨before, numeral, behind, hbefore, hbehind, htext, hspells, hbound⟩ := h
    have htrim : trim text.toList = numeral :=
      (trim_eq_iff _ _).mpr ⟨hspells.trimmed, before, behind, hbefore, hbehind, htext⟩
    rw [htrim]
    exact ⟨hspells, hbound⟩

theorem holdsNumber_toString {n : Nat} (h : n < 2 ^ 64) : HoldsNumber (toString n) n :=
  ⟨[], (toString n).toList, [], allBlank_nil, allBlank_nil, by simp, spellsNat_toString n, h⟩

end Text

/-! ## The four settings -/

/-- The settings that variables are read for. -/
inductive CacheSetting where
  | copierLifetime
  | copierCapacity
  | dictLifetime
  | dictCapacity
deriving DecidableEq

namespace CacheSetting

def all : List CacheSetting :=
  [copierLifetime, copierCapacity, dictLifetime, dictCapacity]

/-- The name of the variable of a setting. -/
def name : CacheSetting → String
  | copierLifetime => "PUZZLE_COPIER_CACHE_TTL_SECS"
  | copierCapacity => "PUZZLE_COPIER_CACHE_CAPACITY"
  | dictLifetime => "PUZZLE_DICT_TTL_SECS"
  | dictCapacity => "PUZZLE_DICT_CAPACITY"

/-- The number of a setting that no variable sets. -/
def default : CacheSetting → Nat
  | copierLifetime => 1800
  | copierCapacity => 128
  | dictLifetime => 600
  | dictCapacity => 1024

def ofName? (name : String) : Option CacheSetting :=
  all.find? (·.name = name)

/-- No two settings have the same variable. -/
theorem ofName?_name (x : CacheSetting) : ofName? x.name = some x := by
  cases x <;> decide

end CacheSetting

/-- A setting's own variable sets a number for it. -/
def Variables.Sets (vars : Variables) (x : CacheSetting) (n : Nat) : Prop :=
  ∃ text, vars x.name = some text ∧ Text.HoldsNumber text n

namespace CacheSettings

/-- A span as a whole number of seconds, if it is one. -/
def wholeSeconds? (d : Span) : Option Nat :=
  if d.nanos = 0 then some d.secs else none

/-- The number that is written for a setting: the capacity, or the lifetime in whole
seconds. -/
def number? (s : CacheSettings) : CacheSetting → Option Nat
  | .copierLifetime => wholeSeconds? s.copierLifetime
  | .copierCapacity => some s.copierCapacity
  | .dictLifetime => wholeSeconds? s.dictLifetime
  | .dictCapacity => some s.dictCapacity

/-- Each setting has a 64-bit number to be written. -/
def Writable (s : CacheSettings) : Prop :=
  ∀ x, ∃ n, s.number? x = some n ∧ n < 2 ^ 64

/-- The variables with the numbers of settings in decimal.  Variables of other names stay
as they are. -/
def write (s : CacheSettings) (vars : Variables) : Variables := fun name =>
  match CacheSetting.ofName? name with
  | some x => (s.number? x).map toString
  | none => vars name

theorem eq_of_wholeSeconds? {d d' : Span} {n : Nat} (h : wholeSeconds? d = some n)
    (h' : wholeSeconds? d' = some n) : d = d' := by
  unfold wholeSeconds? at h h'
  ext <;> grind

/-- Settings are determined by their numbers. -/
theorem eq_of_number? {s s' : CacheSettings}
    (h : ∀ x, ∃ n, s.number? x = some n ∧ s'.number? x = some n) : s = s' := by
  obtain ⟨_, hlifetime, hlifetime'⟩ := h .copierLifetime
  obtain ⟨_, hcapacity, hcapacity'⟩ := h .copierCapacity
  obtain ⟨_, hdictLifetime, hdictLifetime'⟩ := h .dictLifetime
  obtain ⟨_, hdictCapacity, hdictCapacity'⟩ := h .dictCapacity
  cases s
  cases s'
  rw [mk.injEq]
  exact ⟨eq_of_wholeSeconds? hlifetime hlifetime',
    Option.some.inj (hcapacity.trans hcapacity'.symm),
    eq_of_wholeSeconds? hdictLifetime hdictLifetime',
    Option.some.inj (hdictCapacity.trans hdictCapacity'.symm)⟩

/-! ## Loading -/

variable (vars : Variables)

/-- A number is read from one variable only. -/
theorem number_eq_iff (x : CacheSetting) (n : Nat) :
    number vars x.name x.default = n ↔
      vars.Sets x n ∨ n = x.default ∧ ∀ m, ¬vars.Sets x m := by
  have hread (m : Nat) :
      (vars x.name).bind (fun text => Text.unsigned? (2 ^ 64) (Text.trim text.toList)) = some m ↔
        vars.Sets x m := by
    simp only [Option.bind_eq_some_iff, Text.unsigned?_trim_eq_some_iff, Variables.Sets]
  change ((vars x.name).bind fun text =>
    Text.unsigned? (2 ^ 64) (Text.trim text.toList)).getD x.default = n ↔ _
  simp only [← hread]
  cases (vars x.name).bind fun text => Text.unsigned? (2 ^ 64) (Text.trim text.toList) with
  | none => simp [eq_comm]
  | some m => simp

theorem number_lt (x : CacheSetting) : number vars x.name x.default < 2 ^ 64 := by
  rcases (number_eq_iff vars x _).mp rfl with hset | ⟨hdefault, -⟩
  · obtain ⟨text, -, before, numeral, behind, -, -, -, -, hbound⟩ := hset
    exact hbound
  · rw [hdefault]
    cases x <;> decide

theorem wholeSeconds?_ofSecs {n : Nat} (h : n < 2 ^ 64) :
    wholeSeconds? (Span.ofSecs n) = some n := by
  unfold wholeSeconds?
  rw [if_pos (show (Span.ofSecs n).nanos = 0 from rfl), Span.ofSecs_secs h]

/-- Every setting is read in the same way. -/
theorem number?_load (x : CacheSetting) :
    (load vars).number? x = some (number vars x.name x.default) := by
  cases x with
  | copierLifetime => exact wholeSeconds?_ofSecs (number_lt vars .copierLifetime)
  | dictLifetime => exact wholeSeconds?_ofSecs (number_lt vars .dictLifetime)
  | copierCapacity | dictCapacity => rfl

/-- A setting has the number that its variable sets, or its default. -/
theorem number?_load_iff (x : CacheSetting) (n : Nat) :
    (load vars).number? x = some n ↔ vars.Sets x n ∨ n = x.default ∧ ∀ m, ¬vars.Sets x m := by
  rw [number?_load, Option.some.injEq, number_eq_iff]

theorem sets_write {s : CacheSettings} {x : CacheSetting} {n : Nat}
    (h : s.number? x = some n) (hn : n < 2 ^ 64) : (s.write vars).Sets x n := by
  refine ⟨toString n, ?_, Text.holdsNumber_toString hn⟩
  simp [write, CacheSetting.ofName?_name, h]

/-- Settings that are written in decimal come back. -/
theorem load_write {s : CacheSettings} (h : s.Writable) : load (s.write vars) = s := by
  apply eq_of_number?
  intro x
  obtain ⟨n, hnumber, hn⟩ := h x
  exact ⟨n, (number?_load_iff _ x n).mpr (Or.inl (sets_write vars hnumber hn)), hnumber⟩

/-! ## Capacities -/

/-- A number that stands for the default if it is zero. -/
theorem number_or_default_eq_iff {x : CacheSetting} (hdefault : 0 < x.default) (c : Nat) :
    (if 0 < number vars x.name x.default then number vars x.name x.default else x.default) = c ↔
      0 < c ∧ (vars.Sets x c ∨ c = x.default ∧ ∀ n, 0 < n → ¬vars.Sets x n) := by
  have hread := (number_eq_iff vars x _).mp rfl
  have hunique (n : Nat) (h : vars.Sets x n) : number vars x.name x.default = n :=
    (number_eq_iff vars x n).mpr (Or.inl h)
  grind

theorem capacity_copierCache {C : Type} (s : CacheSettings) :
    (CopierCache.withSettings s : CopierCache C).store.capacity =
      if 0 < s.copierCapacity then s.copierCapacity else 128 := by
  unfold CopierCache.withSettings CopierCache.new
  split <;> rfl

theorem capacity_dict {α : Type} (name : String) (s : CacheSettings) :
    (Dict.withSettings name s : Dict α).store.capacity =
      if 0 < s.dictCapacity then s.dictCapacity else 1024 := by
  unfold Dict.withSettings Dict.withLimits
  split <;> rfl

/-- Each of the four settings that are loaded has the number that its own variable sets, and
its default if that sets none, so variables of other names do not matter.  Settings written
in decimal and loaded are the same settings.  A cache of copiers and a dictionary that are
made with the settings never have a capacity of zero: it is the number that is set, or the
default of 128 copiers or 1024 entries if that number is zero or none is set. -/
theorem load_characterization {C α : Type} :
    (∀ x n, (load vars).number? x = some n ↔
      vars.Sets x n ∨ n = x.default ∧ ∀ m, ¬vars.Sets x m) ∧
    (∀ vars' x, vars' x.name = vars x.name → (load vars').number? x = (load vars).number? x) ∧
    (∀ s, s.Writable → load (s.write vars) = s) ∧
    (∀ c, (CopierCache.withSettings (load vars) : CopierCache C).store.capacity = c ↔
      0 < c ∧ (vars.Sets .copierCapacity c ∨
        c = 128 ∧ ∀ n, 0 < n → ¬vars.Sets .copierCapacity n)) ∧
    ∀ name c, (Dict.withSettings name (load vars) : Dict α).store.capacity = c ↔
      0 < c ∧ (vars.Sets .dictCapacity c ∨
        c = 1024 ∧ ∀ n, 0 < n → ¬vars.Sets .dictCapacity n) := by
  refine ⟨number?_load_iff vars, ?_, fun s hs => load_write vars hs, ?_, ?_⟩
  · intro vars' x h
    simp only [number?_load, number, h]
  · intro c
    rw [capacity_copierCache]
    exact number_or_default_eq_iff vars (x := .copierCapacity) (by decide) c
  · intro name c
    rw [capacity_dict]
    exact number_or_default_eq_iff vars (x := .dictCapacity) (by decide) c

/-- A capacity of zero, with a sign, zeros and blanks of two kinds around it, is loaded as it
is and leaves a dictionary its default.  The greatest numbers come back from the variables. -/
theorem load_zero_and_greatest :
    let vars : Variables := fun name =>
      if name = "PUZZLE_DICT_CAPACITY" then some "\u2003+000\n" else none
    let s : CacheSettings :=
      ⟨Span.ofSecs 18446744073709551615, 18446744073709551615, Span.ofSecs 0, 0⟩
    vars.Sets .dictCapacity 0 ∧ (load vars).number? .dictCapacity = some 0 ∧
      (Dict.withSettings "empty" (load vars) : Dict Nat).store.capacity = 1024 ∧
      s.Writable ∧ load (s.write vars) = s := by
  intro vars s
  obtain ⟨hnumber, -, hwrite, -, hdict⟩ := load_characterization (C := Nat) (α := Nat) vars
  have hset : vars.Sets .dictCapacity 0 := by
    have hdigits : Text.Denotes ['0', '0', '0'] 0 := ⟨by decide, by simp, by decide⟩
    have hbefore : Text.AllBlank ['\u2003'] := List.forall_mem_singleton.mpr (by decide)
    have hbehind : Text.AllBlank ['\n'] := List.forall_mem_singleton.mpr (by decide)
    exact ⟨"\u2003+000\n", rfl, ['\u2003'], ['+', '0', '0', '0'], ['\n'], hbefore, hbehind,
      by decide, .plus hdigits, by decide⟩
  have hunset : ∀ n, 0 < n → ¬vars.Sets .dictCapacity n := by
    intro n hn h
    have hzero := (hnumber .dictCapacity 0).mpr (Or.inl hset)
    rw [(hnumber .dictCapacity n).mpr (Or.inl h), Option.some.injEq] at hzero
    omega
  have hwritable : s.Writable := by
    intro x
    cases x with
    | copierLifetime | copierCapacity => exact ⟨18446744073709551615, by decide, by decide⟩
    | dictLifetime | dictCapacity => exact ⟨0, by decide, by decide⟩
  exact ⟨hset, (hnumber .dictCapacity 0).mpr (Or.inl hset),
    (hdict "empty" 1024).mpr ⟨by decide, Or.inr ⟨rfl, hunset⟩⟩, hwritable, hwrite s hwritable⟩

end CacheSettings

end RecordKit
