/-!
# Spans and instants

A span of time has seconds below 2^64, an instant has seconds in the signed
64-bit range, and both have nanoseconds below one second.  Adding a span to an
instant has no result exactly when its seconds would leave that range.
-/

namespace RecordKit

def nanosPerSec : Nat := 1000000000

@[ext]
structure Span where
  secs : Nat
  nanos : Nat
  secs_lt : secs < 0x10000000000000000
  nanos_lt : nanos < nanosPerSec
deriving DecidableEq

namespace Span

/-- A span of whole seconds, at most the longest there is. -/
def ofSecs (n : Nat) : Span :=
  ⟨min n 0xFFFFFFFFFFFFFFFF, 0, by omega, by decide⟩

/-- A span from its two parts, if they are in range. -/
def ofParts? (secs nanos : Nat) : Option Span :=
  if h : secs < 0x10000000000000000 ∧ nanos < nanosPerSec then some ⟨secs, nanos, h.1, h.2⟩
  else none

/-- A decimal number with a fraction of at most `places` digits, its trailing
zeros removed. -/
def decimalText (whole fraction places : Nat) : String :=
  let digits := (toString fraction).toList
  let padded := List.replicate (places - digits.length) '0' ++ digits
  let kept := (padded.reverse.dropWhile (· == '0')).reverse
  toString whole ++ if kept.isEmpty then "" else "." ++ String.ofList kept

/-- The text of a span in the largest unit of which it has at least one. -/
def text (d : Span) : String :=
  if 0 < d.secs then decimalText d.secs d.nanos 9 ++ "s"
  else if 1000000 ≤ d.nanos then decimalText (d.nanos / 1000000) (d.nanos % 1000000) 6 ++ "ms"
  else if 1000 ≤ d.nanos then decimalText (d.nanos / 1000) (d.nanos % 1000) 3 ++ "µs"
  else toString d.nanos ++ "ns"

@[simp] theorem ofSecs_secs {n : Nat} (h : n < 0x10000000000000000) : (ofSecs n).secs = n := by
  simp only [ofSecs]
  omega

end Span

@[ext]
structure Instant where
  secs : Int
  nanos : Nat
  secs_ge : -0x8000000000000000 ≤ secs
  secs_lt : secs < 0x8000000000000000
  nanos_lt : nanos < nanosPerSec
deriving DecidableEq

namespace Instant

/-- The instant at which clocks start. -/
def start : Instant :=
  ⟨1000, 0, by decide, by decide, by decide⟩

instance : Inhabited Instant := ⟨start⟩

/-- The instant after a span, if its seconds stay in range.  A full second of
nanoseconds is carried over. -/
def add? (t : Instant) (d : Span) : Option Instant :=
  let carry := if nanosPerSec ≤ t.nanos + d.nanos then 1 else 0
  if h : t.secs + d.secs + (carry : Nat) < 0x8000000000000000 then
    some
      { secs := t.secs + d.secs + (carry : Nat)
        nanos := t.nanos + d.nanos - carry * nanosPerSec
        secs_ge := by have := t.secs_ge; omega
        secs_lt := h
        nanos_lt := by
          have h₁ := t.nanos_lt
          have h₂ := d.nanos_lt
          simp only [carry]
          split <;> omega }
  else none

/-- Instants are ordered by their seconds, then by their nanoseconds. -/
def le (t u : Instant) : Prop :=
  t.secs < u.secs ∨ t.secs = u.secs ∧ t.nanos ≤ u.nanos

instance : LE Instant := ⟨le⟩

instance (t u : Instant) : Decidable (t ≤ u) :=
  inferInstanceAs (Decidable (_ ∨ _))

/-- The instant after a span, or the same one if there is none. -/
def advance (t : Instant) (d : Span) : Instant :=
  (t.add? d).getD t

end Instant

end RecordKit
