import RecordKit.Document.Basic
import RecordKit.Number.Arithmetic

/-!
# JSON numbers

A numeral is an integer if it has neither fraction nor exponent and fits 64 bits;
everything else is a float.  The float of a numeral is its leading digits, as
many as fit 64 bits, scaled by a power of ten in steps of at most 10^308, each
step rounded.  A float beyond the range is an error.
-/

namespace RecordKit.Json

/-- A numeral as written, in digits. -/
structure Numeral where
  negative : Bool
  whole : List Nat
  fraction : Option (List Nat)
  exponent : Option (Bool × List Nat)
deriving Repr

namespace Numeral

/-- Add digits to a significand as long as it stays below 2^64.  The rest is
returned as well. -/
def gather : Nat → List Nat → Nat × List Nat
  | n, [] => (n, [])
  | n, d :: rest =>
      if 10 * n + d < 0x10000000000000000 then gather (10 * n + d) rest else (n, d :: rest)

/-- Scale a magnitude by a power of ten, in steps of at most 10^308.  What
exceeds the range gives nothing. -/
def scale : Nat → Nat → Int → Option Nat
  | 0, _, _ => none
  | fuel + 1, magnitude, exponent =>
      if exponent.natAbs ≤ 308 then
        let power := binary64.nearestDecimal 1 exponent.natAbs
        if 0 ≤ exponent then
          let product := binary64.mul magnitude power
          if product = binary64.infinity then none else some product
        else some (binary64.div magnitude power)
      else if magnitude = 0 then some 0
      else if 0 ≤ exponent then none
      else scale fuel (binary64.div magnitude (binary64.nearestDecimal 1 308)) (exponent + 308)

/-- The magnitude of a significand and a power of ten.  A few steps bring any
significand below the range. -/
def magnitude? (significand : Nat) (exponent : Int) : Option Nat :=
  scale 8 (binary64.nearest significand 1) exponent

def digitsValue (digits : List Nat) : Nat :=
  digits.foldl (fun n d => 10 * n + d) 0

/-- The magnitude after the written exponent.  An exponent of 2^31 or more gives
zero unless it is positive and the significand is not zero. -/
def withExponent (significand : Nat) (start : Int) : Option (Bool × List Nat) → Option Nat
  | none => magnitude? significand start
  | some (negative, digits) =>
      let exponent := digitsValue digits
      if 0x80000000 ≤ exponent then
        if significand ≠ 0 ∧ !negative then none else some 0
      else magnitude? significand (if negative then start - exponent else start + exponent)

/-- The magnitude of a numeral.  Digits of the whole part that do not fit count
as powers of ten, those of the fraction are dropped. -/
def float? (n : Numeral) : Option Nat :=
  let (significand, dropped) := gather 0 n.whole
  let start : Int := dropped.length
  match n.fraction with
  | none => withExponent significand start n.exponent
  | some fraction =>
      let (significand, rest) := gather significand fraction
      withExponent significand (start - (fraction.length - rest.length : Nat)) n.exponent

/-- Whether a numeral has digits only, with a sign or without. -/
def isWhole (n : Numeral) : Bool :=
  n.fraction.isNone && n.exponent.isNone

/-- The integer of a numeral that is one.  Minus zero is a float. -/
def int? (n : Numeral) : Option Int :=
  let value := digitsValue n.whole
  if !n.isWhole then none
  else if n.negative then
    if 0 < value ∧ value ≤ 0x8000000000000000 then some (-(value : Int)) else none
  else if value < 0x10000000000000000 then some value else none

/-- The document of a numeral, if it is in range. -/
def document? (n : Numeral) : Option Document :=
  match n.int? with
  | some value => some (.int value)
  | none => n.float?.map fun m => .float (binary64.withSign n.negative m).toUInt64

end Numeral

end RecordKit.Json
