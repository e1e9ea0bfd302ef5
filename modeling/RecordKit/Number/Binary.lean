import RecordKit.Number.IntType

/-!
# Binary floating-point formats

A bit pattern of a format has a sign bit, an exponent field and a fraction
field.  `BinaryFormat.decode` gives its exact meaning: a significand times a power of
two, an infinity, or no number.  `BinaryFormat.nearest` goes the other way from an
exact quotient of naturals, to the nearest value and from a tie to the even
significand.  Conversions between formats and with integers are built from
these two, so each rounds once.
-/

namespace RecordKit

/-- A binary format: the bits of the significand, its leading bit included, and
the bits of the exponent field. -/
structure BinaryFormat where
  precision : Nat
  exponentBits : Nat
deriving DecidableEq, Repr

def binary64 : BinaryFormat := ⟨53, 11⟩

def binary32 : BinaryFormat := ⟨24, 8⟩

/-- What a bit pattern stands for. -/
inductive Reading where
  | nan
  | infinite (negative : Bool)
  | finite (negative : Bool) (significand : Nat) (exponent : Int)
deriving DecidableEq, Repr

namespace BinaryFormat

/-- The fraction field counts in steps of the last place. -/
def fractionSize (f : BinaryFormat) : Nat :=
  Nat.pow 2 (f.precision - 1)

/-- The pattern that holds the sign bit only. -/
def signBit (f : BinaryFormat) : Nat :=
  Nat.pow 2 (f.precision - 1 + f.exponentBits)

def infinity (f : BinaryFormat) : Nat :=
  (Nat.pow 2 f.exponentBits - 1) * f.fractionSize

/-- The pattern that stands for every value that is no number. -/
def nan (f : BinaryFormat) : Nat :=
  f.infinity + f.fractionSize / 2

/-- The least exponent of a last place. -/
def leastExponent (f : BinaryFormat) : Int :=
  3 - (Nat.pow 2 (f.exponentBits - 1) : Int) - (f.precision : Int)

/-- The meaning of a pattern.  An exponent field of zero has no leading bit. -/
def decode (f : BinaryFormat) (pattern : Nat) : Reading :=
  let negative := pattern / f.signBit % 2 == 1
  let field := pattern % f.signBit / f.fractionSize
  let fraction := pattern % f.fractionSize
  if field = Nat.pow 2 f.exponentBits - 1 then
    if fraction = 0 then .infinite negative else .nan
  else if field = 0 then .finite negative fraction f.leastExponent
  else .finite negative (f.fractionSize + fraction) (f.leastExponent + field - 1)

/-- Round the quotient `num / den` to a whole number, from a half to the even
one. -/
def roundHalfEven (num den : Nat) : Nat :=
  let q := num / den
  let r := num % den
  if 2 * r < den then q
  else if den < 2 * r then q + 1
  else q + q % 2

/-- The greatest `k` with `2 ^ k ≤ num / den`, for positive `num` and `den`. -/
def floorLog2 (num den : Nat) : Int :=
  let k : Int := num.log2 - den.log2
  if den * Nat.pow 2 k.toNat ≤ num * Nat.pow 2 (-k).toNat then k else k - 1

/-- The magnitude pattern nearest to the quotient `num / den`.  Consecutive
patterns are consecutive values, so the carry out of a full significand lands on
the next exponent, and what exceeds the format becomes infinity. -/
def nearest (f : BinaryFormat) (num den : Nat) : Nat :=
  if num = 0 then 0
  else
    let e := max f.leastExponent (floorLog2 num den - (f.precision - 1 : Nat))
    let q := roundHalfEven (num * Nat.pow 2 (-e).toNat) (den * Nat.pow 2 e.toNat)
    min f.infinity (q + (e - f.leastExponent).toNat * f.fractionSize)

/-- A magnitude pattern with a sign. -/
def withSign (f : BinaryFormat) (negative : Bool) (magnitude : Nat) : Nat :=
  if negative then f.signBit + magnitude else magnitude

/-- The pattern nearest to `significand * 2 ^ exponent`. -/
def nearestScaled (f : BinaryFormat) (significand : Nat) (exponent : Int) : Nat :=
  f.nearest (significand * Nat.pow 2 exponent.toNat) (Nat.pow 2 (-exponent).toNat)

def ofInt (f : BinaryFormat) (n : Int) : Nat :=
  f.withSign (n < 0) (f.nearest n.natAbs 1)

/-- The pattern of a meaning in this format. -/
def encode (f : BinaryFormat) : Reading → Nat
  | .nan => f.nan
  | .infinite negative => f.withSign negative f.infinity
  | .finite negative significand exponent =>
      f.withSign negative (f.nearestScaled significand exponent)

/-- The pattern of the target format nearest to a pattern of this one. -/
def convert (f target : BinaryFormat) (pattern : Nat) : Nat :=
  target.encode (f.decode pattern)

end BinaryFormat

namespace Reading

/-- The whole part of a finite reading, its fraction cut off toward zero. -/
def truncate (negative : Bool) (significand : Nat) (exponent : Int) : Int :=
  let whole := significand * Nat.pow 2 exponent.toNat / Nat.pow 2 (-exponent).toNat
  if negative then -(whole : Int) else whole

/-- The value of an integer type for a reading: truncated toward zero, then
clamped to the range.  What is no number gives zero. -/
def toInt (t : IntType) : Reading → Int
  | .nan => 0
  | .infinite negative => if negative then t.least else t.greatest
  | .finite negative significand exponent => t.clamp (truncate negative significand exponent)

end Reading

/-- The 64-bit pattern of a 32-bit pattern. -/
def widen (bits : UInt32) : UInt64 :=
  (binary32.convert binary64 bits.toNat).toUInt64

/-- The 32-bit pattern nearest to a 64-bit pattern. -/
def narrow (bits : UInt64) : UInt32 :=
  (binary64.convert binary32 bits.toNat).toUInt32

end RecordKit
