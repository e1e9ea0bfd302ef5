import RecordKit.Number.Binary

/-!
# Shortest decimal text

A binary value has an interval of reals that round to it, ends included exactly
when its significand is even.  `digits` finds the coarsest decimal grid with a
point in that interval next to the value; of two such points it takes the
nearer, and the upper one when both are equally near.  `text` writes the result
positionally, whatever the exponent.
-/

namespace RecordKit.Shortest

/-- A decimal value `digits * 10 ^ exponent`. -/
structure Decimal where
  digits : Nat
  exponent : Int
deriving DecidableEq, Repr

/-- The interval of a value, all four numbers over one denominator. -/
structure Interval where
  low : Nat
  value : Nat
  high : Nat
  denominator : Nat
  closed : Bool
deriving Repr

/-- The interval of reals that round to `significand * 2 ^ exponent`.  Below a
power of two the spacing is half of that above it. -/
def interval (f : BinaryFormat) (significand : Nat) (exponent : Int) : Interval :=
  let narrowBelow := significand = f.fractionSize ∧ f.leastExponent < exponent
  let up := Nat.pow 2 exponent.toNat
  { low := (4 * significand - if narrowBelow then 1 else 2) * up
    value := 4 * significand * up
    high := (4 * significand + 2) * up
    denominator := 4 * Nat.pow 2 (-exponent).toNat
    closed := significand % 2 = 0 }

/-- Whether a numerator over the interval's denominator times `scale` lies in
the interval. -/
def Interval.contains (i : Interval) (scale n : Nat) : Bool :=
  if i.closed then i.low * scale ≤ n && n ≤ i.high * scale
  else i.low * scale < n && n < i.high * scale

/-- The better of the value's two neighbours on the grid of multiples of
`10 ^ place`, if one lies in the interval. -/
def onGrid (i : Interval) (place : Int) : Option Decimal :=
  let scale := Nat.pow 10 (-place).toNat
  let step := i.denominator * Nat.pow 10 place.toNat
  let below := i.value * scale / step
  let rest := i.value * scale % step
  let lower := i.contains scale (below * step)
  let upper := i.contains scale ((below + 1) * step)
  if lower && (!upper || 2 * rest < step) then some ⟨below, place⟩
  else if upper then some ⟨below + 1, place⟩
  else none

/-- Try grid after grid, each ten times finer than the one before. -/
def search (i : Interval) : Nat → Int → Option Decimal
  | 0, _ => none
  | fuel + 1, place =>
      match onGrid i place with
      | some d => some d
      | none => search i fuel (place - 1)

/-- A decimal place at or above the first digit of `num / den`: one bit is less
than 0.30103 decimal digits. -/
def topPlace (num den : Nat) : Int :=
  (BinaryFormat.floorLog2 num den + 1) * 30103 / 100000 + 1

/-- The shortest decimal that reads back as `significand * 2 ^ exponent`.  Its
digits end in no zero, for the grid ten times coarser would hold it too. -/
def decimal (f : BinaryFormat) (significand : Nat) (exponent : Int) : Decimal :=
  let i := interval f significand exponent
  match search i 22 (topPlace i.value i.denominator) with
  | some d => d
  | none => ⟨0, 0⟩

/-- Positional text of a decimal, without a point when it is whole. -/
def positional (d : Decimal) : String :=
  let digits := (toString d.digits).toList
  if 0 ≤ d.exponent then
    String.ofList (digits ++ List.replicate d.exponent.toNat '0')
  else
    let places := (-d.exponent).toNat
    let padded := List.replicate (places + 1 - digits.length) '0' ++ digits
    let whole := padded.take (padded.length - places)
    String.ofList (whole ++ '.' :: padded.drop (padded.length - places))

/-- The text of a bit pattern: the shortest digits that read back, a sign for
negative values and negative zero, and words for what is not finite. -/
def text (f : BinaryFormat) (pattern : Nat) : String :=
  match f.decode pattern with
  | .nan => "NaN"
  | .infinite negative => if negative then "-inf" else "inf"
  | .finite negative significand exponent =>
      (if negative then "-" else "") ++
        if significand = 0 then "0" else positional (decimal f significand exponent)

end RecordKit.Shortest
