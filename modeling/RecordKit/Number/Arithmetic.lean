import RecordKit.Number.Binary

/-!
# Arithmetic on binary values

Products and quotients of magnitude patterns, computed exactly and rounded once,
and the value nearest to a decimal.
-/

namespace RecordKit.BinaryFormat

/-- A finite magnitude as a quotient of naturals.  An infinity counts as the
first power of two beyond the format. -/
def quotient (f : BinaryFormat) (magnitude : Nat) : Nat × Nat :=
  match f.decode magnitude with
  | .finite _ significand exponent =>
      (significand * Nat.pow 2 exponent.toNat, Nat.pow 2 (-exponent).toNat)
  | _ => (Nat.pow 2 (Nat.pow 2 (f.exponentBits - 1)), 1)

def mul (f : BinaryFormat) (a b : Nat) : Nat :=
  let (na, da) := f.quotient a
  let (nb, db) := f.quotient b
  f.nearest (na * nb) (da * db)

/-- The magnitude nearest to a quotient, for a divisor other than zero. -/
def div (f : BinaryFormat) (a b : Nat) : Nat :=
  let (na, da) := f.quotient a
  let (nb, db) := f.quotient b
  f.nearest (na * db) (da * nb)

/-- The magnitude nearest to `digits * 10 ^ exponent`. -/
def nearestDecimal (f : BinaryFormat) (digits : Nat) (exponent : Int) : Nat :=
  f.nearest (digits * Nat.pow 10 exponent.toNat) (Nat.pow 10 (-exponent).toNat)

end RecordKit.BinaryFormat
