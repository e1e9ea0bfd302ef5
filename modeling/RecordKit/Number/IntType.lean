/-!
# Integer types

An integer type has a sign and a width of 8, 16, 32 or 64 bits, or the width of
a size, which is 64 bits.  `wrap` reduces a number modulo the width into the
range of the type, `clamp` moves it to the nearest number in the range.
-/

namespace RecordKit

/-- The width of an integer type, where `size` is a width of its own. -/
inductive Width where
  | w8
  | w16
  | w32
  | w64
  | size
deriving DecidableEq, Repr

def Width.bits : Width → Nat
  | .w8 => 8
  | .w16 => 16
  | .w32 => 32
  | .w64 => 64
  | .size => 64

structure IntType where
  signed : Bool
  width : Width
deriving DecidableEq, Repr

namespace IntType

def bits (t : IntType) : Nat :=
  t.width.bits

def modulus (t : IntType) : Nat :=
  Nat.pow 2 t.bits

def least (t : IntType) : Int :=
  if t.signed then -(Nat.pow 2 (t.bits - 1) : Int) else 0

def greatest (t : IntType) : Int :=
  t.least + t.modulus - 1

/-- Whether a number is a value of the type. -/
def Holds (t : IntType) (n : Int) : Prop :=
  t.least ≤ n ∧ n ≤ t.greatest

instance (t : IntType) (n : Int) : Decidable (t.Holds n) :=
  inferInstanceAs (Decidable (_ ∧ _))

/-- The value of the type that differs from `n` by a multiple of the modulus. -/
def wrap (t : IntType) (n : Int) : Int :=
  (n - t.least) % t.modulus + t.least

/-- The value of the type that is nearest to `n`. -/
def clamp (t : IntType) (n : Int) : Int :=
  max t.least (min t.greatest n)

/-- The name of an integer type: a letter for the sign, then the width. -/
def name (t : IntType) : String :=
  (if t.signed then "i" else "u") ++
    match t.width with
    | .size => "size"
    | w => toString w.bits

theorem modulus_pos (t : IntType) : (0 : Int) < t.modulus := by
  exact Int.natCast_pos.mpr (Nat.two_pow_pos t.bits)

theorem wrap_holds (t : IntType) (n : Int) : t.Holds (t.wrap n) := by
  have h := t.modulus_pos
  have hlo := Int.emod_nonneg (n - t.least) (Int.ne_of_gt h)
  have hhi := Int.emod_lt_of_pos (n - t.least) h
  simp only [Holds, wrap, greatest]
  constructor <;> omega

end IntType

/-- The unsigned type of one byte. -/
def IntType.byte : IntType := ⟨false, .w8⟩

end RecordKit
