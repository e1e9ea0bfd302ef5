/-!
# UTF-8

`encode` writes a text as bytes.  `units` reads any bytes back, one entry a
character, where `none` stands for one maximal ill-formed stretch: the longest
start of a character that the bytes break off, or a single byte that can start
none.  Strict reading refuses such stretches, lossy reading puts U+FFFD for each.
-/

namespace RecordKit.Text.Utf8

/-- The one to four bytes of a character. -/
def encodeChar (c : Char) : List UInt8 :=
  let n := c.toNat
  if n < 0x80 then [n.toUInt8]
  else if n < 0x800 then [(0xC0 + n / 64).toUInt8, (0x80 + n % 64).toUInt8]
  else if n < 0x10000 then
    [(0xE0 + n / 4096).toUInt8, (0x80 + n / 64 % 64).toUInt8, (0x80 + n % 64).toUInt8]
  else
    [(0xF0 + n / 262144).toUInt8, (0x80 + n / 4096 % 64).toUInt8,
      (0x80 + n / 64 % 64).toUInt8, (0x80 + n % 64).toUInt8]

def encodeList (cs : List Char) : List UInt8 :=
  cs.flatMap encodeChar

def encode (s : String) : List UInt8 :=
  encodeList s.toList

/-- A character that has begun: `owed` bytes are missing besides the next one,
which must lie between `low` and `high`, and `acc` holds the bits so far. -/
structure Begun where
  owed : Nat
  low : Nat
  high : Nat
  acc : Nat
deriving DecidableEq, Repr

/-- What one byte makes of the character it belongs to. -/
inductive Step where
  | whole (c : Char)
  | begun (b : Begun)
  | ill
deriving DecidableEq

/-- The effect of a byte between characters.  The bounds on the second byte
exclude longer forms than needed, surrogates and values above U+10FFFF. -/
def opening (byte : UInt8) : Step :=
  let n := byte.toNat
  if n < 0x80 then .whole (Char.ofNat n)
  else if n < 0xC2 then .ill
  else if n < 0xE0 then .begun ⟨0, 0x80, 0xBF, n % 32⟩
  else if n = 0xE0 then .begun ⟨1, 0xA0, 0xBF, 0⟩
  else if n = 0xED then .begun ⟨1, 0x80, 0x9F, 13⟩
  else if n < 0xF0 then .begun ⟨1, 0x80, 0xBF, n % 16⟩
  else if n = 0xF0 then .begun ⟨2, 0x90, 0xBF, 0⟩
  else if n < 0xF4 then .begun ⟨2, 0x80, 0xBF, n % 8⟩
  else if n = 0xF4 then .begun ⟨2, 0x80, 0x8F, 4⟩
  else .ill

/-- The effect of a byte inside a character. -/
def Begun.extend (b : Begun) (byte : UInt8) : Step :=
  let n := byte.toNat
  if b.low ≤ n ∧ n ≤ b.high then
    let acc := 64 * b.acc + n % 64
    match b.owed with
    | 0 => .whole (Char.ofNat acc)
    | owed + 1 => .begun ⟨owed, 0x80, 0xBF, acc⟩
  else .ill

/-- Read bytes on from a character that may have begun.  A byte that breaks a
character off is read again as the start of the next one. -/
def unitsFrom : Option Begun → List UInt8 → List (Option Char)
  | none, [] => []
  | some _, [] => [none]
  | none, byte :: rest =>
      match opening byte with
      | .whole c => some c :: unitsFrom none rest
      | .begun b => unitsFrom (some b) rest
      | .ill => none :: unitsFrom none rest
  | some b, byte :: rest =>
      match b.extend byte with
      | .whole c => some c :: unitsFrom none rest
      | .begun b' => unitsFrom (some b') rest
      | .ill =>
          none ::
            match opening byte with
            | .whole c => some c :: unitsFrom none rest
            | .begun b' => unitsFrom (some b') rest
            | .ill => none :: unitsFrom none rest

/-- The characters and ill-formed stretches of a byte sequence. -/
def units (bytes : List UInt8) : List (Option Char) :=
  unitsFrom none bytes

/-- The replacement character U+FFFD. -/
def replacement : Char := Char.ofNat 0xFFFD

/-- Read bytes with U+FFFD for every maximal ill-formed stretch. -/
def decodeLossy (bytes : List UInt8) : String :=
  String.ofList ((units bytes).map (·.getD replacement))

/-- The characters of units without an ill-formed stretch. -/
def wholes? : List (Option Char) → Option (List Char)
  | [] => some []
  | none :: _ => none
  | some c :: rest => (wholes? rest).map (c :: ·)

/-- Read well-formed bytes only. -/
def decode? (bytes : List UInt8) : Option String :=
  (wholes? (units bytes)).map String.ofList

def compareBytes (a b : String) : Ordering :=
  compare (encode a) (encode b)

end RecordKit.Text.Utf8
