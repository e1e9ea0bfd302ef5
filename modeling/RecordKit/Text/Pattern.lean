/-!
# Patterns

A pattern describes a set of texts by ranges of characters, sequence, choice and
repetition.  `Pattern.accepts` decides whether a whole text is in that set by
taking the derivative of the pattern by one character after another.
-/

namespace RecordKit.Text

/-- Ranges of characters, ends included. -/
abbrev Ranges := List (Char × Char)

/-- Whether a character lies in one of the ranges. -/
def Ranges.contains (ranges : Ranges) (c : Char) : Bool :=
  ranges.any fun r => r.1 ≤ c && c ≤ r.2

/-- The characters that differ from a letter of ASCII by case only.  Two of them
lie outside ASCII: the Kelvin sign and the long s. -/
def caseVariants (c : Char) : List Char :=
  if c = 'k' ∨ c = 'K' ∨ c = Char.ofNat 0x212A then ['k', 'K', Char.ofNat 0x212A]
  else if c = 's' ∨ c = 'S' ∨ c = Char.ofNat 0x17F then ['s', 'S', Char.ofNat 0x17F]
  else [c, c.toLower, c.toUpper]

/-- A set of texts.  Where `anyCase` is set, ranges of ASCII characters also
take in what differs by case only. -/
inductive Pattern where
  | nothing
  | blank
  | oneOf (anyCase : Bool) (ranges : Ranges)
  | seq (first second : Pattern)
  | either (left right : Pattern)
  | many (p : Pattern)
deriving DecidableEq, Repr

namespace Pattern

/-- One text or none. -/
def optional (p : Pattern) : Pattern :=
  either p blank

/-- One text or more. -/
def some (p : Pattern) : Pattern :=
  seq p (many p)

/-- Exactly `n` texts. -/
def exactly (p : Pattern) : Nat → Pattern
  | 0 => blank
  | n + 1 => seq p (exactly p n)

/-- At most `n` texts. -/
def atMost (p : Pattern) : Nat → Pattern
  | 0 => blank
  | n + 1 => optional (seq p (atMost p n))

def char (c : Char) : Pattern :=
  oneOf false [(c, c)]

/-- Patterns one after another. -/
def inOrder : List Pattern → Pattern
  | [] => blank
  | [p] => p
  | p :: rest => seq p (inOrder rest)

/-- Whether a range pattern takes a character. -/
def takes (anyCase : Bool) (ranges : Ranges) (c : Char) : Bool :=
  if anyCase then (caseVariants c).any ranges.contains else ranges.contains c

/-- Whether the empty text is in the set. -/
def acceptsEmpty : Pattern → Bool
  | nothing => false
  | blank => true
  | oneOf _ _ => false
  | seq p q => p.acceptsEmpty && q.acceptsEmpty
  | either p q => p.acceptsEmpty || q.acceptsEmpty
  | many _ => true

/-- A sequence, simplified where a part is trivial. -/
def seq' : Pattern → Pattern → Pattern
  | nothing, _ => nothing
  | blank, q => q
  | p, q => seq p q

/-- A choice, simplified where a part is empty. -/
def either' : Pattern → Pattern → Pattern
  | nothing, q => q
  | p, nothing => p
  | p, q => either p q

/-- The texts that complete `c` to a text in the set. -/
def derivative (c : Char) : Pattern → Pattern
  | nothing => nothing
  | blank => nothing
  | oneOf anyCase ranges => if takes anyCase ranges c then blank else nothing
  | seq p q =>
      if p.acceptsEmpty then either' (seq' (p.derivative c) q) (q.derivative c)
      else seq' (p.derivative c) q
  | either p q => either' (p.derivative c) (q.derivative c)
  | many p => seq' (p.derivative c) (many p)

/-- Whether a text is in the set. -/
def accepts : Pattern → List Char → Bool
  | p, [] => p.acceptsEmpty
  | p, c :: rest => (p.derivative c).accepts rest

end Pattern

end RecordKit.Text
