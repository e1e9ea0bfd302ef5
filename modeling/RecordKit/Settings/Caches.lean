import RecordKit.Text.Numeral
import RecordKit.Time.Instant

/-!
# Cache settings

Lifetimes and capacities of copier caches and dictionaries, read from named
variables.  Each setting depends on its own variable only; a variable that is
missing or holds no unsigned 64-bit numeral leaves the default.
-/

namespace RecordKit

/-- Values of named variables. -/
abbrev Variables := String → Option String

/-- Lifetimes and capacities. -/
structure CacheSettings where
  copierLifetime : Span
  copierCapacity : Nat
  dictLifetime : Span
  dictCapacity : Nat
deriving DecidableEq

namespace CacheSettings

/-- The settings where no variable is set: half an hour and 128 copiers, ten
minutes and 1024 entries. -/
def default : CacheSettings :=
  ⟨Span.ofSecs 1800, 128, Span.ofSecs 600, 1024⟩

/-- The number in a variable, its blanks trimmed, or a default. -/
def number (vars : Variables) (name : String) (default : Nat) : Nat :=
  let read (text : String) := Text.unsigned? 0x10000000000000000 (Text.trim text.toList)
  ((vars name).bind read).getD default

/-- The settings in a set of variables. -/
def load (vars : Variables) : CacheSettings :=
  { copierLifetime := Span.ofSecs (number vars "PUZZLE_COPIER_CACHE_TTL_SECS" 1800)
    copierCapacity := number vars "PUZZLE_COPIER_CACHE_CAPACITY" 128
    dictLifetime := Span.ofSecs (number vars "PUZZLE_DICT_TTL_SECS" 600)
    dictCapacity := number vars "PUZZLE_DICT_CAPACITY" 1024 }

end CacheSettings

end RecordKit
