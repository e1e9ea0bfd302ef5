import RecordKit.Settings.LogLevel
import RecordKit.Text.Alphanumeric
import RecordKit.Text.Blank
import RecordKit.Text.Numeral

/-!
# Filter directives

A directive says which events are logged: a level for all of them, a target for
all of its events, or a target with the level of its events.  A span in square
brackets may stand after the target or in its place, with fields of it in curly
braces.
-/

namespace RecordKit

namespace FilterDirective

/-- The words for the levels of a filter. -/
def levelWords : List String :=
  ["off", "error", "warn", "info", "debug", "trace"]

/-- Whether a text names a filter level: by word in any case, or by its number,
counted from zero.  No text at all stands for the finest level. -/
def isLevel (text : List Char) : Bool :=
  text.isEmpty || levelWords.contains (LogLevel.lowered (String.ofList text)) ||
    (Text.unsigned? levelWords.length text).isSome

/-- Whether a text may end a directive: nothing, or an equals sign and a level. -/
def isEnding : List Char → Bool
  | [] => true
  | '=' :: level => isLevel level
  | _ => false

/-- Whether a text starts as a target does: with a letter, a number, or one of
`-`, `:` and `_`. -/
def startsTarget : List Char → Bool
  | [] => false
  | c :: _ => Text.isAlphanumeric c || c == '-' || c == ':' || c == '_'

/-- Whether a text is a span after its opening bracket, and the end of the
directive.  A span has a name or none, and then its fields, if they are given. -/
def isSpan (text : List Char) : Bool :=
  match text.dropWhile fun c => c != ']' && c != '\x7b' with
  | ']' :: ending => isEnding ending
  | '\x7b' :: rest =>
      match Text.cut '\x7d' rest with
      | some (fields, ']' :: ending) => fields ≠ [] && isEnding ending
      | _ => false
  | _ => false

/-- Whether a text without commas is a directive. -/
def isValid (text : List Char) : Bool :=
  let target := text.takeWhile fun c => c != '=' && c != '['
  match text.dropWhile fun c => c != '=' && c != '[' with
  | '[' :: span => (target.isEmpty || startsTarget target) && isSpan span
  | ending => startsTarget target && isEnding ending

end FilterDirective

end RecordKit
