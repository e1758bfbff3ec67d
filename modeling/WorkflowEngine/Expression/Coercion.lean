import WorkflowEngine.Decimal.Numeral
import WorkflowEngine.Json.Printer
import WorkflowEngine.Text.Blank
import WorkflowEngine.Text.Case

/-!
# Values as truths, texts and numbers

Expressions treat values loosely: a text that is a numeral counts as its number, every value has a
text and a truth, and equality compares numbers before it compares texts.
-/

namespace WorkflowEngine.Expression

open Json (Value Number)

/-- The number that a value stands for, if it is one or is the text of one. -/
def asNumber : Value → Option Float
  | .num n => some n.toFloat
  | .str s => Decimal.readFloat (Text.trim s)
  | _ => none

/-- False are null, `false`, zero, blank texts, the text `false` in any case, and empty
collections. -/
def isTruthy : Value → Bool
  | .null => false
  | .bool b => b
  | .num n => n.toFloat != 0.0
  | .str s =>
    let cs := Text.trimChars s.toList
    !cs.isEmpty && !Text.sameIgnoringAsciiCaseChars cs "false".toList
  | .arr items => !items.isEmpty
  | .obj fields => !fields.isEmpty

/-- Doubles below this bound that have no fraction are shown as integers. -/
def plainIntegerLimit : Nat := Nat.pow 10 15

def numberText : Number → String
  | .int n => toString n
  | .float x =>
    match Decimal.toInt? x with
    | some n => if n.natAbs < plainIntegerLimit then toString n else Decimal.floatText x
    | none => Decimal.floatText x

/-- Text of a value inside other text. Null has none, and collections are written as JSON. -/
def stringify : Value → String
  | .null => ""
  | .bool b => if b then "true" else "false"
  | .str s => s
  | .num n => numberText n
  | v => v.text

/-- Equality of the language. Numbers and numerals are equal as numbers; a text equals a value
other than null that has the same text; all else is equal as values. -/
def looseEq (a b : Value) : Bool :=
  match asNumber a, asNumber b with
  | some x, some y => x == y
  | _, _ =>
    match a, b with
    | .str s, .str t => s == t
    | .str s, v => !v.isNull && s == stringify v
    | v, .str s => !v.isNull && s == stringify v
    | a, b => a.same b

/-- The order of two doubles; "not a number" has none. -/
def compareFloats (x y : Float) : Option Ordering :=
  if x < y then some .lt
  else if x == y then some .eq
  else if y < x then some .gt
  else none

/-- The order of two values: that of their numbers if both have one, and that of texts if both are
texts. -/
def compareValues (a b : Value) : Option Ordering :=
  match asNumber a, asNumber b with
  | some x, some y => compareFloats x y
  | _, _ =>
    match a, b with
    | .str s, .str t => some (if s < t then .lt else if s = t then .eq else .gt)
    | _, _ => none

end WorkflowEngine.Expression
