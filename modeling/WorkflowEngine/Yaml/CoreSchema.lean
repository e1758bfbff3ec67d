import WorkflowEngine.Json.Value
import WorkflowEngine.Decimal.Numeral

/-!
# Meaning of unquoted scalars

An unquoted YAML scalar is null, a truth value or a number when it has the form of one, and a text
otherwise. Integers may be written in base 16, 8 and 2; digits after a leading zero are a text.
-/

namespace WorkflowEngine.Yaml

def isNullText (s : String) : Bool :=
  s = "" || s = "~" || s = "null" || s = "Null" || s = "NULL"

def boolOfText? (s : String) : Option Bool :=
  if s = "true" ∨ s = "True" ∨ s = "TRUE" then some true
  else if s = "false" ∨ s = "False" ∨ s = "FALSE" then some false
  else none

def radixDigit? (radix : Nat) (c : Char) : Option Nat :=
  let value :=
    if '0' ≤ c ∧ c ≤ '9' then some (c.toNat - '0'.toNat)
    else if 'a' ≤ c ∧ c ≤ 'z' then some (c.toNat - 'a'.toNat + 10)
    else if 'A' ≤ c ∧ c ≤ 'Z' then some (c.toNat - 'A'.toNat + 10)
    else none
  value.filter (· < radix)

/-- The number that digits of a base denote, at least one of them. -/
def digitsOf? (radix : Nat) : List Char → Option Nat
  | [] => none
  | cs =>
    cs.foldl
      (fun n c => match n, radixDigit? radix c with
        | some n, some d => some (n * radix + d)
        | _, _ => none)
      (some 0)

/-- A leading zero before further digits, which makes a text of what looks like a number. -/
def hasLeadingZero (cs : List Char) : Bool :=
  let cs :=
    match cs with
    | '-' :: rest => rest
    | '+' :: rest => rest
    | cs => cs
  match cs with
  | '0' :: c :: rest => (c :: rest).all Char.isDigit
  | _ => false

def magnitudeOf? (cs : List Char) : Option Nat :=
  match cs with
  | '0' :: 'x' :: rest => digitsOf? 16 rest
  | '0' :: 'o' :: rest => digitsOf? 8 rest
  | '0' :: 'b' :: rest => digitsOf? 2 rest
  | cs => if hasLeadingZero cs then none else digitsOf? 10 cs

/-- The integer that a scalar denotes, of any size. -/
def intOfText? (s : String) : Option Int :=
  match s.toList with
  | '-' :: rest => (magnitudeOf? rest).map fun n => -(n : Int)
  | '+' :: rest => (magnitudeOf? rest).map fun n => (n : Int)
  | cs => (magnitudeOf? cs).map fun n => (n : Int)

/-- The double that a scalar denotes. Infinity and "not a number" are written with a point. -/
def floatOfText? (s : String) : Option Float :=
  let cs := s.toList
  let unsigned :=
    match cs with
    | '+' :: rest => rest
    | cs => cs
  let word := String.ofList unsigned
  if hasLeadingZero cs then none
  else if word = ".inf" ∨ word = ".Inf" ∨ word = ".INF" then some Decimal.infinity
  else if s = "-.inf" ∨ s = "-.Inf" ∨ s = "-.INF" then some (-Decimal.infinity)
  else if s = ".nan" ∨ s = ".NaN" ∨ s = ".NAN" then some Decimal.notANumber
  else
    match cs with
    | '+' :: '+' :: _ => none
    | '+' :: '-' :: _ => none
    | _ => (Decimal.readFloatChars unsigned).filter (·.isFinite)

/-- Integers beyond 64 bits, up to 128 bits, have no value of their own. -/
def isWideInteger (n : Int) : Bool :=
  decide (-Int.pow 2 127 ≤ n) && decide (n < Int.pow 2 128) && !Json.inIntegerRange n

def valueOfText? (s : String) : Option Json.Value :=
  if isNullText s then some .null
  else
    match boolOfText? s with
    | some b => some (.bool b)
    | none =>
      match intOfText? s with
      | some n =>
        if Json.inIntegerRange n then some (.ofInt n)
        else if isWideInteger n then none
        else
          match floatOfText? s with
          | some x => some (.ofFloat x)
          | none => some (.str s)
      | none =>
        match floatOfText? s with
        | some x => some (.ofFloat x)
        | none => some (.str s)

end WorkflowEngine.Yaml
