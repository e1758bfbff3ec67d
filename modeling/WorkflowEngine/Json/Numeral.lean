import WorkflowEngine.Json.Value
import WorkflowEngine.Decimal.Numeral

/-!
# Numbers in JSON text

A numeral without fraction and exponent is an integer when 64 bits hold it. Every other numeral
becomes a double: its digits are gathered in a 64-bit significand, and the significand is then
scaled by a power of ten. Digits that no longer fit are dropped, so the double can differ from the
nearest one in its last places.
-/

namespace WorkflowEngine.Json

/-- A numeral taken apart: digits before the point, after it, and the exponent with its sign. -/
structure Numeral where
  negative : Bool
  whole : List Char
  fraction : Option (List Char)
  exponent : Option (Bool × List Char)

def significandLimit : Nat := Nat.pow 2 64

/-- Appends digits to a significand as long as it stays below the limit; what does not fit is
returned. -/
def gather : Nat → List Char → Nat × List Char
  | n, [] => (n, [])
  | n, c :: rest =>
    let next := 10 * n + Decimal.digitValue c
    if next < significandLimit then gather next rest else (n, c :: rest)

def powerOfTen (e : Nat) : Float := Float.ofScientific 1 false e

/-- Divides by `10 ^ e`, in steps of at most `10 ^ 308`. -/
def scaleDown (x : Float) (e : Nat) : Float :=
  if _h : e ≤ 308 then x / powerOfTen e
  else if x == 0.0 then x
  else scaleDown (x / powerOfTen 308) (e - 308)
termination_by e

/-- Multiplies by `10 ^ e`; `none` when the result is not finite. -/
def scaleUp (x : Float) (e : Nat) : Option Float :=
  if e ≤ 308 then
    let scaled := x * powerOfTen e
    if scaled.isInf then none else some scaled
  else if x == 0.0 then some x
  else none

/-- The double `significand · 10 ^ exponent` with a sign. -/
def scaled (negative : Bool) (significand : Nat) (exponent : Int) : Option Float :=
  let x := Float.ofNat significand
  let magnitude :=
    if exponent < 0 then some (scaleDown x (-exponent).toNat) else scaleUp x exponent.toNat
  magnitude.map fun y => if negative then -y else y

/-- Exponents have 31 bits. -/
def exponentLimit : Nat := Nat.pow 2 31

def saturate (e : Int) : Int :=
  if e < -(exponentLimit : Int) then -(exponentLimit : Int)
  else if (exponentLimit : Int) ≤ e then (exponentLimit : Int) - 1 else e

namespace Numeral

/-- The integer of a numeral whose digits all fit. The number minus zero, and one below the least
integer, is a double. -/
def integer (negative : Bool) (n : Nat) : Number :=
  if negative then
    if n = 0 ∨ Nat.pow 2 63 < n then .float (-(Float.ofNat n)) else .int (-(n : Int))
  else .int n

/-- The number that a numeral denotes; `none` when it is too large. -/
def number? (numeral : Numeral) : Option Number :=
  let (wholePart, left) := gather 0 numeral.whole
  match numeral.fraction, numeral.exponent, left with
  | none, none, [] => some (integer numeral.negative wholePart)
  | fraction, exponent, left =>
    let digits := fraction.getD []
    let (significand, dropped) := gather wholePart digits
    let position : Int := (left.length : Int) - ((digits.length - dropped.length : Nat) : Int)
    match exponent with
    | none => (scaled numeral.negative significand position).map .float
    | some (down, digits) =>
      let e := Decimal.digitsValue digits
      if exponentLimit ≤ e then
        if significand ≠ 0 ∧ !down then none
        else some (.float (if numeral.negative then -0.0 else 0.0))
      else
        let total := saturate (if down then position - e else position + e)
        (scaled numeral.negative significand total).map .float

end Numeral

/-- Splits a numeral off the front of a text. A leading zero stands alone, and digits must follow
a point and an exponent mark. -/
def readNumeral (cs : List Char) : Option (Numeral × List Char) :=
  let (negative, cs) :=
    match cs with
    | '-' :: rest => (true, rest)
    | cs => (false, cs)
  let digits := cs.takeWhile Char.isDigit
  let rest := cs.dropWhile Char.isDigit
  match digits with
  | [] => none
  | '0' :: _ :: _ => none
  | _ =>
    let fraction : Option (Option (List Char) × List Char) :=
      match rest with
      | '.' :: more =>
        match more.takeWhile Char.isDigit with
        | [] => none
        | ds => some (some ds, more.dropWhile Char.isDigit)
      | rest => some (none, rest)
    match fraction with
    | none => none
    | some (fraction, rest) =>
      let exponent : Option (Option (Bool × List Char) × List Char) :=
        match rest with
        | c :: more =>
          if c = 'e' ∨ c = 'E' then
            let (down, more) :=
              match more with
              | '-' :: more => (true, more)
              | '+' :: more => (false, more)
              | more => (false, more)
            match more.takeWhile Char.isDigit with
            | [] => none
            | ds => some (some (down, ds), more.dropWhile Char.isDigit)
          else some (none, rest)
        | [] => some (none, [])
      match exponent with
      | none => none
      | some (exponent, rest) => some (⟨negative, digits, fraction, exponent⟩, rest)

end WorkflowEngine.Json
