/-!
# Reading floating-point text

A numeral is an optional sign and then either digits with an optional point and exponent, or one
of the words for infinity and "not a number", in any case. It denotes the double nearest to its
value.
-/

namespace WorkflowEngine.Decimal

def digitValue (c : Char) : Nat := c.toNat - '0'.toNat

def digitsValue (cs : List Char) : Nat :=
  cs.foldl (fun n c => 10 * n + digitValue c) 0

/-- An exponent: an optional sign and at least one digit, and nothing after it. -/
def readExponent (cs : List Char) : Option Int :=
  let digits (cs : List Char) : Option Nat :=
    if cs.isEmpty || cs.any (fun c => !c.isDigit) then none else some (digitsValue cs)
  match cs with
  | '-' :: rest => (digits rest).map fun n => -(n : Int)
  | '+' :: rest => (digits rest).map fun n => (n : Int)
  | rest => (digits rest).map fun n => (n : Int)

/-- The nearest double to `n · 10 ^ e`. -/
def nearest (n : Nat) (e : Int) : Float :=
  if e < 0 then Float.ofScientific n true (-e).toNat else Float.ofScientific n false e.toNat

/-- Digits with an optional fraction and exponent; at least one digit must stand before the
exponent. -/
def readMagnitude (cs : List Char) : Option Float :=
  let whole := cs.takeWhile Char.isDigit
  let afterWhole := cs.dropWhile Char.isDigit
  let (fraction, rest) :=
    match afterWhole with
    | '.' :: rest => (rest.takeWhile Char.isDigit, rest.dropWhile Char.isDigit)
    | rest => ([], rest)
  if whole.isEmpty && fraction.isEmpty then none
  else
    let n := digitsValue (whole ++ fraction)
    match rest with
    | [] => some (nearest n (-(fraction.length : Int)))
    | c :: rest =>
      if c = 'e' ∨ c = 'E' then
        (readExponent rest).map fun e => nearest n (e - fraction.length)
      else none

def infinity : Float := 1.0 / 0.0

def notANumber : Float := 0.0 / 0.0

def readUnsigned (cs : List Char) : Option Float :=
  let word := String.ofList (cs.map Char.toLower)
  if word = "inf" ∨ word = "infinity" then some infinity
  else if word = "nan" then some notANumber
  else readMagnitude cs

def readFloatChars : List Char → Option Float
  | '-' :: rest => (readUnsigned rest).map fun x => -x
  | '+' :: rest => readUnsigned rest
  | cs => readUnsigned cs

/-- The double that a text denotes, if it is a numeral as a whole. -/
def readFloat (s : String) : Option Float := readFloatChars s.toList

end WorkflowEngine.Decimal
