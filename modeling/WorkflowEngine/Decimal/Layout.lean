import WorkflowEngine.Decimal.Shortest

/-!
# Written form of doubles

A double is written with the digits of its shortest decimal, either positionally or with an
exponent. The record `Layout` holds the decisions of a format.
-/

namespace WorkflowEngine.Decimal

/-- Leading-digit exponents from `leastPlain` to `mostPlain` are written positionally and always
with a fraction; all others with an exponent that carries its sign. -/
structure Layout where
  leastPlain : Int
  mostPlain : Int
  exponentMark : Char
  positiveSign : List Char

def jsonLayout : Layout := ⟨-5, 15, 'e', ['+']⟩

def digitChars (n : Nat) : List Char := Nat.toDigits 10 n

/-- Digits with the point after the digit of exponent zero. -/
def plainForm (digits : List Char) (leading : Int) : List Char :=
  if leading < 0 then
    ['0', '.'] ++ List.replicate ((-leading).toNat - 1) '0' ++ digits
  else
    let whole := leading.toNat + 1
    let padded := digits ++ List.replicate (whole - digits.length) '0'
    let fraction := padded.drop whole
    padded.take whole ++ ['.'] ++ (if fraction.isEmpty then ['0'] else fraction)

def Layout.exponentForm (layout : Layout) (digits : List Char) (leading : Int) : List Char :=
  let mantissa :=
    match digits with
    | [] => ['0']
    | [d] => [d]
    | d :: rest => d :: '.' :: rest
  let sign := if leading < 0 then ['-'] else layout.positiveSign
  mantissa ++ [layout.exponentMark] ++ sign ++ digitChars leading.natAbs

def Layout.magnitude (layout : Layout) (b : Binary) : List Char :=
  if b.significand = 0 then ['0', '.', '0']
  else
    let d := b.shortest
    let digits := digitChars d.digits
    let leading := d.exponent + (digits.length : Int) - 1
    if layout.leastPlain ≤ leading ∧ leading ≤ layout.mostPlain then plainForm digits leading
    else layout.exponentForm digits leading

def floatChars (x : Float) : List Char :=
  let body := jsonLayout.magnitude (Binary.ofFloat x)
  if isNegative x then '-' :: body else body

def floatText (x : Float) : String := String.ofList (floatChars x)

/-- Text of a number that JSON cannot hold, as messages show it. -/
def nonFiniteText (x : Float) : String :=
  if x.isNaN then "NaN" else if isNegative x then "-inf" else "inf"

end WorkflowEngine.Decimal
