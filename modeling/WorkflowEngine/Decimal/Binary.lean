/-!
# Binary floating-point numbers taken apart

A finite double is `± significand · 2 ^ exponent`. The parts are read off its bits, so that exact
arithmetic on natural numbers can follow.
-/

namespace WorkflowEngine.Decimal

/-- A magnitude `significand · 2 ^ exponent`. -/
structure Binary where
  significand : Nat
  exponent : Int
  deriving DecidableEq

def fractionBits (bits : UInt64) : Nat := bits.toNat % Nat.pow 2 52

def exponentBits (bits : UInt64) : Nat := bits.toNat / Nat.pow 2 52 % Nat.pow 2 11

/-- Whether the sign bit is set; a negative zero has it too. -/
def isNegative (x : Float) : Bool := decide (Nat.pow 2 63 ≤ x.toBits.toNat)

def Binary.ofBits (bits : UInt64) : Binary :=
  if exponentBits bits = 0 then ⟨fractionBits bits, -1074⟩
  else ⟨Nat.pow 2 52 + fractionBits bits, (exponentBits bits : Int) - 1075⟩

def Binary.ofFloat (x : Float) : Binary := .ofBits x.toBits

/-- Whether the next smaller double is only half as far away as the next larger one. -/
def Binary.isPowerEdge (b : Binary) : Bool :=
  decide (b.significand = Nat.pow 2 52) && decide (-1074 < b.exponent)

def Binary.toNat? (b : Binary) : Option Nat :=
  if 0 ≤ b.exponent then some (b.significand * Nat.pow 2 b.exponent.toNat)
  else if b.significand % Nat.pow 2 (-b.exponent).toNat = 0 then
    some (b.significand / Nat.pow 2 (-b.exponent).toNat)
  else none

/-- A finite number as an integer, when it has no fraction. Negative zero is zero. -/
def toInt? (x : Float) : Option Int :=
  if x.isFinite then
    (Binary.ofFloat x).toNat?.map fun n => if isNegative x then -(n : Int) else n
  else none

end WorkflowEngine.Decimal
