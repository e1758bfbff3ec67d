import WorkflowEngine.Decimal.Binary

/-!
# Shortest decimal of a double

Among the decimals that round to a given double, the ones with the fewest digits are sought, and
of those the nearest. For each count of digits it is enough to look at the two neighbours of the
double on the grid of decimals with that many digits: if any point of the grid rounds to the
double, one of the neighbours does.
-/

namespace WorkflowEngine.Decimal

/-- The number `digits · 10 ^ exponent`. -/
structure Scaled where
  digits : Nat
  exponent : Int
  deriving DecidableEq

structure Ratio where
  num : Nat
  den : Nat

/-- `n · 2 ^ e` as a fraction. -/
def Ratio.scaleTwo (n : Nat) (e : Int) : Ratio :=
  if 0 ≤ e then ⟨n * Nat.pow 2 e.toNat, 1⟩ else ⟨n, Nat.pow 2 (-e).toNat⟩

/-- A fraction divided by `10 ^ e`. -/
def Ratio.shiftTen (r : Ratio) (e : Int) : Ratio :=
  if 0 ≤ e then ⟨r.num, r.den * Nat.pow 10 e.toNat⟩
  else ⟨r.num * Nat.pow 10 (-e).toNat, r.den⟩

def digitCount (n : Nat) : Nat := (Nat.toDigits 10 n).length

/-- The exponent of the leading digit of a fraction that is not a power of ten below one. -/
def Ratio.leadingExponent (r : Ratio) : Int :=
  if r.den ≤ r.num then (digitCount (r.num / r.den) : Int) - 1
  else -(digitCount (r.den / r.num) : Int)

/-- The reals that round to a double, in quarters of its last place, and whether the two ends
belong to them. -/
structure Interval where
  low : Nat
  value : Nat
  high : Nat
  exponent : Int
  closed : Bool

def Binary.interval (b : Binary) : Interval where
  low := 4 * b.significand - (if b.isPowerEdge then 1 else 2)
  value := 4 * b.significand
  high := 4 * b.significand + 2
  exponent := b.exponent - 2
  closed := b.significand % 2 == 0

/-- Whether `d · 10 ^ e` lies in the interval. -/
def Interval.contains (i : Interval) (d : Nat) (e : Int) : Bool :=
  let low := (Ratio.scaleTwo i.low i.exponent).shiftTen e
  let high := (Ratio.scaleTwo i.high i.exponent).shiftTen e
  if i.closed then decide (low.num ≤ d * low.den) && decide (d * high.den ≤ high.num)
  else decide (low.num < d * low.den) && decide (d * high.den < high.num)

/-- The decimal on the grid `10 ^ e` that is nearest to the double, if one rounds to it. -/
def Interval.onGrid (i : Interval) (e : Int) : Option Scaled :=
  let v := (Ratio.scaleTwo i.value i.exponent).shiftTen e
  let below := v.num / v.den
  let above := below + 1
  match i.contains below e, i.contains above e with
  | true, true =>
    let toBelow := v.num - below * v.den
    let toAbove := above * v.den - v.num
    if toAbove < toBelow then some ⟨above, e⟩
    else if toBelow < toAbove then some ⟨below, e⟩
    else if below % 2 = 0 then some ⟨below, e⟩ else some ⟨above, e⟩
  | true, false => some ⟨below, e⟩
  | false, true => some ⟨above, e⟩
  | false, false => none

/-- The first hit on grids of `count`, `count + 1`, … digits; seventeen digits always suffice. -/
def Interval.search (i : Interval) (leading : Int) : Nat → Nat → Option Scaled
  | 0, _ => none
  | grids + 1, count =>
    match i.onGrid (leading - (count : Int) + 1) with
    | some d => some d
    | none => i.search leading grids (count + 1)

/-- Drops the zeros at the end of the digits; `fuel` bounds their number. -/
def Scaled.trimZeros : Nat → Scaled → Scaled
  | 0, d => d
  | fuel + 1, d =>
    if d.digits ≠ 0 ∧ d.digits % 10 = 0 then trimZeros fuel ⟨d.digits / 10, d.exponent + 1⟩ else d

def Binary.shortest (b : Binary) : Scaled :=
  let i := b.interval
  let leading := (Ratio.scaleTwo i.value i.exponent).leadingExponent
  ((i.search leading 17 1).getD ⟨0, 0⟩).trimZeros 20

end WorkflowEngine.Decimal
