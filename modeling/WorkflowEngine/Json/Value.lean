import WorkflowEngine.Fields
import WorkflowEngine.Decimal.Layout

/-!
# JSON values

A number is either an integer or a double, and the two never compare equal as values. Objects
keep their fields in key order.
-/

namespace WorkflowEngine.Json

inductive Number where
  | int (n : Int)
  | float (x : Float)

inductive Value where
  | null
  | bool (b : Bool)
  | num (n : Number)
  | str (s : String)
  | arr (items : List Value)
  | obj (fields : List (String × Value))

/-- Integers that a value can hold: those of 64 bits, with or without a sign. -/
def inIntegerRange (n : Int) : Bool := decide (-Int.pow 2 63 ≤ n) && decide (n < Int.pow 2 64)

namespace Number

def toFloat : Number → Float
  | .int n => Float.ofInt n
  | .float x => x

/-- Integers equal integers and doubles equal doubles, zero and negative zero included. -/
def same : Number → Number → Bool
  | .int m, .int n => m == n
  | .float x, .float y => x == y
  | _, _ => false

def text : Number → String
  | .int n => toString n
  | .float x => Decimal.floatText x

end Number

mutual

/-- Equality of values: structure by structure, numbers by `Number.same`. -/
def Value.same : Value → Value → Bool
  | .null, .null => true
  | .bool a, .bool b => a == b
  | .num a, .num b => a.same b
  | .str a, .str b => a == b
  | .arr a, .arr b => Value.sameItems a b
  | .obj a, .obj b => Value.sameFields a b
  | _, _ => false

def Value.sameItems : List Value → List Value → Bool
  | [], [] => true
  | a :: as, b :: bs => a.same b && Value.sameItems as bs
  | _, _ => false

def Value.sameFields : List (String × Value) → List (String × Value) → Bool
  | [], [] => true
  | (k, a) :: as, (l, b) :: bs => k == l && a.same b && Value.sameFields as bs
  | _, _ => false

end

namespace Value

def isStr : Value → Bool
  | .str _ => true
  | _ => false

def isNull : Value → Bool
  | .null => true
  | _ => false

def ofInt (n : Int) : Value := .num (.int n)

/-- A double as a value; one that is not finite has no number and becomes null. -/
def ofFloat (x : Float) : Value := if x.isFinite then .num (.float x) else .null

end Value

mutual

/-- The value with the fields of every object put in key order. -/
def Value.sortKeys : Value → Value
  | .arr items => .arr (Value.sortKeysItems items)
  | .obj fields => .obj (Value.sortKeysFields fields)
  | v => v

def Value.sortKeysItems : List Value → List Value
  | [] => []
  | v :: rest => v.sortKeys :: Value.sortKeysItems rest

def Value.sortKeysFields : List (String × Value) → List (String × Value)
  | [] => []
  | (k, v) :: rest =>
    let rest := Value.sortKeysFields rest
    if Fields.has k rest then rest else Fields.insert k v.sortKeys rest

end

end WorkflowEngine.Json
