import WorkflowEngine.Expression.Coercion
import WorkflowEngine.Expression.Fault
import WorkflowEngine.Text.Quoted

/-!
# Functions of the language

A registry finds functions by name, ignoring case. It starts with six of them: four aggregates,
`Count` and `Contains`.
-/

namespace WorkflowEngine.Expression

open Json (Value)

structure Function where
  name : String
  run : List Value → Except Fault Value

/-- A double as the result of an operation; it must be finite. -/
def numberResult (x : Float) : Except Fault Value :=
  if x.isFinite then .ok (.num (.float x)) else .error (.notFinite x)

mutual

/-- The arguments with arrays replaced by their items, at any depth. -/
def flatten : List Value → List Value
  | [] => []
  | v :: rest => flattenOne v ++ flatten rest

def flattenOne : Value → List Value
  | .arr items => flatten items
  | v => [v]

end

inductive Aggregate where
  | min
  | max
  | sum
  | avg

namespace Aggregate

def name : Aggregate → String
  | .min => "Min"
  | .max => "Max"
  | .sum => "Sum"
  | .avg => "Avg"

/-- The numbers among the arguments; every argument must have one. -/
def numbers (a : Aggregate) : List Value → Except Fault (List Float)
  | [] => .ok []
  | v :: rest =>
    match asNumber v with
    | none => .error (.notNumeric a.name (stringify v))
    | some x =>
      match numbers a rest with
      | .error fault => .error fault
      | .ok xs => .ok (x :: xs)

/-- Sums begin with negative zero, which adds nothing to any number. -/
def total (xs : List Float) : Float := xs.foldl (· + ·) (-0.0)

/-- The smallest number, leaving out what is not a number. -/
def least (xs : List Float) : Float :=
  xs.foldl (fun least x => if x < least then x else least) Decimal.infinity

def greatest (xs : List Float) : Float :=
  xs.foldl (fun greatest x => if greatest < x then x else greatest) (-Decimal.infinity)

def combine (xs : List Float) : Aggregate → Float
  | .min => least xs
  | .max => greatest xs
  | .sum => total xs
  | .avg => total xs / Float.ofNat xs.length

/-- Only a sum may have no arguments. -/
def run (a : Aggregate) (args : List Value) : Except Fault Value :=
  match a.numbers (flatten args) with
  | .error fault => .error fault
  | .ok [] =>
    match a with
    | .sum => numberResult 0.0
    | _ => .error (.noArguments a.name)
  | .ok xs => numberResult (a.combine xs)

def function (a : Aggregate) : Function := ⟨a.name, a.run⟩

end Aggregate

def hasInfixChars (part : List Char) : List Char → Bool
  | [] => part.isEmpty
  | c :: rest => part.isPrefixOf (c :: rest) || hasInfixChars part rest

def textContains (text part : String) : Bool := hasInfixChars part.toList text.toList

def countFunction : Function := ⟨"Count", fun args => .ok (.ofInt (flatten args).length)⟩

/-- A text contains parts, an array items, an object keys; null contains nothing. -/
def contains (container item : Value) : Bool :=
  match container with
  | .str text => textContains text (stringify item)
  | .arr items => items.any fun member => looseEq member item
  | .obj fields => Fields.has (stringify item) fields
  | .null => false
  | other => textContains (stringify other) (stringify item)

def containsFunction : Function where
  name := "Contains"
  run args :=
    match args with
    | [container, item] => .ok (.bool (contains container item))
    | args => .error (.argumentCount "Contains" 2 args.length)

/-- Functions under the small form of their names. -/
structure Registry where
  entries : Fields Function := []

inductive RegistrationError where
  | emptyName
  deriving DecidableEq

def RegistrationError.message : RegistrationError → String
  | .emptyName => "Function name must not be empty"

namespace Registry

def key (name : String) : String := Text.lower (Text.trim name)

def builtins : List Function :=
  [Aggregate.min.function, Aggregate.max.function, Aggregate.sum.function,
    Aggregate.avg.function, countFunction, containsFunction]

/-- Adds a function, in place of one with the same name. -/
def register (r : Registry) (f : Function) : Except RegistrationError Registry :=
  if (key f.name).isEmpty then .error .emptyName
  else .ok ⟨r.entries.insert (key f.name) f⟩

def withBuiltins : Registry :=
  ⟨builtins.foldl (fun entries f => entries.insert (Text.lower f.name) f) []⟩

def unregister (r : Registry) (name : String) : Bool × Registry :=
  (r.entries.has (key name), ⟨r.entries.erase (key name)⟩)

/-- The function that a call names; blanks around the name count. -/
def get? (r : Registry) (name : String) : Option Function := r.entries.find? (Text.lower name)

def has (r : Registry) (name : String) : Bool := r.entries.has (Text.lower name)

def size (r : Registry) : Nat := r.entries.length

def names (r : Registry) : List String :=
  (r.entries.map fun entry => entry.2.name).mergeSort fun a b => decide (a ≤ b)

def description (r : Registry) : String :=
  "FunctionRegistry \x7b functions: [" ++
    String.intercalate ", " (r.names.map Text.quoted) ++ "] \x7d"

end Registry

end WorkflowEngine.Expression
