import WorkflowEngine.Expression.Context
import WorkflowEngine.Expression.Function
import WorkflowEngine.Expression.Path
import WorkflowEngine.Expression.Template

/-!
# Evaluation

The value of a tree in a context. Operands are evaluated from left to right, the logical operators
skip the right one when the left one decides, and a path that leads nowhere is null. A template
that is one span has the value of its tree; every other template has a text.
-/

namespace WorkflowEngine.Expression

open Json (Value)

structure Scope where
  context : Context
  functions : Registry

namespace Scope

/-- The value under a key. Secrets must have been loaded before. -/
def lookup (s : Scope) (span : String) (source : Source) (key : String) : Except Fault Value :=
  match source with
  | .outputs =>
    match s.context.outputs.find? key with
    | some v => .ok v
    | none => .error (.notFound .outputs key)
  | .«variables» =>
    match s.context.variables.find? key with
    | some v => .ok v
    | none => .error (.notFound .«variables» key)
  | .secrets =>
    match s.context.secrets.provider with
    | none => .error (.noSecretProvider span)
    | some provider =>
      match s.context.secrets.lookup key with
      | some secret => .ok (.str secret.value)
      | none => .error (.secretNotFound key provider.name)

end Scope

def applyUnary (span : String) (op : UnaryOp) (v : Value) : Except Fault Value :=
  match op with
  | .not => .ok (.bool (!isTruthy v))
  | .negate =>
    match asNumber v with
    | some x => numberResult (-x)
    | none => .error (.notNegatable (stringify v) span)

def ordered (op : BinaryOp) (o : Ordering) : Bool :=
  match op with
  | .greater => o == .gt
  | .greaterOrEqual => o != .lt
  | .less => o == .lt
  | _ => o != .gt

def compareWith (span : String) (op : BinaryOp) (a b : Value) : Except Fault Value :=
  match compareValues a b with
  | some o => .ok (.bool (ordered op o))
  | none => .error (.wrongOperands op (stringify a) (stringify b) span)

/-- An arithmetic operator other than the sum. -/
def calculate (span : String) (op : BinaryOp) (a b : Value) : Except Fault Value :=
  match asNumber a, asNumber b with
  | some x, some y =>
    match op with
    | .subtract => numberResult (x - y)
    | .multiply => numberResult (x * y)
    | _ => if y == 0.0 then .error (.divisionByZero span) else numberResult (x / y)
  | _, _ => .error (.wrongOperands op (stringify a) (stringify b) span)

/-- Adds numbers, and joins texts when one operand is a text and not both are numbers. -/
def add (span : String) (a b : Value) : Except Fault Value :=
  match asNumber a, asNumber b with
  | some x, some y => numberResult (x + y)
  | _, _ =>
    if a.isStr || b.isStr then .ok (.str (stringify a ++ stringify b))
    else .error (.wrongOperands .add (stringify a) (stringify b) span)

def applyBinary (span : String) (op : BinaryOp) (a b : Value) : Except Fault Value :=
  match op with
  | .and => .ok (.bool (isTruthy b))
  | .or => .ok (.bool (isTruthy b))
  | .equal => .ok (.bool (looseEq a b))
  | .notEqual => .ok (.bool (!looseEq a b))
  | .add => add span a b
  | .subtract => calculate span .subtract a b
  | .multiply => calculate span .multiply a b
  | .divide => calculate span .divide a b
  | op => compareWith span op a b

/-- The value of a logical operator that its left operand decides. -/
def shortCircuit? (op : BinaryOp) (a : Value) : Option Value :=
  match op with
  | .and => if isTruthy a then none else some (.bool false)
  | .or => if isTruthy a then some (.bool true) else none
  | _ => none

/-- One step into a value; null when it leads nowhere. -/
def takeStep (v : Value) : Step → Value
  | .property name => (property? name v).getD .null
  | .index e =>
    match e.literalIndex? with
    | some i => (item? i v).getD .null
    | none => .null

mutual

/-- The value of a tree; `span` is its text, for messages. -/
def Scope.eval (s : Scope) (span : String) : Expr → Except Fault Value
  | .literal v => .ok v
  | .lookup source key =>
    match s.eval span key with
    | .error fault => .error fault
    | .ok key => s.lookup span source (stringify key)
  | .call name args =>
    match s.functions.get? name with
    | none => .error (.unknownFunction span)
    | some f =>
      match s.evalAll span args with
      | .error fault => .error fault
      | .ok args => f.run args
  | .path target steps =>
    match s.eval span target with
    | .error fault => .error fault
    | .ok v => .ok (steps.foldl takeStep v)
  | .unary op operand =>
    match s.eval span operand with
    | .error fault => .error fault
    | .ok v => applyUnary span op v
  | .binary op lhs rhs =>
    match s.eval span lhs with
    | .error fault => .error fault
    | .ok a =>
      match shortCircuit? op a with
      | some v => .ok v
      | none =>
        match s.eval span rhs with
        | .error fault => .error fault
        | .ok b => applyBinary span op a b
  | .ternary condition thenBranch elseBranch =>
    match s.eval span condition with
    | .error fault => .error fault
    | .ok c => if isTruthy c then s.eval span thenBranch else s.eval span elseBranch

/-- The values of arguments from left to right. -/
def Scope.evalAll (s : Scope) (span : String) : List Expr → Except Fault (List Value)
  | [] => .ok []
  | e :: rest =>
    match s.eval span e with
    | .error fault => .error fault
    | .ok v =>
      match s.evalAll span rest with
      | .error fault => .error fault
      | .ok vs => .ok (v :: vs)

end

namespace Scope

/-- The text of a template, each span replaced by the text of its value. -/
def inlineText (s : Scope) : Template → Except Fault (List Char)
  | [] => .ok []
  | .text cs :: rest =>
    match s.inlineText rest with
    | .error fault => .error fault
    | .ok tail => .ok (cs ++ tail)
  | .span source tree :: rest =>
    match s.eval (String.ofList source) tree with
    | .error fault => .error fault
    | .ok v =>
      match s.inlineText rest with
      | .error fault => .error fault
      | .ok tail => .ok ((stringify v).toList ++ tail)

/-- The value of a template that was read from `input`. -/
def render (s : Scope) (input : String) (t : Template) : Except Fault Value :=
  if !t.hasSpans then .ok (.str input)
  else
    match t.soleSpan? with
    | some (source, tree) => s.eval (String.ofList source) tree
    | none =>
      match s.inlineText t with
      | .error fault => .error fault
      | .ok cs => .ok (.str (String.ofList cs))

/-- Loads the secrets; the scope keeps what the provider answered. -/
def loadSecrets (s : Scope) : Except Fault Unit × Scope :=
  match s.context.secrets.load with
  | (.ok _, cache) => (.ok (), { s with context := { s.context with secrets := cache } })
  | (.error reason, cache) =>
    let provider := (s.context.secrets.provider.map (·.name)).getD "unknown"
    (.error (.secretsUnavailable provider reason),
      { s with context := { s.context with secrets := cache } })

/-- Loads the secrets if they are needed, and then does what needs them. -/
def afterSecrets {α : Type} (s : Scope) (needed : Bool) (use : Scope → Except Fault α) :
    Except Fault α × Scope :=
  if needed then
    match s.loadSecrets with
    | (.error fault, s) => (.error fault, s)
    | (.ok _, s) => (use s, s)
  else (use s, s)

/-- The value of a text. The syntax of every span is checked before anything is evaluated. -/
def parse (s : Scope) (input : String) : Except Fault Value × Scope :=
  match parseTemplate input with
  | .error fault => (.error fault, s)
  | .ok t => s.afterSecrets t.usesSecrets fun s => s.render input t

def condition (s : Scope) (input : String) : Except Fault Bool × Scope :=
  match s.parse input with
  | (.error fault, s) => (.error fault, s)
  | (.ok v, s) => (.ok (isTruthy v), s)

end Scope

def checkSyntax (input : String) : Except Fault Unit :=
  match parseTemplate input with
  | .error fault => .error fault
  | .ok _ => .ok ()

end WorkflowEngine.Expression
