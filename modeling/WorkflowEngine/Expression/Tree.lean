import WorkflowEngine.Json.Value

/-!
# Expression trees

What an expression says once its tokens are grouped: literals, lookups in the run's outputs,
variables and secrets, calls of functions, paths into values, and operators.
-/

namespace WorkflowEngine.Expression

inductive Source where
  | outputs
  | «variables»
  | secrets
  deriving DecidableEq

def Source.name : Source → String
  | .outputs => "Outputs"
  | .«variables» => "Variables"
  | .secrets => "Secrets"

/-- The names are case-sensitive. -/
def Source.ofName? (name : String) : Option Source :=
  if name = "Outputs" then some .outputs
  else if name = "Variables" then some .«variables»
  else if name = "Secrets" then some .secrets
  else none

inductive UnaryOp where
  | not
  | negate
  deriving DecidableEq

inductive BinaryOp where
  | add
  | subtract
  | multiply
  | divide
  | greater
  | greaterOrEqual
  | less
  | lessOrEqual
  | equal
  | notEqual
  | and
  | or
  deriving DecidableEq

def BinaryOp.sign : BinaryOp → String
  | .add => "+"
  | .subtract => "-"
  | .multiply => "*"
  | .divide => "/"
  | .greater => ">"
  | .greaterOrEqual => ">="
  | .less => "<"
  | .lessOrEqual => "<="
  | .equal => "=="
  | .notEqual => "!="
  | .and => "&&"
  | .or => "||"

mutual

inductive Expr where
  | literal (v : Json.Value)
  | lookup (source : Source) (key : Expr)
  | call (name : String) (args : List Expr)
  | path (target : Expr) (steps : List Step)
  | unary (op : UnaryOp) (operand : Expr)
  | binary (op : BinaryOp) (lhs rhs : Expr)
  | ternary (condition thenBranch elseBranch : Expr)

/-- A step of a path: to a property, or to an item. -/
inductive Step where
  | property (name : String)
  | index (e : Expr)

end

mutual

/-- Whether the tree holds a lookup of a secret anywhere. -/
def Expr.usesSecrets : Expr → Bool
  | .literal _ => false
  | .lookup source key => source == .secrets || key.usesSecrets
  | .call _ args => Expr.anyUsesSecrets args
  | .path target steps => target.usesSecrets || Step.anyUsesSecrets steps
  | .unary _ operand => operand.usesSecrets
  | .binary _ lhs rhs => lhs.usesSecrets || rhs.usesSecrets
  | .ternary c t e => c.usesSecrets || t.usesSecrets || e.usesSecrets

def Step.usesSecrets : Step → Bool
  | .property _ => false
  | .index e => e.usesSecrets

def Expr.anyUsesSecrets : List Expr → Bool
  | [] => false
  | e :: rest => e.usesSecrets || Expr.anyUsesSecrets rest

def Step.anyUsesSecrets : List Step → Bool
  | [] => false
  | s :: rest => s.usesSecrets || Step.anyUsesSecrets rest

end

/-- The position that an index names: only a literal natural number of 64 bits names one. -/
def Expr.literalIndex? : Expr → Option Nat
  | .literal (.num (.int n)) => if 0 ≤ n ∧ n < Int.pow 2 64 then some n.toNat else none
  | _ => none

end WorkflowEngine.Expression
