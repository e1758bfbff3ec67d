import WorkflowEngine.Expression.Token
import WorkflowEngine.Expression.Tree
import WorkflowEngine.Decimal.Layout

/-!
# Faults of expressions

Why a template has no value: its syntax, or what happened when it was evaluated. `message` holds
the wording.
-/

namespace WorkflowEngine.Expression

inductive Fault where
  /-- The text is that of the span, or of the whole template when a span does not end. -/
  | malformed (why : SyntaxFault) (text : String)
  | unknownFunction (span : String)
  | noSecretProvider (span : String)
  | notFound (source : Source) (key : String)
  | secretNotFound (key provider : String)
  | secretsUnavailable (provider reason : String)
  | notFinite (x : Float)
  | notNegatable (value span : String)
  | wrongOperands (op : BinaryOp) (lhs rhs span : String)
  | divisionByZero (span : String)
  | noArguments (function : String)
  | notNumeric (function value : String)
  | argumentCount (function : String) (expected actual : Nat)
  /-- Reported by a function from outside the library. -/
  | custom (message : String)

def invalidMessage (span : String) : String := s!"Invalid expression: {Text.trim span}"

def SyntaxFault.message (text : String) : SyntaxFault → String
  | .invalid => invalidMessage text
  | .exhausted => invalidMessage text
  | .unterminatedString => s!"Unterminated string literal in expression: {text}"
  | .unbalancedBrackets => s!"Unbalanced brackets in expression: {text}"
  | .unbalancedParentheses => s!"Unbalanced parentheses in expression: {text}"

def Fault.message : Fault → String
  | .malformed why text => why.message text
  | .unknownFunction span => invalidMessage span
  | .noSecretProvider span => invalidMessage span
  | .notFound source key => s!"{source.name}('" ++ key ++ "') not found"
  | .secretNotFound key provider =>
    "Secret '" ++ key ++ "' not found in secret provider '" ++ provider ++ "'"
  | .secretsUnavailable provider reason =>
    "Failed to load secrets from provider '" ++ provider ++ "': " ++ reason
  | .notFinite x => s!"Result {Decimal.nonFiniteText x} is not a finite number"
  | .notNegatable value span =>
    "Cannot negate non-numeric value '" ++ value ++ "' in expression: " ++ Text.trim span
  | .wrongOperands op lhs rhs span =>
    "Operator '" ++ op.sign ++ "' cannot be applied to '" ++ lhs ++ "' and '" ++ rhs ++
      "' in expression: " ++ Text.trim span
  | .divisionByZero span => s!"Division by zero in expression: {Text.trim span}"
  | .noArguments function => "Function '" ++ function ++ "' requires at least one argument"
  | .notNumeric function value =>
    "Function '" ++ function ++ "' expects numeric arguments but got '" ++ value ++ "'"
  | .argumentCount function expected actual =>
    s!"Function '" ++ function ++ s!"' expects exactly {expected} arguments but got {actual}"
  | .custom message => message

end WorkflowEngine.Expression
