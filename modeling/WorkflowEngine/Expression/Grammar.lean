import WorkflowEngine.Expression.Token
import WorkflowEngine.Expression.Tree

/-!
# Grammar of expressions

Tokens are grouped by recursive descent. From the loosest to the tightest binding: `? :`, six
levels of binary operators, the prefix operators, paths. Every call uses up one unit of fuel, and
no more than twelve calls lie between two tokens.
-/

namespace WorkflowEngine.Expression

abbrev Parsed (α : Type) := Except SyntaxFault (α × List Token)

/-- The binary operator that a token stands for on a level; level 0 binds most loosely. -/
def operatorAt : Nat → Token → Option BinaryOp
  | 0, .orOr => some .or
  | 1, .andAnd => some .and
  | 2, .equal => some .equal
  | 2, .notEqual => some .notEqual
  | 3, .greater => some .greater
  | 3, .greaterEq => some .greaterOrEqual
  | 3, .less => some .less
  | 3, .lessEq => some .lessOrEqual
  | 4, .plus => some .add
  | 4, .minus => some .subtract
  | 5, .star => some .multiply
  | 5, .slash => some .divide
  | _, _ => none

def levelCount : Nat := 6

def closeParen : List Token → Except SyntaxFault (List Token)
  | .parenClose :: rest => .ok rest
  | [] => .error .unbalancedParentheses
  | .bracketClose :: _ => .error .unbalancedParentheses
  | _ => .error .invalid

def closeBracket : List Token → Except SyntaxFault (List Token)
  | .bracketClose :: rest => .ok rest
  | [] => .error .unbalancedBrackets
  | .parenClose :: _ => .error .unbalancedBrackets
  | _ => .error .invalid

/-- A call, or a lookup when the name is that of a source; a lookup has exactly one argument. -/
def applied (name : String) (args : List Expr) : Except SyntaxFault Expr :=
  match Source.ofName? name, args with
  | none, args => .ok (.call name args)
  | some source, [key] => .ok (.lookup source key)
  | some _, _ => .error .invalid

/-- The literal of a decimal; one too large for a double has no number. -/
def decimalLiteral (x : Float) : Expr := .literal (.ofFloat x)

mutual

def parseExpr : Nat → List Token → Parsed Expr
  | 0, _ => .error .exhausted
  | fuel + 1, ts =>
    match parseLevel fuel 0 ts with
    | .error fault => .error fault
    | .ok (condition, .question :: rest) =>
      match parseExpr fuel rest with
      | .error fault => .error fault
      | .ok (thenBranch, .colon :: rest) =>
        match parseExpr fuel rest with
        | .error fault => .error fault
        | .ok (elseBranch, rest) => .ok (.ternary condition thenBranch elseBranch, rest)
      | .ok _ => .error .invalid
    | .ok (e, rest) => .ok (e, rest)

/-- Operands of one level of binary operators; beyond the last level, an operand with prefixes. -/
def parseLevel : Nat → Nat → List Token → Parsed Expr
  | 0, _, _ => .error .exhausted
  | fuel + 1, level, ts =>
    if level < levelCount then
      match parseLevel fuel (level + 1) ts with
      | .error fault => .error fault
      | .ok (lhs, rest) => parseTail fuel level lhs rest
    else parseUnary fuel ts

/-- Further operands of a level, grouped to the left. -/
def parseTail : Nat → Nat → Expr → List Token → Parsed Expr
  | 0, _, _, _ => .error .exhausted
  | _ + 1, _, lhs, [] => .ok (lhs, [])
  | fuel + 1, level, lhs, t :: ts =>
    match operatorAt level t with
    | none => .ok (lhs, t :: ts)
    | some op =>
      match parseLevel fuel (level + 1) ts with
      | .error fault => .error fault
      | .ok (rhs, rest) => parseTail fuel level (.binary op lhs rhs) rest

def parseUnary : Nat → List Token → Parsed Expr
  | 0, _ => .error .exhausted
  | fuel + 1, .bang :: ts =>
    match parseUnary fuel ts with
    | .error fault => .error fault
    | .ok (operand, rest) => .ok (.unary .not operand, rest)
  | fuel + 1, .minus :: ts =>
    match parseUnary fuel ts with
    | .error fault => .error fault
    | .ok (operand, rest) => .ok (.unary .negate operand, rest)
  | fuel + 1, ts =>
    match parsePrimary fuel ts with
    | .error fault => .error fault
    | .ok (target, rest) =>
      match parseSteps fuel rest with
      | .error fault => .error fault
      | .ok ([], rest) => .ok (target, rest)
      | .ok (step :: steps, rest) => .ok (.path target (step :: steps), rest)

/-- The steps of a path, as many as there are. -/
def parseSteps : Nat → List Token → Parsed (List Step)
  | 0, _ => .error .exhausted
  | fuel + 1, .dot :: ts =>
    match ts with
    | .ident name :: rest =>
      match parseSteps fuel rest with
      | .error fault => .error fault
      | .ok (steps, rest) => .ok (.property name :: steps, rest)
    | _ => .error .invalid
  | fuel + 1, .bracketOpen :: ts =>
    match parseExpr fuel ts with
    | .error fault => .error fault
    | .ok (index, rest) =>
      match closeBracket rest with
      | .error fault => .error fault
      | .ok rest =>
        match parseSteps fuel rest with
        | .error fault => .error fault
        | .ok (steps, rest) => .ok (.index index :: steps, rest)
  | _ + 1, ts => .ok ([], ts)

def parsePrimary : Nat → List Token → Parsed Expr
  | 0, _ => .error .exhausted
  | _ + 1, .integer n :: rest => .ok (.literal (.ofInt n), rest)
  | _ + 1, .decimal x :: rest => .ok (decimalLiteral x, rest)
  | _ + 1, .string s :: rest => .ok (.literal (.str s), rest)
  | fuel + 1, .parenOpen :: ts =>
    match parseExpr fuel ts with
    | .error fault => .error fault
    | .ok (e, rest) =>
      match closeParen rest with
      | .error fault => .error fault
      | .ok rest => .ok (e, rest)
  | fuel + 1, .spanOpen :: ts =>
    match parseExpr fuel ts with
    | .error fault => .error fault
    | .ok (e, rest) =>
      match closeBracket rest with
      | .error fault => .error fault
      | .ok rest => .ok (e, rest)
  | fuel + 1, .ident name :: ts =>
    if name = "true" then .ok (.literal (.bool true), ts)
    else if name = "false" then .ok (.literal (.bool false), ts)
    else if name = "null" then .ok (.literal .null, ts)
    else
      match ts with
      | .parenOpen :: .parenClose :: rest =>
        match applied name [] with
        | .error fault => .error fault
        | .ok e => .ok (e, rest)
      | .parenOpen :: ts =>
        match parseArgs fuel ts with
        | .error fault => .error fault
        | .ok (args, rest) =>
          match applied name args with
          | .error fault => .error fault
          | .ok e => .ok (e, rest)
      | _ => .error .invalid
  | _ + 1, _ => .error .invalid

/-- One or more arguments and the closing parenthesis. -/
def parseArgs : Nat → List Token → Parsed (List Expr)
  | 0, _ => .error .exhausted
  | fuel + 1, ts =>
    match parseExpr fuel ts with
    | .error fault => .error fault
    | .ok (arg, .comma :: rest) =>
      match parseArgs fuel rest with
      | .error fault => .error fault
      | .ok (args, rest) => .ok (arg :: args, rest)
    | .ok (arg, rest) =>
      match closeParen rest with
      | .error fault => .error fault
      | .ok rest => .ok ([arg], rest)

end

def enoughFuel (ts : List Token) : Nat := 12 * ts.length + 12

/-- The tree of a list of tokens that is one expression as a whole. -/
def treeOf (ts : List Token) : Except SyntaxFault Expr :=
  match ts with
  | [] => .error .invalid
  | ts =>
    match parseExpr (enoughFuel ts) ts with
    | .error fault => .error fault
    | .ok (e, []) => .ok e
    | .ok (_, .parenClose :: _) => .error .unbalancedParentheses
    | .ok (_, .bracketClose :: _) => .error .unbalancedBrackets
    | .ok (_, _ :: _) => .error .invalid

def parseChars (cs : List Char) : Except SyntaxFault Expr :=
  match tokenize cs with
  | .error fault => .error fault
  | .ok ts => treeOf ts

end WorkflowEngine.Expression
