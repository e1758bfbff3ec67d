import WorkflowEngine.Decimal.Numeral
import WorkflowEngine.Text.Alphabetic
import WorkflowEngine.Text.Blank

/-!
# Tokens of an expression

The text between `$[` and its `]` is cut into tokens. Blanks separate tokens and mean nothing
else. Strings are quoted by either quote, and a backslash takes the next character as it is.
-/

namespace WorkflowEngine.Expression

inductive Token where
  | integer (n : Nat)
  | decimal (x : Float)
  | string (s : String)
  | ident (name : String)
  | spanOpen
  | parenOpen
  | parenClose
  | bracketOpen
  | bracketClose
  | comma
  | dot
  | question
  | colon
  | plus
  | minus
  | star
  | slash
  | greater
  | greaterEq
  | less
  | lessEq
  | equal
  | notEqual
  | andAnd
  | orOr
  | bang
  deriving DecidableEq

inductive SyntaxFault where
  | invalid
  | unterminatedString
  | unbalancedBrackets
  | unbalancedParentheses
  /-- Reported only by a reader that was given too little fuel. -/
  | exhausted
  deriving DecidableEq

/-- Integers in expressions are below this bound; longer ones are decimals. -/
def integerLimit : Nat := Nat.pow 2 63

/-- A run of digits, with a fraction if a point and a digit follow. -/
def readNumber (cs : List Char) : Token × List Char :=
  let whole := cs.takeWhile Char.isDigit
  let rest := cs.dropWhile Char.isDigit
  match rest with
  | '.' :: d :: more =>
    if d.isDigit then
      let fraction := (d :: more).takeWhile Char.isDigit
      (.decimal
          (Decimal.nearest (Decimal.digitsValue (whole ++ fraction)) (-(fraction.length : Int))),
        (d :: more).dropWhile Char.isDigit)
    else
      (numberOf whole, rest)
  | _ => (numberOf whole, rest)
where
  numberOf (digits : List Char) : Token :=
    let n := Decimal.digitsValue digits
    if n < integerLimit then .integer n else .decimal (Decimal.nearest n 0)

def startsName (c : Char) : Bool := Text.isAlphabetic c || c == '_'

def continuesName (c : Char) : Bool := Text.isAlphanumeric c || c == '_'

/-- The characters of a string up to its closing quote. -/
def readString (quote : Char) : List Char → Option (List Char × List Char)
  | [] => none
  | '\\' :: c :: rest => (readString quote rest).map fun (text, rest) => (c :: text, rest)
  | c :: rest =>
    if c = quote then some ([], rest)
    else (readString quote rest).map fun (text, rest) => (c :: text, rest)

/-- Signs and operators; of two that fit, the longer one is meant. -/
def readSign : List Char → Option (Token × List Char)
  | '$' :: '[' :: rest => some (.spanOpen, rest)
  | '>' :: '=' :: rest => some (.greaterEq, rest)
  | '<' :: '=' :: rest => some (.lessEq, rest)
  | '=' :: '=' :: rest => some (.equal, rest)
  | '!' :: '=' :: rest => some (.notEqual, rest)
  | '&' :: '&' :: rest => some (.andAnd, rest)
  | '|' :: '|' :: rest => some (.orOr, rest)
  | '(' :: rest => some (.parenOpen, rest)
  | ')' :: rest => some (.parenClose, rest)
  | '[' :: rest => some (.bracketOpen, rest)
  | ']' :: rest => some (.bracketClose, rest)
  | ',' :: rest => some (.comma, rest)
  | '.' :: rest => some (.dot, rest)
  | '?' :: rest => some (.question, rest)
  | ':' :: rest => some (.colon, rest)
  | '+' :: rest => some (.plus, rest)
  | '-' :: rest => some (.minus, rest)
  | '*' :: rest => some (.star, rest)
  | '/' :: rest => some (.slash, rest)
  | '>' :: rest => some (.greater, rest)
  | '<' :: rest => some (.less, rest)
  | '!' :: rest => some (.bang, rest)
  | _ => none

/-- The token that begins with the first character, which is not blank. -/
def readToken (c : Char) (rest : List Char) : Except SyntaxFault (Token × List Char) :=
  if c.isDigit then .ok (readNumber (c :: rest))
  else if startsName c then
    .ok (.ident (String.ofList (c :: rest.takeWhile continuesName)), rest.dropWhile continuesName)
  else if c = '\'' ∨ c = '"' then
    match readString c rest with
    | some (text, rest) => .ok (.string (String.ofList text), rest)
    | none => .error .unterminatedString
  else
    match readSign (c :: rest) with
    | some found => .ok found
    | none => .error .invalid

/-- Cuts a text into tokens; every token uses up at least one character. -/
def tokenizeFrom : Nat → List Char → Except SyntaxFault (List Token)
  | _, [] => .ok []
  | 0, _ :: _ => .error .exhausted
  | fuel + 1, c :: rest =>
    if Text.isBlank c then tokenizeFrom fuel rest
    else
      match readToken c rest with
      | .error fault => .error fault
      | .ok (token, rest) =>
        match tokenizeFrom fuel rest with
        | .error fault => .error fault
        | .ok tokens => .ok (token :: tokens)

def tokenize (cs : List Char) : Except SyntaxFault (List Token) := tokenizeFrom cs.length cs

end WorkflowEngine.Expression
