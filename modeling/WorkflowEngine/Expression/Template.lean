import WorkflowEngine.Expression.Fault
import WorkflowEngine.Expression.Grammar

/-!
# Templates

A template is text with spans `$[…]` in it. A span ends at the bracket that closes it; brackets
inside quotes do not count. Spans are parsed from left to right, and the first fault is reported.
-/

namespace WorkflowEngine.Expression

inductive Segment where
  | text (s : List Char)
  | span (source : List Char) (tree : Expr)

abbrev Template := List Segment

/-- The text before the first `$[` and what follows it. -/
def splitOpening : List Char → Option (List Char × List Char)
  | [] => none
  | '$' :: '[' :: rest => some ([], rest)
  | c :: rest => (splitOpening rest).map fun (before, after) => (c :: before, after)

mutual

/-- The text up to the bracket that closes `depth + 1` open ones, and what follows it. -/
def splitClosing (depth : Nat) : List Char → Option (List Char × List Char)
  | [] => none
  | c :: rest =>
    if c = ']' then
      match depth with
      | 0 => some ([], rest)
      | outer + 1 => (splitClosing outer rest).map fun (inside, after) => (c :: inside, after)
    else if c = '[' then
      (splitClosing (depth + 1) rest).map fun (inside, after) => (c :: inside, after)
    else if c = '\'' ∨ c = '"' then
      (splitQuoted c depth rest).map fun (inside, after) => (c :: inside, after)
    else (splitClosing depth rest).map fun (inside, after) => (c :: inside, after)

/-- The same inside quotes, where a backslash hides the character after it. -/
def splitQuoted (quote : Char) (depth : Nat) : List Char → Option (List Char × List Char)
  | [] => none
  | '\\' :: c :: rest =>
    (splitQuoted quote depth rest).map fun (inside, after) => ('\\' :: c :: inside, after)
  | c :: rest =>
    if c = quote then (splitClosing depth rest).map fun (inside, after) => (c :: inside, after)
    else (splitQuoted quote depth rest).map fun (inside, after) => (c :: inside, after)

end

def textSegment (cs : List Char) : Template := if cs.isEmpty then [] else [.text cs]

/-- The segments of `rest`; `whole` is the template as it was given. Each span uses up fuel. -/
def segmentsFrom (whole : List Char) : Nat → List Char → Except Fault Template
  | 0, rest => .ok (textSegment rest)
  | fuel + 1, rest =>
    match splitOpening rest with
    | none => .ok (textSegment rest)
    | some (before, body) =>
      match splitClosing 0 body with
      | none => .error (.malformed .unbalancedBrackets (String.ofList whole))
      | some (source, after) =>
        match parseChars source with
        | .error fault => .error (.malformed fault (String.ofList source))
        | .ok tree =>
          match segmentsFrom whole fuel after with
          | .error fault => .error fault
          | .ok segments => .ok (textSegment before ++ .span source tree :: segments)

def parseTemplateChars (cs : List Char) : Except Fault Template := segmentsFrom cs cs.length cs

def parseTemplate (input : String) : Except Fault Template := parseTemplateChars input.toList

def Segment.isSpan : Segment → Bool
  | .span _ _ => true
  | .text _ => false

def Segment.usesSecrets : Segment → Bool
  | .span _ tree => tree.usesSecrets
  | .text _ => false

namespace Template

/-- The text that a template was read from. -/
def source : Template → List Char
  | [] => []
  | .text cs :: rest => cs ++ source rest
  | .span cs _ :: rest => '$' :: '[' :: cs ++ ']' :: source rest

def hasSpans (t : Template) : Bool := t.any Segment.isSpan

def usesSecrets (t : Template) : Bool := t.any Segment.usesSecrets

/-- The only span of a template that has nothing but blanks around it. -/
def soleSpan? (t : Template) : Option (List Char × Expr) :=
  let spans := t.filterMap fun
    | .span source tree => some (source, tree)
    | .text _ => none
  let blank := t.all fun
    | .span _ _ => true
    | .text cs => cs.all Text.isBlank
  match spans with
  | [only] => if blank then some only else none
  | _ => none

end Template

end WorkflowEngine.Expression
