import WorkflowEngine.Yaml.Scalar

/-!
# Tokens of a YAML text

The scanner turns indentation into explicit starts and ends of block collections, and it finds out
which scalars are keys: one that is followed by a colon on the same line. The place where such a
scalar may begin is remembered, so that the token of a key can be put in front of it later.
-/

namespace WorkflowEngine.Yaml

inductive Token where
  | documentStart
  | documentEnd
  | blockSeq
  | blockMap
  | blockEnd
  | flowSeq
  | flowSeqEnd
  | flowMap
  | flowMapEnd
  | blockEntry
  | flowEntry
  | key
  | value
  | scalar (quoted : Bool) (text : String)

/-- A place where a key may have begun. -/
structure KeyCandidate where
  /-- Whether nothing but a key can stand here. -/
  required : Bool
  /-- How many tokens precede it. -/
  position : Nat
  index : Nat
  line : Nat
  column : Nat

/-- State of the scanner. `tokens` holds the latest token first; `candidates` has one slot for the
block level and one for every open flow collection, innermost first. -/
structure Scanner where
  cursor : Cursor
  indent : Int
  outerIndents : List Int
  candidates : List (Option KeyCandidate)
  keyAllowed : Bool
  tokens : List Token

namespace Scanner

def start (cs : List Char) : Scanner := ⟨.start cs, -1, [], [none], true, []⟩

def inFlow (s : Scanner) : Bool := decide (1 < s.candidates.length)

def push (s : Scanner) (t : Token) : Scanner := { s with tokens := t :: s.tokens }

/-- Puts a token where `position` tokens precede it. -/
def pushAt (s : Scanner) (position : Nat) (t : Token) : Scanner :=
  let later := s.tokens.length - position
  { s with tokens := s.tokens.take later ++ t :: s.tokens.drop later }

/-- Moves to the next token over blanks, comments and line breaks. -/
def skipGap : Nat → Scanner → Scanner
  | 0, s => s
  | fuel + 1, s =>
    let c := s.cursor
    match c.peek? 0 with
    | none => s
    | some ch =>
      if ch == ' ' || (ch == '\t' && (s.inFlow || !s.keyAllowed)) then
        skipGap fuel { s with cursor := c.skip }
      else if ch == '#' then
        skipGap fuel { s with cursor := c.skipWhile fun ch => !isBreak ch }
      else if isBreak ch then
        skipGap fuel { s with
          cursor := c.skipBreak.2
          keyAllowed := s.keyAllowed || !s.inFlow }
      else s

/-- Drops candidates that are too far back; it is a fault if one of them had to be a key. -/
def dropStale (s : Scanner) : Option Scanner :=
  let stale (k : KeyCandidate) : Bool :=
    decide (k.line < s.cursor.line) || decide (k.index + 1024 < s.cursor.index)
  if s.candidates.any fun slot => slot.any fun k => stale k && k.required then none
  else some { s with candidates := s.candidates.map fun slot => slot.filter fun k => !stale k }

def forgetKey (s : Scanner) : Option Scanner :=
  match s.candidates with
  | [] => some s
  | slot :: rest =>
    if slot.any (·.required) then none else some { s with candidates := none :: rest }

def rememberKey (s : Scanner) : Option Scanner :=
  if s.keyAllowed then
    let k : KeyCandidate :=
      ⟨!s.inFlow && s.indent == (s.cursor.column : Int), s.tokens.length, s.cursor.index,
        s.cursor.line, s.cursor.column⟩
    (s.forgetKey).map fun s => { s with candidates := some k :: s.candidates.drop 1 }
  else some s

/-- Opens a block collection when the column lies to the right of the indentation. -/
def openBlock (s : Scanner) (column : Nat) (position : Nat) (t : Token) : Scanner :=
  if !s.inFlow && decide (s.indent < (column : Int)) then
    { s.pushAt position t with indent := column, outerIndents := s.indent :: s.outerIndents }
  else s

/-- Closes the block collections whose indentation lies to the right of the column. -/
def closeBlocks (column : Int) : Nat → Scanner → Scanner
  | 0, s => s
  | fuel + 1, s =>
    if !s.inFlow && decide (column < s.indent) then
      closeBlocks column fuel { s.push .blockEnd with
        indent := s.outerIndents.headD (-1)
        outerIndents := s.outerIndents.drop 1 }
    else s

def advance (s : Scanner) (n : Nat) (t : Token) : Scanner :=
  { s.push t with cursor := s.cursor.skipMany n }

/-- The marker of a document's start or end. -/
def marker (s : Scanner) (t : Token) : Option Scanner :=
  ((s.closeBlocks (-1) (s.outerIndents.length + 1)).forgetKey).map fun s =>
    { s.advance 3 t with keyAllowed := false }

def openFlow (s : Scanner) (t : Token) : Option Scanner :=
  s.rememberKey.map fun s =>
    { s.advance 1 t with candidates := none :: s.candidates, keyAllowed := true }

def closeFlow (s : Scanner) (t : Token) : Option Scanner :=
  s.forgetKey.map fun s =>
    { s.advance 1 t with
      candidates := if s.inFlow then s.candidates.drop 1 else s.candidates
      keyAllowed := false }

def flowEntry (s : Scanner) : Option Scanner :=
  s.forgetKey.map fun s => { s.advance 1 .flowEntry with keyAllowed := true }

def blockEntry (s : Scanner) : Option Scanner :=
  if !s.inFlow && !s.keyAllowed then none
  else
    ((s.openBlock s.cursor.column s.tokens.length .blockSeq).forgetKey).map fun s =>
      { s.advance 1 .blockEntry with keyAllowed := true }

/-- The sign of an explicit key. -/
def explicitKey (s : Scanner) : Option Scanner :=
  if !s.inFlow && !s.keyAllowed then none
  else
    ((s.openBlock s.cursor.column s.tokens.length .blockMap).forgetKey).map fun s =>
      { s.advance 1 .key with keyAllowed := !s.inFlow }

/-- The colon before a value. A candidate before it becomes a key. -/
def colon (s : Scanner) : Option Scanner :=
  match s.candidates.head? with
  | some (some k) =>
    let s := s.pushAt k.position .key
    let s := s.openBlock k.column k.position .blockMap
    let s := { s with candidates := none :: s.candidates.drop 1, keyAllowed := false }
    some (s.advance 1 .value)
  | _ =>
    if s.inFlow then some { s.advance 1 .value with keyAllowed := false }
    else if !s.keyAllowed then none
    else
      let s := s.openBlock s.cursor.column s.tokens.length .blockMap
      some { s.advance 1 .value with keyAllowed := true }

def blockScalar (s : Scanner) (literal : Bool) : Option Scanner :=
  match s.forgetKey with
  | none => none
  | some s =>
    (readBlock literal s.indent s.cursor.skip).map fun (text, c) =>
      { s.push (.scalar true (String.ofList text)) with cursor := c, keyAllowed := true }

def quotedScalar (s : Scanner) (single : Bool) : Option Scanner :=
  match s.rememberKey with
  | none => none
  | some s =>
    let c := s.cursor.skip
    (readQuoted single (c.rest.length + 1) c []).map fun (text, c) =>
      { s.push (.scalar true (String.ofList text)) with cursor := c, keyAllowed := false }

def plainScalar (s : Scanner) : Option Scanner :=
  match s.rememberKey with
  | none => none
  | some s =>
    let c := s.cursor
    (readPlain s.inFlow (s.indent + 1) (c.rest.length + 1) c [] .empty).map
      fun (text, broken, c) =>
        { s.push (.scalar false (String.ofList text)) with cursor := c, keyAllowed := broken }

/-- Characters that cannot begin an unquoted scalar, or not without something after them. -/
def isIndicator (c : Char) : Bool :=
  isFlowIndicator c || "-?:#&*!|>'\"%@\x60".toList.contains c

/-- Whether an unquoted scalar begins here. -/
def plainStarts (s : Scanner) : Bool :=
  let c := s.cursor
  (!c.gapAt 0 && !c.looksAt 0 isIndicator) ||
    (c.sees '-' && !c.looksAt 1 isBlank) ||
    (!s.inFlow && (c.sees '?' || c.sees ':') && !c.gapAt 1)

def step (s : Scanner) : Option Scanner :=
  let c := s.cursor
  if c.atMarker '-' then s.marker .documentStart
  else if c.atMarker '.' then s.marker .documentEnd
  else
    match c.peek? 0 with
    | none => none
    | some ch =>
      if ch == '%' && c.column == 0 then none
      else if ch == '[' then s.openFlow .flowSeq
      else if ch == '\x7b' then s.openFlow .flowMap
      else if ch == ']' then s.closeFlow .flowSeqEnd
      else if ch == '\x7d' then s.closeFlow .flowMapEnd
      else if ch == ',' then s.flowEntry
      else if ch == '-' && c.gapAt 1 then s.blockEntry
      else if ch == '?' && (s.inFlow || c.gapAt 1) then s.explicitKey
      else if ch == ':' && (s.inFlow || c.gapAt 1) then s.colon
      else if ch == '|' && !s.inFlow then s.blockScalar true
      else if ch == '>' && !s.inFlow then s.blockScalar false
      else if ch == '\'' then s.quotedScalar true
      else if ch == '"' then s.quotedScalar false
      else if s.plainStarts then s.plainScalar
      else none

def run : Nat → Scanner → Option Scanner
  | 0, _ => none
  | fuel + 1, s =>
    let s := skipGap (s.cursor.rest.length + 1) s
    match s.dropStale with
    | none => none
    | some s =>
      let s := s.closeBlocks s.cursor.column (s.outerIndents.length + 1)
      if s.cursor.atEnd then (s.closeBlocks (-1) (s.outerIndents.length + 1)).forgetKey
      else
        match s.step with
        | none => none
        | some s => run fuel s

end Scanner

/-- The tokens of a text, if it has only characters that are allowed and every scalar ends. -/
def scan (cs : List Char) : Option (List Token) :=
  let cs :=
    match cs with
    | '\ufeff' :: rest => rest
    | cs => cs
  if cs.all isAllowed then
    ((Scanner.start cs).run (cs.length + 2)).map fun s => s.tokens.reverse
  else none

end WorkflowEngine.Yaml
