import WorkflowEngine.Text.Hex
import WorkflowEngine.Yaml.Cursor

/-!
# Scalars of a YAML text

A scalar is unquoted, quoted, or a block introduced by `|` or `>`. In the first two a line break
between words counts as a space, and further breaks stay; in a block the indentation decides which
lines belong to it.
-/

namespace WorkflowEngine.Yaml

/-- What stands between two words of a scalar: blanks on the line, or line breaks. -/
structure Gap where
  blanks : List Char
  firstBreak : List Char
  moreBreaks : List Char
  broken : Bool

namespace Gap

def empty : Gap := ⟨[], [], [], false⟩

/-- A single line break folds into a space. -/
def folded (g : Gap) : List Char :=
  if g.broken then
    if g.firstBreak == ['\n'] then
      if g.moreBreaks.isEmpty then [' '] else g.moreBreaks
    else g.firstBreak ++ g.moreBreaks
  else g.blanks

/-- Reads blanks and line breaks. With an indentation given, a tab to the left of it is a fault. -/
def read (indent : Option Int) : Nat → Cursor → Gap → Option (Gap × Cursor)
  | 0, _, _ => none
  | fuel + 1, c, g =>
    match c.peek? 0 with
    | none => some (g, c)
    | some ch =>
      if isBlank ch then
        if g.broken && ch == '\t' && indent.any (fun i => decide ((c.column : Int) < i)) then none
        else if g.broken then read indent fuel c.skip g
        else read indent fuel c.skip { g with blanks := g.blanks ++ [ch] }
      else if isBreak ch then
        let (text, c) := c.skipBreak
        if g.broken then read indent fuel c { g with moreBreaks := g.moreBreaks ++ text }
        else read indent fuel c { g with blanks := [], firstBreak := text, broken := true }
      else some (g, c)

end Gap

/-! ## Unquoted scalars -/

def isFlowIndicator (c : Char) : Bool :=
  c == ',' || c == '[' || c == ']' || c == '\x7b' || c == '\x7d'

/-- The characters of a word. A colon before a gap ends it, as does a bracket or comma inside a
flow collection, where a colon directly before one of those is a fault. -/
def readWord (flow : Bool) : Nat → Cursor → Option (List Char × Cursor)
  | 0, _ => none
  | fuel + 1, c =>
    if c.gapAt 0 then some ([], c)
    else
      match c.peek? 0 with
      | none => some ([], c)
      | some ch =>
        if flow && ch == ':' && c.looksAt 1 (fun d => isFlowIndicator d || d == '?') then none
        else if (ch == ':' && c.gapAt 1) || (flow && isFlowIndicator ch) then some ([], c)
        else (readWord flow fuel c.skip).map fun (word, c) => (ch :: word, c)

/-- An unquoted scalar, and whether a line break was passed after its last word. -/
def readPlain (flow : Bool) (indent : Int) : Nat → Cursor → List Char → Gap →
    Option (List Char × Bool × Cursor)
  | 0, _, _, _ => none
  | fuel + 1, c, text, gap =>
    if c.atDocumentMarker || c.sees '#' then some (text, gap.broken, c)
    else
      match readWord flow (c.rest.length + 1) c with
      | none => none
      | some (word, c) =>
        let (text, gap) :=
          if word.isEmpty then (text, gap) else (text ++ gap.folded ++ word, .empty)
        if c.atEnd || !c.gapAt 0 then some (text, gap.broken, c)
        else
          match gap.read (some indent) (c.rest.length + 1) c with
          | none => none
          | some (gap, c) =>
            if !flow && decide ((c.column : Int) < indent) then some (text, gap.broken, c)
            else readPlain flow indent fuel c text gap

/-! ## Quoted scalars -/

/-- The character with a code point of so many hexadecimal digits; surrogates are none. -/
def readCodePoint (digits : Nat) (c : Cursor) : Option (Char × Cursor) :=
  let cs := c.rest.take digits
  if cs.length < digits then none
  else
    match cs.mapM Text.hexValue? with
    | none => none
    | some values =>
      let n := values.foldl (fun n d => 16 * n + d) 0
      if h : n.isValidChar then some (Char.ofNatAux n h, c.skipMany digits) else none

/-- The character that an escape stands for; the cursor is after the backslash. -/
def readEscape (c : Cursor) : Option (Char × Cursor) :=
  match c.peek? 0 with
  | some '0' => some ('\x00', c.skip)
  | some 'a' => some ('\x07', c.skip)
  | some 'b' => some ('\x08', c.skip)
  | some 't' => some ('\t', c.skip)
  | some '\t' => some ('\t', c.skip)
  | some 'n' => some ('\n', c.skip)
  | some 'v' => some ('\x0b', c.skip)
  | some 'f' => some ('\x0c', c.skip)
  | some 'r' => some ('\r', c.skip)
  | some 'e' => some ('\x1b', c.skip)
  | some ' ' => some (' ', c.skip)
  | some '"' => some ('"', c.skip)
  | some '/' => some ('/', c.skip)
  | some '\\' => some ('\\', c.skip)
  | some 'N' => some ('\u0085', c.skip)
  | some '_' => some ('\u00a0', c.skip)
  | some 'L' => some ('\u2028', c.skip)
  | some 'P' => some ('\u2029', c.skip)
  | some 'x' => readCodePoint 2 c.skip
  | some 'u' => readCodePoint 4 c.skip
  | some 'U' => readCodePoint 8 c.skip
  | _ => none

/-- Characters up to a gap or the closing quote, and whether the line ended in a backslash. -/
def readQuotedWord (single : Bool) : Nat → Cursor → Option (List Char × Bool × Cursor)
  | 0, _ => none
  | fuel + 1, c =>
    if c.gapAt 0 then some ([], false, c)
    else
      match c.peek? 0 with
      | none => some ([], false, c)
      | some ch =>
        if single then
          if ch == '\'' then
            if c.looksAt 1 (· == '\'') then
              (readQuotedWord single fuel (c.skipMany 2)).map fun (word, joined, c) =>
                ('\'' :: word, joined, c)
            else some ([], false, c)
          else
            (readQuotedWord single fuel c.skip).map fun (word, joined, c) => (ch :: word, joined, c)
        else if ch == '"' then some ([], false, c)
        else if ch == '\\' then
          if c.looksAt 1 isBreak then some ([], true, c.skip.skipBreak.2)
          else
            match readEscape c.skip with
            | none => none
            | some (ch, c) =>
              (readQuotedWord single fuel c).map fun (word, joined, c) => (ch :: word, joined, c)
        else
          (readQuotedWord single fuel c.skip).map fun (word, joined, c) => (ch :: word, joined, c)

/-- A quoted scalar after its opening quote. -/
def readQuoted (single : Bool) : Nat → Cursor → List Char → Option (List Char × Cursor)
  | 0, _, _ => none
  | fuel + 1, c, text =>
    if c.atDocumentMarker || c.atEnd then none
    else
      match readQuotedWord single (c.rest.length + 1) c with
      | none => none
      | some (word, joined, c) =>
        if c.sees (if single then '\'' else '"') then some (text ++ word, c.skip)
        else
          let gap : Gap := { Gap.empty with broken := joined }
          match gap.read none (c.rest.length + 1) c with
          | none => none
          | some (gap, c) => readQuoted single fuel c (text ++ word ++ gap.folded)

/-! ## Block scalars -/

/-- How the line breaks at the end of a block are kept. -/
inductive Chomping where
  | strip
  | clip
  | keep

def readChomping (c : Cursor) : Option Chomping × Cursor :=
  if c.sees '+' then (some .keep, c.skip)
  else if c.sees '-' then (some .strip, c.skip)
  else (none, c)

/-- The indentation given by a digit; zero is a fault. -/
def readIncrement (c : Cursor) : Option (Option Nat × Cursor) :=
  match c.peek? 0 with
  | some ch =>
    if ch.isDigit then
      if ch == '0' then none else some (some (ch.toNat - '0'.toNat), c.skip)
    else some (none, c)
  | none => some (none, c)

/-- Chomping and indentation in either order, then nothing but a comment up to the line's end. -/
def readBlockHeader (c : Cursor) : Option (Chomping × Option Nat × Cursor) :=
  let (first, c) := readChomping c
  match readIncrement c with
  | none => none
  | some (increment, c) =>
    let (second, c) := if first.isNone && increment.isSome then readChomping c else (none, c)
    let c := c.skipWhile isBlank
    let c := if c.sees '#' then c.skipWhile (fun ch => !isBreak ch) else c
    if c.atEnd || c.looksAt 0 isBreak then
      some (((first.or second).getD .clip), increment, c.skipBreak.2)
    else none

/-- Empty lines before a line of a block. With no indentation given, spaces are taken as they come
and the deepest column reached is returned. -/
def readEmptyLines (indent : Option Nat) : Nat → Cursor → List Char → Nat →
    Option (List Char × Nat × Cursor)
  | 0, _, _, _ => none
  | fuel + 1, c, breaks, deepest =>
    let inIndent (column : Nat) : Bool := indent.all fun i => decide (column < i)
    let spaces := (c.rest.takeWhile (· == ' ')).length
    let c :=
      match indent with
      | none => c.skipMany spaces
      | some i => c.skipMany (min spaces (i - c.column))
    let deepest := max deepest c.column
    if inIndent c.column && c.sees '\t' then none
    else if c.looksAt 0 isBreak then
      let (text, c) := c.skipBreak
      readEmptyLines indent fuel c (breaks ++ text) deepest
    else some (breaks, deepest, c)

/-- The lines of a block: its text so far, the break after the last line, the empty lines after
that, and whether the last line began with a blank. -/
def readBlockLines (literal : Bool) (indent : Nat) : Nat → Cursor → List Char → List Char →
    List Char → Bool → Option (List Char × List Char × List Char × Cursor)
  | 0, _, _, _, _, _ => none
  | fuel + 1, c, text, lastBreak, empties, blankBefore =>
    if c.column == indent && !c.atEnd then
      let blankHere := c.looksAt 0 isBlank
      let joint :=
        if !literal && lastBreak == ['\n'] && !blankBefore && !blankHere then
          if empties.isEmpty then [' '] else []
        else lastBreak
      let line := c.rest.takeWhile (fun ch => !isBreak ch)
      let (lastBreak, next) := (c.skipMany line.length).skipBreak
      match readEmptyLines (some indent) (next.rest.length + 1) next [] 0 with
      | none => none
      | some (breaks, _, next) =>
        readBlockLines literal indent fuel next (text ++ joint ++ empties ++ line) lastBreak breaks
          blankHere
    else some (text, lastBreak, empties, c)

/-- A block scalar after its `|` or `>`; `outer` is the indentation around it. -/
def readBlock (literal : Bool) (outer : Int) (c : Cursor) : Option (List Char × Cursor) :=
  match readBlockHeader c with
  | none => none
  | some (chomping, increment, c) =>
    let given := increment.map fun n => outer.toNat + n
    match readEmptyLines given (c.rest.length + 1) c [] 0 with
    | none => none
    | some (empties, deepest, c) =>
      let indent := given.getD (max deepest (max (outer + 1).toNat 1))
      match readBlockLines literal indent (c.rest.length + 1) c [] [] empties false with
      | none => none
      | some (text, lastBreak, empties, c) =>
        let tail :=
          match chomping with
          | .strip => []
          | .clip => lastBreak
          | .keep => lastBreak ++ empties
        some (text ++ tail, c)

end WorkflowEngine.Yaml
