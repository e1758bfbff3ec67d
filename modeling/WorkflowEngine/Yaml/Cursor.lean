/-!
# Places in a YAML text

A cursor holds what is left of the text and where it begins: the count of characters before it,
its line and its column. Layout in YAML is a matter of columns, so every reader moves a cursor.
-/

namespace WorkflowEngine.Yaml

structure Cursor where
  rest : List Char
  index : Nat
  line : Nat
  column : Nat

def isBlank (c : Char) : Bool := c == ' ' || c == '\t'

def isBreak (c : Char) : Bool :=
  c == '\n' || c == '\r' || c == '\u0085' || c == '\u2028' || c == '\u2029'

/-- Characters that may stand in a text at all. -/
def isAllowed (c : Char) : Bool :=
  let n := c.toNat
  n == 0x09 || n == 0x0A || n == 0x0D || (0x20 ≤ n && n ≤ 0x7E) || n == 0x85 ||
    (0xA0 ≤ n && n ≤ 0xFFFD) || 0x10000 ≤ n

namespace Cursor

def start (cs : List Char) : Cursor := ⟨cs, 0, 0, 0⟩

def peek? (c : Cursor) (n : Nat) : Option Char := c.rest[n]?

def atEnd (c : Cursor) : Bool := c.rest.isEmpty

/-- Whether the character `n` places ahead satisfies a test; the end of the text does not. -/
def looksAt (c : Cursor) (n : Nat) (test : Char → Bool) : Bool := (c.peek? n).any test

def sees (c : Cursor) (ch : Char) : Bool := c.looksAt 0 (· == ch)

/-- Whether a blank, a line break or the end of the text is `n` places ahead. -/
def gapAt (c : Cursor) (n : Nat) : Bool := (c.peek? n).all fun ch => isBlank ch || isBreak ch

/-- One character on, within a line. -/
def skip (c : Cursor) : Cursor :=
  ⟨c.rest.drop 1, c.index + 1, c.line, c.column + 1⟩

def skipMany (c : Cursor) (n : Nat) : Cursor :=
  ⟨c.rest.drop n, c.index + n, c.line, c.column + n⟩

/-- Over a line break; the break as it counts in a scalar is returned too. -/
def skipBreak (c : Cursor) : List Char × Cursor :=
  match c.rest with
  | '\r' :: '\n' :: rest => (['\n'], ⟨rest, c.index + 2, c.line + 1, 0⟩)
  | ch :: rest =>
    if ch == '\u2028' || ch == '\u2029' then ([ch], ⟨rest, c.index + 1, c.line + 1, 0⟩)
    else if isBreak ch then (['\n'], ⟨rest, c.index + 1, c.line + 1, 0⟩)
    else ([], c)
  | [] => ([], c)

/-- Over the characters that satisfy a test, which must not hold of a line break. -/
def skipWhile (c : Cursor) (test : Char → Bool) : Cursor :=
  c.skipMany (c.rest.takeWhile test).length

/-- Whether a line begins here with the marker of a document's start or end. -/
def atMarker (c : Cursor) (mark : Char) : Bool :=
  c.column == 0 && c.rest.take 3 == [mark, mark, mark] && c.gapAt 3

def atDocumentMarker (c : Cursor) : Bool := c.atMarker '-' || c.atMarker '.'

end Cursor

end WorkflowEngine.Yaml
