import WorkflowEngine.Document.Basic
import WorkflowEngine.Json.Numeral
import WorkflowEngine.Text.Hex

/-!
# Reading JSON text

A text is read into a document. Only the grammar is checked here: that numbers are in range, that
escapes form characters and how deep the nesting may go matters where a document is decoded.
-/

namespace WorkflowEngine.Json

def isSpace (c : Char) : Bool := c == ' ' || c == '\t' || c == '\n' || c == '\r'

def skipSpace (cs : List Char) : List Char := cs.dropWhile isSpace

/-- A piece of a string: a character, or a code unit given by its number. -/
inductive Piece where
  | char (c : Char)
  | unit (n : Nat)

def readUnit : List Char → Option (Nat × List Char)
  | a :: b :: c :: d :: rest =>
    match Text.hexValue? a, Text.hexValue? b, Text.hexValue? c, Text.hexValue? d with
    | some a, some b, some c, some d => some (((a * 16 + b) * 16 + c) * 16 + d, rest)
    | _, _, _, _ => none
  | _ => none

/-- The piece that follows a backslash. -/
def readEscape : List Char → Option (Piece × List Char)
  | '"' :: rest => some (.char '"', rest)
  | '\\' :: rest => some (.char '\\', rest)
  | '/' :: rest => some (.char '/', rest)
  | 'b' :: rest => some (.char '\x08', rest)
  | 'f' :: rest => some (.char '\x0c', rest)
  | 'n' :: rest => some (.char '\n', rest)
  | 'r' :: rest => some (.char '\r', rest)
  | 't' :: rest => some (.char '\t', rest)
  | 'u' :: rest => (readUnit rest).map fun (n, rest) => (.unit n, rest)
  | _ => none

/-- The pieces up to the closing quote; control characters may not stand in a string. -/
def readPieces : Nat → List Char → Option (List Piece × List Char)
  | 0, _ => none
  | _ + 1, [] => none
  | fuel + 1, c :: rest =>
    if c = '"' then some ([], rest)
    else if c = '\\' then
      match readEscape rest with
      | none => none
      | some (piece, rest) =>
        (readPieces fuel rest).map fun (pieces, rest) => (piece :: pieces, rest)
    else if c.toNat < 32 then none
    else (readPieces fuel rest).map fun (pieces, rest) => (.char c :: pieces, rest)

def isHighSurrogate (n : Nat) : Bool := decide (0xD800 ≤ n) && decide (n < 0xDC00)

def isLowSurrogate (n : Nat) : Bool := decide (0xDC00 ≤ n) && decide (n < 0xE000)

/-- The characters of a string; `none` when a surrogate lacks its partner. -/
def joinPieces : List Piece → Option (List Char)
  | [] => some []
  | .char c :: rest => (joinPieces rest).map (c :: ·)
  | .unit n :: rest =>
    if isHighSurrogate n then
      match rest with
      | .unit m :: rest =>
        if isLowSurrogate m then
          (joinPieces rest).map
            (Char.ofNat (0x10000 + (n - 0xD800) * 0x400 + (m - 0xDC00)) :: ·)
        else none
      | _ => none
    else if isLowSurrogate n then none
    else (joinPieces rest).map (Char.ofNat n :: ·)

def readString (cs : List Char) : Option (Option String × List Char) :=
  (readPieces (cs.length + 1) cs).map fun (pieces, rest) =>
    ((joinPieces pieces).map String.ofList, rest)

/-- The text without the given front. -/
def expect : List Char → List Char → Option (List Char)
  | [], cs => some cs
  | c :: word, d :: cs => if c = d then expect word cs else none
  | _ :: _, [] => none

mutual

/-- A value at the front of a text; each step into it uses up fuel. -/
def readDocument : Nat → List Char → Option (Document × List Char)
  | 0, _ => none
  | fuel + 1, cs =>
    match skipSpace cs with
    | '\x7b' :: rest =>
      match skipSpace rest with
      | '\x7d' :: rest => some (.map [], rest)
      | rest => (readEntries fuel rest).map fun (entries, rest) => (.map entries, rest)
    | '[' :: rest =>
      match skipSpace rest with
      | ']' :: rest => some (.seq [], rest)
      | rest => (readItems fuel rest).map fun (items, rest) => (.seq items, rest)
    | '"' :: rest => (readString rest).map fun (s, rest) => (.scalar (.text s), rest)
    | 'n' :: rest => (expect ['u', 'l', 'l'] rest).map fun rest => (.scalar .null, rest)
    | 't' :: rest => (expect ['r', 'u', 'e'] rest).map fun rest => (.scalar (.bool true), rest)
    | 'f' :: rest =>
      (expect ['a', 'l', 's', 'e'] rest).map fun rest => (.scalar (.bool false), rest)
    | cs =>
      (readNumeral cs).map fun (numeral, rest) => (.scalar (.number numeral.number?), rest)

/-- The items of an array and its closing bracket. -/
def readItems : Nat → List Char → Option (List Document × List Char)
  | 0, _ => none
  | fuel + 1, cs =>
    match readDocument fuel cs with
    | none => none
    | some (item, rest) =>
      match skipSpace rest with
      | ']' :: rest => some ([item], rest)
      | ',' :: rest => (readItems fuel rest).map fun (items, rest) => (item :: items, rest)
      | _ => none

/-- The entries of an object and its closing brace. -/
def readEntries : Nat → List Char → Option (List (Option String × Document) × List Char)
  | 0, _ => none
  | fuel + 1, cs =>
    match skipSpace cs with
    | '"' :: rest =>
      match readString rest with
      | none => none
      | some (key, rest) =>
        match skipSpace rest with
        | ':' :: rest =>
          match readDocument fuel rest with
          | none => none
          | some (item, rest) =>
            match skipSpace rest with
            | '\x7d' :: rest => some ([(key, item)], rest)
            | ',' :: rest =>
              (readEntries fuel rest).map fun (entries, rest) => ((key, item) :: entries, rest)
            | _ => none
        | _ => none
    | _ => none

end

/-- The document of a text that is one value with nothing but spaces around it. -/
def readText (s : String) : Option Document :=
  let cs := s.toList
  match readDocument (2 * cs.length + 2) cs with
  | some (document, rest) => if (skipSpace rest).isEmpty then some document else none
  | none => none

end WorkflowEngine.Json
