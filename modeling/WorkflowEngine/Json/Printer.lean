import WorkflowEngine.Json.Value

/-!
# JSON text

Values are written either compactly, without a space, or spread over lines with an indentation of
two spaces. Fields are written in the order in which the object holds them.
-/

namespace WorkflowEngine.Json

def hexDigit (n : Nat) : Char := Nat.digitChar n

def escapeChar (c : Char) : List Char :=
  if c = '"' then ['\\', '"']
  else if c = '\\' then ['\\', '\\']
  else if c = '\x08' then ['\\', 'b']
  else if c = '\x0c' then ['\\', 'f']
  else if c = '\n' then ['\\', 'n']
  else if c = '\r' then ['\\', 'r']
  else if c = '\t' then ['\\', 't']
  else if c.toNat < 32 then
    ['\\', 'u', '0', '0', hexDigit (c.toNat / 16), hexDigit (c.toNat % 16)]
  else [c]

def stringChars (s : String) : List Char := '"' :: s.toList.flatMap escapeChar ++ ['"']

mutual

def Value.chars : Value → List Char
  | .null => ['n', 'u', 'l', 'l']
  | .bool true => ['t', 'r', 'u', 'e']
  | .bool false => ['f', 'a', 'l', 's', 'e']
  | .num n => n.text.toList
  | .str s => stringChars s
  | .arr items => '[' :: Value.itemsChars items ++ [']']
  | .obj fields => '\x7b' :: Value.fieldsChars fields ++ ['\x7d']

def Value.itemsChars : List Value → List Char
  | [] => []
  | [v] => v.chars
  | v :: w :: rest => v.chars ++ ',' :: Value.itemsChars (w :: rest)

def Value.fieldsChars : List (String × Value) → List Char
  | [] => []
  | [(k, v)] => stringChars k ++ ':' :: v.chars
  | (k, v) :: w :: rest => stringChars k ++ ':' :: v.chars ++ ',' :: Value.fieldsChars (w :: rest)

end

def Value.text (v : Value) : String := String.ofList v.chars

/-- A new line at the given depth of nesting. -/
def newline (depth : Nat) : List Char := '\n' :: List.replicate (2 * depth) ' '

mutual

/-- Text of a value over several lines; `depth` is that of the line it starts on. -/
def Value.prettyChars (depth : Nat) : Value → List Char
  | .arr [] => ['[', ']']
  | .arr items => '[' :: Value.prettyItems (depth + 1) items ++ newline depth ++ [']']
  | .obj [] => ['\x7b', '\x7d']
  | .obj fields => '\x7b' :: Value.prettyFields (depth + 1) fields ++ newline depth ++ ['\x7d']
  | v => v.chars

def Value.prettyItems (depth : Nat) : List Value → List Char
  | [] => []
  | [v] => newline depth ++ v.prettyChars depth
  | v :: w :: rest =>
    newline depth ++ v.prettyChars depth ++ ',' :: Value.prettyItems depth (w :: rest)

def Value.prettyFields (depth : Nat) : List (String × Value) → List Char
  | [] => []
  | [(k, v)] => newline depth ++ stringChars k ++ [':', ' '] ++ v.prettyChars depth
  | (k, v) :: w :: rest =>
    newline depth ++ stringChars k ++ [':', ' '] ++ v.prettyChars depth ++
      ',' :: Value.prettyFields depth (w :: rest)

end

def Value.pretty (v : Value) : String := String.ofList (v.prettyChars 0)

end WorkflowEngine.Json
