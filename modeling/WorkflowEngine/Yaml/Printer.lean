import WorkflowEngine.Json.Printer

/-!
# YAML text

A record is written as a block map with one line for each field. The values of the fields are
flow collections and scalars; every text is quoted, and all of its characters outside ASCII are
escaped.
-/

namespace WorkflowEngine.Yaml

open Json (Value)

/-- The last `count` hexadecimal digits of a number. -/
def fixedHex : Nat → Nat → List Char
  | 0, _ => []
  | count + 1, n => fixedHex count (n / 16) ++ [Nat.digitChar (n % 16)]

def escapeChar (c : Char) : List Char :=
  if c = '"' then ['\\', '"']
  else if c = '\\' then ['\\', '\\']
  else if 32 ≤ c.toNat ∧ c.toNat < 127 then [c]
  else if c.toNat < Nat.pow 2 16 then '\\' :: 'u' :: fixedHex 4 c.toNat
  else '\\' :: 'U' :: fixedHex 8 c.toNat

def textChars (s : String) : List Char := '"' :: s.toList.flatMap escapeChar ++ ['"']

/-- A key and its colon. A key that is too long to stand before a colon is announced. -/
def keyChars (key : String) : List Char :=
  let text := textChars key
  if text.length ≤ 1000 then text ++ [':', ' '] else ['?', ' '] ++ text ++ [' ', ':', ' ']

mutual

def flowChars : Value → List Char
  | .str s => textChars s
  | .arr items => '[' :: flowItems items ++ [']']
  | .obj fields => '\x7b' :: flowFields fields ++ ['\x7d']
  | v => v.chars

def flowItems : List Value → List Char
  | [] => []
  | [v] => flowChars v
  | v :: w :: rest => flowChars v ++ [',', ' '] ++ flowItems (w :: rest)

def flowFields : List (String × Value) → List Char
  | [] => []
  | [(k, v)] => keyChars k ++ flowChars v
  | (k, v) :: w :: rest => keyChars k ++ flowChars v ++ [',', ' '] ++ flowFields (w :: rest)

end

/-- Lines of a block map. Its keys are names. -/
def blockChars (fields : List (String × Value)) : List Char :=
  fields.flatMap fun field => field.1.toList ++ [':', ' '] ++ flowChars field.2 ++ ['\n']

def blockText (fields : List (String × Value)) : String := String.ofList (blockChars fields)

end WorkflowEngine.Yaml
