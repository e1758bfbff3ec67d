import WorkflowEngine.Json.Value

/-!
# Documents

What a text in JSON or YAML says before anything is asked of it. Entries of a map keep their
order and their repetitions, and a scalar that has no value on its own is still part of the
document: it is a fault only where something reads it.
-/

namespace WorkflowEngine

inductive Scalar where
  | null
  | bool (b : Bool)
  /-- A number; `none` when it is too large for a double. -/
  | number (n : Option Json.Number)
  /-- Quoted text; `none` when its escapes do not form characters. -/
  | text (s : Option String)
  /-- Unquoted text, which is read according to what is asked for. -/
  | plain (s : String)

inductive Document where
  | scalar (s : Scalar)
  | seq (items : List Document)
  /-- A key is `none` when it is not a text. -/
  | map (entries : List (Option String × Document))

mutual

def Document.ofValue : Json.Value → Document
  | .null => .scalar .null
  | .bool b => .scalar (.bool b)
  | .num n => .scalar (.number (some n))
  | .str s => .scalar (.text (some s))
  | .arr items => .seq (Document.ofItems items)
  | .obj fields => .map (Document.ofFields fields)

def Document.ofItems : List Json.Value → List Document
  | [] => []
  | v :: rest => Document.ofValue v :: Document.ofItems rest

def Document.ofFields : List (String × Json.Value) → List (Option String × Document)
  | [] => []
  | (k, v) :: rest => (some k, Document.ofValue v) :: Document.ofFields rest

end

end WorkflowEngine
