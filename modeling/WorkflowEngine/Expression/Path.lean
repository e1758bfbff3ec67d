import WorkflowEngine.Document.Decode
import WorkflowEngine.Json.Reader
import WorkflowEngine.Text.Blank
import WorkflowEngine.Text.Case

/-!
# Paths into values

A property is found by its exact name first and then ignoring the case of ASCII letters. A text
that holds a JSON object or array can be entered like the value it holds.
-/

namespace WorkflowEngine.Expression

open Json (Value)

def objectProperty? (name : String) (fields : List (String × Value)) : Option Value :=
  match Fields.find? name fields with
  | some v => some v
  | none =>
    (fields.find? fun field => Text.sameIgnoringAsciiCase field.1 name).map Prod.snd

/-- Arrays have their length as a property. -/
def arrayProperty? (name : String) (items : List Value) : Option Value :=
  if ["Count", "Length", "count", "length"].contains name then some (.ofInt items.length) else none

/-- The value that a text holds, when the text begins like an object or array. -/
def embeddedValue? (text : String) : Option Value :=
  match Text.trimStartChars text.toList with
  | '\x7b' :: rest => read ('\x7b' :: rest)
  | '[' :: rest => read ('[' :: rest)
  | _ => none
where
  read (cs : List Char) : Option Value :=
    (Json.readText (String.ofList cs)).bind (Document.value? 127)

def ownProperty? (name : String) : Value → Option Value
  | .obj fields => objectProperty? name fields
  | .arr items => arrayProperty? name items
  | _ => none

def ownItem? (index : Nat) : Value → Option Value
  | .arr items => items[index]?
  | _ => none

def property? (name : String) : Value → Option Value
  | .str text => (embeddedValue? text).bind (ownProperty? name)
  | v => ownProperty? name v

def item? (index : Nat) : Value → Option Value
  | .str text => (embeddedValue? text).bind (ownItem? index)
  | v => ownItem? index v

end WorkflowEngine.Expression
