import WorkflowEngine.Document.Basic
import WorkflowEngine.Yaml.CoreSchema

/-!
# Decoding documents

What can be asked of a document: a text, a number, a value of any form, a record. Every answer is
optional, and whoever asks says only that the document does not have the form. `levels` counts how
many sequences and maps may still be entered; the parts of a record that nobody asks for are not
counted.
-/

namespace WorkflowEngine

def Scalar.value? : Scalar → Option Json.Value
  | .null => some .null
  | .bool b => some (.bool b)
  | .number n => n.map .num
  | .text s => s.map .str
  | .plain s => Yaml.valueOfText? s

namespace Document

mutual

/-- The document as a value. Of entries under one key the last one counts. -/
def value? : Nat → Document → Option Json.Value
  | _, .scalar s => s.value?
  | 0, .seq _ => none
  | 0, .map _ => none
  | levels + 1, .seq items => (values? levels items).map .arr
  | levels + 1, .map entries => (fields? levels entries []).map .obj
termination_by structural _ d => d

def values? : Nat → List Document → Option (List Json.Value)
  | _, [] => some []
  | levels, item :: rest =>
    match value? levels item with
    | none => none
    | some v => (values? levels rest).map (v :: ·)
termination_by structural _ ds => ds

/-- Puts the entries into fields that are there already. -/
def fields? : Nat → List (Option String × Document) → Fields Json.Value →
    Option (Fields Json.Value)
  | _, [], fields => some fields
  | levels, (key, item) :: rest, fields =>
    match key, value? levels item with
    | some key, some v => fields? levels rest (Fields.insert key v fields)
    | _, _ => none
termination_by structural _ entries => entries

end

def isNull : Document → Bool
  | .scalar .null => true
  | .scalar (.plain s) => Yaml.isNullText s
  | _ => false

/-- A text; unquoted text is taken as it stands. -/
def text? : Document → Option String
  | .scalar (.text s) => s
  | .scalar (.plain s) => some s
  | _ => none

def int? (low high : Int) (d : Document) : Option Int :=
  let n :=
    match d with
    | .scalar (.number (some (.int n))) => some n
    | .scalar (.plain s) => Yaml.intOfText? s
    | _ => none
  n.filter fun n => decide (low ≤ n) && decide (n ≤ high)

/-- A natural number that 64 bits hold. -/
def nat? (d : Document) : Option Nat := (d.int? 0 (Int.pow 2 64 - 1)).map Int.toNat

def optional? {α : Type} (decode : Document → Option α) (d : Document) : Option (Option α) :=
  if d.isNull then some none else (decode d).map some

/-- The items of a sequence; an empty scalar counts as an empty one. -/
def items? : Document → Option (List Document)
  | .seq items => some items
  | .scalar (.plain s) => if s = "" then some [] else none
  | _ => none

/-- The entries of a map; an empty scalar counts as an empty one. -/
def entries? : Document → Option (List (Option String × Document))
  | .map entries => some entries
  | .scalar (.plain s) => if s = "" then some [] else none
  | _ => none

def list? {α : Type} (decode : Nat → Document → Option α) : Nat → Document → Option (List α)
  | 0, .seq _ => none
  | levels + 1, .seq items => items.mapM (decode levels)
  | _, d => d.items?.bind fun items => items.mapM (decode 0)

def freeForm? : Nat → Document → Option (Fields Json.Value)
  | 0, .map _ => none
  | levels + 1, .map entries => fields? levels entries []
  | _, d => d.entries?.map fun _ => []

/-- The parts of a record under the names of its fields, in the order of `names`. A record may
also be given as a sequence of its parts without names. A part that is missing is `none`; a part
given twice, and one too many in a sequence, is a fault. Entries under other names are ignored. -/
def parts? (names : List String) (levels : Nat) (d : Document) :
    Option (Nat × List (Option Document)) :=
  match levels, d with
  | 0, .seq _ => none
  | 0, .map _ => none
  | levels + 1, .seq items =>
    if names.length < items.length then none
    else
      some (levels, items.map some ++ List.replicate (names.length - items.length) none)
  | levels + 1, .map entries =>
    if entries.any (fun entry => entry.1.isNone) then none
    else if names.any fun name => decide (1 < entries.countP (fun e => e.1 == some name)) then none
    else some (levels, names.map fun name => entries.lookup (some name))
  | _, d => d.entries?.map fun _ => (0, names.map fun _ => none)

def part? {α : Type} (decode : Document → Option α) (default : α) :
    Option Document → Option α
  | none => some default
  | some d => decode d

end Document

end WorkflowEngine
