import WorkflowEngine.Expression.Eval
import WorkflowEngine.Workflow.Basic

/-!
# Placeholders in values and tasks

Every text inside a value is a template, and so is the description of a task. Before anything is
evaluated the texts are searched for uses of secrets; the search ends at the first use, and on its
way it checks the syntax.
-/

namespace WorkflowEngine.Expression

open Json (Value)

mutual

/-- Whether some text in a value uses secrets. -/
def searchSecrets : Value → Except Fault Bool
  | .str text =>
    match parseTemplate text with
    | .error fault => .error fault
    | .ok t => .ok t.usesSecrets
  | .arr items => searchItems items
  | .obj fields => searchFields fields
  | _ => .ok false

def searchItems : List Value → Except Fault Bool
  | [] => .ok false
  | v :: rest =>
    match searchSecrets v with
    | .error fault => .error fault
    | .ok true => .ok true
    | .ok false => searchItems rest

def searchFields : List (String × Value) → Except Fault Bool
  | [] => .ok false
  | (_, v) :: rest =>
    match searchSecrets v with
    | .error fault => .error fault
    | .ok true => .ok true
    | .ok false => searchFields rest

end

def Scope.fillText (s : Scope) (text : String) : Except Fault Value :=
  match parseTemplate text with
  | .error fault => .error fault
  | .ok t => s.render text t

mutual

/-- A value with each text in it replaced by the text's value. -/
def Scope.fill (s : Scope) : Value → Except Fault Value
  | .str text => s.fillText text
  | .arr items =>
    match s.fillItems items with
    | .error fault => .error fault
    | .ok items => .ok (.arr items)
  | .obj fields =>
    match s.fillFields fields with
    | .error fault => .error fault
    | .ok fields => .ok (.obj fields)
  | v => .ok v

def Scope.fillItems (s : Scope) : List Value → Except Fault (List Value)
  | [] => .ok []
  | v :: rest =>
    match s.fill v with
    | .error fault => .error fault
    | .ok v =>
      match s.fillItems rest with
      | .error fault => .error fault
      | .ok rest => .ok (v :: rest)

def Scope.fillFields (s : Scope) : List (String × Value) → Except Fault (List (String × Value))
  | [] => .ok []
  | (k, v) :: rest =>
    match s.fill v with
    | .error fault => .error fault
    | .ok v =>
      match s.fillFields rest with
      | .error fault => .error fault
      | .ok rest => .ok ((k, v) :: rest)

end

namespace Scope

def replaceValue (s : Scope) (v : Value) : Except Fault Value × Scope :=
  match searchSecrets v with
  | .error fault => (.error fault, s)
  | .ok needed => s.afterSecrets needed fun s => s.fill v

def describe (s : Scope) (text : String) (t : Template) : Except Fault String :=
  match s.render text t with
  | .error fault => .error fault
  | .ok v => .ok (stringify v)

/-- The task with its description and its parameters filled in, in this order. -/
def fillTask (s : Scope) (task : Task) (description : Option (String × Template)) :
    Except Fault Task :=
  let described : Except Fault (Option String) :=
    match description with
    | none => .ok task.description
    | some (text, t) =>
      match s.describe text t with
      | .error fault => .error fault
      | .ok text => .ok (some text)
  match described with
  | .error fault => .error fault
  | .ok description =>
    match s.fillFields task.parameters with
    | .error fault => .error fault
    | .ok parameters => .ok { task with description, parameters }

def parseDescription : Option String → Except Fault (Option (String × Template))
  | none => .ok none
  | some text =>
    match parseTemplate text with
    | .error fault => .error fault
    | .ok t => .ok (some (text, t))

/-- Whether a task uses secrets, as far as the search goes. -/
def searchTask (description : Option (String × Template)) (parameters : Fields Value) :
    Except Fault Bool :=
  if description.any fun d => d.2.usesSecrets then .ok true else searchFields parameters

/-- A task with its placeholders replaced. When the description uses secrets, the parameters are
not searched. -/
def replaceTask (s : Scope) (task : Task) : Except Fault Task × Scope :=
  match parseDescription task.description with
  | .error fault => (.error fault, s)
  | .ok description =>
    match searchTask description task.parameters with
    | .error fault => (.error fault, s)
    | .ok needed => s.afterSecrets needed fun s => s.fillTask task description

end Scope

end WorkflowEngine.Expression
