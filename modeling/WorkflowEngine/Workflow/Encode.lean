import WorkflowEngine.Json.Printer
import WorkflowEngine.Workflow.Basic
import WorkflowEngine.Yaml.Printer

/-!
# Encoding workflows

A workflow as a JSON value, with its fields in the order of their declaration. Parts that are
absent are left out, and so are empty parameters.
-/

namespace WorkflowEngine

open Json (Value)

def optionalField {α : Type} (name : String) (encode : α → Value) :
    Option α → List (String × Value)
  | none => []
  | some a => [(name, encode a)]

def encodeNat (n : Nat) : Value := .ofInt n

def Branch.toValue (b : Branch) : Value :=
  .obj [("expression", .str b.expression), ("targetTaskName", .str b.target)]

def RetryPolicy.toValue (r : RetryPolicy) : Value :=
  .obj (("maxRetries", .ofInt r.maxRetries) :: optionalField "delayMilliseconds" .ofInt r.delay)

def Task.toValue (t : Task) : Value :=
  .obj
    ([("name", .str t.name)] ++ optionalField "description" .str t.description ++
      [("dependencies", .arr (t.dependencies.map .str)),
        ("conditionalBranches", .arr (t.branches.map Branch.toValue))] ++
      optionalField "timeoutMilliseconds" encodeNat t.timeout ++
      (if t.parameters.isEmpty then [] else [("parameters", .obj t.parameters)]) ++
      [("errorHandling", .obj [("retryPolicy", t.retry.toValue)])])

def Configuration.toValue (c : Configuration) : Value :=
  .obj (optionalField "degreeOfParallelism" encodeNat c.parallelism ++
    optionalField "timeoutMilliseconds" encodeNat c.timeout)

def Workflow.fields (w : Workflow) : List (String × Value) :=
  [("name", .str w.name), ("description", .str w.description),
    ("variables", .obj w.variables), ("configuration", w.configuration.toValue),
    ("tasks", .arr (w.tasks.map Task.toValue))]

def Workflow.toValue (w : Workflow) : Value := .obj w.fields

/-- Compact text with sorted keys. -/
def Workflow.text (w : Workflow) : String := w.toValue.sortKeys.text

def Task.text (t : Task) : String := t.toValue.sortKeys.text

def Workflow.pretty (w : Workflow) : String := w.toValue.pretty

/-- YAML text with the fields in their order. -/
def Workflow.yaml (w : Workflow) : String := Yaml.blockText w.fields

/-- Equality of workflows: part by part, values by `Value.same`. -/
def Workflow.same (a b : Workflow) : Bool := a.toValue.same b.toValue

end WorkflowEngine
