import WorkflowEngine.Document.Decode
import WorkflowEngine.Workflow.Basic

/-!
# Decoding workflows

What a document has to look like to be a workflow, or one of its parts. Parts that are missing have
their defaults; only the name of a task and both parts of a branch must be there.
-/

namespace WorkflowEngine

open Document

def Branch.names : List String := ["expression", "targetTaskName"]

def Branch.decode? (levels : Nat) (d : Document) : Option Branch :=
  match d.parts? Branch.names levels with
  | some (_, [some expression, some target]) =>
    match expression.text?, target.text? with
    | some expression, some target => some ⟨expression, target⟩
    | _, _ => none
  | _ => none

def RetryPolicy.names : List String := ["maxRetries", "delayMilliseconds"]

def RetryPolicy.decode? (levels : Nat) (d : Document) : Option RetryPolicy :=
  match d.parts? RetryPolicy.names levels with
  | some (_, [maxRetries, delay]) =>
    match part? (int? (-Int.pow 2 31) (Int.pow 2 31 - 1)) 0 maxRetries,
      part? (optional? (int? (-Int.pow 2 63) (Int.pow 2 63 - 1))) none delay with
    | some maxRetries, some delay => some ⟨maxRetries, delay⟩
    | _, _ => none
  | _ => none

/-- The retry policy stands inside a record of its own. -/
def RetryPolicy.decodeHandling? (levels : Nat) (d : Document) : Option RetryPolicy :=
  match d.parts? ["retryPolicy"] levels with
  | some (levels, [policy]) => part? (RetryPolicy.decode? levels) {} policy
  | _ => none

def Task.names : List String :=
  ["name", "description", "dependencies", "conditionalBranches", "timeoutMilliseconds",
    "parameters", "errorHandling"]

def Task.decode? (levels : Nat) (d : Document) : Option Task :=
  match d.parts? Task.names levels with
  | some (levels, [some name, description, dependencies, branches, timeout, parameters, retry]) =>
    match name.text?, part? (optional? text?) none description,
      part? (list? (fun _ => text?) levels) [] dependencies,
      part? (list? Branch.decode? levels) [] branches,
      part? (optional? nat?) none timeout, part? (freeForm? levels) [] parameters,
      part? (RetryPolicy.decodeHandling? levels) {} retry with
    | some name, some description, some dependencies, some branches, some timeout,
      some parameters, some retry =>
      some { name, description, dependencies, branches, timeout, parameters, retry }
    | _, _, _, _, _, _, _ => none
  | _ => none

def Configuration.names : List String := ["degreeOfParallelism", "timeoutMilliseconds"]

def Configuration.decode? (levels : Nat) (d : Document) : Option Configuration :=
  match d.parts? Configuration.names levels with
  | some (_, [parallelism, timeout]) =>
    match part? (optional? nat?) none parallelism, part? (optional? nat?) none timeout with
    | some parallelism, some timeout => some ⟨parallelism, timeout⟩
    | _, _ => none
  | _ => none

def Workflow.names : List String :=
  ["name", "description", "variables", "configuration", "tasks"]

def Workflow.decode? (levels : Nat) (d : Document) : Option Workflow :=
  match d.parts? Workflow.names levels with
  | some (levels, [name, description, «variables», configuration, tasks]) =>
    match part? text? "" name, part? text? "" description,
      part? (freeForm? levels) [] «variables»,
      part? (Configuration.decode? levels) {} configuration,
      part? (list? Task.decode? levels) [] tasks with
    | some name, some description, some «variables», some configuration, some tasks =>
      some { name, description, «variables», configuration, tasks }
    | _, _, _, _, _ => none
  | _ => none

end WorkflowEngine
