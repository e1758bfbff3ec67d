import WorkflowEngine.Json.Value

/-!
# Workflows

A workflow is a list of tasks with dependencies and conditional branches between them. Tasks are
named; the order in which they are declared is kept.
-/

namespace WorkflowEngine

/-- Routes to a task when a condition holds. -/
structure Branch where
  expression : String
  target : String
  deriving DecidableEq

/-- How often a failed task is tried again, and after how many milliseconds. Both may be negative
here; validation rejects that. -/
structure RetryPolicy where
  maxRetries : Int := 0
  delay : Option Int := none
  deriving DecidableEq

structure Task where
  name : String
  description : Option String := none
  dependencies : List String := []
  branches : List Branch := []
  /-- Limit for one attempt, in milliseconds. -/
  timeout : Option Nat := none
  parameters : Fields Json.Value := []
  retry : RetryPolicy := {}

structure Configuration where
  /-- How many tasks may run at once. -/
  parallelism : Option Nat := none
  /-- Limit for the whole run, in milliseconds. -/
  timeout : Option Nat := none
  deriving DecidableEq

structure Workflow where
  name : String := ""
  description : String := ""
  «variables» : Fields Json.Value := []
  configuration : Configuration := {}
  tasks : List Task := []

namespace Task

def dependsOn (t : Task) (name : String) : Task :=
  { t with dependencies := t.dependencies ++ [name] }

def branch (t : Task) (expression target : String) : Task :=
  { t with branches := t.branches ++ [⟨expression, target⟩] }

def withTimeout (t : Task) (milliseconds : Nat) : Task := { t with timeout := some milliseconds }

def withDescription (t : Task) (description : String) : Task :=
  { t with description := some description }

def withParameter (t : Task) (key : String) (value : Json.Value) : Task :=
  { t with parameters := t.parameters.insert key value }

def withMaxRetries (t : Task) (n : Int) : Task :=
  { t with retry := { t.retry with maxRetries := n } }

def branchTargets (t : Task) : List String := t.branches.map (·.target)

end Task

namespace Workflow

def withTask (w : Workflow) (t : Task) : Workflow := { w with tasks := w.tasks ++ [t] }

def withVariable (w : Workflow) (key : String) (value : Json.Value) : Workflow :=
  { w with «variables» := w.variables.insert key value }

def withParallelism (w : Workflow) (n : Nat) : Workflow :=
  { w with configuration := { w.configuration with parallelism := some n } }

def withTimeout (w : Workflow) (milliseconds : Nat) : Workflow :=
  { w with configuration := { w.configuration with timeout := some milliseconds } }

/-- The first task of that name. -/
def task? (w : Workflow) (name : String) : Option Task := w.tasks.find? fun t => t.name == name

def hasTask (w : Workflow) (name : String) : Bool := (w.task? name).isSome

def taskNames (w : Workflow) : List String := w.tasks.map (·.name)

end Workflow

end WorkflowEngine
