import WorkflowEngine.Execution.Run

/-!
# Executing stored workflows

An executor takes a workflow out of the store and runs it. It keeps the report of every execution
that succeeded, and all executions share its handler, its functions and its provider of secrets.
-/

namespace WorkflowEngine

open Expression (Registry SecretCache)

/-- Where workflows are kept. The store may be out of order for writing or for reading. -/
structure WorkflowStore where
  workflows : Fields Workflow := []
  saveFault : Option Reasons := none
  getFault : Option Reasons := none

namespace WorkflowStore

def save (s : WorkflowStore) (id : String) (w : Workflow) : Except Reasons WorkflowStore :=
  match s.saveFault with
  | some reasons => .error reasons
  | none => .ok { s with workflows := s.workflows.insert id w }

def get (s : WorkflowStore) (id : String) : Except Reasons (Option Workflow) :=
  match s.getFault with
  | some reasons => .error reasons
  | none => .ok (s.workflows.find? id)

def size (s : WorkflowStore) : Nat := s.workflows.length

end WorkflowStore

structure Executor where
  handler : Handler
  functions : Registry
  /-- The provider of secrets, and how often it was asked. Every run loads them anew. -/
  secrets : SecretCache := {}
  /-- The handler calls of all runs, oldest first. -/
  calls : List Call := []
  reports : Fields Report := []

namespace Executor

/-- Begins an execution. `canceled` tells whether its token is cancelled already. -/
def begin (x : Executor) (store : WorkflowStore) (request : ExecutionRequest)
    (canceled yields : Bool) (now : Nat) : Except ExecutionError Run :=
  match store.get request.workflow with
  | .error reasons => .error (.storage reasons)
  | .ok none => .error (.notRegistered request.workflow)
  | .ok (some w) =>
    .ok (.start w x.functions x.handler { x.secrets with loaded := none }
      { canceled, calls := x.calls } yields request.id now)

def absorb (x : Executor) (r : Run) : Executor :=
  { x with
    secrets := { x.secrets with calls := r.context.secrets.calls }
    calls := r.activity.calls }

def keepReport (x : Executor) (r : Run) (request : ExecutionRequest) : Executor :=
  { x with reports := x.reports.insert request.id (r.report request) }

end Executor

/-! ## One execution by itself -/

structure Execution where
  /-- None for one that never ends. -/
  time : Option Nat
  error : Option ExecutionError := none
  /-- Whether the one who asked for it has cancelled it. -/
  canceled : Bool
  mostRunning : Nat := 0
  executor : Executor

/-- No clock goes beyond. -/
def endOfTime : Nat := Nat.pow 2 64

/-- Lets a run go on from the start, and cancels it at a time if it has not ended before. -/
def Run.complete (r : Run) (cancelAt : Option Nat) : Run :=
  match cancelAt with
  | none => r.advance 0 endOfTime
  | some time =>
    let r := r.advance 0 time
    if r.isGoing then (r.cancel).advance time endOfTime else r

/-- Executes a workflow from time zero. At `cancelAt`, if given, the one who asked for it cancels
it; at zero that comes before everything else. -/
def Executor.execute (x : Executor) (store : WorkflowStore) (request : ExecutionRequest)
    (cancelAt : Option Nat) : Execution :=
  match x.begin store request (cancelAt = some 0) true 0 with
  | .error e => { time := some 0, error := some e, canceled := cancelAt = some 0, executor := x }
  | .ok r =>
    let r := r.complete cancelAt
    let x := x.absorb r
    match r.state with
    | .over time error =>
      { time := some time
        error
        canceled := cancelAt.any (· ≤ time)
        mostRunning := r.activity.mostRunning
        executor := if error.isNone then x.keepReport r request else x }
    | _ => { time := none, canceled := cancelAt.isSome, executor := x }

end WorkflowEngine
