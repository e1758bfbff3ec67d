import WorkflowEngine.Submission

/-!
# The engine

Workflows are submitted at a desk, and a worker executes the requests one after the other. What an
execution comes to is reported to the queue under its id. A shutdown interrupts the execution that
goes on; what waits in the queue stays there.
-/

namespace WorkflowEngine

inductive WorkerPhase where
  | absent
  | idle
  | busy (request : ExecutionRequest) (run : Run)
  | stopped
  /-- Was brought down by an execution. -/
  | crashed

structure Engine where
  desk : SubmissionDesk
  executor : Executor
  worker : WorkerPhase := .absent
  shutdown : Bool := false

namespace Engine

def queue (e : Engine) : ExecutionQueue := e.desk.intake.queue

def setQueue (e : Engine) (queue : ExecutionQueue) : Engine :=
  { e with desk := { e.desk with intake := { e.desk.intake with queue } } }

def report (e : Engine) (id : String) (reason : Option String) : Engine :=
  let reported :=
    match reason with
    | none => e.queue.complete id
    | some reason => e.queue.fail id reason
  match reported with
  | .ok queue => e.setQueue queue
  | .error _ => e

def interruption : String := "Worker shut down before the execution finished"

def begin (e : Engine) (request : ExecutionRequest) (now : Nat) : Engine :=
  let canceled := e.queue.isCanceled request.id
  match e.executor.begin e.desk.store request canceled false now with
  | .error error => e.report request.id (some error.message)
  | .ok run => { e with worker := .busy request run }

def step? (e : Engine) (now : Nat) : Option Engine :=
  match e.worker with
  | .idle =>
    if e.queue.channel.isEmpty && !e.shutdown then none
    else
      match e.queue.dequeue e.shutdown with
      | (.request request, queue) => some ((e.setQueue queue).begin request now)
      | (.waiting, queue) => some (e.setQueue queue)
      | (.ended, queue) => some { e.setQueue queue with worker := .stopped }
  | .busy request run =>
    if e.shutdown then
      let e := { e with worker := .idle, executor := e.executor.absorb run }
      some ((e.setQueue (e.queue.cancelToken request.id)).report request.id interruption)
    else
      match run.state with
      | .going =>
        if run.isDue now then some { e with worker := .busy request (run.settle now) } else none
      | .over _ none =>
        let executor := (e.executor.absorb run).keepReport run request
        some ({ e with worker := .idle, executor }.report request.id none)
      | .over _ (some error) =>
        let executor := e.executor.absorb run
        some ({ e with worker := .idle, executor }.report request.id error.message)
      | .crashed => some { e with worker := .crashed, executor := e.executor.absorb run }
  | _ => none

def steps (now : Nat) : Nat → Engine → Engine
  | 0, e => e
  | n + 1, e =>
    match e.step? now with
    | some e => steps now n e
    | none => e

/-- More steps than there can be at an instant: three for each request, and a few for the one that
is executed and for the end. -/
def stepBound (e : Engine) : Nat := 3 * e.queue.channel.length + 5

def settle (e : Engine) (now : Nat) : Engine := steps now e.stepBound e

def wake? (e : Engine) : Option Nat :=
  match e.worker with
  | .busy _ run => run.wake?
  | _ => none

/-- Lets time pass up to `target`, exclusive of what happens at `target` itself. -/
def advance (e : Engine) (now target : Nat) : Engine :=
  if now < target then
    let e := e.settle now
    match e.wake? with
    | none => e
    | some wake => if now < wake ∧ wake < target then e.advance wake target else e
  else e
termination_by target - now

def start (e : Engine) (now : Nat) : Engine :=
  match e.worker with
  | .absent => { e with worker := .idle }.settle now
  | _ => e

def shutDown (e : Engine) (now : Nat) : Engine := { e with shutdown := true }.settle now

/-- Cancels an execution that is not over. -/
def cancel (e : Engine) (id : String) : Bool × Engine :=
  let (canceled, queue) := e.queue.cancel id
  let e := e.setQueue queue
  match e.worker with
  | .busy request run =>
    if canceled ∧ request.id = id then (canceled, { e with worker := .busy request run.cancel })
    else (canceled, e)
  | _ => (canceled, e)

def calls (e : Engine) : List Call :=
  match e.worker with
  | .busy _ run => run.activity.calls
  | _ => e.executor.calls

end Engine

end WorkflowEngine
