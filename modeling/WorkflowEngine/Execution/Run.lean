import WorkflowEngine.Execution.Ledger
import WorkflowEngine.Execution.Queue
import WorkflowEngine.Expression.Placeholder

/-!
# A run of a workflow

A coordinator starts the tasks of a level, waits until all have ended, and goes on to the next
level. Tasks take a permit before they begin; who waits for one gets it in order. Whoever has
something to do waits for its turn in one line, first come first served, and a turn takes no time.
A task that fails ends the run.
-/

namespace WorkflowEngine

open Expression (Context Fault Registry Scope SecretCache)
open Json (Value)

inductive ExecutionError where
  | storage (reasons : Reasons)
  | notRegistered (id : String)
  | canceled (workflow : String)
  | timeout (workflow : String) (milliseconds : Nat)
  | task (name : String) (fault : TaskFault)
  /-- A task panicked. -/
  | taskLost
  | branch (task : String) (fault : Fault)

def ExecutionError.reasons : ExecutionError → Reasons
  | storage reasons => reasons
  | notRegistered id => ["Workflow '" ++ id ++ "' is not registered"]
  | canceled workflow => ["Workflow '" ++ workflow ++ "' was canceled"]
  | timeout workflow milliseconds =>
    ["Workflow '" ++ workflow ++ "' timed out after " ++ toString milliseconds ++ " ms"]
  | task name fault => ("Task '" ++ name ++ "' failed") :: fault.reasons
  | taskLost => ["Task panicked or was aborted"]
  | branch name fault =>
    ["Failed to evaluate branch of task '" ++ name ++ "'", fault.message]

def ExecutionError.message (e : ExecutionError) : String := e.reasons.text

inductive TaskPhase where
  /-- Has not had its first turn. -/
  | spawned
  /-- Waits for a permit. -/
  | waiting
  /-- Was given a permit and waits for its turn. -/
  | granted
  | active (task : Assignment) (attempts : Attempts)
  | ended (e : TaskEnd)

structure TaskRun where
  task : Task
  phase : TaskPhase := .spawned

inductive Turn where
  | coordinator
  | task (index : Nat)
  deriving DecidableEq

inductive RunState where
  | going
  | over (time : Nat) (error : Option ExecutionError)
  /-- It asked for more permits than there can be. -/
  | crashed

/-- The most permits that there can be. -/
def maxPermits : Nat := Nat.pow 2 61 - 1

structure Run where
  workflow : Workflow
  functions : Registry
  handler : Handler
  context : Context
  ledger : Ledger := {}
  /-- The levels that were not opened yet. -/
  ahead : List (List String)
  /-- The tasks of the current level, as declared. -/
  level : List TaskRun := []
  /-- How many of them the coordinator knows to have ended. -/
  seen : Nat := 0
  /-- What they returned. -/
  results : Fields Value := []
  permits : Nat
  /-- Who waits for a permit, in order. -/
  queue : List Nat := []
  /-- Whose attempts would notice a cancellation, in the order in which they began to. -/
  watching : List Nat := []
  /-- Whose turn comes next. -/
  turns : List Turn := [.coordinator]
  /-- The tasks that ended and that the coordinator has not looked at, in order. -/
  ended : List Nat := []
  /-- When the run has taken too long. -/
  deadline : Option Nat
  activity : Activity := {}
  state : RunState := .going
  /-- Whether the coordinator lets every task go first. -/
  yields : Bool

namespace Run

def start (workflow : Workflow) (functions : Registry) (handler : Handler) (secrets : SecretCache)
    (activity : Activity) (yields : Bool) (id : String) (now : Nat) : Run where
  workflow
  functions
  handler
  context := { traceId := id, «variables» := workflow.variables, secrets }
  ahead := workflow.executionLevels
  permits := max (workflow.configuration.parallelism.getD 1) 1
  deadline := workflow.configuration.timeout.map (now + ·)
  activity
  state := if maxPermits < workflow.configuration.parallelism.getD 1 then .crashed else .going
  yields

def isGoing (r : Run) : Bool :=
  match r.state with
  | .going => true
  | _ => false

def push (r : Run) (t : Turn) : Run :=
  if t = .coordinator ∧ r.turns.contains .coordinator then r
  else if r.yields then
    let (coordinator, tasks) := r.turns.partition (· = .coordinator)
    { r with turns := if t = .coordinator then tasks ++ [t] else tasks ++ [t] ++ coordinator }
  else { r with turns := r.turns ++ [t] }

def pushAll (r : Run) (turns : List Turn) : Run := turns.foldl push r

def conclude (r : Run) (now : Nat) (error : Option ExecutionError) : Run :=
  { r with state := .over now error, turns := [] }

/-- Cancels the token of the run; whoever notices gets a turn. -/
def cancel (r : Run) : Run :=
  if r.activity.canceled then r
  else
    { r with activity := r.activity.cancel, watching := [] }.pushAll (r.watching.map .task)

/-! ## The coordinator -/

def scope (r : Run) : Scope := { context := r.context, functions := r.functions }

def setScope (r : Run) (s : Scope) : Run := { r with context := s.context }

/-- Opens the next level in which there is something to run. -/
def openNext (now : Nat) : List (List String) → Run → Run
  | [], r => { r with ahead := [], level := [] }.conclude now none
  | names :: ahead, r =>
    if r.activity.canceled then r.conclude now (some (.canceled r.workflow.name))
    else
      let (runnable, ledger) := Ledger.openLevel r.workflow names r.ledger
      let r := { r with ledger }
      if runnable.isEmpty then openNext now ahead r
      else
        { r with
          ahead
          level := runnable.map fun task => { task }
          seen := 0
          results := [] }.pushAll ((List.range runnable.length).map .task)

/-- Closes a level whose tasks have all ended, and goes on. -/
def closeLevel (r : Run) (now : Nat) : Run :=
  let tasks := r.level.map (·.task)
  let (context, ledger) := Ledger.enter tasks r.results r.context r.ledger
  let r := { r with context, level := [] }
  match Ledger.decideAll tasks r.scope ledger with
  | (.error (name, fault), s) => (r.setScope s).conclude now (some (.branch name fault))
  | (.ok ledger, s) => openNext now r.ahead { r.setScope s with ledger }

/-- Looks at the tasks that have ended. The first that failed ends the run. -/
def look (now : Nat) : List Nat → Run → Run
  | [], r => r
  | i :: rest, r =>
    match r.level[i]? with
    | some { task, phase := .ended (.done v) } =>
      look now rest { r with results := r.results.insert task.name v, seen := r.seen + 1 }
    | some { task, phase := .ended (.failed fault) } =>
      { r with activity := r.activity.cancel }.conclude now (some (.task task.name fault))
    | some { phase := .ended .panicked, .. } => r.conclude now (some .taskLost)
    | _ => look now rest r

def coordinate (r : Run) (now : Nat) : Run :=
  let r := look now r.ended { r with ended := [] }
  let r := if r.isGoing ∧ r.seen = r.level.length then r.closeLevel now else r
  if r.isGoing ∧ r.deadline.any (· ≤ now) then
    { r with activity := r.activity.cancel }.conclude now
      (some (.timeout r.workflow.name (r.workflow.configuration.timeout.getD 0)))
  else r

/-! ## Tasks -/

def setPhase (r : Run) (i : Nat) (phase : TaskPhase) : Run :=
  { r with level := r.level.modify i fun t => { t with phase } }

/-- Gives a permit back: whoever waits longest gets it. -/
def release (r : Run) : Run :=
  match r.queue with
  | [] => { r with permits := r.permits + 1 }
  | i :: rest => ({ r with queue := rest }.setPhase i .granted).push (.task i)

def finish (r : Run) (i : Nat) (e : TaskEnd) : Run :=
  let r := (r.setPhase i (.ended e)).release
  { r with ended := r.ended ++ [i] }.push .coordinator

/-- Takes over what a task's attempts have come to. -/
def record (r : Run) (i : Nat) (task : Assignment) (outcome : Attempts × Activity) : Run :=
  let (attempts, activity) := outcome
  let others := r.watching.filter (· ≠ i)
  let r :=
    if activity.canceled ∧ !r.activity.canceled then
      { r with activity, watching := [] }.pushAll (others.map .task)
    else { r with activity, watching := others }
  match attempts with
  | .ended e => r.finish i e
  | attempts =>
    let r := r.setPhase i (.active task attempts)
    if attempts.watchesToken then { r with watching := r.watching ++ [i] } else r

/-- A task that has a permit begins: its placeholders are filled in, and the handler is called. -/
def launch (r : Run) (i : Nat) (task : Task) (now : Nat) : Run :=
  match r.scope.replaceTask task with
  | (.error fault, s) => (r.setScope s).finish i (.failed (.placeholders task.name fault))
  | (.ok resolved, s) =>
    let r := r.setScope s
    let assignment : Assignment := { task := resolved, context := r.context, handler := r.handler }
    r.record i assignment (assignment.begin now r.activity)

/-- A turn of a task; `tokenFirst` tells what it notices first in the delay before a retry. -/
def advanceTask (r : Run) (i now : Nat) (tokenFirst : Bool) : Run :=
  match r.level[i]? with
  | some { task, phase := .spawned } =>
    if r.permits = 0 then { r with queue := r.queue ++ [i] }.setPhase i .waiting
    else { r with permits := r.permits - 1 }.launch i task now
  | some { task, phase := .granted } => r.launch i task now
  | some { phase := .active task attempts, .. } =>
    r.record i task (task.resume now tokenFirst attempts r.activity)
  | _ => r

/-! ## Turns and time -/

def step? (r : Run) (now : Nat) : Option Run :=
  match r.state, r.turns with
  | .going, .coordinator :: rest => some ({ r with turns := rest }.coordinate now)
  | .going, .task i :: rest => some ({ r with turns := rest }.advanceTask i now true)
  | _, _ => none

def steps (now : Nat) : Nat → Run → Run
  | 0, r => r
  | n + 1, r =>
    match r.step? now with
    | some r => steps now n r
    | none => r

def TaskRun.wake? (t : TaskRun) : Option Nat :=
  match t.phase with
  | .active _ attempts => attempts.wake?
  | _ => none

def due (now : Nat) (level : List TaskRun) : List Turn :=
  level.zipIdx.filterMap fun (t, i) =>
    if (TaskRun.wake? t).any (· ≤ now) then some (.task i) else none

/-- Gives a turn to everyone for whom time has come; the deadline comes first. -/
def wake (r : Run) (now : Nat) : Run :=
  let coordinator : List Turn := if r.deadline.any (· ≤ now) then [.coordinator] else []
  { r with turns := coordinator ++ r.turns ++ due now r.level }

def isDue (r : Run) (now : Nat) : Bool := r.isGoing && !(r.wake now).turns.isEmpty

/-- More turns than there can be at an instant: each task has at most four, for its start, a permit,
the time and a cancellation, and is looked at once. -/
def turnBound (r : Run) : Nat :=
  6 * (r.level.length + r.ahead.flatten.length) + r.ahead.length + r.turns.length + 2

def settle (r : Run) (now : Nat) : Run :=
  let r := r.wake now
  steps now r.turnBound r

def wake? (r : Run) : Option Nat :=
  match r.state with
  | .going => (r.deadline.toList ++ r.level.filterMap TaskRun.wake?).min?
  | _ => none

/-- Lets time pass up to `target`, exclusive of what happens at `target` itself. -/
def advance (r : Run) (now target : Nat) : Run :=
  if now < target then
    let r := r.settle now
    match r.wake? with
    | none => r
    | some wake => if now < wake ∧ wake < target then r.advance wake target else r
  else r
termination_by target - now

end Run

/-! ## Reports -/

/-- What is known of an execution that succeeded. -/
structure Report where
  execution : String
  workflowId : String
  workflow : String
  user : String
  outputs : Fields Value
  completed : List String
  skipped : List String

def Run.report (r : Run) (request : ExecutionRequest) : Report where
  execution := request.id
  workflowId := request.workflow
  workflow := r.workflow.name
  user := request.user
  outputs := r.context.outputs
  completed := r.ledger.completed
  skipped := r.ledger.skipped

end WorkflowEngine
