import WorkflowEngine.Expression.Context
import WorkflowEngine.Expression.Fault
import WorkflowEngine.Workflow.Basic
import WorkflowEngine.Work

/-!
# Attempts at a task

A handler is called for a task whose placeholders are filled in. A call that fails, or that takes
longer than the task's limit, is followed by another after the task's delay, as often as the task
says. Once the run is cancelled there are no more calls.
-/

namespace WorkflowEngine

open Expression (Context Fault)

/-- The work for a task whose placeholders are filled in, in a context. The number tells how many
calls there were before for tasks of that name. -/
abbrev Handler := Task → Context → Nat → Work

structure Call where
  time : Nat
  task : String
  /-- Which call it is for that name, counted from one. -/
  number : Nat
  description : Option String
  parameters : Fields Json.Value
  /-- What the handler could look up. -/
  context : Context

/-- How many outputs could be seen. -/
def Call.outputs (c : Call) : Nat := c.context.outputs.length

/-- What the calls of a run share. -/
structure Activity where
  canceled : Bool := false
  /-- The calls so far, oldest first. -/
  calls : List Call := []
  running : Nat := 0
  /-- How many went on at once at most. -/
  mostRunning : Nat := 0

namespace Activity

def cancel (a : Activity) : Activity := { a with canceled := true }

def callsOf (a : Activity) (name : String) : Nat := a.calls.countP fun c => c.task == name

def enter (a : Activity) (call : Call) : Activity :=
  { a with
    calls := a.calls ++ [call]
    running := a.running + 1
    mostRunning := max a.mostRunning (a.running + 1) }

def leave (a : Activity) : Activity := { a with running := a.running - 1 }

end Activity

inductive TaskFault where
  | placeholders (task : String) (fault : Fault)
  | timeout (task : String) (milliseconds : Nat)
  | handler (reasons : Reasons)

def TaskFault.reasons : TaskFault → Reasons
  | placeholders task fault =>
    ["Failed to resolve placeholders for task '" ++ task ++ "'", fault.message]
  | timeout task milliseconds =>
    ["Task '" ++ task ++ "' timed out after " ++ toString milliseconds ++ " ms"]
  | handler reasons => reasons

inductive TaskEnd where
  | done (v : Json.Value)
  | failed (fault : TaskFault)
  | panicked

/-- How often a failed task is tried again. A negative number counts as none. -/
def Task.retries (t : Task) : Nat := t.retry.maxRetries.toNat

/-- How long after a failure it is tried again, in milliseconds. -/
def Task.retryDelay (t : Task) : Nat := (t.retry.delay.getD 0).toNat

/-- A task that is ready to be handled. -/
structure Assignment where
  task : Task
  context : Context
  handler : Handler

/-- Where the attempts at a task stand; `left` is how often it may still be tried again. -/
inductive Attempts where
  | calling (progress : Progress) (deadline : Option Nat) (left : Nat)
  | delaying (wake : Nat) (fault : TaskFault) (left : Nat)
  | ended (e : TaskEnd)

namespace Assignment

def call (s : Assignment) (now : Nat) (a : Activity) : Progress × Activity :=
  let earlier := a.callsOf s.task.name
  let a := a.enter
    { time := now
      task := s.task.name
      number := earlier + 1
      description := s.task.description
      parameters := s.task.parameters
      context := s.context }
  let (progress, canceled) := (s.handler s.task s.context earlier).settle now a.canceled
  (progress, { a with canceled })

/-- When a call that begins now has taken too long. -/
def deadlineFrom (s : Assignment) (now : Nat) : Option Nat := s.task.timeout.map (now + ·)

/-- How a call is over at an instant, if it is: what the handler returns counts even when the
limit has been reached. -/
def callEnd? (s : Assignment) (now : Nat) (deadline : Option Nat) : Progress → Option TaskEnd
  | .ended (.value v) => some (.done v)
  | .ended (.failure reasons) => some (.failed (.handler reasons))
  | .ended (.panic _) => some .panicked
  | _ =>
    if deadline.any (· ≤ now) then
      some (.failed (.timeout s.task.name (s.task.timeout.getD 0)))
    else none

/-- Goes on with a call. When it is over and failed, tries are left and there is no delay, the next
one follows at once. -/
def follow (s : Assignment) (now : Nat) (left : Nat) (deadline : Option Nat) (progress : Progress)
    (a : Activity) : Attempts × Activity :=
  match s.callEnd? now deadline progress, left with
  | none, left => (.calling progress deadline left, a)
  | some (.failed fault), left + 1 =>
    let a := a.leave
    if a.canceled then (.ended (.failed fault), a)
    else if s.task.retryDelay ≠ 0 then (.delaying (now + s.task.retryDelay) fault left, a)
    else
      let (progress, a) := s.call now a
      s.follow now left (s.deadlineFrom now) progress a
  | some e, _ => (.ended e, a.leave)

/-- Makes an attempt, after which `left` are left. -/
def attempt (s : Assignment) (now left : Nat) (a : Activity) : Attempts × Activity :=
  let (progress, a) := s.call now a
  s.follow now left (s.deadlineFrom now) progress a

def begin (s : Assignment) (now : Nat) (a : Activity) : Attempts × Activity :=
  s.attempt now s.task.retries a

/-- Goes on with the attempts in a turn. When the delay is over and the token is cancelled as well,
nothing says which is noticed: `tokenFirst` tells. -/
def resume (s : Assignment) (now : Nat) (tokenFirst : Bool) (attempts : Attempts) (a : Activity) :
    Attempts × Activity :=
  match attempts with
  | .calling progress deadline left =>
    let (progress, canceled) := progress.resume now a.canceled
    s.follow now left deadline progress { a with canceled }
  | .delaying wake fault left =>
    if a.canceled ∧ (tokenFirst ∨ now < wake) then (.ended (.failed fault), a)
    else if wake ≤ now then s.attempt now left a
    else (attempts, a)
  | .ended e => (.ended e, a)

end Assignment

namespace Attempts

def wake? : Attempts → Option Nat
  | calling progress deadline _ =>
    match progress.wake?, deadline with
    | some wake, some deadline => some (min wake deadline)
    | some wake, none => some wake
    | none, deadline => deadline
  | delaying wake _ _ => some wake
  | ended _ => none

/-- Whether a cancellation would make a difference. -/
def watchesToken : Attempts → Bool
  | calling (.awaiting _) _ _ => true
  | delaying .. => true
  | _ => false

end Attempts

end WorkflowEngine
