import WorkflowEngine.Settings
import WorkflowEngine.Ticker
import WorkflowEngine.Trigger.Schedule

/-!
# The trigger service

In every cycle all processors are asked in order, and a failure of one does not keep the next from
being asked. A loop runs a cycle at once and then one per interval until the service is cancelled.
-/

namespace WorkflowEngine

inductive TriggerProcessor where
  | timeBased (schedules : List Schedule)
  /-- Some other processor, by what its `n`-th call returns and does to the intake. -/
  | other (name : String) (calls : Nat) (answer : Nat → Except String Nat)
    (effect : Nat → Intake → Intake := fun _ intake => intake)

namespace TriggerProcessor

def name : TriggerProcessor → String
  | timeBased _ => "time-based"
  | other name _ _ _ => name

/-- The number of requests, or why the processor failed. -/
def process (now : Nat) (canceled : Bool) (intake : Intake) :
    TriggerProcessor → Except String Nat × TriggerProcessor × Intake
  | timeBased schedules =>
    let (count, schedules, intake) :=
      serve (now * nanosPerMilli) (fun _ => canceled) schedules intake
    (count.mapError IntakeError.message, timeBased schedules, intake)
  | other name calls answer effect =>
    (answer calls, other name (calls + 1) answer effect, effect calls intake)

end TriggerProcessor

structure TriggerFailure where
  processor : String
  reason : String
  deriving DecidableEq

structure TriggerCycle where
  /-- How many requests were made by the processors that succeeded. -/
  fired : Nat
  failures : List TriggerFailure
  processors : List TriggerProcessor
  intake : Intake

/-- Asks all processors in order. -/
def runCycle (now : Nat) (canceled : Bool) : List TriggerProcessor → Intake → TriggerCycle
  | [], intake => { fired := 0, failures := [], processors := [], intake }
  | p :: rest, intake =>
    let (count, p', intake) := p.process now canceled intake
    let c := runCycle now canceled rest intake
    match count with
    | .ok n => { c with fired := n + c.fired, processors := p' :: c.processors }
    | .error reason =>
      { c with failures := ⟨p.name, reason⟩ :: c.failures, processors := p' :: c.processors }

structure TriggerService where
  processors : List TriggerProcessor
  intake : Intake := {}
  /-- Time between two cycles of a loop, in milliseconds. -/
  interval : Nat
  canceled : Bool := false
  loops : List Ticker := []
  /-- Whether a loop has broken down at its start. -/
  crashed : Bool := false
  failures : List TriggerFailure := []

namespace TriggerService

def ofSettings (settings : Settings) (processors : List TriggerProcessor) (intake : Intake) :
    TriggerService :=
  { processors, intake, interval := settings.triggerInterval }

/-- Runs one cycle, and returns how many requests it made. -/
def runOnce (s : TriggerService) (now : Nat) : Nat × TriggerService :=
  let c := runCycle now s.canceled s.processors s.intake
  (c.fired, { s with
    processors := c.processors
    intake := c.intake
    failures := s.failures ++ c.failures })

/-- Runs a cycle for each loop whose tick is due. -/
def runDue (now : Nat) : List Ticker → TriggerService → TriggerService
  | [], s => s
  | loop :: rest, s =>
    if loop.isDue now then
      runDue now rest { (s.runOnce now).2 with loops := s.loops ++ [loop.tick now] }
    else runDue now rest { s with loops := s.loops ++ [loop] }

/-- Does all there is to do at an instant: loops end when the service was cancelled. -/
def settle (s : TriggerService) (now : Nat) : TriggerService :=
  if s.canceled then { s with loops := [] } else runDue now s.loops { s with loops := [] }

/-- Starts a loop. Without an interval it breaks down at once, since a ticker needs a period. -/
def start (s : TriggerService) (now : Nat) : TriggerService :=
  if s.interval = 0 then { s with crashed := true }
  else
    let s : TriggerService := { s with loops := s.loops ++ [⟨s.interval, now⟩] }
    s.settle now

def cancel (s : TriggerService) : TriggerService := { s with canceled := true }

def wake? (s : TriggerService) : Option Nat := (s.loops.map (·.next)).min?

/-- Lets time pass up to `target`, exclusive of what happens at `target` itself. -/
def advance (s : TriggerService) (now target : Nat) : TriggerService :=
  if now < target then
    let s := s.settle now
    match s.wake? with
    | none => s
    | some wake => if now < wake ∧ wake < target then advance s wake target else s
  else s
termination_by target - now

/-! ## Schedules of the time-based processors -/

def schedules (s : TriggerService) : List (List Schedule) :=
  s.processors.filterMap fun
    | .timeBased schedules => some schedules
    | .other .. => none

/-- Changes the schedules of one time-based processor, counted from zero. -/
def changeSchedules (change : List Schedule → List Schedule) :
    Nat → List TriggerProcessor → List TriggerProcessor
  | _, [] => []
  | 0, .timeBased schedules :: rest => .timeBased (change schedules) :: rest
  | n + 1, .timeBased schedules :: rest =>
    .timeBased schedules :: changeSchedules change n rest
  | n, p :: rest => p :: changeSchedules change n rest

def addSchedule (s : TriggerService) (n : Nat) (schedule : Schedule) : TriggerService :=
  { s with processors := changeSchedules (· ++ [schedule]) n s.processors }

def removeSchedules (s : TriggerService) (n : Nat) (workflow : String) : TriggerService :=
  { s with
    processors := changeSchedules (·.filter fun r => r.workflow != workflow) n s.processors }

end TriggerService

end WorkflowEngine
