import WorkflowEngine.Jobs.Queue
import WorkflowEngine.Settings
import WorkflowEngine.Ticker

/-!
# The consumer of the job queue

One consumer runs the jobs one after the other. Before it waits for a job it looks whether the
queue is paused, and if so looks again after a while. While it waits, a shutdown goes before the
sweep of old results, and that before the next job. A shutdown interrupts a job that runs. In the
end the consumer closes the queue, cancels the jobs that are left in it, and then all others that
have no result.
-/

namespace WorkflowEngine

inductive ConsumerPhase where
  | absent
  /-- Looks whether the queue is paused. -/
  | looking
  /-- Looks at the paused queue again at `wake`. -/
  | pausing (wake : Nat)
  | waiting
  /-- Gives up what had been kept long enough at `time`. -/
  | sweeping (time : Nat)
  /-- Runs a job, whose own token may be cancelled. -/
  | running (id : String) (progress : Progress) (canceled : Bool)
  | writing (id : String) (result : JobResult)
  | noting (id : String)
  /-- Has closed the queue, and takes out the jobs that are left. -/
  | draining
  /-- Cancels what has no result: still to visit, and cancelled so far. -/
  | canceling (todo canceled : List String)
  /-- Takes down when it cancelled those. -/
  | notingAll (canceled : List String)
  | stopped

structure JobService where
  queue : JobQueue := {}
  pausePoll : Nat
  ttl : Nat
  shutdown : Bool := false
  phase : ConsumerPhase := .absent
  sweep : Ticker := ⟨1, 0⟩
  /-- The jobs that were begun, with the time. -/
  started : List (String × Nat) := []

inductive JobServiceError where
  | alreadyConsumed
  deriving DecidableEq

def JobServiceError.message : JobServiceError → String
  | alreadyConsumed => "Job queue already has a consumer"

/-- The result of a job whose work ended. A failure after the job's token was cancelled is a
cancellation. -/
def jobResult (id : String) (canceled : Bool) : Outcome → JobResult
  | .value v => .ok v
  | .failure reasons =>
    if canceled then .error (.canceled id) else .error (.faulted id reasons.text)
  | .panic (some text) => .error (.faulted id ("panicked: " ++ text))
  | .panic none => .error (.faulted id "panicked")

namespace JobService

def ofSettings (settings : Settings) : JobService :=
  { pausePoll := settings.pausePoll, ttl := settings.jobTtl }

def start (s : JobService) (now : Nat) : Except JobServiceError JobService :=
  match s.phase with
  | .absent => .ok { s with sweep := ⟨max s.ttl 1, now⟩, phase := .looking }
  | _ => .error .alreadyConsumed

/-- Where the consumer goes on after a result. -/
def goOn (s : JobService) : JobService :=
  { s with phase := if s.queue.isOpen then .looking else .draining }

def stop (s : JobService) : JobService := { s with queue := s.queue.close, phase := .draining }

def beginSweep (s : JobService) (now : Nat) : JobService :=
  { s with phase := .sweeping now, sweep := s.sweep.tick now }

def begin? (s : JobService) (now : Nat) : Option JobService :=
  match s.queue.take? with
  | some (job, queue) =>
    let (progress, canceled) := job.work.settle now false
    some { s with
      queue
      phase := .running job.id progress canceled
      started := s.started ++ [(job.id, now)] }
  | none => none

def work? (s : JobService) (id : String) (progress : Progress) (canceled : Bool) (now : Nat) :
    Option JobService :=
  match progress with
  | .ended o => some { s with phase := .writing id (jobResult id canceled o) }
  | progress =>
    if progress.isDue now canceled then
      let (progress, canceled) := progress.resume now canceled
      some { s with phase := .running id progress canceled }
    else none

def step? (s : JobService) (now : Nat) : Option JobService :=
  match s.phase with
  | .absent => none
  | .looking =>
    some { s with phase := if s.queue.paused then .pausing (now + s.pausePoll) else .waiting }
  | .pausing wake =>
    if s.shutdown then some s.stop
    else if wake ≤ now then some { s with phase := .looking }
    else none
  | .waiting =>
    if s.shutdown then some s.stop
    else if s.sweep.isDue now then some (s.beginSweep now)
    else s.begin? now
  | .sweeping time =>
    match s.queue.sweepOldest? s.ttl time with
    | some queue => some { s with queue }
    | none => some { s with phase := .looking }
  | .running id progress canceled =>
    if s.shutdown then some { s with phase := .writing id (.error (.canceled id)) }
    else s.work? id progress canceled now
  | .writing id result =>
    match s.queue.write? id result with
    | some queue => some { s with queue, phase := .noting id }
    | none => some s.goOn
  | .noting id => some { s with queue := s.queue.note id now }.goOn
  | .draining =>
    match s.queue.take? with
    | some (job, queue) =>
      some { s with queue, phase := .writing job.id (.error (.canceled job.id)) }
    | none => some { s with phase := .canceling (s.queue.slots.map (·.id)) [] }
  | .canceling (id :: todo) canceled =>
    match s.queue.write? id (.error (.canceled id)) with
    | some queue => some { s with queue, phase := .canceling todo (canceled ++ [id]) }
    | none => some { s with phase := .canceling todo canceled }
  | .canceling [] canceled => some { s with phase := .notingAll canceled }
  | .notingAll (id :: rest) =>
    some { s with queue := s.queue.note id now, phase := .notingAll rest }
  | .notingAll [] => some { s with phase := .stopped }
  | .stopped => none

def steps (now : Nat) : Nat → JobService → JobService
  | 0, s => s
  | n + 1, s =>
    match s.step? now with
    | some s => steps now n s
    | none => s

/-- More steps than there can be at an instant: a few for each job in the queue, for each slot and
for each result that was taken down, and some for sweeps that are late. -/
def stepBound (s : JobService) : Nat :=
  8 * (s.queue.channel.length + s.queue.slots.length + s.queue.resolved.length) + 64

def settle (s : JobService) (now : Nat) : JobService := steps now s.stepBound s

def wake? (s : JobService) : Option Nat :=
  match s.phase with
  | .pausing wake => some wake
  | .waiting => some s.sweep.next
  | .running _ progress _ => progress.wake?
  | _ => none

/-- Lets time pass up to `target`, exclusive of what happens at `target` itself. -/
def advance (s : JobService) (now target : Nat) : JobService :=
  if now < target then
    let s := s.settle now
    match s.wake? with
    | none => s
    | some wake => if now < wake ∧ wake < target then advance s wake target else s
  else s
termination_by target - now

def shutDown (s : JobService) (now : Nat) : JobService := { s with shutdown := true }.settle now

end JobService

/-! ## Waiting for results -/

/-- One who asked for a result. -/
inductive Inquiry where
  | answered (result : JobResult)
  | open (id : String)

namespace Inquiry

/-- Takes the result if it is there. -/
def poll (q : JobQueue) : Inquiry → Inquiry × JobQueue
  | answered result => (answered result, q)
  | .open id =>
    match q.result? id with
    | some result => (answered result, q.collect id)
    | none => (.open id, q)

def ask (q : JobQueue) (id : String) : Inquiry × JobQueue :=
  match q.subscribe id with
  | .error e => (answered (.error e), q)
  | .ok q => poll q (.open id)

def giveUp (q : JobQueue) : Inquiry → Option JobResult × JobQueue
  | answered result => (some result, q)
  | .open id => (none, q.unsubscribe id)

def isOpen : Inquiry → Bool
  | .open _ => true
  | answered _ => false

end Inquiry

/-- Does something for each element in turn, with a queue that is handed on. -/
def JobQueue.forEach {α β : Type} (act : JobQueue → α → β × JobQueue) :
    JobQueue → List α → List β × JobQueue
  | q, [] => ([], q)
  | q, a :: rest =>
    let (b, q) := act q a
    let (bs, q) := forEach act q rest
    (b :: bs, q)

namespace JobService

/-- Whoever still waits gives up. -/
def giveUp (s : JobService) (now : Nat) (inquiries : List Inquiry) :
    List (Option JobResult) × Nat × JobService :=
  let (results, queue) := s.queue.forEach Inquiry.giveUp inquiries
  (results, now, { s with queue })

/-- Lets time pass until every inquiry is answered, or up to `deadline`. -/
def await (s : JobService) (now deadline : Nat) (inquiries : List Inquiry) :
    List (Option JobResult) × Nat × JobService :=
  if now < deadline then
    let s := s.settle now
    let (inquiries, queue) := s.queue.forEach Inquiry.poll inquiries
    let s := { s with queue }
    if inquiries.any (·.isOpen) then
      match s.wake? with
      | some wake =>
        if now < wake ∧ wake < deadline then await s wake deadline inquiries
        else s.giveUp deadline inquiries
      | none => s.giveUp deadline inquiries
    else s.giveUp now inquiries
  else s.giveUp now inquiries
termination_by deadline - now

/-- Waits for the results of jobs, for `wait` milliseconds at most. A job that is still waited for
then has none. -/
def results (s : JobService) (now wait : Nat) (ids : List String) :
    List (Option JobResult) × Nat × JobService :=
  let (inquiries, queue) := s.queue.forEach Inquiry.ask ids
  let s := { s with queue }
  if inquiries.any (·.isOpen) then s.await now (now + wait) inquiries else s.giveUp now inquiries

end JobService

end WorkflowEngine
