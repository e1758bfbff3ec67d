import WorkflowEngine.Execution.Queue

/-!
# Submitting requests

The queue as those see it who put requests into it. Each request gets an id of its own. Attempts
are counted, since the queue may refuse any of them.
-/

namespace WorkflowEngine

/-- A request that was accepted, and when. -/
structure Acceptance where
  request : ExecutionRequest
  time : Nat
  deriving DecidableEq

structure Intake where
  queue : ExecutionQueue := {}
  attempts : Nat := 0
  /-- The requests that were accepted, oldest first. -/
  accepted : List Acceptance := []
  refuses : Nat → Bool := fun _ => false

inductive IntakeError where
  | refused (attempt : Nat)
  | rejected (error : ExecutionQueueError)
  deriving DecidableEq

def IntakeError.message : IntakeError → String
  | refused attempt => "enqueue " ++ toString attempt ++ " refused"
  | rejected error => error.message

namespace Intake

def freshId (t : Intake) : String := "e" ++ toString t.accepted.length

/-- Tries to put a request into the queue; returns its id. -/
def submit (t : Intake) (now : Nat) (workflow user : String) :
    Except IntakeError String × Intake :=
  let tried := { t with attempts := t.attempts + 1 }
  if t.refuses t.attempts then (.error (.refused t.attempts), tried)
  else
    let request : ExecutionRequest := { id := t.freshId, workflow, user }
    match t.queue.enqueue request with
    | .error e => (.error (.rejected e), tried)
    | .ok queue =>
      (.ok request.id, { tried with queue, accepted := t.accepted ++ [⟨request, now⟩] })

end Intake

end WorkflowEngine
