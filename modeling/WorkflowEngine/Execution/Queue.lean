import WorkflowEngine.Fields

/-!
# The execution queue

A request waits in a channel and has a record. The record goes from pending to dequeued to one of
the final statuses, or straight from pending to canceled. Requests are delivered in the order in
which they were accepted; one that was canceled while it waited is skipped.
-/

namespace WorkflowEngine

/-- A request to execute a workflow. `canceled` tells whether its token was cancelled before it was
enqueued. -/
structure ExecutionRequest where
  id : String
  workflow : String
  user : String
  canceled : Bool := false
  deriving DecidableEq

inductive ExecutionStatus where
  | pending | dequeued | completed | failed | canceled
  deriving DecidableEq

namespace ExecutionStatus

def label : ExecutionStatus → String
  | pending => "Pending"
  | dequeued => "Dequeued"
  | completed => "Completed"
  | failed => "Failed"
  | canceled => "Canceled"

def isTerminal : ExecutionStatus → Bool
  | pending => false
  | dequeued => false
  | _ => true

def all : List ExecutionStatus := [pending, dequeued, completed, failed, canceled]

end ExecutionStatus

structure ExecutionRecord where
  status : ExecutionStatus := .pending
  canceled : Bool := false
  failure : Option String := none
  deriving DecidableEq

inductive ExecutionQueueError where
  | alreadyEnqueued (id : String)
  | unknown (id : String)
  | transition (id : String) (source target : ExecutionStatus)
  deriving DecidableEq

def ExecutionQueueError.message : ExecutionQueueError → String
  | alreadyEnqueued id => "Execution '" ++ id ++ "' was already enqueued"
  | unknown id => "Unknown execution '" ++ id ++ "'"
  | transition id source target =>
    "Execution '" ++ id ++ "' cannot transition from " ++ source.label ++ " to " ++ target.label

structure ExecutionQueue where
  records : Fields ExecutionRecord := []
  /-- The requests that were not taken out yet, oldest first. -/
  channel : List ExecutionRequest := []
  deriving DecidableEq

inductive Delivery where
  | request (r : ExecutionRequest)
  | waiting
  /-- The one who asks was cancelled. -/
  | ended
  deriving DecidableEq

namespace ExecutionQueue

def record? (q : ExecutionQueue) (id : String) : Option ExecutionRecord := q.records.find? id

def status? (q : ExecutionQueue) (id : String) : Option ExecutionStatus :=
  (q.record? id).map (·.status)

def failure? (q : ExecutionQueue) (id : String) : Option String :=
  (q.record? id).bind (·.failure)

def isCanceled (q : ExecutionQueue) (id : String) : Bool := (q.record? id).any (·.canceled)

def setRecord (q : ExecutionQueue) (id : String) (record : ExecutionRecord) : ExecutionQueue :=
  { q with records := q.records.insert id record }

def enqueue (q : ExecutionQueue) (r : ExecutionRequest) :
    Except ExecutionQueueError ExecutionQueue :=
  if (q.record? r.id).isSome then .error (.alreadyEnqueued r.id)
  else
    .ok
      { records := q.records.insert r.id { canceled := r.canceled }
        channel := q.channel ++ [r] }

/-- What becomes of the records when a request is taken out of the channel, and whether it is
delivered. -/
def markTaken (records : Fields ExecutionRecord) (r : ExecutionRequest) :
    Bool × Fields ExecutionRecord :=
  match records.find? r.id with
  | none => (false, records)
  | some record =>
    if record.status ≠ .pending then (false, records)
    else if record.canceled then (false, records.insert r.id { record with status := .canceled })
    else (true, records.insert r.id { record with status := .dequeued })

/-- Takes requests out of a channel up to the first that is delivered. -/
def takeFrom (records : Fields ExecutionRecord) :
    List ExecutionRequest → Option ExecutionRequest × ExecutionQueue
  | [] => (none, { records, channel := [] })
  | r :: rest =>
    match markTaken records r with
    | (true, records) => (some r, { records, channel := rest })
    | (false, records) => takeFrom records rest

/-- Asks for the next request. One who was cancelled takes nothing. -/
def dequeue (q : ExecutionQueue) (canceled : Bool) : Delivery × ExecutionQueue :=
  if canceled then (.ended, q)
  else
    match takeFrom q.records q.channel with
    | (some r, q) => (.request r, q)
    | (none, q) => (.waiting, q)

/-- Cancels the token of a known request, as the one who submitted it can. -/
def cancelToken (q : ExecutionQueue) (id : String) : ExecutionQueue :=
  match q.record? id with
  | none => q
  | some record => q.setRecord id { record with canceled := true }

/-- Cancels an execution that is not over: one that waits is canceled at once, one that was
delivered is told so. -/
def cancel (q : ExecutionQueue) (id : String) : Bool × ExecutionQueue :=
  match q.record? id with
  | none => (false, q)
  | some record =>
    match record.status with
    | .pending => (true, q.setRecord id { record with status := .canceled, canceled := true })
    | .dequeued => (true, q.setRecord id { record with canceled := true })
    | _ => (false, q)

def finish (q : ExecutionQueue) (id : String) (status : ExecutionStatus)
    (failure : Option String) : Except ExecutionQueueError ExecutionQueue :=
  match q.record? id with
  | none => .error (.unknown id)
  | some record =>
    if record.status ≠ .dequeued then .error (.transition id record.status status)
    else .ok (q.setRecord id { record with status, failure })

def complete (q : ExecutionQueue) (id : String) : Except ExecutionQueueError ExecutionQueue :=
  q.finish id .completed none

/-- The status that a failure leads to: a failure of a cancelled request is a cancellation. -/
def failureStatus (q : ExecutionQueue) (id : String) : ExecutionStatus :=
  if q.isCanceled id then .canceled else .failed

def fail (q : ExecutionQueue) (id reason : String) : Except ExecutionQueueError ExecutionQueue :=
  q.finish id (q.failureStatus id) (some reason)

def count (q : ExecutionQueue) (status : ExecutionStatus) : Nat :=
  q.records.countP fun entry => entry.2.status = status

end ExecutionQueue

end WorkflowEngine
