import WorkflowEngine.Work

/-!
# The job queue

Jobs wait in a channel in the order in which they came. Each has a slot for its result, written at
most once. A slot is given up when its result is fetched, or when the result has been kept for some
time and nobody waits for it. Whoever waits for a slot that was given up still gets its result.
-/

namespace WorkflowEngine

inductive JobError where
  | unknownJob (id : String)
  | canceled (id : String)
  | faulted (id message : String)
  | queueClosed
  deriving DecidableEq

def JobError.message : JobError → String
  | unknownJob id => "Job '" ++ id ++ "' is not known to the queue"
  | canceled id => "Job '" ++ id ++ "' was canceled"
  | faulted id message => "Job '" ++ id ++ "' failed: " ++ message
  | queueClosed => "Job queue is closed"

abbrev JobResult := Except JobError Json.Value

structure Job where
  id : String
  work : Work

/-- Where the result of a job goes. -/
structure JobSlot where
  id : String
  result : Option JobResult := none
  /-- How many wait for the result. -/
  waiters : Nat := 0
  /-- Whether the queue still knows the job. -/
  tracked : Bool := true

structure JobQueue where
  /-- The slots of all jobs that were accepted, oldest first. -/
  slots : List JobSlot := []
  channel : List Job := []
  isOpen : Bool := true
  /-- The jobs that have a result, with the time when they got it, oldest first. -/
  resolved : List (String × Nat) := []
  paused : Bool := false

namespace JobQueue

def slot? (q : JobQueue) (id : String) : Option JobSlot := q.slots.find? fun s => s.id == id

/-- The slot of a job that the queue still knows. -/
def tracked? (q : JobQueue) (id : String) : Option JobSlot :=
  match q.slot? id with
  | some s => if s.tracked then some s else none
  | none => none

def update (q : JobQueue) (id : String) (change : JobSlot → JobSlot) : JobQueue :=
  { q with slots := q.slots.map fun s => if s.id == id then change s else s }

/-! ## Accesses

Each of these happens at once. Clients and the consumer do them in any order, so that between two of
one client's others may come. -/

def register (q : JobQueue) (id : String) : JobQueue := { q with slots := q.slots ++ [{ id }] }

/-- Puts a job into the channel, if that is open. -/
def send? (q : JobQueue) (job : Job) : Option JobQueue :=
  if q.isOpen then some { q with channel := q.channel ++ [job] } else none

def forget (q : JobQueue) (id : String) : JobQueue :=
  q.update id fun s => { s with tracked := false }

def subscribe (q : JobQueue) (id : String) : Except JobError JobQueue :=
  match q.tracked? id with
  | some _ => .ok (q.update id fun s => { s with waiters := s.waiters + 1 })
  | none => .error (.unknownJob id)

/-- What one who waits for a result finds. -/
def result? (q : JobQueue) (id : String) : Option JobResult := (q.slot? id).bind (·.result)

def unsubscribe (q : JobQueue) (id : String) : JobQueue :=
  q.update id fun s => { s with waiters := s.waiters - 1 }

def isPending (q : JobQueue) (id : String) : Bool := (q.tracked? id).any (·.result.isNone)

def trackedJobs (q : JobQueue) : Nat := q.slots.countP (·.tracked)

/-- Writes the result of a job that has none. -/
def write? (q : JobQueue) (id : String) (result : JobResult) : Option JobQueue :=
  if q.isPending id then some (q.update id fun s => { s with result := some result }) else none

/-- Takes down when a result was written. -/
def note (q : JobQueue) (id : String) (now : Nat) : JobQueue :=
  { q with resolved := q.resolved ++ [(id, now)] }

/-- Whether a result that was written at `written` has been kept long enough. -/
def isExpired (ttl now written : Nat) : Bool := ttl ≤ now - written

/-- Gives up the slot of a job that nobody waits for. -/
def evict (q : JobQueue) (id : String) : JobQueue :=
  q.update id fun s => if s.waiters = 0 then { s with tracked := false } else s

/-- Gives up the oldest result, if it has been kept long enough. -/
def sweepOldest? (q : JobQueue) (ttl now : Nat) : Option JobQueue :=
  match q.resolved with
  | [] => none
  | (id, written) :: rest =>
    if isExpired ttl now written then some ({ q with resolved := rest }.evict id) else none

def take? (q : JobQueue) : Option (Job × JobQueue) :=
  match q.channel with
  | [] => none
  | job :: rest => some (job, { q with channel := rest })

def close (q : JobQueue) : JobQueue := { q with isOpen := false }

def pause (q : JobQueue) : JobQueue := { q with paused := true }

def resume (q : JobQueue) : JobQueue := { q with paused := false }

/-! ## What clients do -/

/-- Accepts a job under a new id. The slot of a job that is refused is given up again. -/
def enqueue (q : JobQueue) (id : String) (work : Work) : Except JobError JobQueue :=
  match (q.register id).send? ⟨id, work⟩ with
  | some q => .ok q
  | none => .error .queueClosed

/-- One who waited takes the result; the queue no longer knows the job. -/
def collect (q : JobQueue) (id : String) : JobQueue := (q.forget id).unsubscribe id

def description (q : JobQueue) : String :=
  "JobQueue \x7b tracked_jobs: " ++ toString q.trackedJobs ++ ", paused: " ++
    (if q.paused then "true" else "false") ++ " \x7d"

end JobQueue

end WorkflowEngine
