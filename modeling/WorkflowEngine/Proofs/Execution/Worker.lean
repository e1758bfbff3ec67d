import WorkflowEngine.Engine
import WorkflowEngine.Proofs.Execution.Delivery
import Mathlib.Logic.Function.Basic

/-!
# Workers

Any number of workers take requests from one queue, each from a stream of its own, and hand them to
an orchestrator. Meanwhile others submit requests and cancel them, and shut workers down. Nothing is
assumed of the orchestrator, nor of the order in which the parties come.

A report of a failure looks at the request's token first, and sets the status in a second step: what
happens in between does not change how it is reported. `ExecutionQueue.fail` is the case in which
nothing does.
-/

namespace WorkflowEngine

theorem ExecutionQueue.finish_dequeued {q : ExecutionQueue} {id : String}
    {record : ExecutionRecord} (hrecord : q.record? id = some record)
    (hdequeued : record.status = .dequeued) (status : ExecutionStatus)
    (failure : Option String) :
    q.finish id status failure = .ok (q.setRecord id { record with status, failure }) := by
  simp [finish, hrecord, hdequeued]

theorem ExecutionQueue.isCanceled_cancel (q : ExecutionQueue) {id : String}
    (hfound : (q.cancel id).1 = true) : (q.cancel id).2.isCanceled id = true := by
  obtain h | ⟨record, -, ⟨-, h⟩ | ⟨-, h⟩⟩ := q.cancel_cases id
  · rw [h] at hfound
    cases hfound
  all_goals
    rw [h, isCanceled, record?_setRecord, if_pos rfl]
    rfl

namespace QueueWorld

/-- A request that does not wait keeps its status until it is reported. -/
theorem RecordStep.kept {id : String} {record record' : ExecutionRecord} {a : QueueAction}
    {reply : QueueReply} (hchange : RecordStep id record a reply record')
    (hstatus : record.status ≠ .pending) (hcomplete : a ≠ .complete id)
    (hfail : ∀ reason, a ≠ .fail id reason) :
    record'.status = record.status ∧ record'.failure = record.failure := by
  cases hchange with
  | keep _ _ => exact ⟨rfl, rfl⟩
  | skip _ hpending _ => exact (hstatus hpending).elim
  | deliver _ hpending _ => exact (hstatus hpending).elim
  | cancelWaiting hpending => exact (hstatus hpending).elim
  | cancelRunning _ => exact ⟨rfl, rfl⟩
  | cancelToken => exact ⟨rfl, rfl⟩
  | complete _ => exact (hcomplete rfl).elim
  | fail _ => exact (hfail _ rfl).elim

theorem dequeued_cancelToken (w : QueueWorld) (id : String)
    (hstatus : w.queue.status? id = some .dequeued) :
    (w.perform (.cancelToken id)).2.queue.status? id = some .dequeued := by
  obtain ⟨record, hrecord, hdequeued⟩ := Option.map_eq_some_iff.mp hstatus
  obtain ⟨record', hrecord', hchange⟩ := (step_perform w (.cancelToken id)).recordStep hrecord
  have hkept := hchange.kept (by simp [hdequeued]) nofun nofun
  rw [ExecutionQueue.status?_of_record? hrecord', hkept.1, hdequeued]

/-- A request that is delivered was waiting, and its token was not cancelled. -/
theorem Step.delivered_record {w w' : QueueWorld} {a : QueueAction} {r : ExecutionRequest}
    (hstep : Step w a (.delivered r) w') :
    ∃ record, w.queue.record? r.id = some record ∧ record.status = .pending ∧
      record.canceled = false ∧
      w'.queue.record? r.id = some { record with status := .dequeued } := by
  cases hstep with
  | deliver _ _ hrecord hstatus hcanceled =>
    exact ⟨_, hrecord, hstatus, hcanceled, record?_setRecord_self ..⟩

end QueueWorld

inductive ExecutionResult where
  | succeeded
  | failed (reason : String)
  deriving DecidableEq

def ExecutionResult.reason? : ExecutionResult → Option String
  | succeeded => none
  | failed reason => some reason

/-- What executes requests, as far as its workers can tell. -/
structure Orchestrator where
  /-- Where an execution stands. -/
  State : Type
  /-- An execution begins; its token may be cancelled already. -/
  Begins : ExecutionRequest → Bool → State → Prop
  Works : State → State → Prop
  /-- It notices that the token of its request is cancelled. -/
  Told : State → State → Prop
  /-- It cancels the token of its request itself. -/
  Cancels : State → State → Prop
  Returns : State → ExecutionResult → Prop
  begins : ∀ r canceled, ∃ s, Begins r canceled s

inductive WorkerState (S : Type) where
  | absent
  | idle
  /-- Has taken a request and not handed it over yet. -/
  | holding (r : ExecutionRequest)
  | running (r : ExecutionRequest) (s : S)
  | reporting (r : ExecutionRequest) (result : ExecutionResult)
  /-- Has looked whether the request was cancelled. -/
  | failing (r : ExecutionRequest) (reason : String) (canceled : Bool)
  | returned

namespace WorkerState

variable {S : Type}

/-- The request that a worker has taken and not reported yet. -/
def request? : WorkerState S → Option ExecutionRequest
  | holding r => some r
  | running r _ => some r
  | reporting r _ => some r
  | failing r _ _ => some r
  | _ => none

/-- How many moves the worker has to make at most until its request is reported. -/
def distance : WorkerState S → Nat
  | holding _ => 4
  | running _ _ => 3
  | reporting _ _ => 2
  | failing _ _ _ => 1
  | _ => 0

end WorkerState

inductive WorkerEvent where
  /-- Someone who is not a worker calls the queue. -/
  | others (a : QueueAction) (reply : QueueReply)
  | started (k : Nat)
  /-- A worker asks for a request and there is none, or it is passed over. -/
  | asked (k : Nat) (reply : QueueReply)
  | took (k : Nat) (r : ExecutionRequest)
  | handed (k : Nat) (r : ExecutionRequest)
  /-- The orchestrator does something by itself. -/
  | worked (k : Nat)
  /-- The orchestrator cancels the token of the request. -/
  | canceled (k : Nat) (r : ExecutionRequest)
  /-- The worker has a result, the orchestrator's or that of a shutdown. -/
  | resulted (k : Nat) (r : ExecutionRequest) (result : ExecutionResult) (interrupted : Bool)
  /-- The report of a failure looks at the token. -/
  | looked (k : Nat) (r : ExecutionRequest) (canceled : Bool)
  | reported (k : Nat) (r : ExecutionRequest) (reply : QueueReply)
  | returned (k : Nat)
  deriving DecidableEq

/-- What happened, the latest first. -/
abbrev WorkerHistory := List WorkerEvent

namespace WorkerEvent

/-- The request that a worker dealt with. -/
def about : WorkerEvent → Option String
  | took _ r => some r.id
  | handed _ r => some r.id
  | resulted _ r _ _ => some r.id
  | looked _ r _ => some r.id
  | reported _ r _ => some r.id
  | _ => none

/-- Whose move it was on the way of a request from the queue to its report. -/
def mover? : WorkerEvent → Option Nat
  | took k _ => some k
  | handed k _ => some k
  | resulted k _ _ _ => some k
  | looked k _ _ => some k
  | reported k _ _ => some k
  | _ => none

/-- Someone cancelled the token of the request who is not the orchestrator: through the queue, as
the one who submitted it, or by a shutdown in the midst of its execution. -/
def CancelsFromOutside : WorkerEvent → String → Prop
  | others a reply, id => reply.Cancels a id
  | resulted _ r _ interrupted, id => r.id = id ∧ interrupted = true
  | _, _ => False

/-- The token of the request was cancelled. -/
def Cancels : WorkerEvent → String → Prop
  | canceled _ r, id => r.id = id
  | e, id => e.CancelsFromOutside id

end WorkerEvent

structure WorkerWorld (O : Orchestrator) where
  queue : QueueWorld := {}
  /-- Worker `k` listens to stream `k`, and is shut down when that is stopped. -/
  workers : Nat → WorkerState O.State := fun _ => .absent

namespace WorkerWorld

variable {O : Orchestrator}

def put (w : WorkerWorld O) (k : Nat) (state : WorkerState O.State) : WorkerWorld O :=
  { w with workers := Function.update w.workers k state }

def setQueue (w : WorkerWorld O) (queue : QueueWorld) : WorkerWorld O := { w with queue }

def record? (w : WorkerWorld O) (id : String) : Option ExecutionRecord := w.queue.queue.record? id

def status? (w : WorkerWorld O) (id : String) : Option ExecutionStatus := w.queue.queue.status? id

def isCanceled (w : WorkerWorld O) (id : String) : Bool := w.queue.queue.isCanceled id

/-- What those who are not workers do: they report nothing, and leave the workers' streams alone. -/
def Open (w : WorkerWorld O) : QueueAction → Prop
  | .complete _ => False
  | .fail _ _ => False
  | .take stream => w.workers stream = .absent
  | _ => True

/-- The second access of a report of a failure. -/
def concludeFailure (w : WorkerWorld O) (id reason : String) (canceled : Bool) :
    QueueReply × QueueWorld :=
  w.queue.conclude
    (w.queue.queue.finish id (if canceled then .canceled else .failed) (some reason))

inductive Step (w : WorkerWorld O) : WorkerEvent → WorkerWorld O → Prop where
  | others {a : QueueAction} : w.Open a →
      Step w (.others a (w.queue.perform a).1) (w.setQueue (w.queue.perform a).2)
  | start {k : Nat} : w.workers k = .absent → Step w (.started k) (w.put k .idle)
  | ask {k : Nat} {reply : QueueReply} : w.workers k = .idle →
      (w.queue.perform (.take k)).1 = reply → reply.deliveredBy = [] → reply ≠ .ended →
      Step w (.asked k reply) (w.setQueue (w.queue.perform (.take k)).2)
  | take {k : Nat} {r : ExecutionRequest} : w.workers k = .idle →
      (w.queue.perform (.take k)).1 = .delivered r →
      Step w (.took k r) ((w.setQueue (w.queue.perform (.take k)).2).put k (.holding r))
  | leave {k : Nat} : w.workers k = .idle → (w.queue.perform (.take k)).1 = .ended →
      Step w (.returned k) (w.put k .returned)
  | hand {k : Nat} {r : ExecutionRequest} {s : O.State} : w.workers k = .holding r →
      O.Begins r (w.isCanceled r.id) s → Step w (.handed k r) (w.put k (.running r s))
  | work {k : Nat} {r : ExecutionRequest} {s s' : O.State} : w.workers k = .running r s →
      O.Works s s' → Step w (.worked k) (w.put k (.running r s'))
  | tell {k : Nat} {r : ExecutionRequest} {s s' : O.State} : w.workers k = .running r s →
      w.isCanceled r.id → O.Told s s' → Step w (.worked k) (w.put k (.running r s'))
  | cancel {k : Nat} {r : ExecutionRequest} {s s' : O.State} : w.workers k = .running r s →
      O.Cancels s s' →
      Step w (.canceled k r)
        ((w.setQueue (w.queue.perform (.cancelToken r.id)).2).put k (.running r s'))
  | result {k : Nat} {r : ExecutionRequest} {s : O.State} {result : ExecutionResult} :
      w.workers k = .running r s → O.Returns s result →
      Step w (.resulted k r result false) (w.put k (.reporting r result))
  /-- The worker is shut down while it waits for a result. -/
  | interrupt {k : Nat} {r : ExecutionRequest} {s : O.State} : w.workers k = .running r s →
      k ∈ w.queue.stopped →
      Step w (.resulted k r (.failed Engine.interruption) true)
        ((w.setQueue (w.queue.perform (.cancelToken r.id)).2).put k
          (.reporting r (.failed Engine.interruption)))
  | complete {k : Nat} {r : ExecutionRequest} : w.workers k = .reporting r .succeeded →
      Step w (.reported k r (w.queue.perform (.complete r.id)).1)
        ((w.setQueue (w.queue.perform (.complete r.id)).2).put k .idle)
  | look {k : Nat} {r : ExecutionRequest} {reason : String} :
      w.workers k = .reporting r (.failed reason) →
      Step w (.looked k r (w.isCanceled r.id)) (w.put k (.failing r reason (w.isCanceled r.id)))
  | fail {k : Nat} {r : ExecutionRequest} {reason : String} {canceled : Bool} :
      w.workers k = .failing r reason canceled →
      Step w (.reported k r (w.concludeFailure r.id reason canceled).1)
        ((w.setQueue (w.concludeFailure r.id reason canceled).2).put k .idle)

inductive Runs (w₀ : WorkerWorld O) : WorkerHistory → WorkerWorld O → Prop where
  | start : Runs w₀ [] w₀
  | next {h : WorkerHistory} {w w' : WorkerWorld O} {e : WorkerEvent} : Runs w₀ h w →
      Step w e w' → Runs w₀ (e :: h) w'

theorem Runs.trans {w₀ w w' : WorkerWorld O} {h h' : WorkerHistory} (hrun : Runs w₀ h w)
    (hlater : Runs w h' w') : Runs w₀ (h' ++ h) w' := by
  induction hlater with
  | start => exact hrun
  | next _ hstep ih => exact ih.next hstep

theorem Runs.single {w w' : WorkerWorld O} {e : WorkerEvent} (hstep : Step w e w') :
    Runs w [e] w' :=
  .next .start hstep

variable {w w' : WorkerWorld O} {e : WorkerEvent} {k k' : Nat} {id : String}
  {r : ExecutionRequest} {record : ExecutionRecord} {state : WorkerState O.State}

@[simp] theorem workers_put_self (w : WorkerWorld O) (k : Nat) (state : WorkerState O.State) :
    (w.put k state).workers k = state := Function.update_self ..

theorem workers_put_of_ne (w : WorkerWorld O) (state : WorkerState O.State) (hne : k' ≠ k) :
    (w.put k state).workers k' = w.workers k' := Function.update_of_ne hne ..

@[simp] theorem record?_put (w : WorkerWorld O) (k : Nat) (state : WorkerState O.State) :
    (w.put k state).record? id = w.record? id := rfl

@[simp] theorem record?_setQueue (w : WorkerWorld O) (queue : QueueWorld) :
    (w.setQueue queue).record? id = queue.queue.record? id := rfl

theorem status?_eq (w : WorkerWorld O) (id : String) :
    w.status? id = (w.record? id).map (·.status) := rfl

theorem isCanceled_eq (w : WorkerWorld O) (id : String) :
    w.isCanceled id = (w.record? id).any (·.canceled) := rfl

/-! ## One step -/

/-- The second access of the report of a failure sets the status of a request that is dequeued, and
changes nothing otherwise. -/
theorem concludeFailure_cases (w : WorkerWorld O) (id reason : String) (canceled : Bool) :
    (∃ error, w.concludeFailure id reason canceled = (.refused error, w.queue)) ∨
      ∃ record, w.record? id = some record ∧ record.status = .dequeued ∧
        w.concludeFailure id reason canceled =
          (.done, w.queue.setRecord id
            { record with
              status := if canceled then .canceled else .failed
              failure := some reason }) := by
  rw [concludeFailure]
  obtain ⟨error, h⟩ | ⟨record, hrecord, hstatus, h⟩ := w.queue.queue.finish_cases id
    (if canceled then .canceled else .failed) (some reason)
  · rw [h]
    exact .inl ⟨error, rfl⟩
  · rw [h]
    exact .inr ⟨record, hrecord, hstatus, rfl⟩

/-- What an event leaves of the record of a request: only those events cancel its token that are
said to, and one that does not wait keeps its status unless its own worker comes to it. -/
structure Leaves (e : WorkerEvent) (id : String) (record record' : ExecutionRecord) : Prop where
  canceled : record'.canceled = true ↔ record.canceled = true ∨ e.Cancels id
  status : record.status ≠ .pending → e.about ≠ some id →
    record'.status = record.status ∧ record'.failure = record.failure

/-- An event that does not touch the record. -/
theorem leaves_same (hrecord : w'.record? id = some record) (hnever : ¬e.Cancels id) :
    ∃ record', w'.record? id = some record' ∧ Leaves e id record record' :=
  ⟨record, hrecord, ⟨.inl, fun h => h.resolve_right hnever⟩, fun _ _ => ⟨rfl, rfl⟩⟩

/-- An event that is a call of the queue. -/
theorem leaves_perform (hrecord : w.record? id = some record) (a : QueueAction)
    (hcancels : (w.queue.perform a).1.Cancels a id ↔ e.Cancels id)
    (hreports : e.about ≠ some id → a ≠ .complete id ∧ ∀ reason, a ≠ .fail id reason) :
    ∃ record', (w.queue.perform a).2.queue.record? id = some record' ∧
      Leaves e id record record' := by
  obtain ⟨record', hrecord', hchange⟩ :=
    (QueueWorld.step_perform w.queue a).recordStep hrecord
  refine ⟨record', hrecord', ?_, fun hstatus habout => ?_⟩
  · rw [hchange.canceled_iff, hcancels]
  · exact hchange.kept hstatus (hreports habout).1 (hreports habout).2

/-- Who cancels the token of a request that is known cancels it. -/
theorem cancels_cancelToken (hrecord : w.record? id = some record) (id' : String) :
    (w.queue.perform (.cancelToken id')).1.Cancels (.cancelToken id') id ↔ id' = id := by
  refine ⟨fun h => by simpa using h.1, ?_⟩
  rintro rfl
  exact ⟨.inr rfl, congrArg (fun known => QueueReply.canceled (Option.isSome known)) hrecord⟩

/-- Asking for a request cancels and reports nothing. -/
theorem leaves_take (hrecord : w.record? id = some record) (k : Nat) (hnever : ¬e.Cancels id) :
    ∃ record', (w.queue.perform (.take k)).2.queue.record? id = some record' ∧
      Leaves e id record record' :=
  leaves_perform hrecord (.take k) (iff_of_false (by simp [QueueReply.Cancels]) hnever)
    fun _ => by simp

/-- Cancelling the token of a request changes nothing else. -/
theorem leaves_cancelToken (hrecord : w.record? id = some record) (id' : String)
    (hcancels : e.Cancels id ↔ id' = id) :
    ∃ record', (w.queue.perform (.cancelToken id')).2.queue.record? id = some record' ∧
      Leaves e id record record' :=
  leaves_perform hrecord (.cancelToken id') ((cancels_cancelToken hrecord id').trans hcancels.symm)
    fun _ => by simp

theorem Step.leaves (hstep : Step w e w') (hrecord : w.record? id = some record) :
    ∃ record', w'.record? id = some record' ∧ Leaves e id record record' := by
  cases hstep with
  | @others a hopen =>
    refine leaves_perform hrecord a .rfl fun _ => ⟨?_, ?_⟩
    · rintro rfl
      exact hopen
    · rintro reason rfl
      exact hopen
  | ask _ _ _ _ => exact leaves_take hrecord _ fun h => h
  | take _ _ => exact leaves_take hrecord _ fun h => h
  | cancel _ _ => exact leaves_cancelToken hrecord _ .rfl
  | interrupt _ _ => exact leaves_cancelToken hrecord _ (and_iff_left rfl)
  | @complete k r _ =>
    refine leaves_perform hrecord (.complete r.id)
      (iff_of_false (by simp [QueueReply.Cancels]) fun h => h) fun habout => ⟨?_, by simp⟩
    rintro ⟨⟩
    exact habout rfl
  | @fail k r reason canceled _ =>
    obtain ⟨error, hrefused⟩ | ⟨old, hold, -, hdone⟩ :=
      w.concludeFailure_cases r.id reason canceled
    · rw [hrefused]
      exact leaves_same hrecord fun h => h
    · rw [hdone]
      by_cases hid : r.id = id
      · subst hid
        rw [hrecord] at hold
        cases hold
        exact ⟨_, QueueWorld.record?_setRecord_self .., ⟨.inl, fun h => h.resolve_right fun h => h⟩,
          fun _ habout => (habout rfl).elim⟩
      · refine leaves_same ?_ fun h => h
        exact (QueueWorld.record?_setRecord ..).trans ((if_neg hid).trans hrecord)
  | result _ _ => exact leaves_same hrecord fun h => Bool.false_ne_true h.2
  | _ => exact leaves_same hrecord fun h => h

/-- How an event changes the state of one worker. -/
inductive Moves {S : Type} (k : Nat) : WorkerState S → WorkerEvent → WorkerState S → Prop where
  | stay {state : WorkerState S} {e : WorkerEvent} : e.mover? ≠ some k → Moves k state e state
  | start : Moves k .absent (.started k) .idle
  | leave : Moves k .idle (.returned k) .returned
  | take {r : ExecutionRequest} : Moves k .idle (.took k r) (.holding r)
  | hand {r : ExecutionRequest} {s : S} : Moves k (.holding r) (.handed k r) (.running r s)
  | work {r : ExecutionRequest} {s s' : S} {e : WorkerEvent} : e.mover? = none → e.about = none →
      Moves k (.running r s) e (.running r s')
  | result {r : ExecutionRequest} {s : S} {result : ExecutionResult} {interrupted : Bool} :
      Moves k (.running r s) (.resulted k r result interrupted) (.reporting r result)
  | complete {r : ExecutionRequest} {reply : QueueReply} :
      Moves k (.reporting r .succeeded) (.reported k r reply) .idle
  | look {r : ExecutionRequest} {reason : String} {canceled : Bool} :
      Moves k (.reporting r (.failed reason)) (.looked k r canceled) (.failing r reason canceled)
  | fail {r : ExecutionRequest} {reason : String} {canceled : Bool} {reply : QueueReply} :
      Moves k (.failing r reason canceled) (.reported k r reply) .idle

theorem moves_put {k₀ : Nat} (hmine : Moves k₀ (w.workers k₀) e state)
    (hmover : e.mover? = none ∨ e.mover? = some k₀) (k : Nat) :
    Moves k (w.workers k) e ((w.put k₀ state).workers k) := by
  by_cases hk : k = k₀
  · subst hk
    rwa [workers_put_self]
  · rw [workers_put_of_ne w state hk]
    refine .stay fun hmine => ?_
    rcases hmover with hnone | hother
    · rw [hnone] at hmine
      cases hmine
    · rw [hother] at hmine
      exact hk (Option.some.inj hmine).symm

theorem Step.moves (hstep : Step w e w') (k : Nat) :
    Moves k (w.workers k) e (w'.workers k) := by
  cases hstep with
  | others _ => exact .stay nofun
  | ask _ _ _ _ => exact .stay nofun
  | start hk => exact moves_put (hk ▸ .start) (.inl rfl) k
  | leave hk _ => exact moves_put (hk ▸ .leave) (.inl rfl) k
  | take hk _ => exact moves_put (hk ▸ .take) (.inr rfl) k
  | hand hk _ => exact moves_put (hk ▸ .hand) (.inr rfl) k
  | work hk _ => exact moves_put (hk ▸ .work rfl rfl) (.inl rfl) k
  | tell hk _ _ => exact moves_put (hk ▸ .work rfl rfl) (.inl rfl) k
  | cancel hk _ => exact moves_put (hk ▸ .work rfl rfl) (.inl rfl) k
  | result hk _ => exact moves_put (hk ▸ .result) (.inr rfl) k
  | interrupt hk _ => exact moves_put (hk ▸ .result) (.inr rfl) k
  | complete hk => exact moves_put (hk ▸ .complete) (.inr rfl) k
  | look hk => exact moves_put (hk ▸ .look) (.inr rfl) k
  | fail hk => exact moves_put (hk ▸ .fail) (.inr rfl) k

end WorkerWorld

end WorkflowEngine
