import WorkflowEngine.Execution.Queue
import WorkflowEngine.Proofs.Fields

/-!
# A queue with its streams and its clients

Everything that can be done to an execution queue, in any order of the parties, when calls do not
overlap: a call is one step. A stream takes entries out of the channel, one in each step, until one
of them is delivered; others may come between two of them (`QueueWorld.dequeue_runs`).

`QueueWorld.Step` lists all that a step can do and when, and `QueueWorld.step_perform` says that
nothing else happens.
-/

namespace WorkflowEngine

namespace ExecutionQueue

variable {q q' : ExecutionQueue} {id : String}

@[simp] theorem record?_setRecord (q : ExecutionQueue) (id id' : String)
    (record : ExecutionRecord) :
    (q.setRecord id record).record? id' = if id = id' then some record else q.record? id' :=
  Fields.find?_insert ..

theorem record?_of_records (h : q'.records = q.records) : q'.record? id = q.record? id :=
  congrArg (Fields.find? id) h

theorem record?_setRecord_self (q : ExecutionQueue) (id : String) (record : ExecutionRecord) :
    (q.setRecord id record).record? id = some record := by
  rw [record?_setRecord, if_pos rfl]

theorem status?_of_record? {record : ExecutionRecord} (h : q.record? id = some record) :
    q.status? id = some record.status := by
  rw [status?, h]
  rfl

/-- Takes the oldest entry out of the channel. -/
def pop? (q : ExecutionQueue) : Option (ExecutionRequest × ExecutionQueue) :=
  match q.channel with
  | [] => none
  | r :: rest => some (r, { q with channel := rest })

/-- Marks the record of a request that was taken out, and tells whether it is delivered. -/
def mark (q : ExecutionQueue) (r : ExecutionRequest) : Bool × ExecutionQueue :=
  let (delivered, records) := markTaken q.records r
  (delivered, { q with records })

/-- The entry that is taken out of the channel next, and whether it is delivered. -/
def takeNext? (q : ExecutionQueue) : Option (ExecutionRequest × Bool × ExecutionQueue) :=
  q.pop?.map fun (r, q) => (r, q.mark r)

theorem enqueue_cases (q : ExecutionQueue) (r : ExecutionRequest) :
    (∃ e, q.enqueue r = .error e) ∨
      q.record? r.id = none ∧ q.enqueue r =
        .ok { q.setRecord r.id { canceled := r.canceled } with channel := q.channel ++ [r] } := by
  rw [enqueue]
  cases h : q.record? r.id with
  | none => exact .inr ⟨rfl, rfl⟩
  | some record => exact .inl ⟨_, rfl⟩

theorem finish_cases (q : ExecutionQueue) (id : String) (status : ExecutionStatus)
    (failure : Option String) :
    (∃ e, q.finish id status failure = .error e) ∨
      ∃ record, q.record? id = some record ∧ record.status = .dequeued ∧
        q.finish id status failure = .ok (q.setRecord id { record with status, failure }) := by
  rw [finish]
  cases h : q.record? id with
  | none => exact .inl ⟨_, rfl⟩
  | some record =>
    by_cases hstatus : record.status = .dequeued
    · exact .inr ⟨record, rfl, hstatus, by simp [hstatus]⟩
    · exact .inl ⟨_, by simp [hstatus]; rfl⟩

theorem finish_ok {status : ExecutionStatus} {failure : Option String}
    (h : q.finish id status failure = .ok q') :
    ∃ record, q.record? id = some record ∧ record.status = .dequeued ∧
      q' = q.setRecord id { record with status, failure } := by
  obtain ⟨e, herror⟩ | ⟨record, hrecord, hstatus, hset⟩ := q.finish_cases id status failure
  · rw [herror] at h
    cases h
  · rw [hset] at h
    cases h
    exact ⟨record, hrecord, hstatus, rfl⟩

theorem cancel_cases (q : ExecutionQueue) (id : String) :
    q.cancel id = (false, q) ∨
      ∃ record, q.record? id = some record ∧
        (record.status = .pending ∧ q.cancel id =
            (true, q.setRecord id { record with status := .canceled, canceled := true }) ∨
          record.status = .dequeued ∧ q.cancel id =
            (true, q.setRecord id { record with canceled := true })) := by
  rw [cancel]
  cases h : q.record? id with
  | none => exact .inl rfl
  | some record =>
    dsimp only
    split
    · rename_i hstatus
      exact .inr ⟨record, rfl, .inl ⟨hstatus, rfl⟩⟩
    · rename_i hstatus
      exact .inr ⟨record, rfl, .inr ⟨hstatus, rfl⟩⟩
    · exact .inl rfl

theorem takeNext?_of_channel {r : ExecutionRequest} {rest : List ExecutionRequest}
    (h : q.channel = r :: rest) : q.takeNext? = some (r, (markTaken q.records r).1,
      { records := (markTaken q.records r).2, channel := rest }) := by
  rw [takeNext?, pop?, h]
  rfl

/-- A request whose record does not wait any more is passed over; one that waits is delivered, or
canceled if its token is. -/
theorem mark_cases (q : ExecutionQueue) (r : ExecutionRequest) :
    (∀ record, q.record? r.id = some record → record.status ≠ .pending) ∧ q.mark r = (false, q) ∨
      ∃ record, q.record? r.id = some record ∧ record.status = .pending ∧
        (record.canceled = true ∧
            q.mark r = (false, q.setRecord r.id { record with status := .canceled }) ∨
          record.canceled = false ∧
            q.mark r = (true, q.setRecord r.id { record with status := .dequeued })) := by
  have hfind : q.records.find? r.id = q.record? r.id := rfl
  rw [mark, markTaken, hfind]
  cases hrecord : q.record? r.id with
  | none => exact .inl ⟨nofun, rfl⟩
  | some record =>
    by_cases hstatus : record.status = .pending
    · refine .inr ⟨record, rfl, hstatus, ?_⟩
      cases hcanceled : record.canceled with
      | true => exact .inl ⟨rfl, by simp [hstatus, hcanceled, setRecord]⟩
      | false => exact .inr ⟨rfl, by simp [hstatus, hcanceled, setRecord]⟩
    · refine .inl ⟨fun record' h => ?_, by simp [hstatus]⟩
      cases h
      exact hstatus

theorem cancel_channel (q : ExecutionQueue) (id : String) :
    (q.cancel id).2.channel = q.channel := by
  obtain h | ⟨record, -, ⟨-, h⟩ | ⟨-, h⟩⟩ := q.cancel_cases id <;> rw [h] <;> rfl

theorem cancelToken_channel (q : ExecutionQueue) (id : String) :
    (q.cancelToken id).channel = q.channel := by
  rw [cancelToken]
  split <;> rfl

theorem pop?_eq {r : ExecutionRequest} (h : q.pop? = some (r, q')) :
    q.channel = r :: q'.channel ∧ q'.records = q.records := by
  rw [pop?] at h
  split at h
  · cases h
  · rename_i hchannel
    cases h
    exact ⟨hchannel, rfl⟩

theorem takeNext?_cases (q : ExecutionQueue) :
    (q.channel = [] ∧ q.takeNext? = none) ∨
      ∃ r rest, q.channel = r :: rest ∧
        ((∀ record, q.record? r.id = some record → record.status ≠ .pending) ∧
            q.takeNext? = some (r, false, { q with channel := rest }) ∨
          ∃ record, q.record? r.id = some record ∧ record.status = .pending ∧
            (record.canceled = true ∧ q.takeNext? = some (r, false,
                { q.setRecord r.id { record with status := .canceled } with channel := rest }) ∨
              record.canceled = false ∧ q.takeNext? = some (r, true,
                { q.setRecord r.id { record with status := .dequeued } with
                  channel := rest }))) := by
  rw [takeNext?, pop?]
  cases hchannel : q.channel with
  | nil => exact .inl ⟨rfl, rfl⟩
  | cons r rest =>
    refine .inr ⟨r, rest, rfl, ?_⟩
    obtain ⟨hnot, h⟩ | ⟨record, hrecord, hstatus, ⟨hcanceled, h⟩ | ⟨hcanceled, h⟩⟩ :=
      mark_cases { q with channel := rest } r
    · exact .inl ⟨hnot, congrArg (fun x => some (r, x)) h⟩
    · exact .inr ⟨record, hrecord, hstatus, .inl ⟨hcanceled, congrArg (fun x => some (r, x)) h⟩⟩
    · exact .inr ⟨record, hrecord, hstatus, .inr ⟨hcanceled, congrArg (fun x => some (r, x)) h⟩⟩

end ExecutionQueue

inductive QueueAction where
  | enqueue (r : ExecutionRequest)
  /-- A stream asks for the next entry of the channel. -/
  | take (stream : Nat)
  /-- A stream is cancelled. -/
  | stop (stream : Nat)
  | cancel (id : String)
  /-- The one who submitted a request cancels its token. -/
  | cancelToken (id : String)
  | complete (id : String)
  | fail (id reason : String)
  deriving DecidableEq

inductive QueueReply where
  | done
  | refused (e : ExecutionQueueError)
  /-- Whether there was something to cancel. -/
  | canceled (found : Bool)
  | delivered (r : ExecutionRequest)
  /-- The request was taken out of the channel and not delivered. -/
  | skipped (r : ExecutionRequest)
  | waiting
  | ended
  deriving DecidableEq

namespace QueueReply

/-- The call was turned down, or there was nothing to cancel. -/
def IsRefusal : QueueReply → Prop
  | refused _ => True
  | canceled found => found = false
  | _ => False

/-- The request that was accepted, if one was. -/
def acceptedBy : QueueReply → QueueAction → List ExecutionRequest
  | done, .enqueue r => [r]
  | _, _ => []

/-- The request that was taken out of the channel, if one was. -/
def takenBy : QueueReply → List ExecutionRequest
  | delivered r => [r]
  | skipped r => [r]
  | _ => []

def deliveredBy : QueueReply → List ExecutionRequest
  | delivered r => [r]
  | _ => []

theorem deliveredBy_eq_nil (reply : QueueReply) (h : reply.takenBy = []) :
    reply.deliveredBy = [] := by
  cases reply with
  | delivered r => cases h
  | _ => rfl

/-- The call cancelled the token of a known request. -/
def Cancels (reply : QueueReply) (a : QueueAction) (id : String) : Prop :=
  (a = .cancel id ∨ a = .cancelToken id) ∧ reply = canceled true

instance {reply : QueueReply} {a : QueueAction} {id : String} : Decidable (reply.Cancels a id) :=
  inferInstanceAs (Decidable (_ ∧ _))

end QueueReply

structure QueueWorld where
  queue : ExecutionQueue := {}
  /-- The streams that were cancelled. -/
  stopped : List Nat := []

/-- What was done and what came of it, the latest first. -/
abbrev QueueHistory := List (QueueAction × QueueReply)

namespace QueueWorld

def conclude (w : QueueWorld) :
    Except ExecutionQueueError ExecutionQueue → QueueReply × QueueWorld
  | .error e => (.refused e, w)
  | .ok queue => (.done, { w with queue })

def perform (w : QueueWorld) : QueueAction → QueueReply × QueueWorld
  | .enqueue r => w.conclude (w.queue.enqueue r)
  | .take stream =>
    if stream ∈ w.stopped then (.ended, w)
    else
      match w.queue.takeNext? with
      | none => (.waiting, w)
      | some (r, true, queue) => (.delivered r, { w with queue })
      | some (r, false, queue) => (.skipped r, { w with queue })
  | .stop stream => (.done, { w with stopped := stream :: w.stopped })
  | .cancel id =>
    let (found, queue) := w.queue.cancel id
    (.canceled found, { w with queue })
  | .cancelToken id =>
    (.canceled (w.queue.record? id).isSome, { w with queue := w.queue.cancelToken id })
  | .complete id => w.conclude (w.queue.complete id)
  | .fail id reason => w.conclude (w.queue.fail id reason)

/-- The second world comes from the first one by what the history tells. -/
inductive Runs (w₀ : QueueWorld) : QueueHistory → QueueWorld → Prop where
  | start : Runs w₀ [] w₀
  | next {h : QueueHistory} {w : QueueWorld} (a : QueueAction) : Runs w₀ h w →
      Runs w₀ ((a, (w.perform a).1) :: h) (w.perform a).2

theorem Runs.trans {w₀ w w' : QueueWorld} {h h' : QueueHistory} (hrun : Runs w₀ h w)
    (hlater : Runs w h' w') : Runs w₀ (h' ++ h) w' := by
  induction hlater with
  | start => exact hrun
  | next a _ ih => exact ih.next a

def performAll (w : QueueWorld) : List QueueAction → QueueHistory × QueueWorld
  | [] => ([], w)
  | a :: actions =>
    let (h, w') := performAll (w.perform a).2 actions
    (h ++ [(a, (w.perform a).1)], w')

/-! ## All that a step can do -/

def setRecord (w : QueueWorld) (id : String) (record : ExecutionRecord) : QueueWorld :=
  { w with queue := w.queue.setRecord id record }

def setChannel (w : QueueWorld) (channel : List ExecutionRequest) : QueueWorld :=
  { w with queue := { w.queue with channel } }

inductive Step (w : QueueWorld) : QueueAction → QueueReply → QueueWorld → Prop where
  | accept {r : ExecutionRequest} : w.queue.record? r.id = none →
      Step w (.enqueue r) .done
        ((w.setRecord r.id { canceled := r.canceled }).setChannel (w.queue.channel ++ [r]))
  | refuse {a : QueueAction} {e : ExecutionQueueError} : Step w a (.refused e) w
  | ended {stream : Nat} : stream ∈ w.stopped → Step w (.take stream) .ended w
  | wait {stream : Nat} : stream ∉ w.stopped → w.queue.channel = [] →
      Step w (.take stream) .waiting w
  | pass {stream : Nat} {r : ExecutionRequest} {rest : List ExecutionRequest} :
      stream ∉ w.stopped → w.queue.channel = r :: rest →
      (∀ record, w.queue.record? r.id = some record → record.status ≠ .pending) →
      Step w (.take stream) (.skipped r) (w.setChannel rest)
  | skip {stream : Nat} {r : ExecutionRequest} {rest : List ExecutionRequest}
      {record : ExecutionRecord} : stream ∉ w.stopped → w.queue.channel = r :: rest →
      w.queue.record? r.id = some record → record.status = .pending → record.canceled = true →
      Step w (.take stream) (.skipped r)
        ((w.setRecord r.id { record with status := .canceled }).setChannel rest)
  | deliver {stream : Nat} {r : ExecutionRequest} {rest : List ExecutionRequest}
      {record : ExecutionRecord} : stream ∉ w.stopped → w.queue.channel = r :: rest →
      w.queue.record? r.id = some record → record.status = .pending → record.canceled = false →
      Step w (.take stream) (.delivered r)
        ((w.setRecord r.id { record with status := .dequeued }).setChannel rest)
  | stop (stream : Nat) : Step w (.stop stream) .done { w with stopped := stream :: w.stopped }
  | cancelNothing {a : QueueAction} : Step w a (.canceled false) w
  | cancelWaiting {id : String} {record : ExecutionRecord} : w.queue.record? id = some record →
      record.status = .pending → Step w (.cancel id) (.canceled true)
        (w.setRecord id { record with status := .canceled, canceled := true })
  | cancelRunning {id : String} {record : ExecutionRecord} : w.queue.record? id = some record →
      record.status = .dequeued → Step w (.cancel id) (.canceled true)
        (w.setRecord id { record with canceled := true })
  | cancelToken {id : String} {record : ExecutionRecord} : w.queue.record? id = some record →
      Step w (.cancelToken id) (.canceled true) (w.setRecord id { record with canceled := true })
  | complete {id : String} {record : ExecutionRecord} : w.queue.record? id = some record →
      record.status = .dequeued → Step w (.complete id) .done
        (w.setRecord id { record with status := .completed, failure := none })
  /-- A failure of a cancelled request is a cancellation. -/
  | fail {id reason : String} {record : ExecutionRecord} : w.queue.record? id = some record →
      record.status = .dequeued → Step w (.fail id reason) .done
        (w.setRecord id { record with
          status := if record.canceled then .canceled else .failed
          failure := some reason })

theorem step_perform (w : QueueWorld) (a : QueueAction) :
    Step w a (w.perform a).1 (w.perform a).2 := by
  cases a with
  | enqueue r =>
    rw [perform]
    obtain ⟨e, h⟩ | ⟨hnone, h⟩ := w.queue.enqueue_cases r <;> rw [h]
    · exact .refuse
    · exact .accept hnone
  | take stream =>
    rw [perform]
    split
    · rename_i hstopped
      exact .ended hstopped
    · rename_i hstopped
      obtain ⟨hchannel, h⟩ | ⟨r, rest, hchannel, hcases⟩ := w.queue.takeNext?_cases
      · rw [h]
        exact .wait hstopped hchannel
      · obtain ⟨hnot, h⟩ | ⟨record, hrecord, hstatus, ⟨hcanceled, h⟩ | ⟨hcanceled, h⟩⟩ := hcases <;>
          rw [h]
        · exact .pass hstopped hchannel hnot
        · exact .skip hstopped hchannel hrecord hstatus hcanceled
        · exact .deliver hstopped hchannel hrecord hstatus hcanceled
  | stop stream => exact .stop stream
  | cancel id =>
    rw [perform]
    obtain h | ⟨record, hrecord, ⟨hstatus, h⟩ | ⟨hstatus, h⟩⟩ := w.queue.cancel_cases id <;> rw [h]
    · exact .cancelNothing
    · exact .cancelWaiting hrecord hstatus
    · exact .cancelRunning hrecord hstatus
  | cancelToken id =>
    rw [perform, ExecutionQueue.cancelToken]
    cases hrecord : w.queue.record? id with
    | none => exact .cancelNothing
    | some record => exact .cancelToken hrecord
  | complete id =>
    rw [perform, ExecutionQueue.complete]
    obtain ⟨e, h⟩ | ⟨record, hrecord, hstatus, h⟩ := w.queue.finish_cases id .completed none <;>
      rw [h]
    · exact .refuse
    · exact .complete hrecord hstatus
  | fail id reason =>
    rw [perform, ExecutionQueue.fail]
    obtain ⟨e, h⟩ | ⟨record, hrecord, hstatus, h⟩ :=
      w.queue.finish_cases id (w.queue.failureStatus id) (some reason) <;> rw [h]
    · exact .refuse
    · rw [ExecutionQueue.failureStatus, ExecutionQueue.isCanceled, hrecord]
      exact .fail hrecord hstatus

@[simp] theorem record?_setRecord (w : QueueWorld) (id id' : String) (record : ExecutionRecord) :
    (w.setRecord id record).queue.record? id' =
      if id = id' then some record else w.queue.record? id' :=
  ExecutionQueue.record?_setRecord ..

theorem record?_setRecord_self (w : QueueWorld) (id : String) (record : ExecutionRecord) :
    (w.setRecord id record).queue.record? id = some record :=
  ExecutionQueue.record?_setRecord_self ..

@[simp] theorem record?_setChannel (w : QueueWorld) (channel : List ExecutionRequest)
    (id : String) : (w.setChannel channel).queue.record? id = w.queue.record? id := rfl

/-! ## Streams -/

theorem dequeue_eq (q : ExecutionQueue) :
    q.dequeue false =
      match q.takeNext? with
      | none => (.waiting, q)
      | some (r, true, q) => (.request r, q)
      | some (_, false, q) => q.dequeue false := by
  obtain ⟨records, channel⟩ := q
  cases channel with
  | nil => rfl
  | cons r rest =>
    rw [ExecutionQueue.takeNext?_of_channel rfl]
    simp only [ExecutionQueue.dequeue, ExecutionQueue.takeFrom]
    rcases ExecutionQueue.markTaken records r with ⟨delivered, records⟩
    cases delivered <;> rfl

/-- A stream that asks for its next request takes entries out of the channel one by one. The last
one is delivered and those before it are not; or none is left. -/
theorem dequeue_runs (w : QueueWorld) {stream : Nat} (hstream : stream ∉ w.stopped) :
    ∃ h, (∀ e ∈ h, e.1 = .take stream ∧ ∃ r, e.2 = .skipped r) ∧
      ((∃ r, (w.queue.dequeue false).1 = .request r ∧
          Runs w ((.take stream, .delivered r) :: h)
            { w with queue := (w.queue.dequeue false).2 }) ∨
        (w.queue.dequeue false).1 = .waiting ∧ (w.queue.dequeue false).2.channel = [] ∧
          Runs w h { w with queue := (w.queue.dequeue false).2 }) := by
  induction hlen : w.queue.channel.length generalizing w with
  | zero =>
    have hchannel := List.length_eq_zero_iff.mp hlen
    have hnone : w.queue.takeNext? = none := by
      rw [ExecutionQueue.takeNext?, ExecutionQueue.pop?, hchannel]
      rfl
    rw [dequeue_eq, hnone]
    exact ⟨[], nofun, .inr ⟨rfl, hchannel, .start⟩⟩
  | succ n ih =>
    have hrun : Runs w _ _ := Runs.start.next (.take stream)
    rw [perform, if_neg hstream] at hrun
    obtain ⟨r, rest, hchannel⟩ := List.exists_cons_of_length_eq_add_one hlen
    have hnext := ExecutionQueue.takeNext?_of_channel hchannel
    rw [dequeue_eq]
    rw [hnext] at hrun ⊢
    cases hdelivered : (ExecutionQueue.markTaken w.queue.records r).1 with
    | true =>
      rw [hdelivered] at hrun
      exact ⟨[], nofun, .inl ⟨r, rfl, hrun⟩⟩
    | false =>
      rw [hdelivered] at hrun
      have hshorter : rest.length = n := by rw [hchannel] at hlen; simpa using hlen
      obtain ⟨h, htakes, hends⟩ := ih { w with queue := {
        records := (ExecutionQueue.markTaken w.queue.records r).2
        channel := rest } } hstream hshorter
      refine ⟨h ++ [(.take stream, .skipped r)], fun e he => ?_, ?_⟩
      · rcases List.mem_append.mp he with he | he
        · exact htakes e he
        · cases List.mem_singleton.mp he
          exact ⟨rfl, r, rfl⟩
      · rcases hends with ⟨r', hr', hlater⟩ | ⟨hwaiting, hempty, hlater⟩
        · exact .inl ⟨r', hr', hrun.trans hlater⟩
        · exact .inr ⟨hwaiting, hempty, hrun.trans hlater⟩

end QueueWorld

end WorkflowEngine
