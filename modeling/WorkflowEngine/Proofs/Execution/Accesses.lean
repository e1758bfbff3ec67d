import WorkflowEngine.Proofs.Execution.Lifecycle

/-!
# Calls that overlap

A call to an execution queue is made of accesses. Each has the record or the channel to itself, and
between two accesses of one call there can be accesses of others. One who hands in a request looks
for a record, makes one and sends the request. One who reports a failure looks at the token and then
finishes. A stream looks at its own token, takes a request out of the channel, and then marks it.
All other calls are one access.

`SharedQueue` is a queue with the calls that are on their way, and `SharedQueue.Access` lists all
accesses. Calls that do not overlap do what `QueueWorld.perform` says (`accesses_of_runs`).
-/

namespace WorkflowEngine

/-- A report of a failure on its way, with what the look at the token has found. -/
structure FailureReport where
  id : String
  reason : String
  canceled : Bool
  deriving DecidableEq

def FailureReport.status (f : FailureReport) : ExecutionStatus :=
  if f.canceled then .canceled else .failed

structure SharedQueue where
  queue : ExecutionQueue := {}
  /-- The streams that were cancelled. -/
  stopped : List Nat := []
  /-- The requests for which no record was found, and none was made yet. -/
  looking : List ExecutionRequest := []
  /-- The requests that have a record and were not sent yet. -/
  sending : List ExecutionRequest := []
  /-- The stream that is at the channel. It has looked at its token. -/
  polling : Option Nat := none
  /-- What the streams have taken out of the channel and not marked yet. -/
  held : List (Nat × ExecutionRequest) := []
  failing : List FailureReport := []
  /-- The ids whose record was made anew. -/
  renewed : List String := []

inductive QueueEvent where
  | refused (e : ExecutionQueueError)
  /-- There is no record. -/
  | looked (r : ExecutionRequest)
  /-- The token of a request is cancelled before it has a record. -/
  | withdrawn (r : ExecutionRequest)
  | inserted (r : ExecutionRequest)
  /-- The record was made although by then there was one. -/
  | replaced (r : ExecutionRequest)
  | sent (r : ExecutionRequest)
  | ended (stream : Nat)
  | polled (stream : Nat)
  | waited (stream : Nat)
  | popped (stream : Nat) (r : ExecutionRequest)
  | marked (stream : Nat) (r : ExecutionRequest) (delivered : Bool)
  | stopped (stream : Nat)
  | canceled (id : String) (found : Bool)
  /-- The token of a request that has a record is cancelled. -/
  | tokenCanceled (id : String)
  | completed (id : String)
  | saw (id : String) (canceled : Bool)
  | failed (id : String) (canceled : Bool)
  deriving DecidableEq

/-- What happened, the latest first. -/
abbrev QueueLog := List QueueEvent

namespace QueueEvent

/-- The call was turned down, or there was nothing to cancel. -/
def IsRefusal : QueueEvent → Prop
  | refused _ => True
  | canceled _ found => found = false
  | _ => False

/-- The request that a stream marked, if one did. -/
def markedBy : QueueEvent → List (Nat × ExecutionRequest)
  | marked stream r _ => [(stream, r)]
  | _ => []

/-- The token of a request that has a record was cancelled. -/
def Cancels (e : QueueEvent) (id : String) : Prop := e = .canceled id true ∨ e = .tokenCanceled id

instance {e : QueueEvent} {id : String} : Decidable (e.Cancels id) :=
  inferInstanceAs (Decidable (_ ∨ _))

end QueueEvent

namespace SharedQueue

/-- One access: what happens, and what comes of it. -/
inductive Access (w : SharedQueue) : QueueEvent → SharedQueue → Prop where
  | known {r : ExecutionRequest} {record : ExecutionRecord} :
      w.queue.record? r.id = some record → Access w (.refused (.alreadyEnqueued r.id)) w
  | look {r : ExecutionRequest} : w.queue.record? r.id = none →
      Access w (.looked r) { w with looking := r :: w.looking }
  | withdraw {r : ExecutionRequest} : r ∈ w.looking →
      Access w (.withdrawn r)
        { w with looking := { r with canceled := true } :: w.looking.erase r }
  | insert {r : ExecutionRequest} : r ∈ w.looking → w.queue.record? r.id = none →
      Access w (.inserted r)
        { w with
          queue := w.queue.setRecord r.id { canceled := r.canceled }
          looking := w.looking.erase r
          sending := r :: w.sending }
  | replace {r : ExecutionRequest} {record : ExecutionRecord} : r ∈ w.looking →
      w.queue.record? r.id = some record →
      Access w (.replaced r)
        { w with
          queue := w.queue.setRecord r.id { canceled := r.canceled }
          looking := w.looking.erase r
          sending := r :: w.sending
          renewed := r.id :: w.renewed }
  | send {r : ExecutionRequest} : r ∈ w.sending →
      Access w (.sent r)
        { w with
          queue := { w.queue with channel := w.queue.channel ++ [r] }
          sending := w.sending.erase r }
  | end {stream : Nat} : stream ∈ w.stopped → Access w (.ended stream) w
  /-- One stream at a time is at the channel, and it has marked what it took before. -/
  | poll {stream : Nat} : stream ∉ w.stopped → w.polling = none →
      (∀ r, (stream, r) ∉ w.held) → Access w (.polled stream) { w with polling := some stream }
  | wait {stream : Nat} : w.polling = some stream →
      Access w (.waited stream) { w with polling := none }
  | pop {stream : Nat} {r : ExecutionRequest} {queue : ExecutionQueue} :
      w.polling = some stream → w.queue.pop? = some (r, queue) →
      Access w (.popped stream r)
        { w with queue, polling := none, held := (stream, r) :: w.held }
  | mark {stream : Nat} {r : ExecutionRequest} : (stream, r) ∈ w.held →
      Access w (.marked stream r (w.queue.mark r).1)
        { w with queue := (w.queue.mark r).2, held := w.held.erase (stream, r) }
  /-- Where the record was made anew, its token need not be the one of the request. -/
  | markAmiss {stream : Nat} {r : ExecutionRequest} {record : ExecutionRecord} (canceled : Bool) :
      (stream, r) ∈ w.held → r.id ∈ w.renewed → w.queue.record? r.id = some record →
      record.status = .pending →
      Access w (.marked stream r !canceled)
        { w with
          queue := w.queue.setRecord r.id
            { record with status := if canceled then .canceled else .dequeued }
          held := w.held.erase (stream, r) }
  | stop (stream : Nat) : Access w (.stopped stream) { w with stopped := stream :: w.stopped }
  | cancel (id : String) :
      Access w (.canceled id (w.queue.cancel id).1) { w with queue := (w.queue.cancel id).2 }
  | cancelToken {id : String} {record : ExecutionRecord} : w.queue.record? id = some record →
      Access w (.tokenCanceled id) { w with queue := w.queue.cancelToken id }
  | complete {id : String} {queue : ExecutionQueue} : w.queue.complete id = .ok queue →
      Access w (.completed id) { w with queue }
  | refuseToComplete {id : String} {e : ExecutionQueueError} : w.queue.complete id = .error e →
      Access w (.refused e) w
  | see (id reason : String) :
      Access w (.saw id (w.queue.isCanceled id))
        { w with failing := ⟨id, reason, w.queue.isCanceled id⟩ :: w.failing }
  | fail {f : FailureReport} {queue : ExecutionQueue} : f ∈ w.failing →
      w.queue.finish f.id f.status (some f.reason) = .ok queue →
      Access w (.failed f.id f.canceled) { w with queue, failing := w.failing.erase f }
  | refuseToFail {f : FailureReport} {e : ExecutionQueueError} : f ∈ w.failing →
      w.queue.finish f.id f.status (some f.reason) = .error e →
      Access w (.refused e) { w with failing := w.failing.erase f }

/-- The second queue comes from the first one by what the log tells. -/
inductive Accesses (w₀ : SharedQueue) : QueueLog → SharedQueue → Prop where
  | start : Accesses w₀ [] w₀
  | next {h : QueueLog} {w w' : SharedQueue} {e : QueueEvent} : Accesses w₀ h w →
      Access w e w' → Accesses w₀ (e :: h) w'

variable {w₀ w w' : SharedQueue} {h h' : QueueLog} {e : QueueEvent}

theorem Access.single (h : Access w e w') : Accesses w [e] w' := .next .start h

theorem Accesses.trans (hrun : Accesses w₀ h w) (hlater : Accesses w h' w') :
    Accesses w₀ (h' ++ h) w' := by
  induction hlater with
  | start => exact hrun
  | next _ haccess ih => exact ih.next haccess

/-- No enqueue made a record anew. When one does, it overlaps with another of the same id. -/
def Undisputed (h : QueueLog) (id : String) : Prop := ∀ r, .replaced r ∈ h → r.id ≠ id

theorem undisputed_append {id : String} (hleft : Undisputed h id) (hright : Undisputed h' id) :
    Undisputed (h ++ h') id :=
  fun r hr => (List.mem_append.mp hr).elim (hleft r) (hright r)

theorem Undisputed.head {id : String} (hall : Undisputed (e :: h) id) :
    ∀ r, e = .replaced r → r.id ≠ id :=
  fun r hr => hall r (hr ▸ List.mem_cons_self)

theorem Undisputed.tail {id : String} (hall : Undisputed (e :: h) id) : Undisputed h id :=
  fun r hr => hall r (List.mem_cons_of_mem _ hr)

/-! ## Calls that do not overlap -/

theorem accesses_enqueue (w : SharedQueue) (r : ExecutionRequest)
    (hnone : w.queue.record? r.id = none) :
    Accesses w [.sent r, .inserted r, .looked r]
      { w with queue := {
          w.queue.setRecord r.id { canceled := r.canceled } with
          channel := w.queue.channel ++ [r] } } := by
  have hlook : Access w (.looked r) { w with looking := r :: w.looking } := .look hnone
  have hsend := (hlook.single.next (.insert (.head _) hnone)).next (.send (.head _))
  rwa [List.erase_cons_head, List.erase_cons_head] at hsend

end SharedQueue

namespace QueueWorld

open SharedQueue (Access Accesses Undisputed)

/-- No call is on its way. -/
def shared (w : QueueWorld) : SharedQueue := { queue := w.queue, stopped := w.stopped }

variable {w : QueueWorld} {h : QueueHistory}

theorem accesses_enqueue (w : QueueWorld) (r : ExecutionRequest) :
    ∃ log, Accesses w.shared log (w.perform (.enqueue r)).2.shared ∧
      ∀ id, Undisputed log id := by
  rw [perform, ExecutionQueue.enqueue]
  cases hrecord : w.queue.record? r.id with
  | some record => exact ⟨_, (Access.known hrecord).single, by simp [Undisputed]⟩
  | none => exact ⟨_, w.shared.accesses_enqueue r hrecord, by simp [Undisputed]⟩

theorem accesses_take (w : QueueWorld) (stream : Nat) :
    ∃ log, Accesses w.shared log (w.perform (.take stream)).2.shared ∧
      ∀ id, Undisputed log id := by
  rw [perform]
  split
  · rename_i hstopped
    have hend : Access w.shared (.ended stream) _ := .end hstopped
    exact ⟨_, hend.single, by simp [Undisputed]⟩
  · rename_i hstopped
    have hpoll : Access w.shared (.polled stream) _ :=
      .poll hstopped rfl fun _ => List.not_mem_nil
    rw [ExecutionQueue.takeNext?]
    cases hpop : w.queue.pop? with
    | none =>
      have hwait : Access { w.shared with polling := some stream } (.waited stream) w.shared :=
        .wait rfl
      exact ⟨_, hpoll.single.next hwait, by simp [Undisputed]⟩
    | some taken =>
      obtain ⟨r, queue⟩ := taken
      have hmark : Accesses w.shared
          [.marked stream r (queue.mark r).1, .popped stream r, .polled stream]
          { w.shared with queue := (queue.mark r).2 } := by
        have hlast := (hpoll.single.next (.pop rfl hpop)).next (.mark (.head _))
        rwa [List.erase_cons_head] at hlast
      rw [Option.map_some]
      dsimp only
      generalize queue.mark r = result at hmark ⊢
      obtain ⟨delivered, marked⟩ := result
      cases delivered <;> exact ⟨_, hmark, by simp [Undisputed]⟩

theorem accesses_complete (w : QueueWorld) (id : String) :
    ∃ log, Accesses w.shared log (w.perform (.complete id)).2.shared ∧
      ∀ id, Undisputed log id := by
  rw [perform]
  cases hcomplete : w.queue.complete id with
  | error e =>
    have haccess : Access w.shared (.refused e) _ := .refuseToComplete hcomplete
    exact ⟨_, haccess.single, by simp [Undisputed]⟩
  | ok queue =>
    have haccess : Access w.shared (.completed id) _ := .complete hcomplete
    exact ⟨_, haccess.single, by simp [Undisputed]⟩

theorem accesses_fail (w : QueueWorld) (id reason : String) :
    ∃ log, Accesses w.shared log (w.perform (.fail id reason)).2.shared ∧
      ∀ id, Undisputed log id := by
  have hsee : Access w.shared _ _ := .see id reason
  rw [perform]
  cases hfail : w.queue.fail id reason with
  | error e =>
    have hlast := hsee.single.next (.refuseToFail (.head _) hfail)
    rw [List.erase_cons_head] at hlast
    exact ⟨_, hlast, by simp [Undisputed]⟩
  | ok queue =>
    have hlast := hsee.single.next (.fail (.head _) hfail)
    rw [List.erase_cons_head] at hlast
    exact ⟨_, hlast, by simp [Undisputed]⟩

/-- With no access of others in between, the accesses of a call do what the call does. -/
theorem accesses_perform (w : QueueWorld) (a : QueueAction) :
    ∃ log, Accesses w.shared log (w.perform a).2.shared ∧ ∀ id, Undisputed log id := by
  cases a with
  | enqueue r => exact w.accesses_enqueue r
  | take stream => exact w.accesses_take stream
  | stop stream =>
    have haccess : Access w.shared (.stopped stream) _ := .stop stream
    exact ⟨_, haccess.single, by simp [Undisputed]⟩
  | cancel id =>
    have haccess : Access w.shared _ _ := .cancel id
    exact ⟨_, haccess.single, by simp [Undisputed]⟩
  | cancelToken id =>
    cases hrecord : w.queue.record? id with
    | none =>
      refine ⟨[], ?_, by simp [Undisputed]⟩
      rw [perform, ExecutionQueue.cancelToken, hrecord]
      exact .start
    | some record =>
      have haccess : Access w.shared (.tokenCanceled id) _ := .cancelToken hrecord
      exact ⟨_, haccess.single, by simp [Undisputed]⟩
  | complete id => exact w.accesses_complete id
  | fail id reason => exact w.accesses_fail id reason

/-- A run in which calls do not overlap is a run of accesses. -/
theorem accesses_of_runs {w₀ : QueueWorld} (hrun : Runs w₀ h w) :
    ∃ log, Accesses w₀.shared log w.shared ∧ ∀ id, Undisputed log id := by
  induction hrun with
  | start => exact ⟨[], .start, by simp [Undisputed]⟩
  | @next _ w a _ ih =>
    obtain ⟨log, hlog, hundisputed⟩ := ih
    obtain ⟨more, hmore, hundisputed'⟩ := w.accesses_perform a
    exact ⟨more ++ log, hlog.trans hmore,
      fun id => SharedQueue.undisputed_append (hundisputed' id) (hundisputed id)⟩

end QueueWorld

end WorkflowEngine
