import Mathlib.Logic.Relation
import WorkflowEngine.Jobs.Service

/-!
# A queue with its consumer and its clients

All that can happen to a job queue with one consumer and any number of clients, one access at a time
and in any order (`JobWorld.Step`). One who hands in a job first makes a slot for it and then sends
it. One who asks for a result subscribes, reads it when it is there, gives up the slot and leaves;
while there is no result he may go away.

The consumer's accesses are those of `step?`, at any time. Where several things are ready for it at
once, it may take any of them first (`JobService.Move`): `step?` takes them in a fixed order
(`JobService.move_of_step?`). What a service does when time passes is such a sequence of steps
(`JobWorld.steps_settle`, `JobWorld.steps_advance`).
-/

namespace WorkflowEngine

namespace JobService

variable {s s' : JobService} {now : Nat}

/-- What the consumer can do next. A job can be begun, and can go on, although the consumer has been
told to stop, as long as it has not noticed; the token of the job is cancelled then. -/
inductive Move (s : JobService) (now : Nat) : JobService → Prop where
  | look : s.phase = .looking →
      Move s now
        { s with phase := if s.queue.paused then .pausing (now + s.pausePoll) else .waiting }
  | lookAgain {wake : Nat} : s.phase = .pausing wake → wake ≤ now →
      Move s now { s with phase := .looking }
  | stopPausing {wake : Nat} : s.phase = .pausing wake → s.shutdown → Move s now s.stop
  | stopWaiting : s.phase = .waiting → s.shutdown → Move s now s.stop
  | sweep : s.phase = .waiting → s.sweep.isDue now → Move s now (s.beginSweep now)
  | evict {time : Nat} {queue : JobQueue} : s.phase = .sweeping time →
      s.queue.sweepOldest? s.ttl time = some queue → Move s now { s with queue }
  | swept {time : Nat} : s.phase = .sweeping time → s.queue.sweepOldest? s.ttl time = none →
      Move s now { s with phase := .looking }
  | begin {job : Job} {queue : JobQueue} : s.phase = .waiting →
      s.queue.take? = some (job, queue) →
      Move s now { s with
        queue
        phase := .running job.id (job.work.settle now false).1 (job.work.settle now false).2
        started := s.started ++ [(job.id, now)] }
  | resume {id : String} {progress : Progress} {canceled : Bool} :
      s.phase = .running id progress canceled →
      Move s now { s with
        phase := .running id (progress.resume now (canceled || s.shutdown)).1
          (progress.resume now (canceled || s.shutdown)).2 }
  | finish {id : String} {o : Outcome} {canceled : Bool} :
      s.phase = .running id (.ended o) canceled →
      Move s now { s with phase := .writing id (jobResult id (canceled || s.shutdown) o) }
  | interrupt {id : String} {progress : Progress} {canceled : Bool} :
      s.phase = .running id progress canceled → s.shutdown →
      Move s now { s with phase := .writing id (.error (.canceled id)) }
  | write {id : String} {result : JobResult} {queue : JobQueue} : s.phase = .writing id result →
      s.queue.write? id result = some queue → Move s now { s with queue, phase := .noting id }
  | written {id : String} {result : JobResult} : s.phase = .writing id result →
      s.queue.write? id result = none → Move s now s.goOn
  | note {id : String} : s.phase = .noting id →
      Move s now { s with queue := s.queue.note id now }.goOn
  | drain {job : Job} {queue : JobQueue} : s.phase = .draining →
      s.queue.take? = some (job, queue) →
      Move s now { s with queue, phase := .writing job.id (.error (.canceled job.id)) }
  | drained : s.phase = .draining → s.queue.take? = none →
      Move s now { s with phase := .canceling (s.queue.slots.map (·.id)) [] }
  /-- The slots come in any order, and those that are made meanwhile may come too. -/
  | meet {todo canceled : List String} (id : String) : s.phase = .canceling todo canceled →
      Move s now { s with phase := .canceling (id :: todo) canceled }
  | cancel {id : String} {todo canceled : List String} {queue : JobQueue} :
      s.phase = .canceling (id :: todo) canceled →
      s.queue.write? id (.error (.canceled id)) = some queue →
      Move s now { s with queue, phase := .canceling todo (canceled ++ [id]) }
  | skip {id : String} {todo canceled : List String} :
      s.phase = .canceling (id :: todo) canceled →
      s.queue.write? id (.error (.canceled id)) = none →
      Move s now { s with phase := .canceling todo canceled }
  | canceled {canceled : List String} : s.phase = .canceling [] canceled →
      Move s now { s with phase := .notingAll canceled }
  | noteNext {id : String} {rest : List String} : s.phase = .notingAll (id :: rest) →
      Move s now { s with queue := s.queue.note id now, phase := .notingAll rest }
  | halt : s.phase = .notingAll [] → Move s now { s with phase := .stopped }

theorem move_of_work? {id : String} {progress : Progress} {canceled : Bool}
    (hphase : s.phase = .running id progress canceled) (hshutdown : s.shutdown = false)
    (h : s.work? id progress canceled now = some s') : s.Move now s' := by
  have hresume := @Move.resume s now id progress canceled hphase
  have htoken : (canceled || s.shutdown) = canceled := by rw [hshutdown, Bool.or_false]
  rw [htoken] at hresume
  cases progress with
  | ended o =>
    cases h
    have hfinish := @Move.finish s now id o canceled hphase
    rwa [htoken] at hfinish
  | _ =>
    simp only [work?] at h
    split at h
    · cases h
      exact hresume
    · cases h

theorem move_of_step? (h : s.step? now = some s') : s.Move now s' := by
  rw [step?] at h
  split at h
  · cases h
  · rename_i hphase
    cases h
    exact .look hphase
  · rename_i wake hphase
    split at h
    · rename_i hshutdown
      cases h
      exact .stopPausing hphase hshutdown
    · split at h
      · rename_i hwake
        cases h
        exact .lookAgain hphase hwake
      · cases h
  · rename_i hphase
    split at h
    · rename_i hshutdown
      cases h
      exact .stopWaiting hphase hshutdown
    · split at h
      · rename_i hdue
        cases h
        exact .sweep hphase hdue
      · rw [begin?] at h
        split at h
        · rename_i htake
          cases h
          exact .begin hphase htake
        · cases h
  · rename_i time hphase
    split at h
    · rename_i hsweep
      cases h
      exact .evict hphase hsweep
    · rename_i hsweep
      cases h
      exact .swept hphase hsweep
  · rename_i hphase
    split at h
    · rename_i hshutdown
      cases h
      exact .interrupt hphase hshutdown
    · rename_i hshutdown
      exact move_of_work? hphase (by simpa using hshutdown) h
  · rename_i hphase
    split at h
    · rename_i hwrite
      cases h
      exact .write hphase hwrite
    · rename_i hwrite
      cases h
      exact .written hphase hwrite
  · rename_i hphase
    cases h
    exact .note hphase
  · rename_i hphase
    split at h
    · rename_i htake
      cases h
      exact .drain hphase htake
    · rename_i htake
      cases h
      exact .drained hphase htake
  · rename_i hphase
    split at h
    · rename_i hwrite
      cases h
      exact .cancel hphase hwrite
    · rename_i hwrite
      cases h
      exact .skip hphase hwrite
  · rename_i hphase
    cases h
    exact .canceled hphase
  · rename_i hphase
    cases h
    exact .noteNext hphase
  · rename_i hphase
    cases h
    exact .halt hphase
  · cases h

/-! ## Moves from a phase -/

theorem Move.of_running {id : String} {progress : Progress} {canceled : Bool}
    (h : s.Move now s') (hphase : s.phase = .running id progress canceled) :
    s' = { s with
      phase := .running id (progress.resume now (canceled || s.shutdown)).1
        (progress.resume now (canceled || s.shutdown)).2 } ∨
    (∃ o, progress = .ended o ∧
      s' = { s with phase := .writing id (jobResult id (canceled || s.shutdown) o) }) ∨
    s.shutdown ∧ s' = { s with phase := .writing id (.error (.canceled id)) } := by
  cases h with
  | resume h =>
    cases hphase.symm.trans h
    exact .inl rfl
  | finish h =>
    cases hphase.symm.trans h
    exact .inr (.inl ⟨_, rfl, rfl⟩)
  | interrupt h hshutdown =>
    cases hphase.symm.trans h
    exact .inr (.inr ⟨hshutdown, rfl⟩)
  | _ => simp_all

theorem Move.of_writing {id : String} {r : JobResult} (h : s.Move now s')
    (hphase : s.phase = .writing id r) :
    (∃ queue, s.queue.write? id r = some queue ∧ s' = { s with queue, phase := .noting id }) ∨
      s.queue.write? id r = none ∧ s' = s.goOn := by
  cases h with
  | write h hwrite =>
    cases hphase.symm.trans h
    exact .inl ⟨_, hwrite, rfl⟩
  | written h hwrite =>
    cases hphase.symm.trans h
    exact .inr ⟨hwrite, rfl⟩
  | _ => simp_all

theorem Move.of_sweeping {time : Nat} (h : s.Move now s') (hphase : s.phase = .sweeping time) :
    (∃ queue, s.queue.sweepOldest? s.ttl time = some queue ∧ s' = { s with queue }) ∨
      s.queue.sweepOldest? s.ttl time = none ∧ s' = { s with phase := .looking } := by
  cases h with
  | evict h hsweep =>
    cases hphase.symm.trans h
    exact .inl ⟨_, hsweep, rfl⟩
  | swept h hsweep =>
    cases hphase.symm.trans h
    exact .inr ⟨hsweep, rfl⟩
  | _ => simp_all

theorem phase_goOn (s : JobService) : s.goOn.phase = .looking ∨ s.goOn.phase = .draining := by
  by_cases hopen : s.queue.isOpen <;> simp [goOn, hopen]

theorem goOn_phase_ne_absent (s : JobService) : s.goOn.phase ≠ .absent := by
  rcases s.phase_goOn with h | h <;> simp [h]

theorem Move.not_absent (h : s.Move now s') : s.phase ≠ .absent ∧ s'.phase ≠ .absent := by
  cases h with
  | look h =>
    refine ⟨by simp [h], ?_⟩
    dsimp only
    split <;> simp
  | written h _ => exact ⟨by simp [h], goOn_phase_ne_absent _⟩
  | note h => exact ⟨by simp [h], goOn_phase_ne_absent _⟩
  | _ => simp_all [stop, beginSweep]

theorem Move.not_stopped (h : s.Move now s') : s.phase ≠ .stopped := by
  cases h <;> simp_all

theorem Move.shutdown_eq (h : s.Move now s') : s'.shutdown = s.shutdown := by
  cases h <;> rfl

end JobService

inductive ResultCall where
  | waiting (id : String)
  /-- Has read the result. -/
  | holding (id : String) (result : JobResult)
  /-- Has given up the slot. -/
  | leaving (id : String) (result : JobResult)
  | returned (id : String) (result : JobResult)
  /-- Returned at once: the queue does not know the job. -/
  | unknown (id : String)
  /-- Went away before there was a result. -/
  | dropped (id : String)

def ResultCall.id : ResultCall → String
  | waiting id => id
  | holding id _ => id
  | leaving id _ => id
  | returned id _ => id
  | unknown id => id
  | dropped id => id

structure JobWorld where
  service : JobService
  now : Nat := 0
  /-- The jobs that have a slot and were not sent yet. -/
  registering : List Job := []
  /-- The jobs that were refused and whose slots were not given up yet. -/
  refused : List String := []
  /-- The jobs that were sent, in this order. -/
  accepted : List Job := []
  /-- All calls that ever asked for a result. -/
  calls : List ResultCall := []

namespace JobWorld

def ofSettings (settings : Settings) : JobWorld := { service := .ofSettings settings }

def queue (w : JobWorld) : JobQueue := w.service.queue

def setQueue (w : JobWorld) (queue : JobQueue) : JobWorld :=
  { w with service := { w.service with queue } }

def acceptedIds (w : JobWorld) : List String := w.accepted.map (·.id)

/-- The ids of the jobs that were begun, in this order. -/
def begunIds (w : JobWorld) : List String := w.service.started.map (·.1)

/-- Nobody is still handing in a job under that id. One who hands in a job learns its id when it has
been sent, and nobody else can guess it. -/
def GivenOut (w : JobWorld) (id : String) : Prop :=
  id ∉ w.registering.map (·.id) ∧ id ∉ w.refused

inductive Step : JobWorld → JobWorld → Prop where
  | pass {w : JobWorld} (now : Nat) : w.now ≤ now → Step w { w with now }
  | pause {w : JobWorld} : Step w (w.setQueue w.queue.pause)
  | resume {w : JobWorld} : Step w (w.setQueue w.queue.resume)
  | shutDown {w : JobWorld} : Step w { w with service := { w.service with shutdown := true } }
  | start {w : JobWorld} {service : JobService} : w.service.start w.now = .ok service →
      Step w { w with service }
  | consume {w : JobWorld} {service : JobService} : w.service.Move w.now service →
      Step w { w with service }
  /-- A job is handed in under a new id, which nobody has asked about. -/
  | register {w : JobWorld} (job : Job) : w.queue.slot? job.id = none →
      (∀ c ∈ w.calls, c.id ≠ job.id) →
      Step w { w.setQueue (w.queue.register job.id) with registering := w.registering ++ [job] }
  | send {w : JobWorld} {before after : List Job} {job : Job} {queue : JobQueue} :
      w.registering = before ++ job :: after → w.queue.send? job = some queue →
      Step w { w.setQueue queue with
        registering := before ++ after
        accepted := w.accepted ++ [job] }
  | refuse {w : JobWorld} {before after : List Job} {job : Job} :
      w.registering = before ++ job :: after → w.queue.send? job = none →
      Step w { w with registering := before ++ after, refused := job.id :: w.refused }
  | withdraw {w : JobWorld} {before after : List String} {id : String} :
      w.refused = before ++ id :: after →
      Step w { w.setQueue (w.queue.forget id) with refused := before ++ after }
  | ask {w : JobWorld} {id : String} {queue : JobQueue} : w.GivenOut id →
      w.queue.subscribe id = .ok queue →
      Step w { w.setQueue queue with calls := w.calls ++ [.waiting id] }
  | askUnknown {w : JobWorld} {id : String} {e : JobError} : w.GivenOut id →
      w.queue.subscribe id = .error e → Step w { w with calls := w.calls ++ [.unknown id] }
  | read {w : JobWorld} {k : Nat} {id : String} {result : JobResult} :
      w.calls[k]? = some (.waiting id) → w.queue.result? id = some result →
      Step w { w with calls := w.calls.set k (.holding id result) }
  | forget {w : JobWorld} {k : Nat} {id : String} {result : JobResult} :
      w.calls[k]? = some (.holding id result) →
      Step w { w.setQueue (w.queue.forget id) with calls := w.calls.set k (.leaving id result) }
  | leave {w : JobWorld} {k : Nat} {id : String} {result : JobResult} :
      w.calls[k]? = some (.leaving id result) →
      Step w { w.setQueue (w.queue.unsubscribe id) with
        calls := w.calls.set k (.returned id result) }
  | drop {w : JobWorld} {k : Nat} {id : String} : w.calls[k]? = some (.waiting id) →
      Step w { w.setQueue (w.queue.unsubscribe id) with calls := w.calls.set k (.dropped id) }

abbrev Steps : JobWorld → JobWorld → Prop := Relation.ReflTransGen Step

/-! ## What a service does by itself -/

variable {w : JobWorld}

theorem steps_steps (n : Nat) : Steps w { w with service := w.service.steps w.now n } := by
  induction n generalizing w with
  | zero => exact .refl
  | succ n ih =>
    rw [JobService.steps]
    split
    · rename_i s hs
      exact .head (.consume (JobService.move_of_step? hs)) (@ih { w with service := s })
    · exact .refl

theorem steps_settle (w : JobWorld) : Steps w { w with service := w.service.settle w.now } :=
  steps_steps _

/-- A service that runs on until some time takes steps of the world. -/
theorem steps_advance (w : JobWorld) (target : Nat) :
    ∃ now, Steps w { w with service := w.service.advance w.now target, now } := by
  induction hdist : target - w.now using Nat.strongRecOn generalizing w with
  | ind n ih =>
    rw [JobService.advance]
    split
    · rename_i hlt
      have hsettle := w.steps_settle
      dsimp only
      split
      · exact ⟨w.now, hsettle⟩
      · rename_i wake _
        split
        · rename_i hwake
          have hpass := hsettle.tail (.pass wake (Nat.le_of_lt hwake.1))
          obtain ⟨now, hnow⟩ := ih (target - wake) (by omega)
            { w with service := w.service.settle w.now, now := wake } rfl
          exact ⟨now, hpass.trans hnow⟩
        · exact ⟨w.now, hsettle⟩
    · exact ⟨w.now, .refl⟩

end JobWorld

end WorkflowEngine
