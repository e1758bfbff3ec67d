import WorkflowEngine.Proofs.Execution.Level
import WorkflowEngine.Proofs.Execution.Worker

/-!
# The engine as one of the workers' worlds

The engine is a worker with an executor for its orchestrator: whatever is done to it and whatever it
does by itself is a run of such a world (`Engine.Step.runs`). One step of the engine may be several
steps there, since the engine takes a request, begins with it and reports it without a pause.
-/

namespace WorkflowEngine

/-! ## Submissions -/

/-- What a submission can do to the queue: nothing, or it enqueues a request. -/
def ExecutionQueue.Submitted (q q' : ExecutionQueue) : Prop :=
  q' = q ∨ ∃ r, q.enqueue r = .ok q'

theorem Intake.submitted (t : Intake) (now : Nat) (workflow user : String) :
    t.queue.Submitted (t.submit now workflow user).2.queue := by
  unfold submit
  dsimp only
  split
  · exact .inl rfl
  · cases henqueue : t.queue.enqueue { id := t.freshId, workflow, user } with
    | error _ => exact .inl rfl
    | ok queue => exact .inr ⟨_, henqueue⟩

namespace SubmissionDesk

variable (d : SubmissionDesk) (now : Nat) (user : String)

theorem intake_register (w : Workflow) : (d.register w).2.intake = d.intake := by
  unfold register
  split
  · rfl
  · dsimp only
    split <;> rfl

theorem submitted_request (workflow : String) :
    d.intake.queue.Submitted (d.request now workflow user).2.intake.queue := by
  have hsubmitted := d.intake.submitted now workflow user
  unfold request
  split
  · rename_i hsubmit
    rwa [hsubmit] at hsubmitted
  · rename_i hsubmit
    rwa [hsubmit] at hsubmitted

theorem submitted_submit (w : Workflow) :
    d.intake.queue.Submitted (d.submit now w user).2.intake.queue := by
  have hintake := d.intake_register w
  unfold submit
  split
  · rename_i hregister
    rw [hregister] at hintake
    exact .inl (congrArg (·.queue) hintake)
  · rename_i registration d' hregister
    rw [hregister] at hintake
    have hrequest := d'.submitted_request now user registration.id
    rw [hintake] at hrequest
    split
    · rename_i hrequested
      rwa [hrequested] at hrequest
    · rename_i hrequested
      rwa [hrequested] at hrequest

theorem submitted_trigger (workflow : String) :
    d.intake.queue.Submitted (d.trigger now workflow user).2.intake.queue := by
  unfold trigger
  split
  · exact .inl rfl
  · exact .inl rfl
  · exact d.submitted_request now user workflow

end SubmissionDesk

def Run.result? (r : Run) : Option ExecutionResult :=
  match r.state with
  | .over _ none => some .succeeded
  | .over _ (some error) => some (.failed error.message)
  | _ => none

/-- What an execution has come to, if it is over; one that cannot begin is over at once. -/
def Executor.result? : Except ExecutionError Run → Option ExecutionResult
  | .error error => some (.failed error.message)
  | .ok run => run.result?

theorem Executor.error_of_result? {s : Except ExecutionError Run} {result : ExecutionResult}
    (hresult : result? s = some result) (hfailed : result ≠ .succeeded) :
    ∃ error : ExecutionError, result = .failed error.message := by
  cases s with
  | error error =>
    cases hresult
    exact ⟨error, rfl⟩
  | ok run =>
    rw [result?, Run.result?] at hresult
    split at hresult
    · cases hresult
      exact (hfailed rfl).elim
    · rename_i error _
      cases hresult
      exact ⟨error, rfl⟩
    · cases hresult

/-- Executions with one handler and one registry of functions. A run has a token of its own, which
is cancelled with the token of the request, when a task fails, when the time is up and by whoever
else knows it. None of this cancels the token of the request. -/
def Executor.orchestrator (x : Executor) : Orchestrator where
  State := Except ExecutionError Run
  Begins request canceled s := ∃ (x' : Executor) (store : WorkflowStore) (yields : Bool)
    (now : Nat), x'.handler = x.handler ∧ x'.functions = x.functions ∧
      s = x'.begin store request canceled yields now
  Works s s' := ∃ r r', s = .ok r ∧ s' = .ok r' ∧ r.Step r'
  Told s s' := ∃ r, s = .ok r ∧ s' = .ok r.cancel
  Cancels _ _ := False
  Returns s result := result? s = some result
  begins _ _ := ⟨_, x, {}, true, 0, rfl, rfl, rfl⟩

namespace Engine

/-- All that can be done to the engine, and what it does by itself. -/
inductive Step (e : Engine) : Engine → Prop where
  | register (w : Workflow) : Step e { e with desk := (e.desk.register w).2 }
  | submit (now : Nat) (w : Workflow) (user : String) :
      Step e { e with desk := (e.desk.submit now w user).2 }
  | trigger (now : Nat) (workflow user : String) :
      Step e { e with desk := (e.desk.trigger now workflow user).2 }
  | start : e.worker = .absent → Step e { e with worker := .idle }
  | shutDown : Step e { e with shutdown := true }
  | cancel (id : String) : Step e (e.cancel id).2
  | go {now : Nat} {e' : Engine} : e.step? now = some e' → Step e e'

abbrev Steps : Engine → Engine → Prop := Relation.ReflTransGen Step

/-- How a worker of such a world looks in the engine. -/
inductive Mirrors : WorkerPhase → WorkerState (Except ExecutionError Run) → Prop where
  | absent : Mirrors .absent .absent
  | idle : Mirrors .idle .idle
  | busy (r : ExecutionRequest) (run : Run) : Mirrors (.busy r run) (.running r (.ok run))
  | stopped : Mirrors .stopped .returned
  | crashed (r : ExecutionRequest) (run : Run) : run.result? = none →
      Mirrors .crashed (.running r (.ok run))

/-- The world has the engine's queue, its shutdown and its executor. -/
structure Agrees (e : Engine) {x : Executor} (w : WorkerWorld x.orchestrator) : Prop where
  handler : e.executor.handler = x.handler
  functions : e.executor.functions = x.functions
  queue : w.queue.queue = e.queue
  stopped : 0 ∈ w.queue.stopped ↔ e.shutdown = true

structure Shows (e : Engine) {x : Executor} (w : WorkerWorld x.orchestrator) : Prop
    extends e.Agrees w where
  worker : Mirrors e.worker (w.workers 0)

variable {e e' : Engine} {x : Executor} {w w' : WorkerWorld x.orchestrator} {h : WorkerHistory}
  {r : ExecutionRequest} {result : ExecutionResult}

open WorkerWorld (Runs)

/-! ## Reports -/

/-- A report that is turned down leaves the queue as it is. -/
theorem setQueue_conclude {q : QueueWorld} (hq : q.queue = e.queue)
    (reported : Except ExecutionQueueError ExecutionQueue) :
    (match reported with
      | .ok queue => e.setQueue queue
      | .error _ => e) = e.setQueue (q.conclude reported).2.queue := by
  cases reported with
  | ok queue => rfl
  | error _ =>
    rw [QueueWorld.conclude, hq]
    rfl

theorem report_none (id : String) (hw : w.queue.queue = e.queue) :
    e.report id none = e.setQueue (w.queue.perform (.complete id)).2.queue := by
  unfold report
  rw [QueueWorld.perform, hw]
  exact setQueue_conclude hw (e.queue.complete id)

/-- The look of the report and its conclusion are one step here. -/
theorem report_some (id reason : String) (hw : w.queue.queue = e.queue) :
    e.report id (some reason) =
      e.setQueue (w.concludeFailure id reason (w.isCanceled id)).2.queue := by
  have hfail : w.concludeFailure id reason (w.isCanceled id) =
      w.queue.conclude (e.queue.fail id reason) := by
    rw [← hw]
    rfl
  unfold report
  rw [hfail]
  exact setQueue_conclude hw (e.queue.fail id reason)

theorem stopped_conclude (q : QueueWorld) (result : Except ExecutionQueueError ExecutionQueue) :
    (q.conclude result).2.stopped = q.stopped := by
  cases result <;> rfl

theorem Agrees.shows_idle (hagrees : e.Agrees (w.put 0 .idle)) (hidle : e.worker = .idle) :
    e.Shows (w.put 0 .idle) := by
  refine ⟨hagrees, ?_⟩
  rw [WorkerWorld.workers_put_self, hidle]
  exact .idle

theorem Agrees.report (hagrees : e.Agrees w) (hidle : e.worker = .idle)
    (hk : w.workers 0 = .reporting r result) :
    ∃ h w', Runs w h w' ∧ (e.report r.id result.reason?).Shows w' := by
  cases result with
  | succeeded =>
    refine ⟨_, _, .single (.complete hk), ?_⟩
    rw [ExecutionResult.reason?, report_none r.id hagrees.queue]
    refine Agrees.shows_idle ⟨hagrees.handler, hagrees.functions, rfl, ?_⟩ hidle
    exact (iff_of_eq (congrArg (0 ∈ ·) (stopped_conclude ..))).trans hagrees.stopped
  | failed reason =>
    have hlook : Runs w _ _ := .single (.look hk)
    refine ⟨_, _, hlook.next (.fail (WorkerWorld.workers_put_self ..)), ?_⟩
    rw [ExecutionResult.reason?, report_some r.id reason hagrees.queue]
    refine Agrees.shows_idle ⟨hagrees.handler, hagrees.functions, rfl, ?_⟩ hidle
    exact (iff_of_eq (congrArg (0 ∈ ·) (stopped_conclude ..))).trans hagrees.stopped

/-- An execution that is over is reported. -/
theorem Agrees.conclude (hagrees : e.Agrees w) (hidle : e.worker = .idle)
    {s : Except ExecutionError Run} (hk : w.workers 0 = .running r s)
    (hresult : Executor.result? s = some result) :
    ∃ h w', Runs w h w' ∧ (e.report r.id result.reason?).Shows w' := by
  have hreturns : Runs w _ _ := .single (.result hk hresult)
  obtain ⟨h, w', hrun, hshows⟩ :=
    Agrees.report (w := w.put 0 (.reporting r result)) ⟨hagrees.handler, hagrees.functions,
      hagrees.queue, hagrees.stopped⟩ hidle (WorkerWorld.workers_put_self ..)
  exact ⟨_, w', hreturns.trans hrun, hshows⟩

/-! ## Taking requests -/

theorem last_run {q q' : QueueWorld} {hq : QueueHistory} {a : QueueAction} {reply : QueueReply}
    (hrun : QueueWorld.Runs q ((a, reply) :: hq) q') :
    ∃ q₁, QueueWorld.Runs q hq q₁ ∧ (q₁.perform a).1 = reply ∧ q' = (q₁.perform a).2 := by
  generalize hall : (a, reply) :: hq = all at hrun
  cases hrun with
  | start => cases hall
  | next _ hbefore =>
    cases hall
    exact ⟨_, hbefore, rfl, rfl⟩

/-- Requests that are passed over. -/
theorem asks {q : QueueWorld} {hq : QueueHistory} (hrun : QueueWorld.Runs w.queue hq q)
    (hskips : ∀ entry ∈ hq, entry.1 = .take 0 ∧ ∃ r, entry.2 = .skipped r)
    (hk : w.workers 0 = .idle) : ∃ h, Runs w h (w.setQueue q) := by
  induction hrun with
  | start => exact ⟨[], .start⟩
  | @next hq q a _ ih =>
    obtain ⟨h, hbefore⟩ := ih fun entry hmem => hskips entry (List.mem_cons_of_mem _ hmem)
    obtain ⟨htake, r, hskipped⟩ := hskips _ List.mem_cons_self
    dsimp only at htake hskipped
    subst htake
    exact ⟨_, hbefore.next (.ask (k := 0) hk hskipped rfl nofun)⟩

theorem Agrees.begin (hagrees : e.Agrees w) (hidle : e.worker = .idle)
    (hk : w.workers 0 = .holding r) (now : Nat) :
    ∃ h w', Runs w h w' ∧ (e.begin r now).Shows w' := by
  have hcanceled : e.queue.isCanceled r.id = w.isCanceled r.id := by
    rw [← hagrees.queue]
    rfl
  have hbegins : x.orchestrator.Begins r (w.isCanceled r.id)
      (e.executor.begin e.desk.store r (e.queue.isCanceled r.id) false now) :=
    ⟨e.executor, e.desk.store, false, now, hagrees.handler, hagrees.functions, by rw [hcanceled]⟩
  have hhand : Runs w _ _ := .single (.hand hk hbegins)
  unfold Engine.begin
  dsimp only
  cases hbegin : e.executor.begin e.desk.store r (e.queue.isCanceled r.id) false now with
  | error error =>
    rw [hbegin] at hhand
    have hresult : Executor.result? (.error error) = some (.failed error.message) := rfl
    obtain ⟨h, w', hrun, hshows⟩ :=
      Agrees.conclude (w := w.put 0 (.running r (.error error)))
        ⟨hagrees.handler, hagrees.functions, hagrees.queue, hagrees.stopped⟩ hidle
        (WorkerWorld.workers_put_self ..) hresult
    exact ⟨_, w', hhand.trans hrun, hshows⟩
  | ok run =>
    rw [hbegin] at hhand
    refine ⟨_, _, hhand, ⟨hagrees.handler, hagrees.functions, hagrees.queue, hagrees.stopped⟩, ?_⟩
    rw [WorkerWorld.workers_put_self]
    exact .busy r run

theorem Shows.idle (hshows : e.Shows w) (hidle : e.worker = .idle) : w.workers 0 = .idle := by
  have hworker := hshows.worker
  rw [hidle] at hworker
  generalize w.workers 0 = state at hworker
  cases hworker
  rfl

/-- An idle engine that was not shut down asks for a request. -/
theorem Shows.dequeue (hshows : e.Shows w) (hidle : e.worker = .idle) (hopen : e.shutdown = false)
    (now : Nat) :
    (∃ r h w', (e.queue.dequeue false).1 = .request r ∧ Runs w h w' ∧
        ((e.setQueue (e.queue.dequeue false).2).begin r now).Shows w') ∨
      (e.queue.dequeue false).1 = .waiting ∧
        ∃ h w', Runs w h w' ∧ (e.setQueue (e.queue.dequeue false).2).Shows w' := by
  have hk := hshows.idle hidle
  have hstream : 0 ∉ w.queue.stopped := by
    rw [hshows.stopped, hopen]
    nofun
  have hdequeue := w.queue.dequeue_runs hstream
  rw [hshows.queue] at hdequeue
  obtain ⟨hq, hskips, ⟨r, hrequest, hrun⟩ | ⟨hwaiting, -, hrun⟩⟩ := hdequeue
  · obtain ⟨q, hbefore, hreply, hlast⟩ := last_run hrun
    obtain ⟨h, hasked⟩ := asks hbefore hskips hk
    have htook := hasked.next (.take (k := 0) hk hreply)
    have hagrees : (e.setQueue (e.queue.dequeue false).2).Agrees
        ((w.setQueue (q.perform (.take 0)).2).put 0 (.holding r)) := by
      rw [← hlast]
      exact ⟨hshows.handler, hshows.functions, rfl, hshows.stopped⟩
    obtain ⟨h', w', hbegun, hshows'⟩ := hagrees.begin hidle (WorkerWorld.workers_put_self ..) now
    exact .inl ⟨r, _, w', hrequest, htook.trans hbegun, hshows'⟩
  · obtain ⟨h, hrun⟩ := asks hrun hskips hk
    refine .inr ⟨hwaiting, h, _, hrun, ⟨hshows.handler, hshows.functions, rfl, hshows.stopped⟩, ?_⟩
    exact hshows.worker

/-! ## Executing -/

theorem Shows.busy {run : Run} (hshows : e.Shows w) (hbusy : e.worker = .busy r run) :
    w.workers 0 = .running r (.ok run) := by
  have hworker := hshows.worker
  rw [hbusy] at hworker
  generalize w.workers 0 = state at hworker
  cases hworker
  rfl

/-- A run goes on. -/
theorem works {run run' : Run} (hsteps : run.Steps run')
    (hk : w.workers 0 = .running r (.ok run)) :
    ∃ h w', Runs w h w' ∧ w'.queue = w.queue ∧ w'.workers 0 = .running r (.ok run') := by
  induction hsteps with
  | refl => exact ⟨[], w, .start, rfl, hk⟩
  | @tail run₁ run₂ _ hstep ih =>
    obtain ⟨h, w₁, hrun, hqueue, hk₁⟩ := ih
    exact ⟨_, _, hrun.next (.work hk₁ ⟨run₁, run₂, rfl, rfl, hstep⟩), hqueue,
      WorkerWorld.workers_put_self ..⟩

/-- A shutdown interrupts what is executed. -/
theorem Shows.interrupt {run : Run} (hshows : e.Shows w) (hbusy : e.worker = .busy r run)
    (hshutdown : e.shutdown = true) (executor : Executor)
    (hhandler : executor.handler = x.handler) (hfunctions : executor.functions = x.functions) :
    ∃ h w', Runs w h w' ∧
      (({ e with worker := .idle, executor }.setQueue (e.queue.cancelToken r.id)).report r.id
        interruption).Shows w' := by
  have hinterrupt : Runs w _ _ :=
    .single (.interrupt (hshows.busy hbusy) (hshows.stopped.mpr hshutdown))
  have hagrees : ({ e with worker := .idle, executor }.setQueue (e.queue.cancelToken r.id)).Agrees
      ((w.setQueue (w.queue.perform (.cancelToken r.id)).2).put 0
        (.reporting r (.failed interruption))) :=
    ⟨hhandler, hfunctions, by rw [← hshows.queue]; rfl, hshows.stopped⟩
  obtain ⟨h, w', hrun, hshows'⟩ := hagrees.report rfl (WorkerWorld.workers_put_self ..)
  exact ⟨_, w', hinterrupt.trans hrun, hshows'⟩

/-- A run that is over is reported. -/
theorem Shows.over {run : Run} (hshows : e.Shows w) (hbusy : e.worker = .busy r run)
    (hresult : run.result? = some result) (executor : Executor)
    (hhandler : executor.handler = x.handler) (hfunctions : executor.functions = x.functions) :
    ∃ h w', Runs w h w' ∧
      ({ e with worker := .idle, executor }.report r.id result.reason?).Shows w' := by
  have hagrees : Agrees { e with worker := .idle, executor } w :=
    ⟨hhandler, hfunctions, hshows.queue, hshows.stopped⟩
  exact hagrees.conclude rfl (hshows.busy hbusy) hresult

theorem Shows.settle {run : Run} (hshows : e.Shows w) (hbusy : e.worker = .busy r run)
    (now : Nat) :
    ∃ h w', Runs w h w' ∧ ({ e with worker := .busy r (run.settle now) } : Engine).Shows w' := by
  obtain ⟨h, w', hrun, hqueue, hk⟩ := works (run.steps_settle now) (hshows.busy hbusy)
  refine ⟨h, w', hrun, ⟨hshows.handler, hshows.functions, hqueue ▸ hshows.queue,
    hqueue ▸ hshows.stopped⟩, ?_⟩
  rw [hk]
  exact .busy ..

/-- A worker that was brought down keeps its request. -/
theorem Shows.crash {run : Run} (hshows : e.Shows w) (hbusy : e.worker = .busy r run)
    (hcrashed : run.state = .crashed) :
    ({ e with worker := .crashed, executor := e.executor.absorb run } : Engine).Shows w := by
  refine ⟨⟨hshows.handler, hshows.functions, hshows.queue, hshows.stopped⟩, ?_⟩
  rw [hshows.busy hbusy]
  exact .crashed r run (by rw [Run.result?, hcrashed])

/-- An idle worker that was shut down returns. -/
theorem Shows.leave (hshows : e.Shows w) (hidle : e.worker = .idle)
    (hshutdown : e.shutdown = true) :
    ∃ h w', Runs w h w' ∧ ({ e with worker := .stopped } : Engine).Shows w' := by
  have hended : (w.queue.perform (.take 0)).1 = .ended := by
    rw [QueueWorld.perform, if_pos (hshows.stopped.mpr hshutdown)]
  refine ⟨_, _, .single (.leave (hshows.idle hidle) hended), ⟨hshows.handler,
    hshows.functions, hshows.queue, hshows.stopped⟩, ?_⟩
  rw [WorkerWorld.workers_put_self]
  exact .stopped

theorem Shows.go (hshows : e.Shows w) {now : Nat} (hgo : e.step? now = some e') :
    ∃ h w', Runs w h w' ∧ e'.Shows w' := by
  unfold step? at hgo
  split at hgo
  · rename_i hidle
    split at hgo
    · cases hgo
    · cases hshutdown : e.shutdown with
      | true =>
        rw [hshutdown] at hgo
        cases hgo
        exact hshows.leave hidle hshutdown
      | false =>
        rw [hshutdown] at hgo
        have hdequeue := hshows.dequeue hidle hshutdown now
        rcases hasked : e.queue.dequeue false with ⟨delivery, queue⟩
        rw [hasked] at hgo hdequeue
        obtain ⟨r, h, w', rfl, hrun, hbegun⟩ | ⟨rfl, h, w', hrun, hshows'⟩ := hdequeue
        · cases hgo
          exact ⟨h, w', hrun, hbegun⟩
        · cases hgo
          exact ⟨h, w', hrun, hshows'⟩
  · rename_i r run hbusy
    split at hgo
    · rename_i hshutdown
      cases hgo
      exact hshows.interrupt hbusy hshutdown (e.executor.absorb run) hshows.handler
        hshows.functions
    · split at hgo
      · split at hgo
        · cases hgo
          exact hshows.settle hbusy now
        · cases hgo
      · rename_i hstate
        cases hgo
        have hresult : run.result? = some .succeeded := by rw [Run.result?, hstate]
        exact hshows.over hbusy hresult ((e.executor.absorb run).keepReport run r) hshows.handler
          hshows.functions
      · rename_i error hstate
        cases hgo
        have hresult : run.result? = some (.failed error.message) := by rw [Run.result?, hstate]
        exact hshows.over hbusy hresult (e.executor.absorb run) hshows.handler hshows.functions
      · rename_i hstate
        cases hgo
        exact ⟨[], w, .start, hshows.crash hbusy hstate⟩
  · cases hgo

/-! ## Calls from outside -/

theorem Shows.cancel (hshows : e.Shows w) (id : String) :
    ∃ h w', Runs w h w' ∧ (e.cancel id).2.Shows w' := by
  have hcall : Runs w _ _ := .single (.others (a := .cancel id) trivial)
  have hqueue : (w.queue.perform (.cancel id)).2.queue = (e.queue.cancel id).2 := by
    rw [← hshows.queue]
    rfl
  have hagrees : (e.setQueue (e.queue.cancel id).2).Agrees
      (w.setQueue (w.queue.perform (.cancel id)).2) :=
    ⟨hshows.handler, hshows.functions, hqueue, hshows.stopped⟩
  unfold Engine.cancel
  dsimp only
  split
  · rename_i r run hbusy
    have hk := hshows.busy hbusy
    split
    · rename_i hfound
      obtain ⟨hfound, rfl⟩ := hfound
      have htold : (w.setQueue (w.queue.perform (.cancel r.id)).2).isCanceled r.id := by
        have hcanceled := e.queue.isCanceled_cancel hfound
        rwa [← hqueue] at hcanceled
      refine ⟨_, _, hcall.next (.tell hk htold ⟨run, rfl, rfl⟩), ⟨hagrees.handler,
        hagrees.functions, hagrees.queue, hagrees.stopped⟩, ?_⟩
      rw [WorkerWorld.workers_put_self]
      exact .busy r run.cancel
    · exact ⟨_, _, hcall, ⟨hagrees.handler, hagrees.functions, hagrees.queue, hagrees.stopped⟩,
        hshows.worker⟩
  · exact ⟨_, _, hcall, ⟨hagrees.handler, hagrees.functions, hagrees.queue, hagrees.stopped⟩,
      hshows.worker⟩

theorem Shows.submitted (hshows : e.Shows w) {desk : SubmissionDesk}
    (hsubmitted : e.queue.Submitted desk.intake.queue) :
    ∃ h w', Runs w h w' ∧ ({ e with desk } : Engine).Shows w' := by
  rcases hsubmitted with hsame | ⟨r, hok⟩
  · exact ⟨[], w, .start, ⟨hshows.handler, hshows.functions, hshows.queue.trans hsame.symm,
      hshows.stopped⟩, hshows.worker⟩
  · have hperform : (w.queue.perform (.enqueue r)).2 =
        { w.queue with queue := desk.intake.queue } := by
      rw [QueueWorld.perform, hshows.queue, hok]
      rfl
    refine ⟨_, _, .single (.others (a := .enqueue r) trivial), ⟨hshows.handler,
      hshows.functions, ?_, ?_⟩, hshows.worker⟩
    · rw [hperform]
      rfl
    · rw [hperform]
      exact hshows.stopped

theorem Step.runs (hstep : e.Step e') (hshows : e.Shows w) :
    ∃ h w', Runs w h w' ∧ e'.Shows w' := by
  cases hstep with
  | register definition =>
    exact hshows.submitted (.inl (congrArg (·.queue) (e.desk.intake_register definition)))
  | submit now definition user =>
    exact hshows.submitted (e.desk.submitted_submit now user definition)
  | trigger now workflow user => exact hshows.submitted (e.desk.submitted_trigger now user workflow)
  | start habsent =>
    have hk : w.workers 0 = .absent := by
      have hworker := hshows.worker
      rw [habsent] at hworker
      generalize w.workers 0 = state at hworker
      cases hworker
      rfl
    refine ⟨_, _, .single (.start hk), ⟨hshows.handler, hshows.functions, hshows.queue,
      hshows.stopped⟩, ?_⟩
    rw [WorkerWorld.workers_put_self]
    exact .idle
  | shutDown =>
    exact ⟨_, _, .single (.others (a := .stop 0) trivial), ⟨hshows.handler, hshows.functions,
      hshows.queue, iff_of_true List.mem_cons_self rfl⟩, hshows.worker⟩
  | cancel id => exact hshows.cancel id
  | go hgo => exact hshows.go hgo

/-- Nothing was submitted yet, and the worker was not started. -/
structure IsNew (e : Engine) : Prop where
  queue : e.queue = {}
  worker : e.worker = .absent
  shutdown : e.shutdown = false

/-- What happens to an engine and what it does by itself is a run of a worker with its executor. -/
theorem Steps.runs (hnew : e.IsNew) (hsteps : e.Steps e') :
    ∃ h, ∃ w : WorkerWorld e.executor.orchestrator, Runs {} h w ∧ e'.Shows w := by
  induction hsteps with
  | refl =>
    refine ⟨[], {}, .start, ⟨rfl, rfl, hnew.queue.symm, ?_⟩, ?_⟩
    · rw [hnew.shutdown]
      exact iff_of_false List.not_mem_nil nofun
    · rw [hnew.worker]
      exact .absent
  | tail _ hstep ih =>
    obtain ⟨h, w, hrun, hshows⟩ := ih
    obtain ⟨h', w', hlater, hshows'⟩ := hstep.runs hshows
    exact ⟨_, w', hrun.trans hlater, hshows'⟩

/-! ## What the engine does in one go -/

theorem steps_steps (now n : Nat) (e : Engine) : e.Steps (steps now n e) := by
  induction n generalizing e with
  | zero => exact .refl
  | succ n ih =>
    rw [steps]
    split
    · rename_i e' hgo
      exact .head (.go hgo) (ih e')
    · exact .refl

theorem steps_settle (e : Engine) (now : Nat) : e.Steps (e.settle now) := e.steps_steps now _

theorem steps_start (e : Engine) (now : Nat) : e.Steps (e.start now) := by
  unfold start
  split
  · rename_i habsent
    exact .head (.start habsent) (steps_settle ..)
  · exact .refl

theorem steps_shutDown (e : Engine) (now : Nat) : e.Steps (e.shutDown now) :=
  .head .shutDown (steps_settle ..)

theorem steps_advance (e : Engine) (now target : Nat) : e.Steps (e.advance now target) := by
  induction hdist : target - now using Nat.strongRecOn generalizing e now with
  | ind n ih =>
    rw [advance]
    split
    · have hsettle := e.steps_settle now
      dsimp only
      split
      · exact hsettle
      · rename_i wake _
        split
        · rename_i hlt hwake
          exact hsettle.trans (ih (target - wake) (by omega) _ wake rfl)
        · exact hsettle
    · exact .refl

end Engine

end WorkflowEngine
