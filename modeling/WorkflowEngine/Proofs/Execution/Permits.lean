import WorkflowEngine.Proofs.Execution.EngineRuns
import WorkflowEngine.Proofs.Graph.Levels
import WorkflowEngine.Proofs.Submission

/-!
# More permits than there can be

A run crashes at its start, when its workflow asks for too many permits, or never: no turn, no
cancellation and no time that passes brings one down (`Executor.crashed_begin_iff`). Under a worker
the crash takes the worker along, which then takes no other request (`Engine.Steps.down`).
Validation does not look at the permits, and the optimization keeps what was asked for
(`permitsOf_optimize`).
-/

namespace WorkflowEngine

/-- A workflow that asks for more permits than there can be. -/
def Workflow.TooWide (w : Workflow) : Prop := maxPermits < w.configuration.parallelism.getD 1

/-! ## Permits of stored workflows -/

theorem Graph.length_le_of_mem_groupByLevel {levels : List (Option Nat)} {names group : List String}
    (h : group ∈ groupByLevel levels names) : group.length ≤ names.length := by
  unfold groupByLevel at h
  obtain ⟨k, -, rfl⟩ := List.mem_map.mp (List.mem_filter.mp h).1
  rw [List.length_map]
  refine (List.length_filter_le _ _).trans ?_
  rw [List.length_zip]
  exact Nat.min_le_left ..

theorem Workflow.maxWidth_levels_le (w : Workflow) : maxWidth w.levels ≤ w.tasks.length := by
  rcases Graph.highest_mem (w.levels.map List.length) with hzero | hmem
  · rw [maxWidth, hzero]
    exact Nat.zero_le _
  · obtain ⟨group, hgroup, hlength⟩ := List.mem_map.mp hmem
    rw [maxWidth, ← hlength, ← List.length_map (f := Task.name)]
    exact Graph.length_le_of_mem_groupByLevel hgroup

theorem Settings.parallelismFor_le (s : Settings) (processors width : Nat) :
    s.parallelismFor processors width ≤ max s.minParallelism width := by
  unfold parallelismFor clamp
  dsimp only
  split
  · exact Nat.le_max_left ..
  · split <;> omega

/-- How many permits the stored workflow asks for: as many as the one that was registered, if it
asks for any, and else no more than it has tasks or the settings name as the least. -/
structure PermitsOf (settings : Settings) (w stored : Workflow) : Prop where
  explicit : ∀ n, w.configuration.parallelism = some n → (stored.TooWide ↔ maxPermits < n)
  chosen : w.configuration.parallelism = none → settings.minParallelism ≤ maxPermits →
    w.tasks.length ≤ maxPermits → ¬ stored.TooWide

theorem permitsOf_optimize (settings : Settings) (processors : Nat) (w : Workflow) :
    PermitsOf settings w (w.optimize settings processors).workflow := by
  have hwide : (w.optimize settings processors).workflow.TooWide ↔
      maxPermits < (w.chosenParallelism settings processors).1 := Iff.rfl
  constructor
  · intro n hn
    rw [hwide, Workflow.chosenParallelism, hn]
  · intro hnone hleast htasks
    have hle := settings.parallelismFor_le processors (maxWidth w.levels)
    have hwidth := w.maxWidth_levels_le
    rw [hwide, Workflow.chosenParallelism, hnone]
    dsimp only
    omega

/-! ## Executions -/

namespace Run

variable {r r' r'' : Run}

/-- A run is in the state in which it was, or it is over. -/
def GoesOn (r r' : Run) : Prop := r'.state = r.state ∨ ∃ time error, r'.state = .over time error

theorem GoesOn.trans (h : GoesOn r r') (h' : GoesOn r' r'') : GoesOn r r'' := by
  rcases h' with h' | h'
  · rcases h with h | ⟨time, error, h⟩
    · exact .inl (h'.trans h)
    · exact .inr ⟨time, error, h'.trans h⟩
  · exact .inr h'

theorem goesOn_of_outline (h : r'.outline = r.outline) : GoesOn r r' :=
  .inl (congrArg Outline.state h)

theorem goesOn_openNext (now : Nat) (ahead : List (List String)) (r : Run) :
    GoesOn r (openNext now ahead r) := by
  induction ahead generalizing r with
  | nil => exact .inr ⟨now, none, rfl⟩
  | cons names ahead ih =>
    rw [openNext]
    split
    · exact .inr ⟨now, _, rfl⟩
    · dsimp only
      split
      · exact ih _
      · exact .inl (congrArg Outline.state (outline_pushAll ..))

theorem goesOn_closeLevel (r : Run) (now : Nat) : GoesOn r (r.closeLevel now) := by
  rw [closeLevel]
  dsimp only
  split
  · exact .inr ⟨now, _, rfl⟩
  · exact goesOn_openNext now _ _

theorem goesOn_look (now : Nat) (is : List Nat) (r : Run) : GoesOn r (look now is r) := by
  induction is generalizing r with
  | nil => exact .inl rfl
  | cons i is ih =>
    rw [look]
    split
    · exact ih _
    · exact .inr ⟨now, _, rfl⟩
    · exact .inr ⟨now, _, rfl⟩
    · exact ih _

theorem goesOn_coordinate (r : Run) (now : Nat) : GoesOn r (r.coordinate now) := by
  have hlook := goesOn_look now r.ended { r with ended := [] }
  rw [coordinate]
  generalize look now r.ended { r with ended := [] } = s at hlook ⊢
  have hclose : GoesOn r (if s.isGoing ∧ s.seen = s.level.length then s.closeLevel now else s) := by
    split
    · exact GoesOn.trans hlook (s.goesOn_closeLevel now)
    · exact hlook
  generalize (if s.isGoing ∧ s.seen = s.level.length then s.closeLevel now else s) = u at hclose ⊢
  split
  · exact .inr ⟨now, _, rfl⟩
  · exact hclose

/-- A step neither crashes a run nor brings back one that has crashed. -/
theorem Step.crashed_iff (h : Step r r') : r'.state = .crashed ↔ r.state = .crashed := by
  have hgoing (hgoing : r.isGoing) (hon : GoesOn r r') :
      r'.state = .crashed ↔ r.state = .crashed := by
    have hnot : r.state ≠ .crashed := fun hstate => by simp [isGoing, hstate] at hgoing
    rcases hon with hsame | ⟨time, error, hover⟩
    · rw [hsame]
    · exact iff_of_false (by simp [hover]) hnot
  cases h with
  | coordinate now hr => exact hgoing hr (r.goesOn_coordinate now)
  | advanceTask i now tokenFirst hr =>
    exact hgoing hr (goesOn_of_outline (r.advanceTask_cases i now tokenFirst).1)
  | cancel => rw [show r.cancel.state = r.state from congrArg Outline.state r.outline_cancel]
  | schedule turns => rfl

theorem Steps.crashed_iff (h : Steps r r') : r'.state = .crashed ↔ r.state = .crashed := by
  induction h with
  | refl => rfl
  | tail _ h ih => exact h.crashed_iff.trans ih

end Run

/-- An execution crashes exactly when its workflow asks for more permits than there can be. -/
theorem Executor.crashed_begin_iff {x : Executor} {store : WorkflowStore}
    {request : ExecutionRequest} {canceled yields : Bool} {now : Nat} {w : Workflow} {r₀ r : Run}
    (hget : store.get request.workflow = .ok (some w))
    (hbegin : x.begin store request canceled yields now = .ok r₀) (hrun : Run.Steps r₀ r) :
    r.state = .crashed ↔ w.TooWide := by
  rw [hrun.crashed_iff]
  rw [Executor.begin, hget] at hbegin
  cases hbegin
  rw [Run.start, Workflow.TooWide]
  dsimp only
  split
  · exact iff_of_true rfl ‹_›
  · exact iff_of_false nofun ‹_›

/-! ## Channels

Only submitting makes the channel longer, and only taking makes it shorter. -/

namespace ExecutionQueue

variable {q q' : ExecutionQueue}

theorem Submitted.prefix_channel (h : q.Submitted q') : q.channel <+: q'.channel := by
  rcases h with rfl | ⟨r, hr⟩
  · exact List.prefix_rfl
  · rcases q.enqueue_cases r with ⟨error, herror⟩ | ⟨-, hok⟩
    · rw [herror] at hr
      cases hr
    · rw [hok] at hr
      cases hr
      exact List.prefix_append ..

theorem channel_cancel (q : ExecutionQueue) (id : String) :
    (q.cancel id).2.channel = q.channel := by
  rcases q.cancel_cases id with hsame | ⟨record, -, ⟨-, hset⟩ | ⟨-, hset⟩⟩
  · rw [hsame]
  · rw [hset]
    rfl
  · rw [hset]
    rfl

theorem channel_finish {id : String} {status : ExecutionStatus} {failure : Option String}
    (h : q.finish id status failure = .ok q') : q'.channel = q.channel := by
  rcases q.finish_cases id status failure with ⟨error, herror⟩ | ⟨record, -, -, hok⟩
  · rw [herror] at h
    cases h
  · rw [hok] at h
    cases h
    rfl

theorem length_channel_takeFrom (records : Fields ExecutionRecord) (rs : List ExecutionRequest) :
    (takeFrom records rs).2.channel.length ≤ rs.length - 1 := by
  induction rs generalizing records with
  | nil => exact Nat.le_refl 0
  | cons r rs ih =>
    rw [takeFrom]
    split
    · exact Nat.le_refl _
    · rename_i records' _
      exact (ih records').trans (Nat.sub_le ..)

/-- Asking for a request empties the channel up to the one that is delivered. -/
theorem length_channel_dequeue (hsome : q.channel ≠ []) :
    (q.dequeue false).2.channel.length < q.channel.length := by
  have hpos := List.length_pos_iff.mpr hsome
  have hrest := length_channel_takeFrom q.records q.channel
  rw [dequeue, if_neg Bool.false_ne_true]
  split <;> rename_i htake <;> rw [htake] at hrest <;> dsimp only at hrest ⊢ <;> omega

end ExecutionQueue

namespace Engine

variable {e e' e'' : Engine} {now : Nat} {r : ExecutionRequest} {run : Run} {w : Workflow}

/-! ## What one step does to the worker -/

@[simp] theorem worker_report (e : Engine) (id : String) (reason : Option String) :
    (e.report id reason).worker = e.worker := by
  unfold report
  dsimp only
  split <;> rfl

theorem begin_of_stored (hget : e.desk.store.get r.workflow = .ok (some w)) (now : Nat) :
    ∃ run, e.begin r now = { e with worker := .busy r run } ∧
      (run.state = .crashed ↔ w.TooWide) := by
  have hbegin (canceled : Bool) :
      ∃ run, e.executor.begin e.desk.store r canceled false now = .ok run := by
    rw [Executor.begin, hget]
    exact ⟨_, rfl⟩
  obtain ⟨run, hrun⟩ := hbegin (e.queue.isCanceled r.id)
  refine ⟨run, ?_, Executor.crashed_begin_iff hget hrun .refl⟩
  rw [Engine.begin, hrun]

/-- An engine begins to execute a workflow that is stored, or reports that it cannot. -/
theorem begin_cases (e : Engine) (r : ExecutionRequest) (now : Nat) :
    (e.begin r now).worker = e.worker ∨ ∃ w run, e.desk.store.get r.workflow = .ok (some w) ∧
      (e.begin r now).worker = .busy r run ∧ (run.state = .crashed ↔ w.TooWide) := by
  by_cases hstored : ∃ w, e.desk.store.get r.workflow = .ok (some w)
  · obtain ⟨w, hget⟩ := hstored
    obtain ⟨run, hbegin, hcrashed⟩ := begin_of_stored hget now
    exact .inr ⟨w, run, hget, by rw [hbegin], hcrashed⟩
  · rw [Engine.begin]
    split
    · exact .inl (worker_report ..)
    · rename_i run hbegin
      rw [Executor.begin] at hbegin
      split at hbegin
      · cases hbegin
      · cases hbegin
      · rename_i w hget
        exact absurd ⟨w, hget⟩ hstored

/-- The engine takes a request, and the workflow that it names is stored. -/
structure Takes (e : Engine) (now : Nat) (r : ExecutionRequest) (w : Workflow) (e' : Engine) :
    Prop where
  idle : e.worker = .idle
  delivered : (e.queue.dequeue e.shutdown).1 = .request r
  stored : e.desk.store.get r.workflow = .ok (some w)
  goes : e.step? now = some e'

/-- Whoever takes a request is busy with it, in a run that has crashed if its workflow is too
wide. -/
inductive WorkerMove (e : Engine) (now : Nat) (e' : Engine) : Prop where
  | takes {r : ExecutionRequest} {w : Workflow} {run : Run} : e.Takes now r w e' →
      e'.worker = .busy r run → (run.state = .crashed ↔ w.TooWide) → WorkerMove e now e'
  /-- Finds nothing to execute, is interrupted or has finished. -/
  | rests : e'.worker = .idle → WorkerMove e now e'
  | leaves : e'.worker = .stopped → WorkerMove e now e'
  | goesOn {r : ExecutionRequest} {run : Run} : e.worker = .busy r run →
      e'.worker = .busy r (run.settle now) → WorkerMove e now e'
  | crashes {r : ExecutionRequest} {run : Run} : e.worker = .busy r run → run.state = .crashed →
      e'.worker = .crashed → WorkerMove e now e'

theorem workerMove (hgo : e.step? now = some e') : e.WorkerMove now e' := by
  have hgoes := hgo
  unfold step? at hgo
  split at hgo
  · rename_i hidle
    split at hgo
    · cases hgo
    · split at hgo
      · rename_i r queue hdequeue
        cases hgo
        rcases (e.setQueue queue).begin_cases r now with hsame | ⟨w, run, hget, hbusy, hcrashed⟩
        · exact .rests (hsame.trans hidle)
        · exact .takes ⟨hidle, by rw [hdequeue], hget, hgoes⟩ hbusy hcrashed
      · cases hgo
        exact .rests hidle
      · cases hgo
        exact .leaves rfl
  · rename_i r run hbusy
    split at hgo
    · cases hgo
      exact .rests (worker_report ..)
    · split at hgo
      · split at hgo
        · cases hgo
          exact .goesOn hbusy rfl
        · cases hgo
      · cases hgo
        exact .rests (worker_report ..)
      · cases hgo
        exact .rests (worker_report ..)
      · rename_i hstate
        cases hgo
        exact .crashes hbusy hstate rfl
  · cases hgo

/-- A cancellation leaves the worker alone, or tells its run. -/
theorem cancel_worker (e : Engine) (id : String) : (e.cancel id).2.worker = e.worker ∨
    ∃ r run, e.worker = .busy r run ∧ (e.cancel id).2.worker = .busy r run.cancel := by
  unfold Engine.cancel
  dsimp only
  split
  · rename_i r run hbusy
    split
    · exact .inr ⟨r, run, hbusy, rfl⟩
    · exact .inl rfl
  · exact .inl rfl

theorem cancel_keeps (e : Engine) (id : String) : (e.cancel id).2.executor = e.executor ∧
    (e.cancel id).2.queue.channel = e.queue.channel := by
  have hqueue := e.queue.channel_cancel id
  unfold Engine.cancel
  dsimp only
  split
  · split <;> exact ⟨rfl, hqueue⟩
  · exact ⟨rfl, hqueue⟩

/-! ## Where crashes come from -/

/-- Between two states the engine has taken the request, whose workflow was stored then. -/
def Took (e : Engine) (r : ExecutionRequest) (w : Workflow) (e' : Engine) : Prop :=
  ∃ e₁ e₂ now, e.Steps e₁ ∧ e₁.Takes now r w e₂ ∧ e₂.Steps e'

theorem Took.step (htook : e.Took r w e') (hstep : Step e' e'') : e.Took r w e'' := by
  obtain ⟨e₁, e₂, now, hbefore, htakes, hlater⟩ := htook
  exact ⟨e₁, e₂, now, hbefore, htakes, hlater.tail hstep⟩

/-- Whatever the worker is busy with it has taken, and so it has what brought it down. -/
structure Grounded (e e' : Engine) : Prop where
  busy : ∀ r run, e'.worker = .busy r run →
    ∃ w, e.Took r w e' ∧ (run.state = .crashed ↔ w.TooWide)
  crashed : e'.worker = .crashed → ∃ r w, e.Took r w e' ∧ w.TooWide

theorem Grounded.of_same (hg : Grounded e e') (hstep : Step e' e'')
    (hsame : e''.worker = e'.worker) : Grounded e e'' := by
  constructor
  · intro r run hbusy
    obtain ⟨w, htook, hcrashed⟩ := hg.busy r run (hsame ▸ hbusy)
    exact ⟨w, htook.step hstep, hcrashed⟩
  · intro hcrashed
    obtain ⟨r, w, htook, hwide⟩ := hg.crashed (hsame ▸ hcrashed)
    exact ⟨r, w, htook.step hstep, hwide⟩

/-- A worker that is neither busy nor crashed has nothing to account for. -/
theorem grounded_of_free (hbusy : ∀ r run, e'.worker ≠ .busy r run)
    (hcrashed : e'.worker ≠ .crashed) : Grounded e e' :=
  ⟨fun r run h => (hbusy r run h).elim, fun h => (hcrashed h).elim⟩

/-- The run goes on. -/
theorem Grounded.of_steps (hg : Grounded e e') (hstep : Step e' e'') {run' : Run}
    (hbusy : e'.worker = .busy r run) (hbusy' : e''.worker = .busy r run')
    (hsteps : run.Steps run') : Grounded e e'' := by
  constructor
  · intro r₁ run₁ hbusy₁
    obtain ⟨w, htook, hcrashed⟩ := hg.busy r run hbusy
    rw [hbusy'] at hbusy₁
    cases hbusy₁
    exact ⟨w, htook.step hstep, hsteps.crashed_iff.trans hcrashed⟩
  · intro hcrashed
    rw [hbusy'] at hcrashed
    cases hcrashed

theorem Grounded.go (hg : Grounded e e') (hbefore : e.Steps e') (hgo : e'.step? now = some e'') :
    Grounded e e'' := by
  have hstep : Step e' e'' := .go hgo
  cases workerMove hgo with
  | takes htakes hbusy hcrashed =>
    constructor
    · intro r₁ run₁ hbusy₁
      rw [hbusy] at hbusy₁
      cases hbusy₁
      exact ⟨_, ⟨e', e'', now, hbefore, htakes, .refl⟩, hcrashed⟩
    · intro hcrashed
      rw [hbusy] at hcrashed
      cases hcrashed
  | rests hidle => exact grounded_of_free (by simp [hidle]) (by simp [hidle])
  | leaves hstopped => exact grounded_of_free (by simp [hstopped]) (by simp [hstopped])
  | goesOn hbusy hbusy' => exact hg.of_steps hstep hbusy hbusy' (Run.steps_settle ..)
  | crashes hbusy hstate hcrashed =>
    -- The run had crashed before the worker did, and what it was taken for is known.
    constructor
    · intro r run hbusy'
      rw [hcrashed] at hbusy'
      cases hbusy'
    · intro _
      obtain ⟨w, htook, hiff⟩ := hg.busy _ _ hbusy
      exact ⟨_, w, htook.step hstep, hiff.mp hstate⟩

theorem Grounded.step (hg : Grounded e e') (hbefore : e.Steps e') (hstep : Step e' e'') :
    Grounded e e'' := by
  have hlast := hstep
  cases hstep with
  | register _ | submit _ _ _ | trigger _ _ _ | shutDown => exact hg.of_same hlast rfl
  | start _ => exact grounded_of_free (by simp) (by simp)
  | cancel id =>
    rcases e'.cancel_worker id with hsame | ⟨r, run, hbusy, hbusy'⟩
    · exact hg.of_same hlast hsame
    · exact hg.of_steps hlast hbusy hbusy' (.single .cancel)
  | go hgo => exact hg.go hbefore hgo

theorem Steps.grounded (hnew : e.IsNew) (hsteps : e.Steps e') : Grounded e e' := by
  induction hsteps with
  | refl => exact grounded_of_free (by simp [hnew.worker]) (by simp [hnew.worker])
  | tail hbefore hstep ih => exact ih.step hbefore hstep

/-! ## Going on -/

@[simp] theorem channel_report (e : Engine) (id : String) (reason : Option String) :
    (e.report id reason).queue.channel = e.queue.channel := by
  unfold report
  dsimp only
  split
  · rename_i q hq
    cases reason with
    | none => exact ExecutionQueue.channel_finish hq
    | some reason => exact ExecutionQueue.channel_finish hq
  · rfl

theorem channel_begin (e : Engine) (r : ExecutionRequest) (now : Nat) :
    (e.begin r now).queue.channel = e.queue.channel := by
  unfold begin
  dsimp only
  split
  · exact channel_report ..
  · rfl

/-- A worker that has something to take takes it, whatever it is. -/
theorem goes_of_waiting (hidle : e.worker = .idle) (hopen : e.shutdown = false)
    (hsome : e.queue.channel ≠ []) (now : Nat) :
    ∃ e', e.step? now = some e' ∧ (e'.worker = .idle ∨ ∃ r run, e'.worker = .busy r run) ∧
      e'.queue.channel.length < e.queue.channel.length := by
  have hshorter := ExecutionQueue.length_channel_dequeue hsome
  have hfull : ¬ (e.queue.channel.isEmpty && !false) = true := by simpa using hsome
  unfold step?
  rw [hidle, hopen]
  dsimp only
  rw [if_neg hfull]
  split
  · rename_i r q hdequeue
    rw [hdequeue] at hshorter
    refine ⟨_, rfl, ?_, (congrArg List.length (channel_begin ..)).trans_lt hshorter⟩
    rcases (e.setQueue q).begin_cases r now with hsame | ⟨w, run, -, hbusy, -⟩
    · exact .inl (hsame.trans hidle)
    · exact .inr ⟨r, run, hbusy⟩
  · rename_i q hdequeue
    rw [hdequeue] at hshorter
    exact ⟨_, rfl, .inl hidle, hshorter⟩
  · rename_i q hdequeue
    rw [ExecutionQueue.dequeue, if_neg Bool.false_ne_true] at hdequeue
    split at hdequeue <;> cases hdequeue

/-- A worker whose execution is over asks for the next request. -/
theorem idles_of_over (hbusy : e.worker = .busy r run) {time : Nat} {error : Option ExecutionError}
    (hover : run.state = .over time error) (now : Nat) :
    ∃ e', e.step? now = some e' ∧ e'.worker = .idle := by
  unfold step?
  rw [hbusy]
  dsimp only
  split
  · exact ⟨_, rfl, worker_report ..⟩
  · rw [hover]
    cases error <;> exact ⟨_, rfl, worker_report ..⟩

/-! ## After a crash -/

theorem Takes.busy (htakes : e.Takes now r w e') : e'.shutdown = false ∧
    ∃ run, e'.worker = .busy r run ∧ (run.state = .crashed ↔ w.TooWide) := by
  obtain ⟨hidle, hdelivered, hget, hgo⟩ := htakes
  have hopen : e.shutdown = false := by
    cases hshutdown : e.shutdown with
    | false => rfl
    | true =>
      rw [hshutdown, ExecutionQueue.dequeue, if_pos rfl] at hdelivered
      cases hdelivered
  unfold step? at hgo
  rw [hidle] at hgo
  dsimp only at hgo
  split at hgo
  · cases hgo
  · split at hgo <;> rename_i hdequeue <;> rw [hdequeue] at hdelivered <;> cases hdelivered
    obtain ⟨run, hbegin, hcrashed⟩ :=
      begin_of_stored (e := e.setQueue (e.queue.dequeue e.shutdown).2) hget now
    rw [hdequeue] at hbegin
    rw [hbegin] at hgo
    cases hgo
    exact ⟨hopen, run, rfl, hcrashed⟩

/-- The execution of a workflow that is too wide brings the worker down at once. -/
theorem Takes.crashes (htakes : e.Takes now r w e') (hwide : w.TooWide) (now' : Nat) :
    ∃ e'', e'.step? now' = some e'' ∧ e''.worker = .crashed := by
  obtain ⟨hopen, run, hbusy, hcrashed⟩ := htakes.busy
  unfold step?
  rw [hbusy, hopen]
  dsimp only
  rw [if_neg Bool.false_ne_true, hcrashed.mpr hwide]
  exact ⟨_, rfl, rfl⟩

/-- The worker is down for good: nothing is executed and no request is taken. -/
structure Down (e e' : Engine) : Prop where
  worker : e'.worker = .crashed
  executor : e'.executor = e.executor
  channel : e.queue.channel <+: e'.queue.channel

theorem Down.step (hdown : e.Down e') (hstep : Step e' e'') : e.Down e'' := by
  have hdesk (desk : SubmissionDesk) (h : e'.desk.intake.queue.Submitted desk.intake.queue) :
      e.Down { e' with desk } :=
    ⟨hdown.worker, hdown.executor, hdown.channel.trans h.prefix_channel⟩
  cases hstep with
  | register w => exact hdesk _ (.inl (congrArg Intake.queue (e'.desk.intake_register w)))
  | submit now w user => exact hdesk _ (e'.desk.submitted_submit now user w)
  | trigger now workflow user => exact hdesk _ (e'.desk.submitted_trigger now user workflow)
  | start habsent =>
    rw [hdown.worker] at habsent
    cases habsent
  | shutDown => exact ⟨hdown.worker, hdown.executor, hdown.channel⟩
  | cancel id =>
    obtain ⟨hexecutor, hchannel⟩ := e'.cancel_keeps id
    rcases e'.cancel_worker id with hsame | ⟨r, run, hbusy, -⟩
    · exact ⟨hsame.trans hdown.worker, hexecutor.trans hdown.executor, hchannel ▸ hdown.channel⟩
    · rw [hdown.worker] at hbusy
      cases hbusy
  | go hgo =>
    unfold step? at hgo
    rw [hdown.worker] at hgo
    cases hgo

theorem Steps.down (hcrashed : e.worker = .crashed) (hsteps : e.Steps e') : e.Down e' := by
  induction hsteps with
  | refl => exact ⟨hcrashed, rfl, List.prefix_rfl⟩
  | tail _ hstep ih => exact ih.step hstep

/-- A worker whose engine was new goes on after every execution but those of workflows that are too
wide. Validation lets these pass, and each of them brings the worker down for good. -/
theorem worker_lost_to_too_wide (hnew : e.IsNew) (hsteps : e.Steps e') (now : Nat) :
    (e'.desk.InMemory → ∀ w, w.validate = .ok () → ∃ registration desk,
      e'.desk.register w = (.ok registration, desk) ∧
        desk.store.get registration.id = .ok (some registration.workflow) ∧
        PermitsOf e'.desk.settings w registration.workflow) ∧
    (∀ r run, e'.worker = .busy r run →
      (∃ w, e.Took r w e' ∧ (run.state = .crashed ↔ w.TooWide)) ∧
      ∀ time error, run.state = .over time error →
        ∃ e'', e'.step? now = some e'' ∧ e''.worker = .idle) ∧
    (e'.worker = .idle → e'.shutdown = false → e'.queue.channel ≠ [] →
      ∃ e'', e'.step? now = some e'' ∧ (e''.worker = .idle ∨ ∃ r run, e''.worker = .busy r run) ∧
        e''.queue.channel.length < e'.queue.channel.length) ∧
    (e'.worker = .crashed →
      (∃ r w, e.Took r w e' ∧ w.TooWide) ∧ ∀ e'', e'.Steps e'' → e'.Down e'') ∧
    ∀ r w e₁, e'.Takes now r w e₁ → w.TooWide →
      ∃ e₂, e₁.step? now = some e₂ ∧ e₂.worker = .crashed := by
  have hgrounded := hsteps.grounded hnew
  refine ⟨fun hmemory w hvalid => ?_, fun r run hbusy => ⟨hgrounded.busy r run hbusy, ?_⟩,
    fun hidle hopen hsome => goes_of_waiting hidle hopen hsome now,
    fun hcrashed => ⟨hgrounded.crashed hcrashed, fun e'' => Steps.down hcrashed⟩,
    fun r w e₁ htakes hwide => htakes.crashes hwide now⟩
  · rcases hmemory.register w with ⟨error, herror, -⟩ | ⟨-, hregister⟩
    · rw [hvalid] at herror
      cases herror
    · refine ⟨_, _, hregister, ?_, permitsOf_optimize ..⟩
      rw [WorkflowStore.get, show (e'.desk.stores w).store.getFault = none from hmemory.get]
      exact congrArg Except.ok ((Fields.find?_insert ..).trans (if_pos rfl))
  · intro time error hover
    exact idles_of_over hbusy hover now

/-- Nothing was submitted yet; its handler does what it is asked to. -/
def unused : Engine where
  desk := { processors := 1 }
  executor := { handler := fun _ _ _ => .done (.value .null), functions := {} }

/-- These two workflows were submitted, and then the worker was started. -/
def afterBoth (first second : Workflow) : Engine :=
  let desk := (unused.desk.submit 0 first "user").2
  ({ unused with desk := (desk.submit 0 second "user").2 } : Engine).start 0

theorem steps_afterBoth (first second : Workflow) : unused.Steps (afterBoth first second) :=
  .head (.submit 0 first "user") (.head (.submit 0 second "user") (steps_start ..))

def askingFor (permits : Nat) : Workflow where
  name := "asking"
  configuration := { parallelism := some permits }
  tasks := [{ name := "A" }]

/-- The worker has taken the first request and takes no other, not even to be shut down. -/
theorem worker_lost_to_too_wide_asking :
    unused.IsNew ∧ unused.Steps (afterBoth (askingFor (maxPermits + 1)) (askingFor 1)) ∧
      (∃ r w, unused.Took r w (afterBoth (askingFor (maxPermits + 1)) (askingFor 1)) ∧ w.TooWide) ∧
      (afterBoth (askingFor (maxPermits + 1)) (askingFor 1)).Down
        ((afterBoth (askingFor (maxPermits + 1)) (askingFor 1)).shutDown 5) := by
  have hnew : unused.IsNew := ⟨rfl, rfl, rfl⟩
  have hsteps := steps_afterBoth (askingFor (maxPermits + 1)) (askingFor 1)
  obtain ⟨-, -, -, hcrashed, -⟩ := worker_lost_to_too_wide hnew hsteps 0
  obtain ⟨htook, hdown⟩ := hcrashed rfl
  exact ⟨hnew, hsteps, htook, hdown _ (steps_shutDown ..)⟩

/-- Nothing is wrong with a workflow that asks for a permit more than there can be, up to its
execution, and with one fewer the worker goes on to the next request. -/
theorem down_after_valid_workflow :
    (askingFor (maxPermits + 1)).validate = .ok () ∧
      (afterBoth (askingFor (maxPermits + 1)) (askingFor 1)).worker = .crashed ∧
      (afterBoth (askingFor (maxPermits + 1)) (askingFor 1)).queue.status? "e0" = some .dequeued ∧
      (afterBoth (askingFor (maxPermits + 1)) (askingFor 1)).queue.status? "e1" = some .pending ∧
      (afterBoth (askingFor maxPermits) (askingFor 1)).queue.status? "e1" = some .completed := by
  refine ⟨by decide +kernel, rfl, by decide +kernel, by decide +kernel, by decide +kernel⟩

end Engine

end WorkflowEngine
