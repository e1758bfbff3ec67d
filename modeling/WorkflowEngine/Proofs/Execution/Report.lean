import WorkflowEngine.Execution.Executor
import WorkflowEngine.Proofs.Execution.Calls

/-!
# What a report says

`Report.Accounts` is what the report of an execution that succeeded says of every task, whatever the
handler does and in whatever order the turns come (`report_accounts`).

A level is closed only when all its tasks are done (`Steady.not_broken`), so a run in which a task
has failed does not get any further. In all other runs `Stands` holds: so many levels of the plan
were opened, the ledger is that of the plan (`Gated`), and every call so far was justified when it
was made.
-/

namespace WorkflowEngine

open Expression (Registry Scope SecretCache)

namespace Run

variable {w : Workflow} {base : Scope} {before : List Call} {r r' : Run} {k : Nat}
  {looked : List Nat}

/-! ## The tasks that the coordinator has looked at -/

/-- The coordinator has the results of the tasks that it has looked at, and none of them failed. -/
structure Steady (r : Run) (looked : List Nat) : Prop where
  working : r.Working looked
  done : ∀ i ∈ looked, ∃ t v, r.level[i]? = some t ∧ t.phase = .ended (.done v)

theorem Steady.advanceTask (hr : r.Steady looked) (i now : Nat) (tokenFirst : Bool) :
    (r.advanceTask i now tokenFirst).Steady looked := by
  have hmove := (r.advanceTask_cases i now tokenFirst).2
  refine ⟨hr.working.advanceTask i now tokenFirst, fun j hj => ?_⟩
  obtain ⟨t, v, ht, hdone⟩ := hr.done j hj
  exact ⟨t, v, hr.working.counted.getElem?_move hmove ht hdone, hdone⟩

theorem Broken.advanceTask (hbroken : r.Broken) (hr : r.Steady looked) (i now : Nat)
    (tokenFirst : Bool) : (r.advanceTask i now tokenFirst).Broken := by
  obtain ⟨t, ht, fault, hfailed⟩ := hbroken
  obtain ⟨j, hj⟩ := List.mem_iff_getElem?.mp ht
  have hmove := (r.advanceTask_cases i now tokenFirst).2
  have hkept := hr.working.counted.getElem?_move hmove hj hfailed
  exact ⟨t, List.mem_of_getElem? hkept, fault, hfailed⟩

/-- A level in which a task failed is not closed. -/
theorem Steady.not_broken (hr : r.Steady looked) (hseen : r.seen = r.level.length) : ¬r.Broken := by
  rintro ⟨t, ht, fault, hfailed⟩
  obtain ⟨i, hi⟩ := List.mem_iff_getElem?.mp ht
  obtain ⟨hall, -⟩ := hr.working.counted.all_looked (hr.working.seen.symm.trans hseen)
  obtain ⟨t', v, ht', hdone⟩ := hr.done i (hall i (List.getElem?_eq_some_iff.mp hi).1)
  rw [hi] at ht'
  cases ht'
  rw [hfailed] at hdone
  cases hdone

@[simp] theorem scene_look (now : Nat) (is : List Nat) (r : Run) :
    (look now is r).scene = r.scene := by
  induction is generalizing r with
  | nil => rfl
  | cons i rest ih =>
    rw [look]
    split
    · exact ih _
    · rfl
    · rfl
    · exact ih r

/-- A run that goes on has looked at tasks that are done, and one that ends there fails. -/
theorem look_done {now : Nat} {is : List Nat} (hgoing : r.isGoing)
    (hended : ∀ i ∈ is, ∃ t e, r.level[i]? = some t ∧ t.phase = .ended e) :
    (look now is r).isGoing ∧
        (∀ i ∈ is, ∃ t v, r.level[i]? = some t ∧ t.phase = .ended (.done v)) ∨
      ∃ error, (look now is r).state = .over now (some error) := by
  induction is generalizing r with
  | nil => exact .inl ⟨hgoing, nofun⟩
  | cons i rest ih =>
    rw [look]
    split
    · rename_i task v hi
      have hrest := ih (r := { r with
        results := r.results.insert task.name v
        seen := r.seen + 1 }) hgoing fun j hj => hended j (List.mem_cons_of_mem i hj)
      refine hrest.imp_left fun hlooked => ⟨hlooked.1, fun j hj => ?_⟩
      rcases List.mem_cons.mp hj with rfl | hj
      · exact ⟨_, v, hi, rfl⟩
      · exact hlooked.2 j hj
    · exact .inr ⟨_, rfl⟩
    · exact .inr ⟨_, rfl⟩
    · rename_i hdone hfailed hpanicked
      obtain ⟨⟨task, phase⟩, e, ht, rfl⟩ := hended i List.mem_cons_self
      cases e with
      | done v => exact absurd ht (hdone task v)
      | failed fault => exact absurd ht (hfailed task fault)
      | panicked => exact absurd ht (hpanicked task)

theorem Steady.look (hr : r.Steady looked) (hgoing : r.isGoing) (now : Nat) :
    (Run.look now r.ended { r with ended := [] }).isGoing ∧
        (Run.look now r.ended { r with ended := [] }).Steady (looked ++ r.ended) ∨
      ∃ error, (Run.look now r.ended { r with ended := [] }).state = .over now (some error) := by
  have hdesk := (look_sameLevel now r.ended { r with ended := [] }).desk
  have hlevel : (Run.look now r.ended { r with ended := [] }).level = r.level :=
    congrArg Desk.level hdesk
  refine (look_done (r := { r with ended := [] }) hgoing fun i hi =>
    hr.working.counted.ended i (List.mem_append_right _ hi)).imp_left fun ⟨hgo, hdone⟩ => ?_
  refine ⟨hgo, hr.working.look now hgo, fun i hi => ?_⟩
  rw [hlevel]
  exact (List.mem_append.mp hi).elim (hr.done i) (hdone i)

/-! ## What is true of a run all the time -/

/-- A call of the handler is for a task that is or was let run, and its context has the outputs of
the task's dependencies. -/
def Justified (w : Workflow) (l : Ledger) (tasks : List Task) (c : Call) : Prop :=
  (c.task ∈ l.completed ∨ c.task ∈ tasks.map (·.name)) ∧
    ∀ t ∈ w.tasks, t.name = c.task → ∀ d ∈ t.dependencies, c.context.outputs.has d

/-- How a run stands whose first `k` levels were opened. -/
structure Stands (w : Workflow) (base : Scope) (before : List Call) (k : Nat) (r : Run) : Prop where
  workflow : r.workflow = w
  gated : Gated w base k r.context.outputs r.ledger (r.level.map (·.task))
  seeing : Seeing base r
  calls : ∃ calls, r.activity.calls = before ++ calls ∧
    ∀ c ∈ calls, Justified w r.ledger (r.level.map (·.task)) c

/-- While a run goes on it is as it should be, unless a task has failed; and it only succeeds with
all levels behind it. -/
structure Sound (w : Workflow) (base : Scope) (before : List Call) (r : Run) : Prop where
  going : r.isGoing → ∃ looked, r.Steady looked ∧
    (r.Broken ∨ ∃ k, Stands w base before k r ∧ r.ahead = w.executionLevels.drop k)
  succeeded : ∀ time, r.state = .over time none →
    r.level = [] ∧ ∃ k, w.executionLevels.length ≤ k ∧ Stands w base before k r

theorem sound_of_error {time : Nat} {error : ExecutionError}
    (h : r.state = .over time (some error)) : Sound w base before r := by
  refine ⟨fun hgoing => ?_, fun time' h' => ?_⟩
  · rw [isGoing, h] at hgoing
    cases hgoing
  · rw [h] at h'
    cases h'

theorem Stands.congr (hr : Stands w base before k r) (hworkflow : r'.workflow = r.workflow)
    (hledger : r'.ledger = r.ledger) (hlevel : r'.level = r.level) (hscene : r'.scene = r.scene) :
    Stands w base before k r' := by
  obtain ⟨hscope, hcalls⟩ := Prod.mk.inj hscene
  have houtputs : r'.context.outputs = r.context.outputs := congrArg (·.context.outputs) hscope
  refine ⟨hworkflow.trans hr.workflow, ?_, ⟨?_, ?_⟩, ?_⟩
  · rw [houtputs, hledger, hlevel]
    exact hr.gated
  · rw [houtputs, hscope]
    exact hr.seeing.sees
  · rw [houtputs, hlevel]
    exact hr.seeing.active
  · rw [hcalls, hledger, hlevel]
    exact hr.calls

theorem Sound.of_same (hr : Sound w base before r) (houtline : r'.outline = r.outline)
    (hdesk : r'.desk = r.desk) (hscene : r'.scene = r.scene) : Sound w base before r' := by
  have hstate : r'.state = r.state := congrArg Outline.state houtline
  have hlevel : r'.level = r.level := congrArg Desk.level hdesk
  have hstands : ∀ {k : Nat}, Stands w base before k r → Stands w base before k r' := fun h =>
    h.congr (congrArg Outline.workflow houtline) (congrArg Outline.ledger houtline) hlevel hscene
  refine ⟨fun hgoing => ?_, fun time hover => ?_⟩
  · rw [isGoing, hstate] at hgoing
    obtain ⟨looked, ⟨hworking, hdone⟩, hcases⟩ := hr.going hgoing
    refine ⟨looked, ⟨hworking.of_outline houtline (hdesk ▸ hworking.counted), ?_⟩, ?_⟩
    · rw [hlevel]
      exact hdone
    · rcases hcases with hbroken | ⟨k, h, hahead⟩
      · left
        rw [Broken, hlevel]
        exact hbroken
      · exact .inr ⟨k, hstands h, (congrArg Outline.ahead houtline).trans hahead⟩
  · rw [hstate] at hover
    obtain ⟨hnil, k, hk, h⟩ := hr.succeeded time hover
    exact ⟨hlevel.trans hnil, k, hk, hstands h⟩

/-! ## Opening and closing levels -/

/-- The tasks of a level that was just opened were not handled yet. -/
theorem Stands.opened (hw : w.WellPlanned) (hr : Stands w base before k r) (hlevel : r.level = [])
    {names : List String} (hnames : w.executionLevels[k]? = some names)
    (hworkflow : r'.workflow = w)
    (hledger : r'.ledger = (Ledger.openLevel w names r.ledger).2)
    (htasks : r'.level = (Ledger.openLevel w names r.ledger).1.map fun task => { task })
    (hscene : r'.scene = r.scene) : Stands w base before (k + 1) r' := by
  obtain ⟨hscope, hactivity⟩ := Prod.mk.inj hscene
  have houtputs : r'.context.outputs = r.context.outputs := congrArg (·.context.outputs) hscope
  have hgated := hr.gated
  rw [hlevel] at hgated
  have hopened := hgated.opened hw hnames
  have hrunnable : r'.level.map (·.task) = (Ledger.openLevel w names r.ledger).1 := by
    rw [htasks, List.map_map]
    exact List.map_id _
  refine ⟨hworkflow, ?_, ⟨?_, fun t ht s attempts hactive => ?_⟩, ?_⟩
  · rw [houtputs, hledger, hrunnable]
    exact hopened
  · rw [houtputs, hscope]
    exact hr.seeing.sees
  · rw [htasks] at ht
    obtain ⟨task, -, rfl⟩ := List.mem_map.mp ht
    cases hactive
  · obtain ⟨calls, hcalls, hjustified⟩ := hr.calls
    refine ⟨calls, hactivity.trans hcalls, fun c hc => ⟨.inl ?_, (hjustified c hc).2⟩⟩
    have hdone := (hjustified c hc).1
    rw [hlevel] at hdone
    rw [hledger, (Ledger.opening w names r.ledger).completed]
    exact hdone.resolve_right List.not_mem_nil

theorem Stands.sound (hr : Stands w base before k r) (hgoing : r.isGoing)
    (hahead : r.ahead = w.executionLevels.drop k) (hqueue : r.queue = []) (hended : r.ended = [])
    (hseen : r.seen = 0) : Sound w base before r := by
  refine ⟨fun _ => ⟨[], ⟨working_nil hqueue hended hseen, nofun⟩, .inr ⟨k, hr, hahead⟩⟩,
    fun time hover => ?_⟩
  rw [isGoing, hover] at hgoing
  cases hgoing

theorem openNext_sound (hw : w.WellPlanned) {now : Nat} {ahead : List (List String)}
    (hr : Stands w base before k r) (hahead : ahead = w.executionLevels.drop k)
    (hgoing : r.isGoing) (hlevel : r.level = []) (hqueue : r.queue = []) (hended : r.ended = []) :
    Sound w base before (openNext now ahead r) := by
  induction ahead generalizing r k with
  | nil =>
    have hall : w.executionLevels.length ≤ k := List.drop_eq_nil_iff.mp hahead.symm
    exact ⟨nofun, fun _ _ => ⟨rfl, k, hall, hr.congr rfl rfl hlevel.symm rfl⟩⟩
  | cons names ahead ih =>
    have hnames : w.executionLevels[k]? = some names := by
      rw [← List.head?_drop, ← hahead]
      rfl
    have hrest : ahead = w.executionLevels.drop (k + 1) := by
      rw [← List.tail_drop, ← hahead]
      rfl
    rw [openNext]
    split
    · exact sound_of_error rfl
    · rw [hr.workflow]
      dsimp only
      split
      · rename_i hempty
        refine ih (k := k + 1) (hr.opened hw hlevel hnames rfl rfl ?_ rfl) hrest hgoing hlevel
          hqueue hended
        rw [List.isEmpty_iff.mp hempty]
        exact hlevel
      · have hopened : Stands w base before (k + 1) { r with
            workflow := w
            ledger := (Ledger.openLevel w names r.ledger).2
            ahead
            level := (Ledger.openLevel w names r.ledger).1.map fun task => { task }
            seen := 0
            results := [] } := hr.opened hw hlevel hnames rfl rfl rfl rfl
        exact (hopened.sound hgoing hrest hqueue hended rfl).of_same (outline_pushAll ..)
          (desk_pushAll ..) (scene_pushAll ..)

theorem closeLevel_sound (hw : w.WellPlanned) {now : Nat} (hr : Stands w base before k r)
    (hgoing : r.isGoing) (hahead : r.ahead = w.executionLevels.drop k)
    (hresults : ∀ t ∈ r.level, r.results.has t.task.name) (hqueue : r.queue = [])
    (hended : r.ended = []) : Sound w base before (r.closeLevel now) := by
  rw [closeLevel]
  dsimp only
  split
  · exact sound_of_error rfl
  · rename_i ledger s hdecide
    have hleft : ∀ t ∈ r.level.map (·.task), r.results.has t.name := fun t ht => by
      obtain ⟨t', ht', rfl⟩ := List.mem_map.mp ht
      exact hresults t' ht'
    obtain ⟨hgated, hsees, hcompleted⟩ := hr.gated.closed hw hleft hr.seeing.sees hdecide
    have hfunctions : s.functions = r.functions :=
      hsees.functions_eq.trans hr.seeing.sees.functions_eq.symm
    have hstands : Stands w base before k { r with context := s.context, ledger, level := [] } := by
      refine ⟨hr.workflow, hgated, ⟨?_, fun t ht => ?_⟩, ?_⟩
      · rw [scope, ← hfunctions]
        exact hsees
      · cases ht
      · obtain ⟨calls, hcalls, hjustified⟩ := hr.calls
        refine ⟨calls, hcalls, fun c hc => ⟨.inl ?_, (hjustified c hc).2⟩⟩
        show c.task ∈ ledger.completed
        rw [hcompleted]
        exact List.mem_append.mpr (hjustified c hc).1
    exact openNext_sound hw hstands hahead hgoing rfl hqueue hended

theorem Sound.coordinate (hw : w.WellPlanned) (hr : Sound w base before r) (hgoing : r.isGoing)
    (now : Nat) : Sound w base before (r.coordinate now) := by
  obtain ⟨looked, hsteady, hcases⟩ := hr.going hgoing
  have hsame := look_sameLevel now r.ended { r with ended := [] }
  have hscene := scene_look now r.ended { r with ended := [] }
  have hlook := hsteady.look hgoing now
  rw [Run.coordinate]
  generalize look now r.ended { r with ended := [] } = s at *
  have hlevel : s.level = r.level := congrArg Desk.level hsame.desk
  have hclose : Sound w base before
      (if s.isGoing ∧ s.seen = s.level.length then s.closeLevel now else s) := by
    rcases hlook with ⟨hgo, hsteady'⟩ | ⟨error, hover⟩
    · have hcases' : s.Broken ∨
          ∃ k, Stands w base before k s ∧ s.ahead = w.executionLevels.drop k := by
        refine hcases.imp (fun hbroken => ?_) fun ⟨k, hstands, hahead⟩ =>
          ⟨k, hstands.congr hsame.workflow hsame.ledger hlevel hscene, hsame.ahead.trans hahead⟩
        rw [Broken, hlevel]
        exact hbroken
      split
      · rename_i hall
        obtain ⟨hresults, hqueue⟩ := hsteady'.working.closed hall.2
        obtain ⟨k, hstands, hahead⟩ := hcases'.resolve_left (hsteady'.not_broken hall.2)
        exact closeLevel_sound hw hstands hgo hahead hresults hqueue
          (congrArg Desk.ended hsame.desk)
      · refine ⟨fun _ => ⟨_, hsteady', hcases'⟩, fun time hover => ?_⟩
        rw [isGoing, hover] at hgo
        cases hgo
    · rw [if_neg (by simp [isGoing, hover])]
      exact sound_of_error hover
  generalize (if s.isGoing ∧ s.seen = s.level.length then s.closeLevel now else s) = u at hclose ⊢
  split
  · exact sound_of_error rfl
  · exact hclose

/-- Dependencies of the tasks of a level have completed before it was opened. -/
theorem Stands.goes (hw : w.WellPlanned) (hr : Stands w base before k r)
    (houtline : r'.outline = r.outline) (hseeing : Seeing base r') (hgoes : r.Goes r') :
    Stands w base before k r' := by
  have hledger : r'.ledger = r.ledger := congrArg Outline.ledger houtline
  have htasks : r'.level.map (·.task) = r.level.map (·.task) := congrArg Outline.tasks houtline
  refine ⟨(congrArg Outline.workflow houtline).trans hr.workflow, ?_, hseeing, ?_⟩
  · rw [hgoes.outputs, hledger, htasks]
    exact hr.gated
  · rw [hledger, htasks]
    obtain ⟨calls, hcalls, hjustified⟩ := hr.calls
    obtain ⟨new, hnew, hmade⟩ := hgoes.calls
    refine ⟨calls ++ new, by rw [hnew, hcalls, List.append_assoc], fun c hc => ?_⟩
    rcases List.mem_append.mp hc with hc | hc
    · exact hjustified c hc
    · obtain ⟨hname, houtputs⟩ := hmade c hc
      refine ⟨.inr hname, fun t ht htask d hd => ?_⟩
      obtain ⟨u, hu, hu'⟩ := List.mem_map.mp hname
      obtain rfl := hw.eq_of_name (hr.gated.current u hu).1 ht (hu'.trans htask.symm)
      rw [houtputs, hr.gated.keys]
      exact hr.gated.ready u hu d hd

theorem Sound.advanceTask (hw : w.WellPlanned) (hr : Sound w base before r) (hgoing : r.isGoing)
    (i now : Nat) (tokenFirst : Bool) : Sound w base before (r.advanceTask i now tokenFirst) := by
  obtain ⟨looked, hsteady, hcases⟩ := hr.going hgoing
  obtain ⟨houtline, -⟩ := r.advanceTask_cases i now tokenFirst
  have hstate : (r.advanceTask i now tokenFirst).state = r.state :=
    congrArg Outline.state houtline
  refine ⟨fun _ => ⟨looked, hsteady.advanceTask i now tokenFirst, ?_⟩, fun time hover => ?_⟩
  · rcases hcases with hbroken | ⟨k, hstands, hahead⟩
    · exact .inl (hbroken.advanceTask hsteady i now tokenFirst)
    · refine (hstands.seeing.advanceTask hsteady.working.counted i now tokenFirst).imp_right
        fun ⟨hseeing, hgoes⟩ => ⟨k, hstands.goes hw houtline hseeing hgoes, ?_⟩
      exact (congrArg Outline.ahead houtline).trans hahead
  · rw [isGoing, ← hstate, hover] at hgoing
    cases hgoing

theorem Sound.step (hw : w.WellPlanned) (hr : Sound w base before r) (h : Step r r') :
    Sound w base before r' := by
  cases h with
  | coordinate now hgoing => exact hr.coordinate hw hgoing now
  | advanceTask i now tokenFirst hgoing => exact hr.advanceTask hw hgoing i now tokenFirst
  | cancel => exact hr.of_same (outline_cancel r) (desk_cancel r) (scene_cancel r)
  | schedule turns => exact hr.of_same rfl rfl rfl

theorem Sound.steps (hw : w.WellPlanned) (hr : Sound w base before r) (h : Steps r r') :
    Sound w base before r' := by
  induction h with
  | refl => exact hr
  | tail _ h ih => exact ih.step hw h

theorem sound_start (w : Workflow) (functions : Registry) (handler : Handler)
    (secrets : SecretCache) (activity : Activity) (yields : Bool) (id : String) (now : Nat) :
    Sound w (start w functions handler secrets activity yields id now).scope activity.calls
      (start w functions handler secrets activity yields id now) := by
  have hstands : Stands w (start w functions handler secrets activity yields id now).scope
      activity.calls 0 (start w functions handler secrets activity yields id now) :=
    ⟨rfl, .start w _, ⟨⟨secrets, rfl, .refl secrets⟩, fun _ ht => absurd ht List.not_mem_nil⟩, [],
      (List.append_nil _).symm, fun _ hc => absurd hc List.not_mem_nil⟩
  refine ⟨fun _ => ⟨[], ⟨working_nil rfl rfl rfl, fun _ hi => absurd hi List.not_mem_nil⟩,
    .inr ⟨0, hstands, rfl⟩⟩, fun time hover => ?_⟩
  rw [start] at hover
  split at hover
  · cases hover
  · cases hover

end Run

/-! ## Reports -/

/-- What expressions can see at the start of an execution. -/
def Executor.scopeOf (x : Executor) (w : Workflow) (request : ExecutionRequest) : Scope where
  context := {
    traceId := request.id
    «variables» := w.variables
    secrets := { x.secrets with loaded := none } }
  functions := x.functions

/-- What a report says: which tasks have completed and which were skipped, and why. `base` is what
expressions could see at the start, and `calls` are the calls of the handler. -/
structure Report.Accounts (report : Report) (w : Workflow) (base : Scope) (calls : List Call) :
    Prop where
  split : ∀ name ∈ w.taskNames, (name ∈ report.completed ↔ name ∉ report.skipped)
  known : ∀ name ∈ report.completed ++ report.skipped, name ∈ w.taskNames
  completed_iff : ∀ t ∈ w.tasks, t.name ∈ report.completed ↔
    (∀ d ∈ t.dependencies, d ∈ report.completed) ∧
      ((∀ s ∈ w.tasks, t.name ∉ s.branchTargets) ∨
        w.Routed base report.outputs report.completed t.name)
  outputs : ∀ name, name ∈ report.outputs.keys ↔ name ∈ report.completed
  calls : ∀ c ∈ calls, c.task ∈ report.completed ∧
    ∀ t ∈ w.tasks, t.name = c.task → ∀ d ∈ t.dependencies, d ∈ c.context.outputs.keys
  /-- In the order of the levels, and within a level as declared. -/
  order : report.completed.Sublist w.executionLevels.flatten ∧
    ∀ level ∈ w.executionLevels, level.Sublist w.taskNames

namespace Run

theorem Stands.accounts {w : Workflow} {base : Scope} {before : List Call} {k : Nat} {r : Run}
    (hw : w.WellPlanned) (hr : Stands w base before k r) (hall : w.executionLevels.length ≤ k)
    (hlevel : r.level = []) (request : ExecutionRequest) :
    ∃ calls, r.activity.calls = before ++ calls ∧
      (r.report request).Accounts w base calls := by
  have hfirst : w.firstNames k = w.executionLevels.flatten := by
    rw [Workflow.firstNames, List.take_of_length_le hall]
  have hnames : ∀ name, name ∈ w.firstNames k ↔ name ∈ w.taskNames := fun name => by
    rw [Workflow.mem_firstNames]
    constructor
    · rintro ⟨i, -, hi⟩
      exact Workflow.mem_taskNames_of_placedAt hi
    · intro hname
      obtain ⟨i, level, hat, hmem⟩ := hw.exists_placedAt hname
      have hlt := (List.getElem?_eq_some_iff.mp hat).1
      exact ⟨i, by omega, level, hat, hmem⟩
  have hgated := hr.gated
  rw [hlevel, List.map_nil] at hgated
  have hsplit : ∀ name ∈ w.taskNames, name ∈ r.ledger.completed ↔ name ∉ r.ledger.skipped :=
    fun name hname => by
      rw [← hgated.split name ((hnames name).mpr hname)]
      exact (or_iff_left List.not_mem_nil).symm
  have horder := hgated.order
  rw [List.map_nil, List.append_nil] at horder
  obtain ⟨calls, hcalls, hjustified⟩ := hr.calls
  rw [hlevel] at hjustified
  refine ⟨calls, hcalls, hsplit, fun name hname => ?_, fun t ht => ?_, fun name => ?_,
    fun c hc => ?_, hfirst ▸ horder, fun level => Workflow.level_sublist⟩
  · rw [← hnames]
    exact (List.mem_append.mp hname).elim (fun h => horder.subset h) (hgated.skipped name)
  · have hdependencies : (∃ d ∈ t.dependencies, d ∈ r.ledger.skipped) ↔
        ¬∀ d ∈ t.dependencies, d ∈ r.ledger.completed := by
      rw [not_forall]
      refine exists_congr fun d => ?_
      rw [Classical.not_imp]
      refine and_congr_right fun hd => ?_
      rw [hsplit d (hw.resolved t.name d ⟨t, ht, rfl, .inl hd⟩), not_not]
    have hname : t.name ∈ w.taskNames := List.mem_map_of_mem ht
    have hgate := hgated.gate t ht ((hnames _).mpr hname)
    rw [Ledger.excludes_iff, hdependencies, hgated.routed] at hgate
    show t.name ∈ r.ledger.completed ↔ _
    rw [hsplit _ hname, hgate, not_or, not_not, not_and_or, not_not]
    simp only [not_exists, not_and]
    rfl
  · rw [← Fields.has_iff_mem_keys]
    exact hgated.keys name
  · obtain ⟨hdone, hseen⟩ := hjustified c hc
    refine ⟨hdone.resolve_right List.not_mem_nil, fun t ht hname d hd => ?_⟩
    exact Fields.has_iff_mem_keys.mp (hseen t ht hname d hd)

/-- When a run succeeded, if it did. -/
def succeededAt? (r : Run) : Option Nat :=
  match r.state with
  | .over time none => some time
  | .over _ (some _) | .going | .crashed => none

theorem state_of_succeededAt? {r : Run} {time : Nat} (h : r.succeededAt? = some time) :
    r.state = .over time none := by
  rw [succeededAt?] at h
  split at h
  · rename_i hstate
    cases h
    exact hstate
  all_goals cases h

theorem steps_complete (r : Run) (cancelAt : Option Nat) : Steps r (r.complete cancelAt) := by
  cases cancelAt with
  | none => exact r.steps_advance 0 endOfTime
  | some time =>
    rw [complete]
    have hfirst := r.steps_advance 0 time
    split
    · exact (hfirst.tail .cancel).trans (steps_advance ..)
    · exact hfirst

end Run

/-- An execution that succeeds is such a run, and its report is kept. -/
theorem execute_steps {x : Executor} {store : WorkflowStore} {request : ExecutionRequest}
    {cancelAt : Option Nat} {time : Nat}
    (htime : (x.execute store request cancelAt).time = some time)
    (herror : (x.execute store request cancelAt).error = none) :
    ∃ r₀ r, x.begin store request (cancelAt = some 0) true 0 = .ok r₀ ∧ Run.Steps r₀ r ∧
      r.state = .over time none ∧
      (x.execute store request cancelAt).executor = (x.absorb r).keepReport r request := by
  rw [Executor.execute] at htime herror ⊢
  split at herror
  · cases herror
  · rename_i r₀ hbegin
    rw [hbegin] at htime
    refine ⟨r₀, r₀.complete cancelAt, hbegin, r₀.steps_complete cancelAt, ?_⟩
    dsimp only at htime herror ⊢
    split at htime
    · rename_i t error hstate
      rw [hstate] at herror ⊢
      cases htime
      cases herror
      exact ⟨rfl, rfl⟩
    · cases htime

/-- Every run that succeeds, of a workflow with distinct names, resolved references and no cycle of
`Precedes`, accounts for all its tasks. -/
theorem report_accounts {x : Executor} {store : WorkflowStore} {request : ExecutionRequest}
    {canceled yields : Bool} {now time : Nat} {w : Workflow} {r₀ r : Run}
    (hget : store.get request.workflow = .ok (some w)) (hunique : w.UniqueNames)
    (hresolved : w.Resolved) (hacyclic : ∀ a, ¬ Relation.TransGen w.Precedes a a)
    (hbegin : x.begin store request canceled yields now = .ok r₀) (hrun : Run.Steps r₀ r)
    (hover : r.state = .over time none) :
    ∃ calls, r.activity.calls = x.calls ++ calls ∧
      (r.report request).Accounts w (x.scopeOf w request) calls := by
  have hw := Workflow.wellPlanned_of_acyclic hunique hresolved hacyclic
  rw [Executor.begin, hget] at hbegin
  cases hbegin
  obtain ⟨hlevel, k, hall, hstands⟩ := ((Run.sound_start ..).steps hw hrun).succeeded time hover
  exact hstands.accounts hw hall hlevel request

namespace Workflow

/-- The first task branches to two others, and one of the conditions holds. -/
def gate : Workflow where
  name := "gate"
  tasks := [{ name := "A", branches := [⟨"$[true]", "B"⟩, ⟨"$[false]", "C"⟩] }, { name := "B" },
    { name := "C" }, { name := "D", dependencies := ["A"] }]

theorem gate_acyclic (a : String) : ¬ Relation.TransGen gate.Precedes a a := by
  have hedge : ∀ a b, gate.Precedes a b → a = "A" ∧ b ≠ "A" := by
    simp [Precedes, gate, Task.branchTargets]
    grind
  intro h
  obtain ⟨b, hab, -⟩ := Relation.TransGen.head'_iff.mp h
  obtain ⟨c, -, hca⟩ := Relation.TransGen.tail'_iff.mp h
  exact (hedge c a hca).2 (hedge a b hab).1

end Workflow

def gateExecutor : Executor where
  handler _ _ _ := .done (.value .null)
  functions := {}

def gateRequest : ExecutionRequest := { id := "x", workflow := "gate", user := "u" }

/-- The run of that workflow after all turns that there are. -/
def gateRun : Run :=
  Run.steps 0 20 (.start .gate gateExecutor.functions gateExecutor.handler {} {} true "x" 0)

theorem gateRun_over : gateRun.state = .over 0 none :=
  Run.state_of_succeededAt? (by decide +kernel)

/-- One target of the branches is skipped, and everything else completes. -/
theorem report_accounts_gate :
    gateRun.ledger.completed = ["A", "B", "D"] ∧ gateRun.ledger.skipped = ["C"] ∧
      gateRun.activity.calls.map (·.task) = ["A", "B", "D"] ∧
      ∃ calls, gateRun.activity.calls = [] ++ calls ∧
        (gateRun.report gateRequest).Accounts .gate (gateExecutor.scopeOf .gate gateRequest)
          calls := by
  obtain ⟨hunique, hresolved, -, -⟩ :=
    Workflow.validate_eq_ok.mp (by decide : Workflow.gate.validate = .ok ())
  have hget : WorkflowStore.get { workflows := [("gate", .gate)] } gateRequest.workflow =
      .ok (some .gate) := rfl
  have hbegin : gateExecutor.begin { workflows := [("gate", .gate)] } gateRequest false true 0 =
      .ok (.start .gate gateExecutor.functions gateExecutor.handler {} {} true "x" 0) := rfl
  exact ⟨by decide +kernel, by decide +kernel, by decide +kernel,
    report_accounts hget hunique hresolved Workflow.gate_acyclic hbegin (Run.steps_steps ..)
      gateRun_over⟩

end WorkflowEngine
