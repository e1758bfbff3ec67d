import WorkflowEngine.Proofs.Execution.Ledger
import WorkflowEngine.Proofs.Execution.Level
import WorkflowEngine.Proofs.Workflow.Precedence

/-!
# A run keeps to the plan

A level is opened only when every task of the levels before it is settled: it was skipped, or has
completed. `OnPlan` says so of a run that has opened so many levels; it is kept by closing a level
(`OnPlan.close`), by opening the next one (`OnPlan.opened`), and by all turns in between.
-/

namespace WorkflowEngine

open Expression (Registry SecretCache)
open Workflow (validate_eq_ok task?_of_mem mem_taskNames_of_placedAt exists_unique_placedAt
  lt_of_precedes)

namespace Run

variable {w : Workflow} {r r' : Run} {k : Nat} {name : String}

/-- The task will not run, or has completed. -/
def Settled (r : Run) (name : String) : Prop :=
  name ∈ r.ledger.skipped ∨ name ∈ r.ledger.completed

/-- The task was let run. -/
def Admitted (r : Run) (name : String) : Prop :=
  name ∈ r.ledger.completed ∨ ∃ t ∈ r.level, t.task.name = name

def Decided (r : Run) (name : String) : Prop := name ∈ r.ledger.skipped ∨ r.Admitted name

/-- So many levels of the plan were opened, and all but the last of them are done. -/
structure OnPlan (w : Workflow) (k : Nat) (r : Run) : Prop where
  workflow : r.workflow = w
  placed : ∀ name, r.Decided name → ∃ i < k, w.PlacedAt name i
  settled : ∀ name i, i + 1 < k → w.PlacedAt name i → r.Settled name
  dependencies : ∀ t ∈ w.tasks, r.Admitted t.name → ∀ name ∈ t.dependencies,
    ¬ Relation.TransGen w.Precedes t.name name → name ∈ r.ledger.completed

/-- All tasks of the first levels are decided. -/
def DecidedUpTo (w : Workflow) (k : Nat) (r : Run) : Prop :=
  ∀ name i, i < k → w.PlacedAt name i → r.Decided name

/-! ## Opening and closing levels -/

theorem admitted_iff : r.Admitted name ↔
    name ∈ r.ledger.completed ∨ ∃ t ∈ r.level.map (·.task), t.name = name := by
  simp [Admitted]

theorem admitted_congr (hledger : r'.ledger = r.ledger)
    (htasks : r'.level.map (·.task) = r.level.map (·.task)) :
    r'.Admitted name ↔ r.Admitted name := by
  rw [admitted_iff, admitted_iff, hledger, htasks]

theorem decided_congr (hledger : r'.ledger = r.ledger)
    (htasks : r'.level.map (·.task) = r.level.map (·.task)) :
    r'.Decided name ↔ r.Decided name := by
  rw [Decided, Decided, admitted_congr hledger htasks, hledger]

/-- Only the workflow, the ledger and the tasks of the level matter. -/
theorem OnPlan.congr (hr : OnPlan w k r) (hworkflow : r'.workflow = r.workflow)
    (hledger : r'.ledger = r.ledger) (htasks : r'.level.map (·.task) = r.level.map (·.task)) :
    OnPlan w k r' := by
  refine ⟨hworkflow.trans hr.workflow, fun name h => hr.placed name ?_, fun name i hi h => ?_,
    fun t ht h => ?_⟩
  · rwa [← decided_congr hledger htasks]
  · rw [Settled, hledger]
    exact hr.settled name i hi h
  · rw [admitted_congr hledger htasks] at h
    rw [hledger]
    exact hr.dependencies t ht h

theorem DecidedUpTo.congr (hr : DecidedUpTo w k r) (hledger : r'.ledger = r.ledger)
    (htasks : r'.level.map (·.task) = r.level.map (·.task)) : DecidedUpTo w k r' := by
  intro name i hi h
  rw [decided_congr hledger htasks]
  exact hr name i hi h

theorem OnPlan.abandon (hr : OnPlan w k r) (hworkflow : r'.workflow = r.workflow)
    (hledger : r'.ledger = r.ledger) (hlevel : r'.level = []) : OnPlan w k r' := by
  have hadmitted : ∀ name, r'.Admitted name → r.Admitted name := fun name h => by
    simp only [Admitted, hlevel, hledger, List.not_mem_nil, false_and, exists_false, or_false] at h
    exact .inl h
  refine ⟨hworkflow.trans hr.workflow, fun name h => hr.placed name ?_, fun name i hi h => ?_,
    fun t ht h => ?_⟩
  · rw [Decided, hledger] at h
    exact h.imp_right (hadmitted name)
  · rw [Settled, hledger]
    exact hr.settled name i hi h
  · rw [hledger]
    exact hr.dependencies t ht (hadmitted _ h)

/-- Between two levels what is decided is settled. -/
theorem Decided.settled (h : r.Decided name) (hlevel : r.level = []) :
    r.Settled name := by
  rcases h with h | h | ⟨t, ht, -⟩
  · exact .inl h
  · exact .inr h
  · simp [hlevel] at ht

/-- Opening the next level. A task that may run has no dependency that was skipped, and those that
come before it in the plan are settled, so they have completed. -/
theorem OnPlan.opened (hw : w.validate = .ok ()) (hr : OnPlan w k r)
    (hdecided : DecidedUpTo w k r) (hlevel : r.level = []) {names : List String}
    (hnames : w.executionLevels[k]? = some names) (hworkflow : r'.workflow = w)
    (hledger : r'.ledger = (Ledger.openLevel w names r.ledger).2)
    (htasks : r'.level.map (·.task) = (Ledger.openLevel w names r.ledger).1) :
    OnPlan w (k + 1) r' ∧ DecidedUpTo w (k + 1) r' := by
  obtain ⟨hunique, hresolved, -, -⟩ := validate_eq_ok.mp hw
  have hopening := Ledger.opening w names r.ledger
  rw [← hledger, ← htasks] at hopening
  have hsettled : ∀ name i, i < k → w.PlacedAt name i → r.Settled name :=
    fun name i hi h => (hdecided name i hi h).settled hlevel
  have hgrows : ∀ name, r.Settled name → r'.Settled name := by
    rintro name (h | h)
    · exact .inl (hopening.skipped name h)
    · exact .inr (hopening.completed ▸ h)
  refine ⟨⟨hworkflow, fun name h => ?_, fun name i hi h => hgrows name (hsettled name i ?_ h),
    fun t ht h name hname hback => ?_⟩, fun name i hi h => ?_⟩
  · have hold : r.Decided name ∨ name ∈ names := by
      rcases h with h | h
      · exact (hopening.skipped_cases name h).imp_left .inl
      · rcases admitted_iff.mp h with h | ⟨t, ht, rfl⟩
        · exact .inl (.inr (.inl (hopening.completed ▸ h)))
        · exact .inr (hopening.task t ht).2
    rcases hold with h | h
    · obtain ⟨i, hi, hplaced⟩ := hr.placed name h
      exact ⟨i, by omega, hplaced⟩
    · exact ⟨k, by omega, names, hnames, h⟩
  · omega
  · rcases admitted_iff.mp h with h | ⟨u, hu, hname'⟩
    · rw [hopening.completed] at h ⊢
      exact hr.dependencies t ht (.inl h) name hname hback
    -- Names differ, so the task that was let run under the name of `t` is `t` itself.
    · obtain ⟨hu', hmem⟩ := hopening.task u hu
      rw [hname', task?_of_mem hunique ht] at hu'
      cases hu'
      have hprecedes : w.Precedes name t.name := ⟨t, ht, rfl, .inl hname⟩
      obtain ⟨i, hi, -⟩ :=
        exists_unique_placedAt hunique (hprecedes.mem_taskNames hresolved).1
      have hlt := lt_of_precedes hunique hprecedes hback hi ⟨names, hnames, hmem⟩
      rw [hopening.completed]
      exact (hsettled name i hlt hi).resolve_left (hopening.allowed t hu name hname)
  · rcases Nat.lt_succ_iff_lt_or_eq.mp hi with hi | rfl
    · exact (hgrows name (hsettled name i hi h)).imp_right .inl
    · obtain ⟨t, ht, rfl⟩ := List.mem_map.mp (mem_taskNames_of_placedAt h)
      obtain ⟨names', hnames', hmem⟩ := h
      rw [hnames] at hnames'
      cases hnames'
      rcases hopening.decided _ hmem t (task?_of_mem hunique ht) with h | h
      · exact .inl h
      · exact .inr (admitted_iff.mpr (.inr ⟨t, h, rfl⟩))

theorem OnPlan.close (hr : OnPlan w k r) (hdecided : DecidedUpTo w k r)
    (hworkflow : r'.workflow = r.workflow) (hlevel : r'.level = [])
    (hskipped : r'.ledger.skipped = r.ledger.skipped)
    (hcompleted : ∀ name, name ∈ r'.ledger.completed ↔ r.Admitted name) :
    OnPlan w k r' ∧ DecidedUpTo w k r' := by
  have hadmitted : ∀ name, r'.Admitted name ↔ r.Admitted name := by
    simp [Admitted, hlevel, hcompleted]
  have hsame : ∀ name, r'.Decided name ↔ r.Decided name := fun name => by
    rw [Decided, Decided, hadmitted, hskipped]
  refine ⟨⟨hworkflow.trans hr.workflow, fun name h => hr.placed name ((hsame name).mp h),
    fun name i hi h => ?_, fun t ht h name hname hback => ?_⟩,
    fun name i hi h => (hsame name).mpr (hdecided name i hi h)⟩
  · exact ((hsame name).mpr (hdecided name i (by omega) h)).settled hlevel
  · rw [hcompleted]
    exact .inl (hr.dependencies t ht ((hadmitted _).mp h) name hname hback)

/-! ## Turns of the coordinator -/

/-- How a run stands when some levels of the plan were opened. -/
def Follows (w : Workflow) (r : Run) : Prop :=
  ∃ k, OnPlan w k r ∧ (r.isGoing →
    DecidedUpTo w k r ∧ r.ahead = w.executionLevels.drop k ∧ ∃ looked, r.Working looked)

theorem OnPlan.of_outline (hr : OnPlan w k r) (h : r'.outline = r.outline) : OnPlan w k r' :=
  hr.congr (congrArg Outline.workflow h) (congrArg Outline.ledger h) (congrArg Outline.tasks h)

theorem OnPlan.conclude (hr : OnPlan w k r) (now : Nat) (error : Option ExecutionError) :
    Follows w (r.conclude now error) :=
  ⟨k, hr.congr rfl rfl rfl, fun h => by cases h⟩

theorem Follows.of_outline (hr : Follows w r) (h : r'.outline = r.outline)
    (hworking : ∀ looked, r.Working looked → r'.Working looked) : Follows w r' := by
  obtain ⟨k, hplan, hgoing⟩ := hr
  refine ⟨k, hplan.of_outline h, fun hgo => ?_⟩
  have hstate : r'.state = r.state := congrArg Outline.state h
  rw [isGoing, hstate] at hgo
  obtain ⟨hdecided, hahead, looked, hlooked⟩ := hgoing hgo
  exact ⟨hdecided.congr (congrArg Outline.ledger h) (congrArg Outline.tasks h),
    (congrArg Outline.ahead h).trans hahead, looked, hworking looked hlooked⟩

/-- Going on to the next level in which there is something to run. -/
theorem openNext_follows (hw : w.validate = .ok ()) {now : Nat} {ahead : List (List String)}
    (hr : OnPlan w k r) (hdecided : DecidedUpTo w k r) (hahead : ahead = w.executionLevels.drop k)
    (hlevel : r.level = []) (hqueue : r.queue = []) (hended : r.ended = []) :
    Follows w (openNext now ahead r) := by
  induction ahead generalizing r k with
  | nil =>
    have hdone : OnPlan w k { r with ahead := [], level := [] } :=
      hr.congr rfl rfl (by rw [hlevel])
    exact hdone.conclude now none
  | cons names ahead ih =>
    have hnames : w.executionLevels[k]? = some names := by
      rw [← List.head?_drop, ← hahead]
      rfl
    have hrest : ahead = w.executionLevels.drop (k + 1) := by
      rw [← List.tail_drop, ← hahead]
      rfl
    have hopened : ∀ r' : Run, r'.workflow = w →
        r'.ledger = (Ledger.openLevel w names r.ledger).2 →
        r'.level.map (·.task) = (Ledger.openLevel w names r.ledger).1 →
        OnPlan w (k + 1) r' ∧ DecidedUpTo w (k + 1) r' :=
      fun r' => hr.opened hw hdecided hlevel hnames
    rw [openNext]
    split
    · exact hr.conclude now _
    · rw [hr.workflow]
      dsimp only
      split
      · rename_i hempty
        obtain ⟨hplan, hall⟩ := hopened { r with
          workflow := w
          ledger := (Ledger.openLevel w names r.ledger).2 } rfl rfl
            (by rw [hlevel, List.isEmpty_iff.mp hempty]; rfl)
        exact ih hplan hall hrest hlevel hqueue hended
      · obtain ⟨hplan, hall⟩ := hopened { r with
          workflow := w
          ledger := (Ledger.openLevel w names r.ledger).2
          ahead
          level := (Ledger.openLevel w names r.ledger).1.map fun task => { task }
          seen := 0
          results := [] } rfl rfl (by simp [Function.comp_def])
        refine Follows.of_outline
          ⟨k + 1, hplan, fun _ => ⟨hall, hrest, [], working_nil hqueue hended rfl⟩⟩
          (outline_pushAll _ _) fun looked hlooked => ?_
        exact hlooked.of_outline (outline_pushAll _ _) (by rw [desk_pushAll]; exact hlooked.counted)

/-- Closing a level whose tasks have all left a result. -/
theorem closeLevel_follows (hw : w.validate = .ok ()) {now : Nat} (hr : OnPlan w k r)
    (hdecided : DecidedUpTo w k r) (hahead : r.ahead = w.executionLevels.drop k)
    (hresults : ∀ t ∈ r.level, r.results.has t.task.name) (hqueue : r.queue = [])
    (hended : r.ended = []) : Follows w (r.closeLevel now) := by
  have hclosed : ∀ r' : Run, r'.workflow = r.workflow → r'.level = [] →
      r'.ledger.skipped = r.ledger.skipped →
      r'.ledger.completed =
        (Ledger.enter (r.level.map (·.task)) r.results r.context r.ledger).2.completed →
      OnPlan w k r' ∧ DecidedUpTo w k r' := by
    intro r' hworkflow hlevel hskipped hcompleted
    refine hr.close hdecided hworkflow hlevel hskipped fun name => ?_
    rw [hcompleted, admitted_iff]
    constructor
    · exact Ledger.mem_of_mem_completed_enter _ _ _ _
    · rintro (h | ⟨t, ht, rfl⟩)
      · exact Ledger.mem_completed_enter _ _ _ _ (.inl h)
      · obtain ⟨t', ht', rfl⟩ := List.mem_map.mp ht
        exact Ledger.mem_completed_enter _ _ _ _ (.inr ⟨hresults t' ht', _, ht, rfl⟩)
  rw [closeLevel]
  dsimp only
  split
  · refine OnPlan.conclude (k := k) ?_ now _
    exact hr.abandon rfl rfl rfl
  · rename_i ledger s hdecide
    obtain ⟨hskipped, hcompleted⟩ := Ledger.decideAll_ok hdecide
    obtain ⟨hplan, hall⟩ := hclosed { r with context := s.context, ledger, level := [] } rfl rfl
      (hskipped.trans (Ledger.skipped_enter ..)) hcompleted
    exact openNext_follows hw hplan hall hahead rfl hqueue hended

theorem Follows.coordinate (hw : w.validate = .ok ()) (hr : Follows w r) (hgoing : r.isGoing)
    (now : Nat) : Follows w (r.coordinate now) := by
  obtain ⟨k, hplan, hgo⟩ := hr
  obtain ⟨hdecided, hahead, looked, hworking⟩ := hgo hgoing
  have hsame := look_sameLevel now r.ended { r with ended := [] }
  have hdesk : ∀ {α : Type} (f : Desk → α), f (look now r.ended { r with ended := [] }).desk =
      f { r.desk with ended := [] } := fun f => congrArg f hsame.desk
  have hlooked := hworking.look now
  rw [Run.coordinate]
  generalize look now r.ended { r with ended := [] } = s at *
  have hs : OnPlan w k s :=
    hplan.congr hsame.workflow hsame.ledger (hdesk fun d => d.level.map (·.task))
  have hall : DecidedUpTo w k s :=
    hdecided.congr hsame.ledger (hdesk fun d => d.level.map (·.task))
  have hclose :
      Follows w (if s.isGoing ∧ s.seen = s.level.length then s.closeLevel now else s) := by
    split
    · rename_i h
      obtain ⟨hresults, hqueue⟩ := (hlooked h.1).closed h.2
      exact closeLevel_follows hw hs hall (hsame.ahead.trans hahead) hresults hqueue
        (hdesk Desk.ended)
    · exact ⟨k, hs, fun h => ⟨hall, hsame.ahead.trans hahead, _, hlooked h⟩⟩
  generalize (if s.isGoing ∧ s.seen = s.level.length then s.closeLevel now else s) = u at hclose ⊢
  obtain ⟨k', hplan', hgo'⟩ := hclose
  split
  · have hcanceled : OnPlan w k' { u with activity := u.activity.cancel } :=
      hplan'.congr rfl rfl rfl
    exact hcanceled.conclude now _
  · exact ⟨k', hplan', hgo'⟩

/-! ## Runs -/

theorem Follows.step (hw : w.validate = .ok ()) (hr : Follows w r) (h : Step r r') :
    Follows w r' := by
  cases h with
  | coordinate now hgoing => exact hr.coordinate hw hgoing now
  | advanceTask i now tokenFirst hgoing =>
    exact hr.of_outline (r.advanceTask_cases i now tokenFirst).1
      fun _ h => h.advanceTask i now tokenFirst
  | cancel => exact hr.of_outline (outline_cancel r) fun _ h => h.cancel
  | schedule turns =>
    exact hr.of_outline rfl fun _ h => ⟨h.counted, h.seen, h.results⟩

theorem follows_start (w : Workflow) (functions : Registry) (handler : Handler)
    (secrets : SecretCache) (activity : Activity) (yields : Bool) (id : String) (now : Nat) :
    Follows w (start w functions handler secrets activity yields id now) := by
  refine ⟨0, ⟨rfl, fun name h => ?_, fun name i hi => by omega, fun t _ h => ?_⟩, fun _ =>
    ⟨fun name i hi => by omega, rfl, [], working_nil rfl rfl rfl⟩⟩
  · simp [Decided, Admitted, start] at h
  · simp [Admitted, start] at h

theorem Follows.steps (hw : w.validate = .ok ()) (hr : Follows w r) (h : Steps r r') :
    Follows w r' := by
  induction h with
  | refl => exact hr
  | tail _ h ih => exact ih.step hw h

theorem Follows.settled_of_decided (hr : Follows w r) {a b : String}
    (horder : ∀ i j, w.PlacedAt a i → w.PlacedAt b j → i < j) (ha : ∃ i, w.PlacedAt a i)
    (hb : r.Decided b) : r.Settled a := by
  obtain ⟨k, hplan, -⟩ := hr
  obtain ⟨i, hi⟩ := ha
  obtain ⟨j, hj, hplaced⟩ := hplan.placed b hb
  have hlt := horder i j hi hplaced
  exact hplan.settled a i (by omega) hi

end Run

namespace Workflow

/-- What the plan of a workflow that passes validation is worth. Every task has one place. A
dependency, or a task with a branch, is on a lower level than the task that it comes before, unless
the two lie on a cycle of `Precedes`; and then in every run it is settled before the other one is
decided, and a dependency has completed before the other task is let run. No such pair lies on
a cycle exactly when all are in order. -/
theorem plan_order {w : Workflow} (hw : w.validate = .ok ()) :
    (∀ name ∈ w.taskNames, ∃! k, w.PlacedAt name k) ∧
    (∀ a b, w.Precedes a b → ¬ Relation.TransGen w.Precedes b a →
      (∀ i j, w.PlacedAt a i → w.PlacedAt b j → i < j) ∧
      ∀ functions handler secrets activity yields id now r,
        Run.Steps (Run.start w functions handler secrets activity yields id now) r →
        (r.Decided b → r.Settled a) ∧
        ∀ t ∈ w.tasks, t.name = b → a ∈ t.dependencies → r.Admitted b →
          a ∈ r.ledger.completed) ∧
    ((∀ a b i j, w.Precedes a b → w.PlacedAt a i → w.PlacedAt b j → i < j) ↔
      ∀ a, ¬ Relation.TransGen w.Precedes a a) := by
  obtain ⟨hunique, hresolved, -, -⟩ := validate_eq_ok.mp hw
  refine ⟨fun name => exists_unique_placedAt hunique, fun a b hab hback => ?_,
    all_in_order_iff hunique hresolved⟩
  have horder : ∀ i j, w.PlacedAt a i → w.PlacedAt b j → i < j :=
    fun i j => lt_of_precedes hunique hab hback
  refine ⟨horder, fun functions handler secrets activity yields id now r hsteps => ?_⟩
  have hr := (Run.follows_start w functions handler secrets activity yields id now).steps hw hsteps
  constructor
  · obtain ⟨i, hi, -⟩ := exists_unique_placedAt hunique (hab.mem_taskNames hresolved).1
    exact hr.settled_of_decided horder ⟨i, hi⟩
  · rintro t ht rfl hdep hadmitted
    obtain ⟨k, hplan, -⟩ := hr
    exact hplan.dependencies t ht hadmitted a hdep hback

/-- Two tasks come after the first one: one depends on it, it branches to the other. -/
def fork : Workflow where
  name := "fork"
  tasks := [{ name := "A", branches := [⟨"$[true]", "C"⟩] }, { name := "B", dependencies := ["A"] },
    { name := "C" }]

theorem plan_order_fork :
    fork.validate = .ok () ∧ fork.executionLevels = [["A"], ["B", "C"]] ∧
      ∀ i j, fork.PlacedAt "A" i → fork.PlacedAt "C" j → i < j := by
  have hw : fork.validate = .ok () := by decide
  have hab : fork.Precedes "A" "C" := by
    refine ⟨{ name := "C" }, by simp [fork], rfl, .inr ?_⟩
    simp [fork, Task.branchTargets]
  have hlast : ∀ b, ¬ fork.Precedes "C" b := by
    simp [Precedes, fork, Task.branchTargets]
  have hback : ¬ Relation.TransGen fork.Precedes "C" "A" := by
    intro h
    obtain ⟨b, hb, -⟩ := Relation.TransGen.head'_iff.mp h
    exact hlast b hb
  exact ⟨hw, by decide, ((plan_order hw).2.1 "A" "C" hab hback).1⟩

end Workflow

end WorkflowEngine
