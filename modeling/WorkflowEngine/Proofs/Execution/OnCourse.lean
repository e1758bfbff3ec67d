import WorkflowEngine.Proofs.Execution.Course
import WorkflowEngine.Proofs.Execution.Report
import WorkflowEngine.Proofs.Execution.Turns

/-!
# Runs keep to the course

A run of a workflow without limits of time and without second attempts, in which nobody cancels,
keeps to the course of that workflow (`OnCourse`). While it goes on, its tasks are on their way to
the ends that the course has for them, and what is still ahead leads to what the course comes to
(`OnLevel`).
-/

namespace WorkflowEngine

open Expression (Context Scope SecretCache)
open Json (Value)

/-- Without limits of time, and without second attempts. -/
structure Workflow.Untimed (w : Workflow) : Prop where
  timeout : w.configuration.timeout = none
  tasks : ∀ t ∈ w.tasks, t.timeout = none ∧ t.retries = 0

theorem replaceTask_untimed {s : Scope} {t resolved : Task}
    (h : (s.replaceTask t).1 = .ok resolved) :
    resolved.timeout = t.timeout ∧ resolved.retries = t.retries := by
  have hfill : ∀ {s : Scope} {description}, s.fillTask t description = .ok resolved →
      resolved.timeout = t.timeout ∧ resolved.retries = t.retries := by
    intro s description h
    unfold Scope.fillTask at h
    dsimp only at h
    split at h
    · cases h
    · split at h
      · cases h
      · cases h
        exact ⟨rfl, rfl⟩
  rw [Scope.replaceTask] at h
  split at h
  · cases h
  · split at h
    · cases h
    · rw [Scope.afterSecrets] at h
      split at h
      · split at h
        · cases h
        · exact hfill h
      · exact hfill h

/-! ## Attempts at a task -/

/-- How an only attempt stands. -/
def Progress.attempts : Progress → Attempts
  | .ended o => .ended (.ofOutcome o)
  | p => .calling p none 0

namespace Assignment

variable {answer : Answers}

theorem follow_untimed (s : Assignment) (now : Nat) (p : Progress) (a : Activity) :
    (s.follow now 0 none p a).1 = p.attempts ∧
      (s.follow now 0 none p a).2.canceled = a.canceled := by
  rw [follow.eq_def]
  cases p with
  | ended o => cases o <;> exact ⟨rfl, rfl⟩
  | sleeping wake next => exact ⟨rfl, rfl⟩
  | awaiting next => exact ⟨rfl, rfl⟩
  | hung => exact ⟨rfl, rfl⟩

theorem begin_untimed {s : Assignment} (hanswers : s.handler.Answers answer)
    (htimeout : s.task.timeout = none) (hretries : s.task.retries = 0) (now : Nat) (a : Activity) :
    ∃ p : Progress, p.Gives (answer s.task s.context.snapshot) ∧
      (s.begin now a).1 = p.attempts ∧ (s.begin now a).2.canceled = a.canceled := by
  have hdeadline : s.deadlineFrom now = none := by rw [deadlineFrom, htimeout, Option.map_none]
  obtain ⟨hgives, hcanceled⟩ :=
    (hanswers s.task s.context (a.callsOf s.task.name)).settle now a.canceled
  rw [begin, hretries, attempt, hdeadline]
  obtain ⟨hattempts, hkept⟩ := s.follow_untimed now (s.call now a).1 (s.call now a).2
  exact ⟨_, hgives, hattempts, hkept.trans hcanceled⟩

theorem resume_untimed (s : Assignment) {p : Progress} {o : Option Outcome} (h : p.Gives o)
    (now : Nat) (tokenFirst : Bool) (a : Activity) :
    (s.resume now tokenFirst (.calling p none 0) a).1 = (p.resume now a.canceled).1.attempts ∧
      (s.resume now tokenFirst (.calling p none 0) a).2.canceled = a.canceled := by
  rw [resume]
  obtain ⟨hattempts, hkept⟩ := s.follow_untimed now (p.resume now a.canceled).1
    { a with canceled := (p.resume now a.canceled).2 }
  exact ⟨hattempts, hkept.trans (h.resume now a.canceled).2⟩

end Assignment

/-- The phase is one on the way to the end that the task has in this scope. -/
def TaskPhase.Fits (answer : Answers) (s : Scope) (t : Task) : TaskPhase → Prop
  | .active _ attempts => ∃ p o, attempts = .calling p none 0 ∧ p.Gives o ∧
      (∀ o, p ≠ .ended o) ∧ endOf? answer s t = o.map .ofOutcome
  | .ended e => endOf? answer s t = some e
  | _ => True

theorem fits_attempts {answer : Answers} {s : Scope} {t : Task} {p : Progress}
    {o : Option Outcome} (h : p.Gives o) (hend : endOf? answer s t = o.map .ofOutcome)
    (task : Assignment) : (p.attempts.phase task).Fits answer s t := by
  cases h with
  | ended o => exact hend
  | sleeping wake h => exact ⟨_, _, rfl, .sleeping wake h, by simp, hend⟩
  | hung => exact ⟨_, _, rfl, .hung, by simp, hend⟩

namespace Run

variable {answer : Answers} {w : Workflow} {total : Option (Fields Value × Ledger)} {s : Scope}
  {r r' : Run} {i : Nat} {tokenFirst : Bool} {t : TaskRun} {looked : List Nat}

/-- How a level stands that was opened with the scope `s`. -/
structure OnLevel (answer : Answers) (w : Workflow) (total : Option (Fields Value × Ledger))
    (s : Scope) (r : Run) : Prop where
  workflow : r.workflow = w
  answers : r.handler.Answers answer
  deadline : r.deadline = none
  uncanceled : r.activity.canceled = false
  scope : ∃ c, r.scope = s.withSecrets c ∧ s.context.secrets.Alike c
  tasks : ∀ t ∈ r.level.map (·.task), w.task? t.name = some t
  phases : ∀ t ∈ r.level, t.phase.Fits answer s t.task
  results : ∀ name v, r.results.find? name = some v →
    ∃ t ∈ r.level.map (·.task), t.name = name ∧ endOf? answer s t = some (.done v)
  /-- What is left of the course leads to the total. -/
  remaining : afterLevel answer (fun s l => course answer w r.ahead s l) (r.level.map (·.task)) s
    r.ledger = total

/-- The run keeps to a course that comes to `total`. -/
structure OnCourse (answer : Answers) (w : Workflow) (total : Option (Fields Value × Ledger))
    (r : Run) : Prop where
  going : r.isGoing → ∃ s looked, OnLevel answer w total s r ∧ r.Steady looked ∧
    r.desk.Staffed r.permits looked
  succeeded : ∀ time, r.state = .over time none → total = some (r.context.outputs, r.ledger)
  failed : ∀ time error, r.state = .over time (some error) → total = none
  not_crashed : r.state ≠ .crashed

theorem onCourse_of_going (hgoing : r.isGoing) (h : ∃ s looked, OnLevel answer w total s r ∧
    r.Steady looked ∧ r.desk.Staffed r.permits looked) : OnCourse answer w total r := by
  have hstate : r.state = .going := by
    rw [isGoing] at hgoing
    split at hgoing
    · assumption
    · cases hgoing
  refine ⟨fun _ => h, ?_, ?_, ?_⟩
  · intro time hover
    rw [hstate] at hover
    cases hover
  · intro time error hover
    rw [hstate] at hover
    cases hover
  · rw [hstate]
    simp

theorem OnLevel.of_core (hr : OnLevel answer w total s r) (h : r'.core = r.core) :
    OnLevel answer w total s r' := by
  rw [eq_of_core h]
  exact ⟨hr.workflow, hr.answers, hr.deadline, hr.uncanceled, hr.scope, hr.tasks, hr.phases,
    hr.results, hr.remaining⟩

theorem OnCourse.of_core (hr : OnCourse answer w total r) (h : r'.core = r.core) :
    OnCourse answer w total r' := by
  have heq := eq_of_core h
  refine ⟨?_, by rw [heq]; exact hr.succeeded, by rw [heq]; exact hr.failed,
    by rw [heq]; exact hr.not_crashed⟩
  intro hgoing
  rw [heq] at hgoing
  obtain ⟨s, looked, hlevel, hsteady, hstaffed⟩ := hr.going hgoing
  refine ⟨s, looked, hlevel.of_core h, ?_, ?_⟩
  · rw [heq]
    exact ⟨⟨hsteady.working.counted, hsteady.working.seen, hsteady.working.results⟩, hsteady.done⟩
  · rw [heq]
    exact hstaffed

/-! ## Turns of tasks -/

theorem OnLevel.of_rules (hr : OnLevel answer w total s r) (h : r.SameRules r')
    (hphases : ∀ t ∈ r'.level, t.phase.Fits answer s t.task) : OnLevel answer w total s r' := by
  have htasks : r'.level.map (·.task) = r.level.map (·.task) := congrArg Outline.tasks h.outline
  have hledger : r'.ledger = r.ledger := congrArg Outline.ledger h.outline
  have hahead : r'.ahead = r.ahead := congrArg Outline.ahead h.outline
  have hresults : r'.results = r.results := congrArg Outline.results h.outline
  refine ⟨(congrArg Outline.workflow h.outline).trans hr.workflow, ?_, h.deadline.trans hr.deadline,
    ?_, ?_, ?_, hphases, ?_, ?_⟩
  · rw [h.handler]
    exact hr.answers
  · rw [h.activity]
    exact hr.uncanceled
  · rw [h.scope]
    exact hr.scope
  · rw [htasks]
    exact hr.tasks
  · rw [htasks, hresults]
    exact hr.results
  · rw [htasks, hledger, hahead]
    exact hr.remaining

theorem OnLevel.proceed (hr : OnLevel answer w total s r) (hi : r.level[i]? = some t)
    {task : Assignment} {attempts : Attempts}
    (hfits : (attempts.phase task).Fits answer s t.task) :
    OnLevel answer w total s (r.proceed i task attempts) := by
  refine hr.of_rules (sameRules_proceed ..) ?_
  intro t' ht'
  rcases mem_proceed ht' with hold | hgranted | ⟨u, hu, rfl⟩
  · exact hr.phases t' hold
  · rw [hgranted]
    trivial
  · rw [hi] at hu
    cases hu
    exact hfits

theorem OnLevel.setActivity (hr : OnLevel answer w total s r) {a : Activity}
    (ha : a.canceled = r.activity.canceled) : OnLevel answer w total s { r with activity := a } :=
  ⟨hr.workflow, hr.answers, hr.deadline, ha.trans hr.uncanceled, hr.scope, hr.tasks, hr.phases,
    hr.results, hr.remaining⟩

/-- Filling in a task gives what it would have given when the level was opened. -/
theorem OnLevel.replaceTask (hr : OnLevel answer w total s r) (t : Task) :
    (r.scope.replaceTask t).1 = (s.replaceTask t).1 ∧
      (r.scope.replaceTask t).2.context.snapshot = s.context.snapshot ∧
      OnLevel answer w total s (r.setScope (r.scope.replaceTask t).2) := by
  obtain ⟨c, hscope, halike⟩ := hr.scope
  have hasks := Scope.asks_replaceTask t
  obtain ⟨c', hset, halike'⟩ := hasks.alike s halike.right
  have hsame := halike.trans halike'
  rw [hscope, hset]
  refine ⟨hasks.fst_alike s halike.symm, ?_, hr.workflow, hr.answers, hr.deadline, hr.uncanceled,
    ⟨c', ?_, hsame⟩, hr.tasks, hr.phases, hr.results, hr.remaining⟩
  · simp [Scope.withSecrets, Expression.Context.snapshot, hsame.provider]
  · have hfunctions : r.functions = s.functions := congrArg (·.functions) hscope
    rw [Run.scope, setScope, hfunctions]
    rfl

theorem OnLevel.admits (hr : OnLevel answer w total s r) {task : Task} (h : r.Admits i task r') :
    OnLevel answer w total s r' := by
  cases h with
  | spawned hi _ =>
    exact ⟨hr.workflow, hr.answers, hr.deadline, hr.uncanceled, hr.scope, hr.tasks, hr.phases,
      hr.results, hr.remaining⟩
  | granted hi => exact hr

theorem OnLevel.turned (hw : w.Untimed) (hr : OnLevel answer w total s r) {now : Nat}
    (h : r.Turned i now tokenFirst r') : OnLevel answer w total s r' := by
  cases h with
  | idle => exact hr
  | queued hi hpermits =>
    have hset := hr.of_rules (sameRules_setPhase r i .waiting) (by
      intro t ht
      rcases Desk.mem_setPhase (d := r.desk) ht with hold | ⟨u, -, rfl⟩
      · exact hr.phases t hold
      · trivial)
    exact ⟨hset.workflow, hset.answers, hset.deadline, hset.uncanceled, hset.scope, hset.tasks,
      hset.phases, hset.results, hset.remaining⟩
  | failed hadmits hfault =>
    rename_i task fault r₁
    obtain ⟨hlevel, phase, hi, -⟩ := hadmits.level
    obtain ⟨hfirst, -, hset⟩ := (hr.admits hadmits).replaceTask task
    rw [hfirst] at hfault
    have hend : endOf? answer s task = some (.failed (.placeholders task.name fault)) := by
      rw [endOf?, hfault]
    have hi₁ : (r₁.setScope (r₁.scope.replaceTask task).2).level[i]? = some ⟨task, phase⟩ := by
      rw [← hi, ← hlevel]
      rfl
    have hfits : (Attempts.phase ⟨task, r.context, r.handler⟩
        (.ended (.failed (.placeholders task.name fault)))).Fits answer s task := hend
    exact hset.proceed hi₁ hfits
  | began hadmits hresolved htask houtcome =>
    rename_i task resolved r₁ assignment outcome
    obtain ⟨hlevel, phase, hi, -⟩ := hadmits.level
    have hr₁ := hr.admits hadmits
    obtain ⟨hfirst, hsnapshot, hset⟩ := hr₁.replaceTask task
    have huntimed := hw.tasks task (by
      have hmem := hr.tasks task (List.mem_map_of_mem (List.mem_of_getElem? hi))
      exact List.mem_of_find?_eq_some hmem)
    obtain ⟨htimeout, hretries⟩ := replaceTask_untimed hresolved
    obtain ⟨p, hgives, hattempts, hcanceled⟩ := Assignment.begin_untimed (s := assignment)
      (by rw [htask]; exact hr₁.answers) (by rw [htask]; exact htimeout.trans huntimed.1)
      (by rw [htask]; exact hretries.trans huntimed.2) now r₁.activity
    rw [← houtcome] at hattempts hcanceled
    have hend : endOf? answer s task =
        (answer assignment.task assignment.context.snapshot).map .ofOutcome := by
      rw [endOf?, ← hfirst, hresolved, htask, ← hsnapshot]
    rw [hattempts]
    exact (hset.setActivity hcanceled).proceed (show r₁.level[i]? = _ by rw [hlevel, hi])
      (fits_attempts hgives hend assignment)
  | resumed hi houtcome =>
    rename_i task assignment attempts outcome
    obtain ⟨p, o, rfl, hgives, -, hend⟩ := hr.phases _ (List.mem_of_getElem? hi)
    obtain ⟨hattempts, hcanceled⟩ := assignment.resume_untimed hgives now tokenFirst r.activity
    rw [← houtcome] at hattempts hcanceled
    rw [hattempts]
    exact (hr.setActivity hcanceled).proceed (show r.level[i]? = _ from hi)
      (fits_attempts (hgives.resume now _).1 hend assignment)

theorem OnCourse.advanceTask (hw : w.Untimed) (hr : OnCourse answer w total r)
    (hgoing : r.isGoing) (i now : Nat) (tokenFirst : Bool) :
    OnCourse answer w total (r.advanceTask i now tokenFirst) := by
  obtain ⟨s, looked, hlevel, hsteady, hstaffed⟩ := hr.going hgoing
  obtain ⟨houtline, -⟩ := r.advanceTask_cases i now tokenFirst
  obtain ⟨r', hturned, hcore⟩ := r.turned_advanceTask i now tokenFirst
  have hstate : (r.advanceTask i now tokenFirst).state = r.state :=
    congrArg Outline.state houtline
  have hgoing' : (r.advanceTask i now tokenFirst).isGoing := by
    rw [isGoing, hstate]
    exact hgoing
  refine onCourse_of_going hgoing' ⟨s, looked, (hlevel.turned hw hturned).of_core hcore,
    hsteady.advanceTask i now tokenFirst, ?_⟩
  have hdesk : (r.advanceTask i now tokenFirst).desk = r'.desk := desk_of_core hcore
  have hpermits : (r.advanceTask i now tokenFirst).permits = r'.permits :=
    congrArg (·.permits) hcore
  rw [hdesk, hpermits]
  exact staffed_turned hsteady.working.counted hstaffed hturned

/-! ## Turns of the coordinator -/

/-- Between two levels. -/
structure Between (answer : Answers) (w : Workflow) (r : Run) : Prop where
  going : r.isGoing
  workflow : r.workflow = w
  answers : r.handler.Answers answer
  deadline : r.deadline = none
  uncanceled : r.activity.canceled = false
  steady : r.context.secrets.Steady
  queue : r.queue = []
  ended : r.ended = []
  permits : 0 < r.permits

theorem onCourse_of_error {time : Nat} {error : ExecutionError} (htotal : total = none)
    (h : r.state = .over time (some error)) : OnCourse answer w total r := by
  refine ⟨?_, ?_, fun _ _ _ => htotal, ?_⟩
  · intro hgoing
    rw [isGoing, h] at hgoing
    cases hgoing
  · intro time' h'
    rw [h] at h'
    cases h'
  · rw [h]
    simp

theorem openLevel_task? (w : Workflow) (names : List String) (l : Ledger) :
    ∀ t ∈ (Ledger.openLevel w names l).1, w.task? t.name = some t :=
  fun t ht => ((Ledger.opening w names l).task t ht).1

/-- No task of the level has begun. -/
theorem Between.opened (hr : Between answer w r) {tasks : List Task}
    (htasks : ∀ t ∈ tasks, w.task? t.name = some t)
    (hlevel : r.level = tasks.map fun task => { task }) (hseen : r.seen = 0)
    (hresults : r.results = [])
    (hremaining : afterLevel answer (fun s l => course answer w r.ahead s l) tasks r.scope
      r.ledger = total) : OnCourse answer w total r := by
  have hmap : r.level.map (·.task) = tasks := by
    rw [hlevel, List.map_map]
    exact List.map_id _
  have hspawned : ∀ t ∈ r.level, t.phase = .spawned := by
    intro t ht
    rw [hlevel] at ht
    obtain ⟨task, -, rfl⟩ := List.mem_map.mp ht
    rfl
  refine onCourse_of_going hr.going ⟨r.scope, [], ⟨hr.workflow, hr.answers, hr.deadline,
    hr.uncanceled, ⟨r.context.secrets, rfl, .refl hr.steady⟩, by rwa [hmap], ?_, ?_,
    by rwa [hmap]⟩, ⟨working_nil hr.queue hr.ended hseen, by simp⟩, ?_, ?_, ?_⟩
  · intro t ht
    rw [hspawned t ht]
    trivial
  · rw [hresults]
    simp [Fields.find?]
  · intro i t hi hwaiting
    rw [hspawned t (List.mem_of_getElem? hi)] at hwaiting
    cases hwaiting
  · intro i t e hi hended
    rw [hspawned t (List.mem_of_getElem? hi)] at hended
    cases hended
  · rintro (hnone | hqueue)
    · exact absurd hnone (Nat.ne_of_gt hr.permits)
    · exact absurd hr.queue hqueue

theorem Between.openNext {now : Nat} {ahead : List (List String)} (hr : Between answer w r)
    (hcourse : course answer w ahead r.scope r.ledger = total) :
    OnCourse answer w total (openNext now ahead r) := by
  induction ahead generalizing r with
  | nil => exact ⟨nofun, fun time _ => hcourse.symm, nofun, nofun⟩
  | cons names ahead ih =>
    have hremaining : afterLevel answer (fun s l => course answer w ahead s l)
        (Ledger.openLevel w names r.ledger).1 r.scope (Ledger.openLevel w names r.ledger).2 =
          total := hcourse
    rw [Run.openNext, if_neg (by simp [hr.uncanceled]), hr.workflow]
    dsimp only
    split
    · rename_i hempty
      rw [List.isEmpty_iff.mp hempty, afterLevel_nil] at hremaining
      exact ih ⟨hr.going, rfl, hr.answers, hr.deadline, hr.uncanceled, hr.steady, hr.queue,
        hr.ended, hr.permits⟩ hremaining
    · have hopened : Between answer w { r with
          workflow := w
          ledger := (Ledger.openLevel w names r.ledger).2
          ahead
          level := (Ledger.openLevel w names r.ledger).1.map fun task => { task }
          seen := 0
          results := [] } :=
        ⟨hr.going, rfl, hr.answers, hr.deadline, hr.uncanceled, hr.steady, hr.queue, hr.ended,
          hr.permits⟩
      exact (hopened.opened (openLevel_task? w names r.ledger) rfl rfl rfl hremaining).of_core
        (core_pushAll ..)

/-- The results that the coordinator has are those of the course. -/
theorem OnLevel.results_eq (hr : OnLevel answer w total s r)
    (hall : ∀ t ∈ r.level, r.results.has t.task.name) :
    ∃ results, resultsOf? answer s (r.level.map (·.task)) = some results ∧
      ∀ t ∈ r.level.map (·.task), results.find? t.name = r.results.find? t.name := by
  -- tasks of one name are the same
  have hsame : ∀ t ∈ r.level.map (·.task), ∀ u ∈ r.level.map (·.task), u.name = t.name →
      u = t := by
    intro t ht u hu hname
    have htask := hr.tasks u hu
    rw [hname, hr.tasks t ht] at htask
    exact (Option.some.inj htask).symm
  have hfound : ∀ t ∈ r.level.map (·.task), ∃ v, r.results.find? t.name = some v ∧
      endOf? answer s t = some (.done v) := by
    intro t ht
    obtain ⟨u, hu, rfl⟩ := List.mem_map.mp ht
    obtain ⟨v, hv⟩ := Option.isSome_iff_exists.mp (hall u hu)
    obtain ⟨t', ht', hname, hend⟩ := hr.results _ v hv
    rw [hsame _ ht t' ht' hname] at hend
    exact ⟨v, hv, hend⟩
  obtain ⟨results, hresults, hhas, hfind⟩ := exists_resultsOf? fun t ht =>
    (hfound t ht).imp fun _ h => h.2
  refine ⟨results, hresults, ?_⟩
  intro t ht
  obtain ⟨v, hv, hend⟩ := hfound t ht
  obtain ⟨v', hv'⟩ := Option.isSome_iff_exists.mp (hhas t ht)
  obtain ⟨t', ht', hname, hend'⟩ := hfind _ v' hv'
  rw [hsame t ht t' ht' hname, hend] at hend'
  cases hend'
  rw [hv, hv']

theorem OnLevel.closeLevel (hr : OnLevel answer w total s r) (hgoing : r.isGoing)
    (hall : ∀ t ∈ r.level, r.results.has t.task.name) (hqueue : r.queue = [])
    (hended : r.ended = []) (hpermits : 0 < r.permits) (now : Nat) :
    OnCourse answer w total (r.closeLevel now) := by
  obtain ⟨results, hresults, hfind⟩ := hr.results_eq hall
  obtain ⟨c, hscope, halike⟩ := hr.scope
  have hfunctions : r.functions = s.functions := congrArg (·.functions) hscope
  have hcontext : r.context = s.context.withSecrets c := congrArg (·.context) hscope
  have hsame : resultsOf? answer s (r.level.map (·.task)) =
      resultsOf? answer r.scope (r.level.map (·.task)) := by
    rw [hscope]
    exact resultsOf?_alike s _ halike
  have hremaining : afterLevel answer (fun s l => course answer w r.ahead s l)
      (r.level.map (·.task)) r.scope r.ledger = total := by
    rw [hscope, ← hr.remaining]
    exact (afterLevel_alike s _ _ halike (fun s l _ _ h => course_alike w r.ahead s l h)).symm
  rw [afterLevel, ← hsame, hresults] at hremaining
  dsimp only at hremaining
  rw [enter_congr hfind] at hremaining
  have hentered : (Ledger.enter (r.level.map (·.task)) r.results r.context r.ledger).1 =
      (Ledger.enter (r.level.map (·.task)) r.results s.context r.ledger).1.withSecrets c := by
    rw [hcontext, enter_withSecrets]
  rw [Run.closeLevel]
  dsimp only
  have hcontext' : r.scope.context = r.context := rfl
  rw [hcontext'] at hremaining
  generalize Ledger.enter (r.level.map (·.task)) r.results r.context r.ledger = entered at *
  obtain ⟨context, ledger⟩ := entered
  dsimp only at hentered hremaining ⊢
  have hscope' : ({ r.scope with context } : Scope) =
      ({ s with context } : Scope).withSecrets c := by
    rw [hentered, Run.scope, hfunctions]
    rfl
  have hopen : Run.scope { r with context, level := [] } = { r.scope with context } := rfl
  rw [hopen]
  obtain ⟨-, c₁, _, hleft, _, halike'⟩ := decideAll_alike (r.level.map (·.task))
    { s with context } ledger (.refl halike.right)
  rw [← hscope'] at hleft
  generalize Ledger.decideAll (r.level.map (·.task)) { r.scope with context } ledger =
    decided at *
  obtain ⟨verdict, s'⟩ := decided
  dsimp only at hleft
  subst hleft
  cases verdict with
  | error fault => exact onCourse_of_error hremaining.symm rfl
  | ok ledger =>
    refine Between.openNext ⟨hgoing, hr.workflow, hr.answers, hr.deadline, hr.uncanceled,
      halike'.left, hqueue, hended, hpermits⟩ ?_
    rw [← hremaining, Run.scope, setScope]
    dsimp only
    rw [hfunctions]
    rfl

/-- A run whose tasks did not end as they should comes to nothing. -/
theorem OnLevel.total_eq_none (hr : OnLevel answer w total s r) (ht : t ∈ r.level) {e : TaskEnd}
    (hended : t.phase = .ended e) (hnot : ∀ v, e ≠ .done v) : total = none := by
  have hend := hr.phases t ht
  rw [hended] at hend
  rw [← hr.remaining]
  refine afterLevel_eq_none (List.mem_map_of_mem ht) ?_
  intro v hdone
  exact hnot v (Option.some.inj ((show endOf? answer s t.task = some e from hend).symm.trans hdone))

theorem OnLevel.look (hr : OnLevel answer w total s r) (hgoing : r.isGoing) (now : Nat)
    (is : List Nat) :
    (Run.look now is r).isGoing ∧ OnLevel answer w total s (Run.look now is r) ∨
      total = none ∧ ∃ error, (Run.look now is r).state = .over now (some error) := by
  induction is generalizing r with
  | nil => exact .inl ⟨hgoing, hr⟩
  | cons i rest ih =>
    rw [Run.look]
    split
    · rename_i task v hi
      have hmem := List.mem_of_getElem? hi
      have hend : endOf? answer s task = some (.done v) := hr.phases _ hmem
      refine ih (r := { r with results := r.results.insert task.name v, seen := r.seen + 1 }) ?_
        hgoing
      refine ⟨hr.workflow, hr.answers, hr.deadline, hr.uncanceled, hr.scope, hr.tasks, hr.phases,
        ?_, hr.remaining⟩
      intro name v' hfind
      rw [Fields.find?_insert] at hfind
      split at hfind
      · rename_i hname
        cases hfind
        exact ⟨task, List.mem_map_of_mem hmem, hname, hend⟩
      · exact hr.results name v' hfind
    · rename_i task fault hi
      exact .inr ⟨hr.total_eq_none (List.mem_of_getElem? hi) rfl (by simp), _, rfl⟩
    · rename_i task hi
      exact .inr ⟨hr.total_eq_none (List.mem_of_getElem? hi) rfl (by simp), _, rfl⟩
    · exact ih hr hgoing

theorem permits_look (now : Nat) (is : List Nat) (r : Run) :
    (look now is r).permits = r.permits := by
  induction is generalizing r with
  | nil => rfl
  | cons i rest ih =>
    rw [look]
    split
    · exact ih _
    · rfl
    · rfl
    · exact ih r

/-- What the coordinator does when there is no limit of time: it looks at the tasks that ended, and
closes the level if that were all. -/
def lookAround (r : Run) (now : Nat) : Run :=
  let u := look now r.ended { r with ended := [] }
  if u.isGoing ∧ u.seen = u.level.length then u.closeLevel now else u

theorem OnCourse.lookAround (hr : OnCourse answer w total r) (hgoing : r.isGoing) (now : Nat) :
    OnCourse answer w total (r.lookAround now) := by
  obtain ⟨s, looked, hlevel, hsteady, hstaffed⟩ := hr.going hgoing
  have hcleared : OnLevel answer w total s { r with ended := [] } :=
    ⟨hlevel.workflow, hlevel.answers, hlevel.deadline, hlevel.uncanceled, hlevel.scope,
      hlevel.tasks, hlevel.phases, hlevel.results, hlevel.remaining⟩
  have hlook := hcleared.look hgoing now r.ended
  have hsteady' := hsteady.look hgoing now
  have hdesk := (look_sameLevel now r.ended { r with ended := [] }).desk
  have hpermits := permits_look now r.ended { r with ended := [] }
  rw [Run.lookAround]
  generalize look now r.ended { r with ended := [] } = u at *
  have hstaffed' : u.desk.Staffed u.permits (looked ++ r.ended) := by
    rw [hdesk, hpermits]
    exact ⟨hstaffed.lined, by simpa [desk] using hstaffed.told, hstaffed.held⟩
  rcases hlook with ⟨hgo, hlevel'⟩ | ⟨htotal, error, hover⟩
  · obtain ⟨-, hsteady'⟩ | ⟨error, hover⟩ := hsteady'
    · split
      · rename_i hall
        obtain ⟨hresults, hqueue⟩ := hsteady'.working.closed hall.2
        exact hlevel'.closeLevel hgo hresults hqueue (congrArg Desk.ended hdesk)
          (hstaffed'.permits_pos hsteady'.working.counted
            (hsteady'.working.seen.symm.trans hall.2)) now
      · exact onCourse_of_going hgo ⟨s, _, hlevel', hsteady', hstaffed'⟩
    · rw [isGoing, hover] at hgo
      cases hgo
  · rw [if_neg (by simp [isGoing, hover])]
    exact onCourse_of_error htotal hover

theorem OnCourse.coordinate_eq (hr : OnCourse answer w total r) (hgoing : r.isGoing) (now : Nat) :
    r.coordinate now = r.lookAround now := by
  have hafter := hr.lookAround hgoing now
  rw [coordinate, if_neg]
  · rfl
  · rintro ⟨hgo, hlate⟩
    obtain ⟨s, looked, hlevel, -⟩ := hafter.going hgo
    have hdeadline : (r.lookAround now).deadline = none := hlevel.deadline
    rw [Run.lookAround] at hdeadline
    simp [hdeadline] at hlate

theorem OnCourse.coordinate (hr : OnCourse answer w total r) (hgoing : r.isGoing) (now : Nat) :
    OnCourse answer w total (r.coordinate now) := by
  rw [hr.coordinate_eq hgoing]
  exact hr.lookAround hgoing now

/-! ## Runs -/

/-- A turn, unless the run is over. -/
def take (r : Run) (turn : Turn) (now : Nat) (tokenFirst : Bool) : Run :=
  if r.isGoing then
    match turn with
    | .coordinator => r.coordinate now
    | .task i => r.advanceTask i now tokenFirst
  else r

theorem OnCourse.take (hw : w.Untimed) (hr : OnCourse answer w total r) (turn : Turn) (now : Nat)
    (tokenFirst : Bool) : OnCourse answer w total (r.take turn now tokenFirst) := by
  unfold Run.take
  split
  · rename_i hgoing
    cases turn with
    | coordinator => exact hr.coordinate hgoing now
    | task i => exact hr.advanceTask hw hgoing i now tokenFirst
  · exact hr

theorem onCourse_start (hw : w.Untimed) {handler : Handler} (hanswers : handler.Answers answer)
    {functions : Expression.Registry} {secrets : SecretCache} (hsecrets : secrets.Steady)
    {activity : Activity} (hactivity : activity.canceled = false)
    (hpermits : w.configuration.parallelism.getD 1 ≤ maxPermits) (yields : Bool) (id : String)
    (now : Nat) :
    OnCourse answer w
      (course answer w w.executionLevels
        (start w functions handler secrets activity yields id now).scope {})
      (start w functions handler secrets activity yields id now) := by
  have hbetween : Between answer w (start w functions handler secrets activity yields id now) := by
    refine ⟨?_, rfl, hanswers, ?_, hactivity, hsecrets, rfl, rfl, ?_⟩
    · rw [isGoing, start, if_neg (by omega)]
    · rw [start, hw.timeout]
      rfl
    · exact Nat.lt_of_lt_of_le Nat.zero_lt_one (Nat.le_max_right _ 1)
  have hnone : ∀ t ∈ ([] : List Task), w.task? t.name = some t := by simp
  exact hbetween.opened hnone rfl rfl rfl afterLevel_nil

end Run

end WorkflowEngine
