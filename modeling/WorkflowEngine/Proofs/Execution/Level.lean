import Mathlib.Data.List.Nodup
import Mathlib.Data.List.Perm.Subperm
import Mathlib.Logic.Relation
import WorkflowEngine.Execution.Run
import WorkflowEngine.Proofs.Fields

/-!
# The tasks of a level

What the turns of a run do to the tasks of its current level. Turns are taken here in any order:
`Step` lets the coordinator and every task go on at any time, which is more than the line of turns
allows (`steps_of_step?`).

A turn of a task changes nothing but the level's phases, the line for permits and the list of tasks
that ended (`Desk.Move`). `Counted` says that a task that the coordinator counts as ended has ended
and left a result, so a level is closed only when all its tasks have one.
-/

namespace WorkflowEngine

/-- What a turn of a task may change, of what the coordinator relies on. -/
structure Desk where
  level : List TaskRun
  queue : List Nat
  ended : List Nat

/-- What a turn of a task leaves as it is. -/
structure Outline where
  workflow : Workflow
  ledger : Ledger
  ahead : List (List String)
  tasks : List Task
  seen : Nat
  results : Fields Json.Value
  state : RunState

namespace Desk

def setPhase (d : Desk) (i : Nat) (phase : TaskPhase) : Desk :=
  { d with level := d.level.modify i fun t => { t with phase } }

/-- Whoever waits longest gets a permit that is given back. -/
def release (d : Desk) : Desk :=
  match d.queue with
  | [] => d
  | i :: rest => { d with queue := rest }.setPhase i .granted

def finish (d : Desk) (i : Nat) (e : TaskEnd) : Desk :=
  let d := (d.setPhase i (.ended e)).release
  { d with ended := d.ended ++ [i] }

end Desk

/-- A task that has a permit, or has not asked for one yet. -/
def TaskPhase.CanGo : TaskPhase → Prop
  | .waiting => False
  | .ended _ => False
  | _ => True

/-- All that a turn of a task can do. -/
inductive Desk.Move (d : Desk) (i : Nat) : Desk → Prop where
  | nothing : Move d i d
  | queued {t : Task} : d.level[i]? = some ⟨t, .spawned⟩ →
      Move d i { d.setPhase i .waiting with queue := d.queue ++ [i] }
  | went {t : TaskRun} {task : Assignment} {attempts : Attempts} : d.level[i]? = some t →
      t.phase.CanGo → Move d i (d.setPhase i (.active task attempts))
  | finished {t : TaskRun} (e : TaskEnd) : d.level[i]? = some t → t.phase.CanGo →
      Move d i (d.finish i e)

namespace Run

/-- What can happen to a run, in whatever order the turns come. -/
inductive Step : Run → Run → Prop where
  | coordinate {r : Run} (now : Nat) : r.isGoing → Step r (r.coordinate now)
  | advanceTask {r : Run} (i now : Nat) (tokenFirst : Bool) : r.isGoing →
      Step r (r.advanceTask i now tokenFirst)
  | cancel {r : Run} : Step r r.cancel
  | schedule {r : Run} (turns : List Turn) : Step r { r with turns }

abbrev Steps : Run → Run → Prop := Relation.ReflTransGen Step

theorem steps_of_step? {r r' : Run} {now : Nat} (h : r.step? now = some r') : Steps r r' := by
  rw [step?] at h
  split at h
  · rename_i rest hstate _
    cases h
    exact .tail (.single (.schedule rest)) (.coordinate now (by simp [isGoing, hstate]))
  · rename_i i rest hstate _
    cases h
    exact .tail (.single (.schedule rest)) (.advanceTask i now true (by simp [isGoing, hstate]))
  · cases h

theorem steps_steps (now n : Nat) (r : Run) : Steps r (steps now n r) := by
  induction n generalizing r with
  | zero => exact .refl
  | succ n ih =>
    rw [steps]
    split
    · rename_i r' h
      exact (steps_of_step? h).trans (ih r')
    · exact .refl

theorem steps_settle (r : Run) (now : Nat) : Steps r (r.settle now) :=
  .head (.schedule _) (steps_steps now _ (r.wake now))

/-- Turns in the order of the line, while time passes. -/
theorem steps_advance (r : Run) (now target : Nat) : Steps r (r.advance now target) := by
  induction hdist : target - now using Nat.strongRecOn generalizing r now with
  | ind n ih =>
    rw [advance]
    split
    · have hsettle := r.steps_settle now
      dsimp only
      split
      · exact hsettle
      · rename_i wake _
        split
        · rename_i hlt hwake
          exact hsettle.trans (ih (target - wake) (by omega) _ wake rfl)
        · exact hsettle
    · exact .refl

/-! ## Turns of tasks -/

def desk (r : Run) : Desk := ⟨r.level, r.queue, r.ended⟩

def outline (r : Run) : Outline :=
  ⟨r.workflow, r.ledger, r.ahead, r.level.map (·.task), r.seen, r.results, r.state⟩

@[simp] theorem desk_push (r : Run) (t : Turn) : (r.push t).desk = r.desk := by
  unfold push
  split
  · rfl
  · split <;> rfl

@[simp] theorem outline_push (r : Run) (t : Turn) : (r.push t).outline = r.outline := by
  unfold push
  split
  · rfl
  · split <;> rfl

@[simp] theorem desk_pushAll (r : Run) (turns : List Turn) : (r.pushAll turns).desk = r.desk := by
  induction turns generalizing r with
  | nil => rfl
  | cons t turns ih => exact (ih (r.push t)).trans (desk_push r t)

@[simp] theorem outline_pushAll (r : Run) (turns : List Turn) :
    (r.pushAll turns).outline = r.outline := by
  induction turns generalizing r with
  | nil => rfl
  | cons t turns ih => exact (ih (r.push t)).trans (outline_push r t)

theorem map_task_modify (level : List TaskRun) (i : Nat) (phase : TaskPhase) :
    (level.modify i fun t => { t with phase }).map (·.task) = level.map (·.task) := by
  apply List.ext_getElem?
  intro j
  simp only [List.getElem?_map, List.getElem?_modify]
  cases level[j]? with
  | none => simp
  | some t => by_cases h : i = j <;> simp [h]

@[simp] theorem outline_setPhase (r : Run) (i : Nat) (phase : TaskPhase) :
    (r.setPhase i phase).outline = r.outline := by
  simp [outline, setPhase, map_task_modify]

@[simp] theorem desk_setPhase (r : Run) (i : Nat) (phase : TaskPhase) :
    (r.setPhase i phase).desk = r.desk.setPhase i phase := rfl

@[simp] theorem outline_release (r : Run) : r.release.outline = r.outline := by
  unfold release
  split
  · rfl
  · rw [outline_push, outline_setPhase]
    rfl

@[simp] theorem desk_release (r : Run) : r.release.desk = r.desk.release := by
  unfold release
  split
  · rename_i hq
    simp only [desk, Desk.release, hq]
  · rename_i i rest hq
    rw [Desk.release, show r.desk.queue = r.queue from rfl, hq, desk_push]
    rfl

@[simp] theorem outline_finish (r : Run) (i : Nat) (e : TaskEnd) :
    (r.finish i e).outline = r.outline := by
  rw [finish, outline_push]
  exact (outline_release _).trans (outline_setPhase r i _)

@[simp] theorem desk_finish (r : Run) (i : Nat) (e : TaskEnd) :
    (r.finish i e).desk = r.desk.finish i e := by
  have hd := desk_release (r.setPhase i (.ended e))
  rw [desk_setPhase] at hd
  rw [finish, desk_push, Desk.finish, ← hd]
  rfl

@[simp] theorem outline_cancel (r : Run) : r.cancel.outline = r.outline := by
  unfold cancel
  split
  · rfl
  · rw [outline_pushAll]
    rfl

@[simp] theorem desk_cancel (r : Run) : r.cancel.desk = r.desk := by
  unfold cancel
  split
  · rfl
  · rw [desk_pushAll]
    rfl

theorem settle_activity (r : Run) (activity : Activity) (others : List Nat) (turns : List Turn) :
    ∃ s : Run, (if activity.canceled ∧ !r.activity.canceled then
        ({ r with activity, watching := [] } : Run).pushAll turns
      else { r with activity, watching := others }) = s ∧
        s.desk = r.desk ∧ s.outline = r.outline := by
  refine ⟨_, rfl, ?_⟩
  split
  · rw [desk_pushAll, outline_pushAll]
    exact ⟨rfl, rfl⟩
  · exact ⟨rfl, rfl⟩

/-- Taking over what a task's attempts have come to: the task goes on, or has ended. -/
theorem record_cases (r : Run) (i : Nat) (task : Assignment) (outcome : Attempts × Activity) :
    (r.record i task outcome).outline = r.outline ∧
      ((∃ e, (r.record i task outcome).desk = r.desk.finish i e) ∨
        ∃ attempts,
          (r.record i task outcome).desk = r.desk.setPhase i (.active task attempts)) := by
  obtain ⟨attempts, activity⟩ := outcome
  obtain ⟨s, hs, hdesk, houtline⟩ := r.settle_activity activity (r.watching.filter (· ≠ i))
    ((r.watching.filter (· ≠ i)).map .task)
  cases attempts with
  | ended e =>
    rw [record, hs]
    exact ⟨by rw [outline_finish, houtline], .inl ⟨e, by rw [desk_finish, hdesk]⟩⟩
  | calling progress deadline left =>
    simp only [record]
    rw [hs]
    split <;> exact ⟨(outline_setPhase s i _).trans houtline, .inr ⟨_, by rw [← hdesk]; rfl⟩⟩
  | delaying wake fault left =>
    simp only [record]
    rw [hs]
    split <;> exact ⟨(outline_setPhase s i _).trans houtline, .inr ⟨_, by rw [← hdesk]; rfl⟩⟩

theorem launch_cases (r : Run) (i : Nat) (task : Task) (now : Nat) :
    (r.launch i task now).outline = r.outline ∧
      ((∃ e, (r.launch i task now).desk = r.desk.finish i e) ∨
        ∃ task' attempts,
          (r.launch i task now).desk = r.desk.setPhase i (.active task' attempts)) := by
  rw [launch]
  split
  · rename_i fault s _
    exact ⟨outline_finish _ i _, .inl ⟨_, desk_finish _ i _⟩⟩
  · rename_i resolved s _
    obtain ⟨houtline, hdesk⟩ := record_cases (r.setScope s) i
      { task := resolved, context := (r.setScope s).context, handler := (r.setScope s).handler } _
    refine ⟨houtline, ?_⟩
    rcases hdesk with ⟨e, h⟩ | ⟨attempts, h⟩
    · exact .inl ⟨e, h⟩
    · exact .inr ⟨_, attempts, h⟩

theorem advanceTask_cases (r : Run) (i now : Nat) (tokenFirst : Bool) :
    (r.advanceTask i now tokenFirst).outline = r.outline ∧
      r.desk.Move i (r.advanceTask i now tokenFirst).desk := by
  have hlevel : r.desk.level = r.level := rfl
  rw [advanceTask]
  split
  · rename_i task hi
    split
    · exact ⟨outline_setPhase _ i _, .queued (hlevel ▸ hi)⟩
    · obtain ⟨houtline, hdesk⟩ := launch_cases { r with permits := r.permits - 1 } i task now
      refine ⟨houtline, ?_⟩
      rcases hdesk with ⟨e, h⟩ | ⟨task', attempts, h⟩ <;> rw [h]
      · exact .finished e hi trivial
      · exact .went hi trivial
  · rename_i task hi
    obtain ⟨houtline, hdesk⟩ := r.launch_cases i task now
    refine ⟨houtline, ?_⟩
    rcases hdesk with ⟨e, h⟩ | ⟨task', attempts, h⟩ <;> rw [h]
    · exact .finished e hi trivial
    · exact .went hi trivial
  · rename_i _ task attempts hi
    obtain ⟨houtline, hdesk⟩ :=
      r.record_cases i task (task.resume now tokenFirst attempts r.activity)
    refine ⟨houtline, ?_⟩
    rcases hdesk with ⟨e, h⟩ | ⟨attempts', h⟩ <;> rw [h]
    · exact .finished e hi trivial
    · exact .went hi trivial
  · exact ⟨rfl, .nothing⟩

end Run

/-! ## Counting the tasks that ended -/

namespace Desk

/-- What is known of the tasks that ended, when the coordinator has looked at those of a list. -/
structure Counted (d : Desk) (looked : List Nat) : Prop where
  nodup : (looked ++ d.ended).Nodup
  ended : ∀ i ∈ looked ++ d.ended, ∃ t e, d.level[i]? = some t ∧ t.phase = .ended e
  waiting : ∀ i ∈ d.queue, ∃ t, d.level[i]? = some t ∧ t.phase = .waiting
  queue_nodup : d.queue.Nodup

variable {d d' : Desk} {looked : List Nat} {i : Nat}

theorem getElem?_setPhase (d : Desk) (i j : Nat) (phase : TaskPhase) :
    (d.setPhase i phase).level[j]? =
      d.level[j]?.map fun t => if i = j then { t with phase } else t := by
  rw [setPhase, List.getElem?_modify]
  by_cases h : i = j <;> simp [h]

/-- The phase of a task that is not in the lists may change. -/
theorem Counted.setPhase (hd : d.Counted looked) (phase : TaskPhase)
    (hended : i ∉ looked ++ d.ended) (hqueue : i ∉ d.queue) :
    (d.setPhase i phase).Counted looked := by
  refine ⟨hd.nodup, fun j hj => ?_, fun j hj => ?_, hd.queue_nodup⟩
  · obtain ⟨t, e, ht, he⟩ := hd.ended j hj
    have hne : i ≠ j := fun h => hended (h ▸ hj)
    exact ⟨t, e, by simp [getElem?_setPhase, ht, hne], he⟩
  · obtain ⟨t, ht, hphase⟩ := hd.waiting j hj
    have hne : i ≠ j := fun h => hqueue (h ▸ hj)
    exact ⟨t, by simp [getElem?_setPhase, ht, hne], hphase⟩

/-- A task in another phase is in none of the lists. -/
theorem Counted.not_mem (hd : d.Counted looked) {t : TaskRun} (ht : d.level[i]? = some t)
    (hphase : t.phase ≠ .waiting) (hended : ∀ e, t.phase ≠ .ended e) :
    i ∉ looked ++ d.ended ∧ i ∉ d.queue := by
  refine ⟨fun hi => ?_, fun hi => ?_⟩
  · obtain ⟨t', e, ht', he⟩ := hd.ended i hi
    rw [ht] at ht'
    cases ht'
    exact hended e he
  · obtain ⟨t', ht', hp⟩ := hd.waiting i hi
    rw [ht] at ht'
    cases ht'
    exact hphase hp

theorem Counted.not_mem_of_canGo (hd : d.Counted looked) {t : TaskRun}
    (ht : d.level[i]? = some t) (hgo : t.phase.CanGo) : i ∉ looked ++ d.ended ∧ i ∉ d.queue := by
  refine hd.not_mem ht (fun h => ?_) fun e h => ?_
  · rw [h] at hgo
    exact hgo
  · rw [h] at hgo
    exact hgo

theorem Counted.release (hd : d.Counted looked) : d.release.Counted looked := by
  unfold Desk.release
  split
  · exact hd
  · rename_i i rest hq
    have hnodup := hd.queue_nodup
    rw [hq, List.nodup_cons] at hnodup
    obtain ⟨t, ht, hphase⟩ := hd.waiting i (by simp [hq])
    have hended : i ∉ looked ++ d.ended := fun hi => by
      obtain ⟨t', e, ht', he⟩ := hd.ended i hi
      rw [ht] at ht'
      cases ht'
      rw [hphase] at he
      cases he
    have hrest : ({ d with queue := rest } : Desk).Counted looked :=
      ⟨hd.nodup, hd.ended, fun j hj => hd.waiting j (by simp [hq, hj]), hnodup.2⟩
    exact hrest.setPhase .granted hended hnodup.1

theorem release_ended (d : Desk) : d.release.ended = d.ended := by
  unfold release
  split <;> rfl

/-- Giving a permit back does not touch a task that does not wait. -/
theorem getElem?_release {t : TaskRun} (hi : i ∉ d.queue) (ht : d.level[i]? = some t) :
    d.release.level[i]? = some t := by
  unfold release
  split
  · exact ht
  · rename_i j rest hq
    have hne : j ≠ i := fun h => hi (by simp [hq, h])
    simp [getElem?_setPhase, ht, hne]

theorem Counted.finish (hd : d.Counted looked) {t : TaskRun} (ht : d.level[i]? = some t)
    (hgo : t.phase.CanGo) (e : TaskEnd) : (d.finish i e).Counted looked := by
  obtain ⟨hended, hqueue⟩ := hd.not_mem_of_canGo ht hgo
  have hr := (hd.setPhase (.ended e) hended hqueue).release
  have hi : (d.setPhase i (.ended e)).release.level[i]? = some { t with phase := .ended e } :=
    getElem?_release hqueue (by simp [getElem?_setPhase, ht])
  have hsame : (d.setPhase i (.ended e)).release.ended = d.ended := release_ended _
  rw [Desk.finish]
  refine ⟨?_, fun j hj => ?_, hr.waiting, hr.queue_nodup⟩
  · rw [← List.append_assoc, hsame]
    rw [← List.concat_eq_append]
    exact hd.nodup.concat hended
  · rw [← List.append_assoc, List.mem_append, List.mem_singleton] at hj
    rcases hj with hj | rfl
    · exact hr.ended j hj
    · exact ⟨_, e, hi, rfl⟩

theorem Counted.move (hd : d.Counted looked) (h : d.Move i d') : d'.Counted looked := by
  cases h with
  | nothing => exact hd
  | queued hi =>
    obtain ⟨hended, hqueue⟩ := hd.not_mem hi (by simp) (by simp)
    have hs := hd.setPhase .waiting hended hqueue
    refine ⟨hs.nodup, hs.ended, fun j hj => ?_, ?_⟩
    · rcases List.mem_append.mp hj with hj | hj
      · exact hs.waiting j hj
      · cases List.mem_singleton.mp hj
        exact ⟨_, by rw [getElem?_setPhase, hi]; rfl, by simp⟩
    · dsimp only
      rw [← List.concat_eq_append]
      exact hd.queue_nodup.concat hqueue
  | went hi hgo =>
    obtain ⟨hended, hqueue⟩ := hd.not_mem_of_canGo hi hgo
    exact hd.setPhase _ hended hqueue
  | finished e hi hgo => exact hd.finish hi hgo e

/-- Once the coordinator has looked at as many tasks as there are, nobody waits any more. -/
theorem Counted.all_looked (hd : d.Counted looked) (hlen : looked.length = d.level.length) :
    (∀ i, i < d.level.length → i ∈ looked) ∧ d.queue = [] := by
  have hsub : ∀ i ∈ looked, i ∈ List.range d.level.length := by
    intro i hi
    obtain ⟨t, -, ht, -⟩ := hd.ended i (List.mem_append_left _ hi)
    exact List.mem_range.mpr (List.getElem?_eq_some_iff.mp ht).1
  have hperm := (List.subperm_of_subset (List.nodup_append.mp hd.nodup).1 hsub).perm_of_length_le
    (by simp [hlen])
  have hall : ∀ i, i < d.level.length → i ∈ looked :=
    fun i hi => hperm.mem_iff.mpr (List.mem_range.mpr hi)
  refine ⟨hall, List.eq_nil_iff_forall_not_mem.mpr fun i hi => ?_⟩
  obtain ⟨t, ht, hwaiting⟩ := hd.waiting i hi
  obtain ⟨t', e, ht', hended⟩ :=
    hd.ended i (List.mem_append_left _ (hall i (List.getElem?_eq_some_iff.mp ht).1))
  rw [ht] at ht'
  cases ht'
  rw [hwaiting] at hended
  cases hended

end Desk

namespace Run

variable {r r' : Run} {looked : List Nat}

/-- The coordinator has looked at some of the tasks that ended, and has their results. -/
structure Working (r : Run) (looked : List Nat) : Prop where
  counted : r.desk.Counted looked
  seen : r.seen = looked.length
  results : ∀ i ∈ looked, ∃ t, r.level[i]? = some t ∧ r.results.has t.task.name

theorem working_nil (hqueue : r.queue = []) (hended : r.ended = []) (hseen : r.seen = 0) :
    r.Working [] :=
  ⟨⟨by simp [desk, hended], by simp [desk, hended], by simp [desk, hqueue],
    by simp [desk, hqueue]⟩, hseen, by simp⟩

theorem results_of_outline (h : r'.outline = r.outline)
    (hr : ∀ i ∈ looked, ∃ t, r.level[i]? = some t ∧ r.results.has t.task.name) :
    ∀ i ∈ looked, ∃ t, r'.level[i]? = some t ∧ r'.results.has t.task.name := by
  intro i hi
  obtain ⟨t, ht, hhas⟩ := hr i hi
  have htasks : r'.level.map (·.task) = r.level.map (·.task) := congrArg Outline.tasks h
  have hresults : r'.results = r.results := congrArg Outline.results h
  have hmap := congrArg (·[i]?) htasks
  simp only [List.getElem?_map, ht, Option.map_some, Option.map_eq_some_iff] at hmap
  obtain ⟨t', ht', htask⟩ := hmap
  exact ⟨t', ht', by rw [hresults, htask, hhas]⟩

theorem Working.of_outline (hr : r.Working looked) (h : r'.outline = r.outline)
    (hcounted : r'.desk.Counted looked) : r'.Working looked :=
  ⟨hcounted, (congrArg Outline.seen h).trans hr.seen, results_of_outline h hr.results⟩

theorem Working.advanceTask (hr : r.Working looked) (i now : Nat) (tokenFirst : Bool) :
    (r.advanceTask i now tokenFirst).Working looked := by
  obtain ⟨houtline, hmove⟩ := r.advanceTask_cases i now tokenFirst
  exact hr.of_outline houtline (hr.counted.move hmove)

theorem Working.cancel (hr : r.Working looked) : r.cancel.Working looked :=
  hr.of_outline (outline_cancel r) (by rw [desk_cancel]; exact hr.counted)

/-- When all tasks of a level are accounted for, each of them has left a result. -/
theorem Working.closed (hr : r.Working looked) (hseen : r.seen = r.level.length) :
    (∀ t ∈ r.level, r.results.has t.task.name) ∧ r.queue = [] := by
  obtain ⟨hall, hqueue⟩ := hr.counted.all_looked (hr.seen.symm.trans hseen)
  refine ⟨fun t ht => ?_, hqueue⟩
  obtain ⟨i, hi⟩ := List.mem_iff_getElem?.mp ht
  obtain ⟨t', ht', hhas⟩ := hr.results i (hall i (List.getElem?_eq_some_iff.mp hi).1)
  rw [hi] at ht'
  cases ht'
  exact hhas

/-! ## Looking at the tasks that ended -/

/-- The second run is at the same place of the plan, with the same tasks. -/
structure SameLevel (r r' : Run) : Prop where
  workflow : r'.workflow = r.workflow
  ledger : r'.ledger = r.ledger
  ahead : r'.ahead = r.ahead
  desk : r'.desk = r.desk

theorem look_sameLevel (now : Nat) (is : List Nat) (r : Run) : r.SameLevel (look now is r) := by
  induction is generalizing r with
  | nil => exact ⟨rfl, rfl, rfl, rfl⟩
  | cons i rest ih =>
    rw [look]
    split
    · obtain ⟨hworkflow, hledger, hahead, hdesk⟩ := ih { r with
        results := _
        seen := r.seen + 1 }
      exact ⟨hworkflow, hledger, hahead, hdesk⟩
    · exact ⟨rfl, rfl, rfl, rfl⟩
    · exact ⟨rfl, rfl, rfl, rfl⟩
    · exact ih r

/-- If the run goes on, all tasks that were looked at have left a result. -/
theorem look_results {now : Nat} {is : List Nat}
    (hended : ∀ i ∈ is, ∃ t e, r.level[i]? = some t ∧ t.phase = .ended e)
    (hseen : r.seen = looked.length)
    (hresults : ∀ i ∈ looked, ∃ t, r.level[i]? = some t ∧ r.results.has t.task.name)
    (hgoing : (look now is r).isGoing) :
    (look now is r).seen = (looked ++ is).length ∧
      ∀ i ∈ looked ++ is, ∃ t, r.level[i]? = some t ∧
        (look now is r).results.has t.task.name := by
  induction is generalizing r looked with
  | nil => exact ⟨by rw [look, List.append_nil, hseen], by simpa [look] using hresults⟩
  | cons i rest ih =>
    rw [look] at hgoing ⊢
    split at hgoing
    · rename_i task v hi
      rw [List.append_cons]
      refine ih (fun j hj => hended j (List.mem_cons_of_mem i hj)) (by simp [hseen])
        (fun j hj => ?_) hgoing
      rcases List.mem_append.mp hj with hj | hj
      · obtain ⟨t, ht, hhas⟩ := hresults j hj
        exact ⟨t, ht, Fields.has_insert_of_has v hhas⟩
      · cases List.mem_singleton.mp hj
        exact ⟨_, hi, Fields.has_insert_self ..⟩
    · cases hgoing
    · cases hgoing
    · rename_i hdone hfailed hpanicked
      obtain ⟨⟨task, phase⟩, e, ht, rfl⟩ := hended i (List.mem_cons_self ..)
      cases e with
      | done v => exact absurd ht (hdone task v)
      | failed fault => exact absurd ht (hfailed task fault)
      | panicked => exact absurd ht (hpanicked task)

theorem Working.look (hr : r.Working looked) (now : Nat)
    (hgoing : (Run.look now r.ended { r with ended := [] }).isGoing) :
    (Run.look now r.ended { r with ended := [] }).Working (looked ++ r.ended) := by
  obtain ⟨-, -, -, hdesk⟩ := look_sameLevel now r.ended { r with ended := [] }
  obtain ⟨hseen, hresults⟩ := look_results (r := { r with ended := [] })
    (fun i hi => hr.counted.ended i (List.mem_append_right _ hi)) hr.seen hr.results hgoing
  refine ⟨?_, hseen, ?_⟩
  · rw [hdesk]
    exact ⟨by simpa [desk] using hr.counted.nodup, by simpa [desk] using hr.counted.ended,
      hr.counted.waiting, hr.counted.queue_nodup⟩
  · have hlevel : (Run.look now r.ended { r with ended := [] }).level = r.level :=
      congrArg Desk.level hdesk
    rwa [hlevel]

end Run

end WorkflowEngine
