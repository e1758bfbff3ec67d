import WorkflowEngine.Proofs.Execution.Calls

/-!
# What a turn does

The line of turns, and who watches the token, decide who comes next and nothing else, so a turn is
told by what it does to the rest of a run, its `core`. `Turned` lists all that a turn of a task can
do (`turned_advanceTask`). A permit that is given back goes to whoever waits longest, so whoever
waits does so for a task that has one (`Desk.Staffed`).
-/

namespace WorkflowEngine

/-- The phase of a task whose attempts stand like this. -/
def Attempts.phase (task : Assignment) : Attempts → TaskPhase
  | .ended e => .ended e
  | attempts => .active task attempts

namespace Run

/-- A run but for what decides whose turn comes next. -/
def core (r : Run) : Run := { r with turns := [], watching := [], yields := true }

/-- Gives a permit back, and no turn to whoever gets it. -/
def giveBack (r : Run) : Run :=
  match r.queue with
  | [] => { r with permits := r.permits + 1 }
  | i :: rest => { r with queue := rest }.setPhase i .granted

def endTask (r : Run) (i : Nat) (e : TaskEnd) : Run :=
  let r := (r.setPhase i (.ended e)).giveBack
  { r with ended := r.ended ++ [i] }

/-- The task goes on with its attempts, or ends with them. -/
def proceed (r : Run) (i : Nat) (task : Assignment) : Attempts → Run
  | .ended e => r.endTask i e
  | attempts => r.setPhase i (.active task attempts)

variable {r r' : Run} {i now : Nat} {tokenFirst : Bool} {t : TaskRun}

@[simp] theorem core_push (r : Run) (t : Turn) : (r.push t).core = r.core := by
  unfold push
  split
  · rfl
  · split <;> rfl

@[simp] theorem core_pushAll (r : Run) (turns : List Turn) : (r.pushAll turns).core = r.core := by
  induction turns generalizing r with
  | nil => rfl
  | cons t turns ih => exact (ih (r.push t)).trans (core_push r t)

theorem core_giveBack (r : Run) : r.giveBack.core = r.core.giveBack := by
  cases hqueue : r.queue with
  | nil => simp only [giveBack, core, hqueue]
  | cons i rest => simp only [giveBack, core, setPhase, hqueue]

theorem core_release (r : Run) : r.release.core = r.core.giveBack := by
  rw [← core_giveBack]
  cases hqueue : r.queue with
  | nil => simp only [release, giveBack, hqueue]
  | cons i rest => simp only [release, giveBack, hqueue, core_push]

theorem core_endTask (r : Run) (i : Nat) (e : TaskEnd) :
    (r.endTask i e).core = r.core.endTask i e := by
  have hback := core_giveBack (r.setPhase i (.ended e))
  have hended := congrArg (·.ended) hback
  unfold endTask
  exact congrArg₂ (fun (r : Run) (is : List Nat) => { r with ended := is ++ [i] }) hback hended

theorem core_finish (r : Run) (i : Nat) (e : TaskEnd) :
    (r.finish i e).core = r.core.endTask i e := by
  have hback := core_release (r.setPhase i (.ended e))
  have hended := congrArg (·.ended) hback
  unfold finish endTask
  rw [core_push]
  exact congrArg₂ (fun (r : Run) (is : List Nat) => { r with ended := is ++ [i] }) hback hended

theorem core_proceed (r : Run) (i : Nat) (task : Assignment) (attempts : Attempts) :
    (r.proceed i task attempts).core = r.core.proceed i task attempts := by
  cases attempts with
  | ended e => exact core_endTask r i e
  | calling progress deadline left => rfl
  | delaying wake fault left => rfl

theorem core_record (r : Run) (i : Nat) (task : Assignment) (attempts : Attempts)
    (activity : Activity) :
    (r.record i task (attempts, activity)).core =
      ({ r with activity }.proceed i task attempts).core := by
  have hactivity : ∀ others turns, (if activity.canceled ∧ !r.activity.canceled then
      ({ r with activity, watching := [] } : Run).pushAll turns
      else { r with activity, watching := others }).core = ({ r with activity } : Run).core := by
    intro others turns
    split
    · exact core_pushAll _ _
    · rfl
  rw [core_proceed]
  cases attempts with
  | ended e =>
    rw [record, core_finish, hactivity]
    rfl
  | calling progress deadline left =>
    simp only [record]
    split <;> exact congrArg (fun r : Run => r.setPhase i _) (hactivity ..)
  | delaying wake fault left =>
    simp only [record]
    split <;> exact congrArg (fun r : Run => r.setPhase i _) (hactivity ..)

theorem eq_of_core (h : r'.core = r.core) :
    r' = { r with turns := r'.turns, watching := r'.watching, yields := r'.yields } :=
  congrArg (fun s : Run => { s with
    turns := r'.turns, watching := r'.watching, yields := r'.yields }) h

theorem desk_of_core (h : r'.core = r.core) : r'.desk = r.desk := by
  rw [eq_of_core h]
  rfl

theorem outline_of_core (h : r'.core = r.core) : r'.outline = r.outline := by
  rw [eq_of_core h]
  rfl

theorem desk_endTask (r : Run) (i : Nat) (e : TaskEnd) :
    (r.endTask i e).desk = r.desk.finish i e := by
  rw [← desk_finish]
  exact desk_of_core ((core_endTask r i e).trans (core_finish r i e).symm)

/-- What a task that proceeds leaves as it is. -/
structure SameRules (r r' : Run) : Prop where
  outline : r'.outline = r.outline
  handler : r'.handler = r.handler
  deadline : r'.deadline = r.deadline
  scope : r'.scope = r.scope
  activity : r'.activity = r.activity

theorem sameRules_setPhase (r : Run) (i : Nat) (phase : TaskPhase) :
    r.SameRules (r.setPhase i phase) :=
  ⟨outline_setPhase .., rfl, rfl, rfl, rfl⟩

theorem sameRules_endTask (r : Run) (i : Nat) (e : TaskEnd) : r.SameRules (r.endTask i e) := by
  have houtline : (r.endTask i e).outline = r.outline := by
    rw [← outline_finish r i e]
    exact outline_of_core ((core_endTask r i e).trans (core_finish r i e).symm)
  refine ⟨houtline, ?_, ?_, ?_, ?_⟩ <;> unfold endTask giveBack <;> dsimp only <;> split <;> rfl

theorem sameRules_proceed (r : Run) (i : Nat) (task : Assignment) (attempts : Attempts) :
    r.SameRules (r.proceed i task attempts) := by
  cases attempts with
  | ended e => exact sameRules_endTask r i e
  | calling progress deadline left => exact sameRules_setPhase r i _
  | delaying wake fault left => exact sameRules_setPhase r i _

theorem mem_proceed {t' : TaskRun} {task : Assignment} {attempts : Attempts}
    (h : t' ∈ (r.proceed i task attempts).level) :
    t' ∈ r.level ∨ t'.phase = .granted ∨
      ∃ t, r.level[i]? = some t ∧ t' = { t with phase := attempts.phase task } := by
  cases attempts with
  | ended e =>
    have hmem : t' ∈ (r.desk.finish i e).level := desk_endTask r i e ▸ h
    rcases Desk.mem_release (d := r.desk.setPhase i (.ended e)) hmem with hmem | hgranted
    · exact (Desk.mem_setPhase hmem).imp_right .inr
    · exact .inr (.inl hgranted)
  | calling progress deadline left => exact (Desk.mem_setPhase (d := r.desk) h).imp_right .inr
  | delaying wake fault left => exact (Desk.mem_setPhase (d := r.desk) h).imp_right .inr

/-- The task has a permit and has not begun; `r'` is the run in which it begins. -/
inductive Admits (r : Run) (i : Nat) (t : Task) : Run → Prop where
  | spawned : r.level[i]? = some ⟨t, .spawned⟩ → 0 < r.permits →
      Admits r i t { r with permits := r.permits - 1 }
  | granted : r.level[i]? = some ⟨t, .granted⟩ → Admits r i t r

/-- All that a turn of a task can do. -/
inductive Turned (r : Run) (i now : Nat) (tokenFirst : Bool) : Run → Prop where
  | idle : (∀ t, r.level[i]? = some t → ¬ t.phase.CanGo) → Turned r i now tokenFirst r
  | queued {t : Task} : r.level[i]? = some ⟨t, .spawned⟩ → r.permits = 0 →
      Turned r i now tokenFirst { r.setPhase i .waiting with queue := r.queue ++ [i] }
  | failed {t : Task} {fault : Expression.Fault} {r' : Run} : r.Admits i t r' →
      (r'.scope.replaceTask t).1 = .error fault →
      Turned r i now tokenFirst ((r'.setScope (r'.scope.replaceTask t).2).endTask i
        (.failed (.placeholders t.name fault)))
  | began {t resolved : Task} {r' : Run} {task : Assignment} {outcome : Attempts × Activity} :
      r.Admits i t r' → (r'.scope.replaceTask t).1 = .ok resolved →
      task = ⟨resolved, (r'.scope.replaceTask t).2.context, r'.handler⟩ →
      outcome = task.begin now r'.activity →
      Turned r i now tokenFirst ({ r'.setScope (r'.scope.replaceTask t).2 with
        activity := outcome.2 }.proceed i task outcome.1)
  | resumed {t : Task} {task : Assignment} {attempts : Attempts} {outcome : Attempts × Activity} :
      r.level[i]? = some ⟨t, .active task attempts⟩ →
      outcome = task.resume now tokenFirst attempts r.activity →
      Turned r i now tokenFirst ({ r with activity := outcome.2 }.proceed i task outcome.1)

theorem turned_launch {t : Task} (h : r.Admits i t r') :
    ∃ r'', r.Turned i now tokenFirst r'' ∧ (r'.launch i t now).core = r''.core := by
  rw [launch]
  split
  · rename_i fault s hreplaced
    have hturned : r.Turned i now tokenFirst _ := .failed h (congrArg Prod.fst hreplaced)
    rw [hreplaced] at hturned
    exact ⟨_, hturned, (core_finish ..).trans (core_endTask ..).symm⟩
  · rename_i resolved s hreplaced
    have hturned : r.Turned i now tokenFirst _ := .began h (congrArg Prod.fst hreplaced) rfl rfl
    rw [hreplaced] at hturned
    exact ⟨_, hturned, core_record ..⟩

theorem turned_advanceTask (r : Run) (i now : Nat) (tokenFirst : Bool) :
    ∃ r', r.Turned i now tokenFirst r' ∧ (r.advanceTask i now tokenFirst).core = r'.core := by
  rw [advanceTask]
  split
  · rename_i t hi
    split
    · rename_i hpermits
      exact ⟨_, .queued hi hpermits, rfl⟩
    · rename_i hpermits
      exact turned_launch (.spawned hi (by omega))
  · rename_i t hi
    exact turned_launch (.granted hi)
  · rename_i t task attempts hi
    exact ⟨_, .resumed hi rfl, core_record ..⟩
  · rename_i hspawned hgranted hactive
    refine ⟨r, .idle ?_, rfl⟩
    intro t ht
    obtain ⟨task, phase⟩ := t
    cases phase with
    | spawned => exact absurd ht (hspawned task)
    | granted => exact absurd ht (hgranted task)
    | active s attempts => exact absurd ht (hactive task s attempts)
    | waiting => exact id
    | ended e => exact id

theorem Admits.level {task : Task} (h : r.Admits i task r') :
    r'.level = r.level ∧ ∃ phase, r.level[i]? = some ⟨task, phase⟩ ∧ phase.CanGo := by
  cases h with
  | spawned hi _ => exact ⟨rfl, _, hi, trivial⟩
  | granted hi => exact ⟨rfl, _, hi, trivial⟩

end Run

/-! ## Permits -/

/-- A task that has a permit. -/
def TaskPhase.Holds : TaskPhase → Prop
  | .granted => True
  | .active _ _ => True
  | _ => False

namespace Desk

/-- Whoever waits for a permit is in the line for it, and when there is none to be had some task has
one. The coordinator is told of every task that ended. -/
structure Staffed (d : Desk) (permits : Nat) (looked : List Nat) : Prop where
  lined : ∀ (i : Nat) (t : TaskRun), d.level[i]? = some t → t.phase = .waiting → i ∈ d.queue
  told : ∀ (i : Nat) (t : TaskRun) (e : TaskEnd), d.level[i]? = some t → t.phase = .ended e →
    i ∈ looked ++ d.ended
  held : permits = 0 ∨ d.queue ≠ [] → ∃ (i : Nat) (t : TaskRun), d.level[i]? = some t ∧
    t.phase.Holds

variable {d : Desk} {permits permits' : Nat} {looked : List Nat} {i j : Nat} {t : TaskRun}

theorem getElem?_setPhase_of_ne {phase : TaskPhase} (h : i ≠ j) :
    (d.setPhase i phase).level[j]? = d.level[j]? := by
  rw [getElem?_setPhase]
  cases d.level[j]? <;> simp [h]

theorem getElem?_setPhase_self {phase : TaskPhase} (h : d.level[i]? = some t) :
    (d.setPhase i phase).level[i]? = some { t with phase } := by
  simp [getElem?_setPhase, h]

/-- The task has the phase that was set, or is another one, with the phase that it had. -/
theorem getElem?_setPhase_cases {phase : TaskPhase} (h : (d.setPhase i phase).level[j]? = some t) :
    j = i ∧ t.phase = phase ∨ j ≠ i ∧ d.level[j]? = some t := by
  by_cases hij : i = j
  · subst hij
    rw [getElem?_setPhase, Option.map_eq_some_iff] at h
    obtain ⟨t', -, rfl⟩ := h
    exact .inl ⟨rfl, by simp⟩
  · rw [getElem?_setPhase_of_ne hij] at h
    exact .inr ⟨Ne.symm hij, h⟩

theorem Staffed.queued (h : d.Staffed 0 looked) {task : Task}
    (hi : d.level[i]? = some ⟨task, .spawned⟩) :
    ({ d.setPhase i .waiting with queue := d.queue ++ [i] } : Desk).Staffed 0 looked := by
  refine ⟨?_, ?_, ?_⟩
  · intro j t hj hwaiting
    rcases getElem?_setPhase_cases hj with ⟨rfl, -⟩ | ⟨-, hj⟩
    · simp
    · exact List.mem_append_left _ (h.lined j t hj hwaiting)
  · intro j t e hj hended
    rcases getElem?_setPhase_cases hj with ⟨-, hphase⟩ | ⟨-, hj⟩
    · rw [hphase] at hended
      cases hended
    · exact h.told j t e hj hended
  · intro _
    obtain ⟨j, t, hj, hholds⟩ := h.held (.inl rfl)
    have hne : i ≠ j := by
      rintro rfl
      rw [hi] at hj
      cases hj
      exact hholds
    exact ⟨j, t, (getElem?_setPhase_of_ne hne).trans hj, hholds⟩

theorem Staffed.went (h : d.Staffed permits looked) (hi : d.level[i]? = some t)
    (task : Assignment) (attempts : Attempts) (permits' : Nat) :
    (d.setPhase i (.active task attempts)).Staffed permits' looked := by
  refine ⟨?_, ?_, ?_⟩
  · intro j t hj hwaiting
    rcases getElem?_setPhase_cases hj with ⟨-, hphase⟩ | ⟨-, hj⟩
    · rw [hphase] at hwaiting
      cases hwaiting
    · exact h.lined j t hj hwaiting
  · intro j t e hj hended
    rcases getElem?_setPhase_cases hj with ⟨-, hphase⟩ | ⟨-, hj⟩
    · rw [hphase] at hended
      cases hended
    · exact h.told j t e hj hended
  · intro _
    exact ⟨i, _, getElem?_setPhase_self hi, trivial⟩

/-- The permit goes to whoever waits longest, or is there to be had. -/
theorem Staffed.finish (h : d.Staffed permits looked) (hd : d.Counted looked)
    (hi : d.level[i]? = some t) (hgo : t.phase.CanGo) (e : TaskEnd) (permits' : Nat) :
    (d.finish i e).Staffed (if d.queue.isEmpty then permits' + 1 else permits') looked := by
  have hended := release_ended (d.setPhase i (.ended e))
  have hqueue : (d.setPhase i (.ended e)).queue = d.queue := rfl
  have htold : ∀ j t e', (d.setPhase i (.ended e)).level[j]? = some t → t.phase = .ended e' →
      j ∈ looked ++ (d.ended ++ [i]) := by
    intro j t e' hj he
    rcases getElem?_setPhase_cases hj with ⟨rfl, -⟩ | ⟨-, hj⟩
    · simp
    · rw [← List.append_assoc]
      exact List.mem_append_left _ (h.told j t e' hj he)
  have hlined : ∀ j t, (d.setPhase i (.ended e)).level[j]? = some t → t.phase = .waiting →
      j ∈ d.queue := by
    intro j t hj hwaiting
    rcases getElem?_setPhase_cases hj with ⟨-, hphase⟩ | ⟨-, hj⟩
    · rw [hphase] at hwaiting
      cases hwaiting
    · exact h.lined j t hj hwaiting
  rw [Desk.finish]
  cases hq : d.queue with
  | nil =>
    have hrelease : (d.setPhase i (.ended e)).release = d.setPhase i (.ended e) := by
      rw [release, hqueue, hq]
    rw [hrelease]
    refine ⟨?_, htold, ?_⟩
    · intro j t hj hwaiting
      exact hlined j t hj hwaiting
    · intro hnone
      simp only [List.isEmpty_nil, if_true, Nat.add_eq_zero_iff, Nat.one_ne_zero, and_false,
        false_or] at hnone
      exact absurd hq hnone
  | cons next rest =>
    have hrelease : (d.setPhase i (.ended e)).release =
        ({ d.setPhase i (.ended e) with queue := rest } : Desk).setPhase next .granted := by
      rw [release, hqueue, hq]
    obtain ⟨t', ht', hwaiting⟩ := hd.waiting next (by simp [hq])
    have hne : i ≠ next := by
      rintro rfl
      rw [hi] at ht'
      cases ht'
      rw [hwaiting] at hgo
      exact hgo
    have hnext : ({ d.setPhase i (.ended e) with queue := rest } : Desk).level[next]? = some t' :=
      (getElem?_setPhase_of_ne (d := d) hne).trans ht'
    rw [hrelease]
    refine ⟨?_, ?_, ?_⟩
    · intro j t hj hwaiting
      rcases getElem?_setPhase_cases hj with ⟨-, hphase⟩ | ⟨hjn, hj⟩
      · rw [hphase] at hwaiting
        cases hwaiting
      · have hmem := hlined j t hj hwaiting
        rw [hq] at hmem
        exact (List.mem_cons.mp hmem).resolve_left hjn
    · intro j t e' hj he
      rcases getElem?_setPhase_cases hj with ⟨-, hphase⟩ | ⟨-, hj⟩
      · rw [hphase] at he
        cases he
      · exact htold j t e' hj he
    · intro _
      exact ⟨next, _, getElem?_setPhase_self hnext, trivial⟩

/-- After a level all permits are there to be had. -/
theorem Staffed.permits_pos (h : d.Staffed permits looked)
    (hd : d.Counted looked) (hlen : looked.length = d.level.length) : 0 < permits := by
  refine Nat.pos_of_ne_zero ?_
  intro hnone
  obtain ⟨i, t, hi, hholds⟩ := h.held (.inl hnone)
  have hlooked := (hd.all_looked hlen).1 i (List.getElem?_eq_some_iff.mp hi).1
  obtain ⟨t', e, hi', hended⟩ := hd.ended i (List.mem_append_left _ hlooked)
  rw [hi] at hi'
  cases hi'
  rw [hended] at hholds
  exact hholds

end Desk

namespace Run

variable {r r' : Run} {i : Nat} {t : TaskRun} {looked : List Nat}

theorem permits_endTask (r : Run) (i : Nat) (e : TaskEnd) :
    (r.endTask i e).permits = if r.queue.isEmpty then r.permits + 1 else r.permits := by
  cases hq : r.queue with
  | nil => simp [endTask, giveBack, setPhase, hq]
  | cons j rest => simp [endTask, giveBack, setPhase, hq]

theorem staffed_proceed (hd : r.desk.Counted looked)
    (hstaffed : ∃ permits, r.desk.Staffed permits looked) (hi : r.level[i]? = some t)
    (hgo : t.phase.CanGo) (task : Assignment) (attempts : Attempts) :
    (r.proceed i task attempts).desk.Staffed (r.proceed i task attempts).permits looked := by
  obtain ⟨permits, hstaffed⟩ := hstaffed
  cases attempts with
  | ended e =>
    rw [Run.proceed, desk_endTask, permits_endTask]
    exact hstaffed.finish hd hi hgo e r.permits
  | calling progress deadline left => exact hstaffed.went hi task _ r.permits
  | delaying wake fault left => exact hstaffed.went hi task _ r.permits

theorem staffed_turned (hd : r.desk.Counted looked) (hstaffed : r.desk.Staffed r.permits looked)
    {now : Nat} {tokenFirst : Bool} (h : r.Turned i now tokenFirst r') :
    r'.desk.Staffed r'.permits looked := by
  have hadmits : ∀ {r₁ : Run} {task : Task}, r.Admits i task r₁ →
      r₁.desk = r.desk := by
    intro r₁ task h
    cases h <;> rfl
  cases h with
  | idle => exact hstaffed
  | queued hi hpermits =>
    rw [hpermits] at hstaffed
    have hqueued := hstaffed.queued hi
    rw [← hpermits] at hqueued
    exact hqueued
  | failed h hfault =>
    rename_i task fault r₁
    obtain ⟨hlevel, phase, hi, hgo⟩ := h.level
    have hdesk := hadmits h
    exact staffed_proceed (r := r₁.setScope (r₁.scope.replaceTask task).2)
      (show r₁.desk.Counted looked from hdesk ▸ hd) ⟨r.permits, hdesk ▸ hstaffed⟩
      (show r₁.level[i]? = _ by rw [hlevel, hi]) hgo ⟨task, r.context, r.handler⟩
      (.ended (.failed (.placeholders task.name fault)))
  | began h hresolved htask houtcome =>
    rename_i task resolved r₁ assignment outcome
    obtain ⟨hlevel, phase, hi, hgo⟩ := h.level
    have hdesk := hadmits h
    exact staffed_proceed (r := { r₁.setScope (r₁.scope.replaceTask task).2 with
        activity := outcome.2 })
      (show r₁.desk.Counted looked from hdesk ▸ hd) ⟨r.permits, hdesk ▸ hstaffed⟩
      (show r₁.level[i]? = _ by rw [hlevel, hi]) hgo ..
  | resumed hi houtcome =>
    rename_i task assignment attempts outcome
    exact staffed_proceed (r := { r with activity := outcome.2 }) hd ⟨_, hstaffed⟩ hi trivial ..

end Run

end WorkflowEngine
