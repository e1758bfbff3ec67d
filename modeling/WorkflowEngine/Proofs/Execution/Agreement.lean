import Mathlib.Data.Nat.Pairing
import Mathlib.Data.Prod.Lex
import Mathlib.Order.WellFounded
import WorkflowEngine.Proofs.Execution.OnCourse

/-!
# Runs agree

A run that keeps to a course that succeeds gets ever closer to its end: a turn that changes anything
makes its `weight` smaller (`take_progress`), and there is always a turn that will, once its time
has come (`exists_pending`). So it ends, if everyone gets turns again and again (`Play.ends`). As
the course does not depend on the number of permits and on the order of turns, such runs agree
(`runs_agree`).
-/

namespace WorkflowEngine

open Expression (Context Scope SecretCache)
open Json (Value)

/-! ## Weight -/

/-- How often the work sleeps at most. -/
def Work.sleeps : Work → Nat
  | .sleep _ next => next.sleeps + 1
  | .awaitCancel next => next.sleeps
  | .cancel next => next.sleeps
  | _ => 0

def Progress.sleeps : Progress → Nat
  | .sleeping _ next => next.sleeps + 1
  | .awaiting next => next.sleeps
  | _ => 0

theorem Work.sleeps_settle (work : Work) (now : Nat) (canceled : Bool) :
    (work.settle now canceled).1.sleeps ≤ work.sleeps := by
  induction work generalizing canceled with
  | done o => exact Nat.le_refl _
  | sleep ms next ih =>
    cases ms with
    | zero => exact Nat.le_succ_of_le (ih canceled)
    | succ ms => exact Nat.le_refl _
  | awaitCancel next ih =>
    rw [settle]
    split
    · exact ih canceled
    · exact Nat.le_refl _
  | cancel next ih => exact ih true
  | hang => exact Nat.le_refl _

namespace TaskPhase

/-- How far a task is from its end. -/
def stage : TaskPhase → Nat
  | .spawned => 4
  | .waiting => 3
  | .granted => 2
  | .active _ _ => 1
  | .ended _ => 0

def sleeps : TaskPhase → Nat
  | .active _ (.calling progress _ _) => progress.sleeps
  | _ => 0

/-- A turn after that time makes the task go on. -/
def ReadyBy (time : Nat) : TaskPhase → Prop
  | .spawned => True
  | .granted => True
  | .active _ (.calling (.sleeping wake _) _ _) => wake ≤ time
  | _ => False

end TaskPhase

namespace Desk

variable {d : Desk} {looked : List Nat} {i : Nat} {t : TaskRun}

def sum (f : TaskPhase → Nat) (d : Desk) : Nat := (d.level.map fun t => f t.phase).sum

theorem sum_setPhase (f : TaskPhase → Nat) (phase : TaskPhase) (hi : d.level[i]? = some t) :
    (d.setPhase i phase).sum f + f t.phase = d.sum f + f phase := by
  obtain ⟨level, queue, ended⟩ := d
  simp only [sum, setPhase] at hi ⊢
  induction level generalizing i with
  | nil => simp at hi
  | cons u rest ih =>
    cases i with
    | zero =>
      simp only [List.getElem?_cons_zero, Option.some.injEq] at hi
      subst hi
      simp only [List.modify_zero_cons, List.map_cons, List.sum_cons]
      omega
    | succ i =>
      simp only [List.getElem?_cons_succ] at hi
      have hrest := ih hi
      simp only [List.modify_succ_cons, List.map_cons, List.sum_cons]
      omega

theorem stage_pos_of_canGo {phase : TaskPhase} (h : phase.CanGo) : 0 < phase.stage := by
  cases phase with
  | waiting => exact absurd h id
  | ended e => exact absurd h id
  | spawned => exact Nat.succ_pos _
  | granted => exact Nat.succ_pos _
  | active task attempts => exact Nat.succ_pos _

theorem sum_release (hd : d.Counted looked) :
    d.release.sum TaskPhase.stage ≤ d.sum TaskPhase.stage := by
  rw [release]
  split
  · exact Nat.le_refl _
  · rename_i next rest hq
    obtain ⟨t, ht, hwaiting⟩ := hd.waiting next (by simp [hq])
    have hgranted := sum_setPhase (d := { d with queue := rest }) TaskPhase.stage .granted ht
    have hkept : Desk.sum TaskPhase.stage { d with queue := rest } = d.sum TaskPhase.stage := rfl
    rw [hkept, hwaiting] at hgranted
    simp only [TaskPhase.stage] at hgranted ⊢
    omega

theorem sum_finish (hd : d.Counted looked) (hi : d.level[i]? = some t) (hgo : t.phase.CanGo)
    (e : TaskEnd) : (d.finish i e).sum TaskPhase.stage < d.sum TaskPhase.stage := by
  obtain ⟨hended, hqueue⟩ := hd.not_mem_of_canGo hi hgo
  have hset := sum_setPhase TaskPhase.stage (.ended e) hi
  have hpos := stage_pos_of_canGo hgo
  have hzero : TaskPhase.stage (.ended e) = 0 := rfl
  calc (d.finish i e).sum TaskPhase.stage
      = (d.setPhase i (.ended e)).release.sum TaskPhase.stage := rfl
    _ ≤ (d.setPhase i (.ended e)).sum TaskPhase.stage :=
        sum_release (hd.setPhase (.ended e) hended hqueue)
    _ < d.sum TaskPhase.stage := by omega

end Desk

namespace Run

variable {answer : Answers} {w : Workflow} {total : Option (Fields Value × Ledger)} {s : Scope}
  {r r' : Run} {i now : Nat} {tokenFirst : Bool} {looked : List Nat}

/-- How much is left to do: the levels that are ahead, the tasks of this one that have not ended or
that the coordinator has not looked at, and the times that tasks sleep. -/
def weight (r : Run) : ℕ ×ₗ ℕ ×ₗ ℕ :=
  toLex (r.ahead.length,
    toLex (r.desk.sum TaskPhase.stage + (r.level.length - r.seen), r.desk.sum TaskPhase.sleeps))

/-- A turn that makes the run go on when it comes after that time. -/
inductive Pending (r : Run) : Turn → Nat → Prop where
  | coordinator (time : Nat) : r.ended ≠ [] ∨ r.seen = r.level.length → Pending r .coordinator time
  | task {i : Nat} {t : TaskRun} {time : Nat} : r.level[i]? = some t → t.phase.ReadyBy time →
      Pending r (.task i) time

theorem Pending.of_core {turn : Turn} {time : Nat} (h : r.Pending turn time)
    (hcore : r'.core = r.core) : r'.Pending turn time := by
  rw [eq_of_core hcore]
  cases h with
  | coordinator _ h => exact .coordinator time h
  | task hi h => exact .task hi h

theorem weight_of_core (h : r'.core = r.core) : r'.weight = r.weight := by
  rw [eq_of_core h]
  rfl

theorem weight_lt_of_ahead (h : r'.ahead.length < r.ahead.length) : r'.weight < r.weight :=
  Prod.Lex.toLex_lt_toLex.mpr (.inl h)

theorem weight_lt_of_stage (hahead : r'.ahead = r.ahead)
    (h : r'.desk.sum TaskPhase.stage + (r'.level.length - r'.seen) <
      r.desk.sum TaskPhase.stage + (r.level.length - r.seen)) : r'.weight < r.weight :=
  Prod.Lex.toLex_lt_toLex.mpr
    (.inr ⟨congrArg List.length hahead, Prod.Lex.toLex_lt_toLex.mpr (.inl h)⟩)

theorem weight_lt_of_sleeps (hahead : r'.ahead = r.ahead)
    (hstage : r'.desk.sum TaskPhase.stage + (r'.level.length - r'.seen) =
      r.desk.sum TaskPhase.stage + (r.level.length - r.seen))
    (h : r'.desk.sum TaskPhase.sleeps < r.desk.sum TaskPhase.sleeps) : r'.weight < r.weight :=
  Prod.Lex.toLex_lt_toLex.mpr (.inr ⟨congrArg List.length hahead,
    Prod.Lex.toLex_lt_toLex.mpr (.inr ⟨hstage, h⟩)⟩)

/-! ## Turns of tasks -/

theorem length_of_outline (h : r'.outline = r.outline) : r'.level.length = r.level.length := by
  have htasks : r'.level.map (·.task) = r.level.map (·.task) := congrArg Outline.tasks h
  simpa using congrArg List.length htasks

theorem weight_lt_of_sum (houtline : r'.outline = r.outline)
    (h : r'.desk.sum TaskPhase.stage < r.desk.sum TaskPhase.stage) : r'.weight < r.weight := by
  have hseen : r'.seen = r.seen := congrArg Outline.seen houtline
  have hlength := length_of_outline houtline
  exact weight_lt_of_stage (congrArg Outline.ahead houtline) (by omega)

/-- A task that begins, or that ends, is nearer to its end. -/
theorem weight_proceed (hd : r.desk.Counted looked) {t : TaskRun} (hi : r.level[i]? = some t)
    (hgo : t.phase.CanGo) (task : Assignment) {attempts : Attempts}
    (h : (∃ e, attempts = .ended e) ∨ 1 < t.phase.stage) :
    (r.proceed i task attempts).weight < r.weight := by
  refine weight_lt_of_sum (sameRules_proceed ..).outline ?_
  have hactive : ∀ attempts, 1 < t.phase.stage →
      (r.desk.setPhase i (.active task attempts)).sum TaskPhase.stage <
        r.desk.sum TaskPhase.stage := by
    intro attempts hstage
    have hset := Desk.sum_setPhase (d := r.desk) TaskPhase.stage (.active task attempts) hi
    have hone : TaskPhase.stage (.active task attempts) = 1 := rfl
    omega
  cases attempts with
  | ended e =>
    rw [proceed, desk_endTask]
    exact Desk.sum_finish hd hi hgo e
  | calling progress deadline left => exact hactive _ (h.resolve_left (by simp))
  | delaying wake fault left => exact hactive _ (h.resolve_left (by simp))

theorem setPhase_self {task : Task} {phase : TaskPhase} (hi : r.level[i]? = some ⟨task, phase⟩) :
    r.setPhase i phase = r := by
  have hlevel : (r.level.modify i fun t => { t with phase }) = r.level := by
    apply List.ext_getElem?
    intro j
    rw [List.getElem?_modify]
    by_cases hij : i = j
    · subst hij
      simp [hi]
    · simp [hij]
  rw [setPhase, hlevel]

/-- A task of a course that succeeds sleeps, if anything. -/
theorem OnLevel.sleeping (hr : OnLevel answer w total s r) (htotal : total ≠ none) {t : TaskRun}
    (ht : t ∈ r.level) {task : Assignment} {attempts : Attempts}
    (hactive : t.phase = .active task attempts) :
    ∃ wake next o, attempts = .calling (.sleeping wake next) none 0 ∧ next.Gives o := by
  have hfits := hr.phases t ht
  rw [hactive] at hfits
  obtain ⟨p, o, rfl, hgives, hnot, hend⟩ := hfits
  cases hgives with
  | ended o => exact absurd rfl (hnot o)
  | sleeping wake h => exact ⟨wake, _, o, rfl, h⟩
  | hung =>
    refine absurd ?_ htotal
    rw [← hr.remaining]
    refine afterLevel_eq_none (List.mem_map_of_mem ht) ?_
    rw [hend]
    simp

theorem weight_active {task : Task} {assignment : Assignment} {attempts attempts' : Attempts}
    (hi : r.level[i]? = some ⟨task, .active assignment attempts⟩)
    (h : TaskPhase.sleeps (.active assignment attempts') <
      TaskPhase.sleeps (.active assignment attempts)) :
    (r.setPhase i (.active assignment attempts')).weight < r.weight := by
  have hstage := Desk.sum_setPhase (d := r.desk) TaskPhase.stage (.active assignment attempts') hi
  have hset := Desk.sum_setPhase (d := r.desk) TaskPhase.sleeps (.active assignment attempts') hi
  have hlength := length_of_outline (outline_setPhase r i (.active assignment attempts'))
  refine weight_lt_of_sleeps rfl ?_ ?_
  · rw [desk_setPhase, hlength]
    exact congrArg (· + (r.level.length - r.seen)) (Nat.add_right_cancel hstage)
  · rw [desk_setPhase]
    dsimp only at hset
    omega

/-- A task that sleeps goes on once its time has come, and not before. -/
theorem weight_resumed (hd : r.desk.Counted looked) {task : Task} {assignment : Assignment}
    {wake : Nat} {next : Work} {o : Option Outcome}
    (hi : r.level[i]? = some ⟨task, .active assignment (.calling (.sleeping wake next) none 0)⟩)
    (hgives : next.Gives o) {outcome : Attempts × Activity}
    (houtcome : outcome =
      assignment.resume now tokenFirst (.calling (.sleeping wake next) none 0) r.activity) :
    (Run.proceed { r with activity := outcome.2 } i assignment outcome.1).weight < r.weight ∨
      now < wake ∧ (Run.proceed { r with activity := outcome.2 } i assignment outcome.1) = r := by
  by_cases hdue : wake ≤ now
  · left
    have hresume : (Progress.sleeping wake next).resume now r.activity.canceled =
        next.settle now r.activity.canceled := by
      rw [Progress.resume, if_pos]
      simpa [Progress.isDue] using hdue
    have hattempts : outcome.1 = (next.settle now r.activity.canceled).1.attempts := by
      rw [houtcome, ← hresume]
      exact (assignment.resume_untimed (.sleeping wake hgives) now tokenFirst r.activity).1
    have hsleeps : (next.settle now r.activity.canceled).1.sleeps < next.sleeps + 1 :=
      Nat.lt_succ_of_le (next.sleeps_settle now r.activity.canceled)
    have hactive : ∀ p : Progress, p.sleeps < next.sleeps + 1 →
        (Run.setPhase { r with activity := outcome.2 } i
          (.active assignment (.calling p none 0))).weight < r.weight :=
      fun p hp => weight_active (r := { r with activity := outcome.2 }) hi hp
    rw [hattempts]
    generalize (next.settle now r.activity.canceled).1 = p at *
    cases p with
    | ended o =>
      exact weight_proceed (r := { r with activity := outcome.2 }) hd hi trivial assignment
        (.inl ⟨_, rfl⟩)
    | sleeping wake next => exact hactive _ hsleeps
    | awaiting next => exact hactive _ hsleeps
    | hung => exact hactive _ hsleeps
  · right
    have hresume : (Progress.sleeping wake next).resume now r.activity.canceled =
        (.sleeping wake next, r.activity.canceled) := by
      rw [Progress.resume, if_neg]
      simpa [Progress.isDue] using hdue
    have hsame : outcome = (.calling (.sleeping wake next) none 0, r.activity) := by
      rw [houtcome, Assignment.resume, hresume]
      rfl
    refine ⟨by omega, ?_⟩
    rw [hsame]
    exact setPhase_self hi

theorem OnLevel.turned_progress (hr : OnLevel answer w total s r) (htotal : total ≠ none)
    (hd : r.desk.Counted looked) (h : r.Turned i now tokenFirst r') :
    r'.weight < r.weight ∨ r' = r ∧ ∀ time ≤ now, ¬ r.Pending (.task i) time := by
  have hbegin : ∀ {r₁ : Run} {task : Task}, r.Admits i task r₁ → ∃ phase,
      r₁.level[i]? = some ⟨task, phase⟩ ∧ phase.CanGo ∧ 1 < phase.stage ∧
        r₁.desk = r.desk ∧ r₁.weight = r.weight := by
    intro r₁ task h
    cases h with
    | spawned hi _ => exact ⟨_, hi, trivial, by decide, rfl, rfl⟩
    | granted hi => exact ⟨_, hi, trivial, by decide, rfl, rfl⟩
  cases h with
  | idle hidle =>
    refine .inr ⟨rfl, ?_⟩
    intro time _ hpending
    cases hpending with
    | task hi hready =>
      rename_i t
      refine hidle t hi ?_
      revert hready
      cases t.phase <;> simp [TaskPhase.ReadyBy, TaskPhase.CanGo]
  | queued hi _ =>
    left
    have hset := Desk.sum_setPhase (d := r.desk) TaskPhase.stage .waiting hi
    simp only [TaskPhase.stage] at hset
    have hsum : (r.desk.setPhase i .waiting).sum TaskPhase.stage < r.desk.sum TaskPhase.stage := by
      omega
    exact weight_lt_of_sum (outline_setPhase r i .waiting) hsum
  | failed h hfault =>
    rename_i task fault r₁
    obtain ⟨phase, hi, hgo, hstage, hdesk, hweight⟩ := hbegin h
    left
    rw [← hweight]
    exact weight_proceed (r := r₁.setScope (r₁.scope.replaceTask task).2)
      (show r₁.desk.Counted looked from hdesk ▸ hd) hi hgo ⟨task, r.context, r.handler⟩
      (.inl ⟨_, rfl⟩)
  | began h hresolved htask houtcome =>
    rename_i task resolved r₁ assignment outcome
    obtain ⟨phase, hi, hgo, hstage, hdesk, hweight⟩ := hbegin h
    left
    rw [← hweight]
    exact weight_proceed (r := { r₁.setScope (r₁.scope.replaceTask task).2 with
        activity := outcome.2 })
      (show r₁.desk.Counted looked from hdesk ▸ hd) hi hgo assignment (.inr hstage)
  | resumed hi houtcome =>
    rename_i task assignment attempts outcome
    obtain ⟨wake, next, o, rfl, hgives⟩ :=
      hr.sleeping htotal (List.mem_of_getElem? hi) rfl
    refine (weight_resumed hd hi hgives houtcome).imp_right fun ⟨hearly, hsame⟩ => ⟨hsame, ?_⟩
    intro time htime hpending
    cases hpending with
    | task hi' hready =>
      rw [hi] at hi'
      cases hi'
      have hwake : wake ≤ time := hready
      omega

/-! ## Turns of the coordinator -/

theorem openNext_progress {ahead : List (List String)}
    (hgoing : (openNext now ahead r).isGoing) :
    (openNext now ahead r).ahead.length < ahead.length := by
  induction ahead generalizing r with
  | nil => cases hgoing
  | cons names ahead ih =>
    rw [openNext] at hgoing ⊢
    split at hgoing
    · cases hgoing
    · rename_i hcanceled
      rw [if_neg hcanceled]
      dsimp only at hgoing ⊢
      split at hgoing
      · rename_i hempty
        rw [if_pos hempty]
        exact Nat.lt_succ_of_lt (ih hgoing)
      · rename_i hsome
        rw [if_neg hsome]
        have hahead := congrArg Outline.ahead (outline_pushAll { r with
          ledger := (Ledger.openLevel r.workflow names r.ledger).2
          ahead
          level := (Ledger.openLevel r.workflow names r.ledger).1.map fun task => { task }
          seen := 0
          results := [] }
          ((List.range (Ledger.openLevel r.workflow names r.ledger).1.length).map .task))
        exact Nat.lt_succ_of_le (Nat.le_of_eq (congrArg List.length hahead))

theorem closeLevel_progress (hgoing : (r.closeLevel now).isGoing) :
    (r.closeLevel now).weight < r.weight := by
  rw [closeLevel] at hgoing ⊢
  dsimp only at hgoing ⊢
  split at hgoing
  · cases hgoing
  · exact weight_lt_of_ahead (openNext_progress hgoing)

theorem seen_le (hr : r.Working looked) : r.seen ≤ r.level.length := by
  have hsub : ∀ i ∈ looked, i ∈ List.range r.level.length := by
    intro i hi
    obtain ⟨t, -, ht, -⟩ := hr.counted.ended i (List.mem_append_left _ hi)
    exact List.mem_range.mpr (List.getElem?_eq_some_iff.mp ht).1
  have hle := (List.subperm_of_subset (List.nodup_append.mp hr.counted.nodup).1 hsub).length_le
  rw [hr.seen]
  simpa using hle

theorem OnCourse.lookAround_progress (hr : OnCourse answer w total r) (hgoing : r.isGoing)
    (hafter : (r.lookAround now).isGoing) :
    (r.lookAround now).weight < r.weight ∨
      r.lookAround now = r ∧ ∀ time, ¬ r.Pending .coordinator time := by
  obtain ⟨s, looked, hlevel, hsteady, -⟩ := hr.going hgoing
  have hsame := look_sameLevel now r.ended { r with ended := [] }
  have hdesk : (look now r.ended { r with ended := [] }).desk = { r.desk with ended := [] } :=
    hsame.desk
  have hlength : (look now r.ended { r with ended := [] }).level.length = r.level.length :=
    congrArg (fun d : Desk => d.level.length) hdesk
  have hlook := hsteady.look hgoing now
  rw [Run.lookAround] at hafter ⊢
  have hnone : r.ended = [] → look now r.ended { r with ended := [] } = r := by
    intro hended
    rw [hended, look, ← hended]
  generalize look now r.ended { r with ended := [] } = u at *
  rcases hlook with ⟨hgo, hsteady'⟩ | ⟨error, hover⟩
  · have hseen : u.seen = r.seen + r.ended.length := by
      rw [hsteady'.working.seen, hsteady.working.seen, List.length_append]
    have hle := seen_le hsteady'.working
    by_cases hended : r.ended = []
    · rw [hnone hended] at hafter ⊢
      split
      · rename_i hall
        rw [if_pos hall] at hafter
        exact .inl (closeLevel_progress hafter)
      · rename_i hall
        refine .inr ⟨rfl, ?_⟩
        intro time hpending
        cases hpending with
        | coordinator _ h =>
          rcases h with h | h
          · exact h hended
          · exact hall ⟨hgoing, h⟩
    · have hpos : 0 < r.ended.length := List.length_pos_iff.mpr hended
      have hless : u.weight < r.weight := by
        have hstage : u.desk.sum TaskPhase.stage = r.desk.sum TaskPhase.stage := by
          rw [hdesk]
          rfl
        exact weight_lt_of_stage hsame.ahead (by omega)
      left
      split
      · rename_i hall
        rw [if_pos hall] at hafter
        exact (closeLevel_progress hafter).trans hless
      · exact hless
  · rw [if_neg (by simp [isGoing, hover])] at hafter
    rw [isGoing, hover] at hafter
    cases hafter

/-! ## Turns that bring a run to its end -/

/-- A turn ends the run, brings it closer to its end, or comes too early to do anything. -/
theorem OnCourse.take_progress (hr : OnCourse answer w total r) (htotal : total ≠ none)
    (hgoing : r.isGoing) (turn : Turn) (now : Nat) (tokenFirst : Bool)
    (hafter : (r.take turn now tokenFirst).isGoing) :
    (r.take turn now tokenFirst).weight < r.weight ∨
      (r.take turn now tokenFirst).core = r.core ∧ ∀ time ≤ now, ¬ r.Pending turn time := by
  obtain ⟨s, looked, hlevel, hsteady, -⟩ := hr.going hgoing
  unfold Run.take at hafter ⊢
  rw [if_pos hgoing] at hafter ⊢
  cases turn with
  | coordinator =>
    dsimp only at hafter ⊢
    rw [hr.coordinate_eq hgoing] at hafter ⊢
    refine (hr.lookAround_progress hgoing hafter).imp_right fun ⟨hsame, hnot⟩ => ?_
    exact ⟨congrArg core hsame, fun time _ => hnot time⟩
  | task i =>
    obtain ⟨r', hturned, hcore⟩ := r.turned_advanceTask i now tokenFirst
    dsimp only
    rw [weight_of_core hcore, hcore]
    refine (hlevel.turned_progress htotal hsteady.working.counted hturned).imp_right ?_
    rintro ⟨rfl, hnot⟩
    exact ⟨rfl, hnot⟩

/-- There is always something left to do. -/
theorem OnCourse.exists_pending (hr : OnCourse answer w total r) (htotal : total ≠ none)
    (hgoing : r.isGoing) : ∃ turn time, r.Pending turn time := by
  obtain ⟨s, looked, hlevel, hsteady, hstaffed⟩ := hr.going hgoing
  have hready : ∀ (i : Nat) (t : TaskRun), r.level[i]? = some t → t.phase.CanGo →
      ∃ turn time, r.Pending turn time := by
    intro i t hi hgo
    cases hphase : t.phase with
    | spawned => exact ⟨.task i, 0, .task hi (by rw [hphase]; trivial)⟩
    | granted => exact ⟨.task i, 0, .task hi (by rw [hphase]; trivial)⟩
    | active task attempts =>
      obtain ⟨wake, next, o, rfl, -⟩ :=
        hlevel.sleeping htotal (List.mem_of_getElem? hi) hphase
      exact ⟨.task i, wake, .task hi (by rw [hphase]; exact Nat.le_refl wake)⟩
    | waiting =>
      rw [hphase] at hgo
      exact absurd hgo id
    | ended e =>
      rw [hphase] at hgo
      exact absurd hgo id
  by_cases hcan : ∃ (i : Nat) (t : TaskRun), r.level[i]? = some t ∧ t.phase.CanGo
  · obtain ⟨i, t, hi, hgo⟩ := hcan
    exact hready i t hi hgo
  · -- nobody can go on, so nobody waits either, and all have ended
    have hended : ∀ i < r.level.length, i ∈ looked ++ r.ended := by
      intro i hlt
      have hi : r.level[i]? = some r.level[i] := List.getElem?_eq_getElem hlt
      cases hphase : r.level[i].phase with
      | ended e => exact hstaffed.told i _ e hi hphase
      | waiting =>
        have hline := hstaffed.lined i _ hi hphase
        obtain ⟨j, t, hj, hholds⟩ := hstaffed.held (.inr (List.ne_nil_of_mem hline))
        refine absurd ⟨j, t, hj, ?_⟩ hcan
        revert hholds
        cases t.phase <;> simp [TaskPhase.Holds, TaskPhase.CanGo]
      | spawned => exact absurd ⟨i, _, hi, by rw [hphase]; trivial⟩ hcan
      | granted => exact absurd ⟨i, _, hi, by rw [hphase]; trivial⟩ hcan
      | active task attempts => exact absurd ⟨i, _, hi, by rw [hphase]; trivial⟩ hcan
    refine ⟨.coordinator, 0, .coordinator 0 ?_⟩
    by_cases hnone : r.ended = []
    · right
      rw [hnone, List.append_nil] at hended
      have hsub : List.range r.level.length ⊆ looked :=
        fun i hi => hended i (List.mem_range.mp hi)
      have hle := (List.subperm_of_subset List.nodup_range hsub).length_le
      rw [List.length_range, ← hsteady.working.seen] at hle
      exact Nat.le_antisymm (seen_le hsteady.working) hle
    · exact .inl hnone

end Run

/-! ## Runs that last -/

/-- A run with turns without end, in any order and at any times. -/
structure Play (r₀ : Run) where
  run : Nat → Run
  turn : Nat → Turn
  now : Nat → Nat
  start : run 0 = r₀
  step : ∀ n, ∃ line tokenFirst,
    run (n + 1) = ({ run n with turns := line } : Run).take (turn n) (now n) tokenFirst

/-- Whose turn a number stands for, read as a pair of a turn and a time. -/
def Turn.ofPair (n : Nat) : Turn :=
  match (Nat.unpair n).1 with
  | 0 => .coordinator
  | i + 1 => .task i

/-- The run in which the turns come in the order of those numbers. -/
def Run.inTurn (r₀ : Run) : Nat → Run
  | 0 => r₀
  | n + 1 => (r₀.inTurn n).take (.ofPair n) n true

namespace Play

open Run (OnCourse)

variable {answer : Answers} {w : Workflow} {total : Option (Fields Value × Ledger)} {r₀ : Run}
  {p : Play r₀}

/-- Everyone gets turns again and again, at ever later times. -/
def Fair (p : Play r₀) : Prop := ∀ turn n, ∃ m, n ≤ m ∧ p.turn m = turn ∧ n ≤ p.now m

/-- The run returned without an error, at some time. -/
def Succeeds (p : Play r₀) : Prop := ∃ n time, (p.run n).state = .over time none

theorem onCourse (hw : w.Untimed) (h : OnCourse answer w total r₀) (p : Play r₀) (n : Nat) :
    OnCourse answer w total (p.run n) := by
  induction n with
  | zero => rwa [p.start]
  | succ n ih =>
    obtain ⟨line, tokenFirst, hstep⟩ := p.step n
    rw [hstep]
    have hline : OnCourse answer w total { p.run n with turns := line } := ih.of_core rfl
    exact hline.take hw _ _ _

theorem progress (hw : w.Untimed) (h : OnCourse answer w total r₀) (htotal : total ≠ none)
    (p : Play r₀) {n : Nat} (hgoing : (p.run n).isGoing) (hafter : (p.run (n + 1)).isGoing) :
    (p.run (n + 1)).weight < (p.run n).weight ∨
      (p.run (n + 1)).core = (p.run n).core ∧
        ∀ time ≤ p.now n, ¬ (p.run n).Pending (p.turn n) time := by
  obtain ⟨line, tokenFirst, hstep⟩ := p.step n
  have hcourse : OnCourse answer w total { p.run n with turns := line } :=
    (p.onCourse hw h n).of_core rfl
  rw [hstep] at hafter ⊢
  refine (hcourse.take_progress htotal hgoing _ _ _ hafter).imp_right fun ⟨hcore, hnot⟩ => ?_
  exact ⟨hcore, fun time htime hpending => hnot time htime (hpending.of_core rfl)⟩

/-- A turn that is pending comes, and until then nothing is lost. -/
theorem closer (hw : w.Untimed) (h : OnCourse answer w total r₀) (htotal : total ≠ none)
    (hfair : p.Fair) {n : Nat} (hgoing : (p.run n).isGoing) :
    ∃ m, ¬ (p.run m).isGoing ∨ (p.run m).weight < (p.run n).weight := by
  by_contra hnot
  push Not at hnot
  have hsame : ∀ k, (p.run (n + k)).core = (p.run n).core := by
    intro k
    induction k with
    | zero => rfl
    | succ k ih =>
      have hstep := p.progress hw h htotal (hnot (n + k)).1 (hnot (n + k + 1)).1
      rcases hstep with hless | ⟨hcore, -⟩
      · rw [Run.weight_of_core ih] at hless
        exact absurd hless (not_lt.mpr (hnot (n + k + 1)).2)
      · exact hcore.trans ih
  obtain ⟨turn, time, hpending⟩ := (p.onCourse hw h n).exists_pending htotal hgoing
  obtain ⟨m, hm, rfl, htime⟩ := hfair turn (max n time)
  obtain ⟨k, rfl⟩ := Nat.exists_eq_add_of_le (Nat.le_trans (Nat.le_max_left n time) hm)
  have hstep := p.progress hw h htotal (hnot (n + k)).1 (hnot (n + k + 1)).1
  rcases hstep with hless | ⟨-, hdone⟩
  · rw [Run.weight_of_core (hsame k)] at hless
    exact absurd hless (not_lt.mpr (hnot (n + k + 1)).2)
  · exact hdone time (Nat.le_trans (Nat.le_max_right n time) htime)
      (hpending.of_core (hsame k))

theorem ends (hw : w.Untimed) (h : OnCourse answer w total r₀) (htotal : total ≠ none)
    (hfair : p.Fair) (n : Nat) : ∃ m, ¬ (p.run m).isGoing := by
  induction hweight : (p.run n).weight using WellFoundedLT.induction generalizing n with
  | ind weight ih =>
    by_cases hgoing : (p.run n).isGoing
    · obtain ⟨m, hover | hless⟩ := closer hw h htotal hfair hgoing
      · exact ⟨m, hover⟩
      · exact ih _ (hweight ▸ hless) m rfl
    · exact ⟨n, hgoing⟩

/-- A run in which everyone gets turns succeeds exactly if the course does. -/
theorem succeeds_iff (hw : w.Untimed) (h : OnCourse answer w total r₀) (hfair : p.Fair) :
    p.Succeeds ↔ total ≠ none := by
  constructor
  · rintro ⟨n, time, hover⟩
    rw [(p.onCourse hw h n).succeeded time hover]
    simp
  · intro htotal
    obtain ⟨m, hover⟩ := ends hw h htotal hfair 0
    have hcourse := p.onCourse hw h m
    cases hstate : (p.run m).state with
    | going => exact absurd (by rw [Run.isGoing, hstate]) hover
    | crashed => exact absurd hstate hcourse.not_crashed
    | «over» time error =>
      cases error with
      | none => exact ⟨m, time, hstate⟩
      | some error => exact absurd (hcourse.failed time error hstate) htotal

/-- There are such runs. -/
theorem exists_fair (r₀ : Run) : ∃ p : Play r₀, p.Fair := by
  refine ⟨⟨Run.inTurn r₀, Turn.ofPair, id, rfl, fun n => ⟨(Run.inTurn r₀ n).turns, true, rfl⟩⟩, ?_⟩
  have hpair : ∀ k n, n ≤ Nat.pair k n ∧ (Nat.unpair (Nat.pair k n)).1 = k := by
    intro k n
    exact ⟨Nat.right_le_pair k n, by rw [Nat.unpair_pair]⟩
  intro t n
  cases t with
  | coordinator =>
    obtain ⟨hle, hfirst⟩ := hpair 0 n
    exact ⟨Nat.pair 0 n, hle, by simp only [Turn.ofPair, hfirst], hle⟩
  | task i =>
    obtain ⟨hle, hfirst⟩ := hpair (i + 1) n
    exact ⟨Nat.pair (i + 1) n, hle, by simp only [Turn.ofPair, hfirst], hle⟩

end Play

/-! ## Runs with more or fewer permits -/

def Workflow.limitedTo (w : Workflow) (parallelism : Option Nat) : Workflow :=
  { w with configuration := { w.configuration with parallelism } }

theorem openLevel_limitedTo (w : Workflow) (parallelism : Option Nat) (names : List String)
    (l : Ledger) :
    Ledger.openLevel (w.limitedTo parallelism) names l = Ledger.openLevel w names l := by
  induction names generalizing l with
  | nil => rfl
  | cons name rest ih =>
    have htask : (w.limitedTo parallelism).task? name = w.task? name := rfl
    have hexcludes : ∀ t, l.excludes (w.limitedTo parallelism) t = l.excludes w t := fun _ => rfl
    rw [Ledger.openLevel, Ledger.openLevel, htask]
    split
    · exact ih l
    · rw [hexcludes, ih, ih]

theorem course_limitedTo (answer : Answers) (w : Workflow) (parallelism : Option Nat)
    (ahead : List (List String)) :
    course answer (w.limitedTo parallelism) ahead = course answer w ahead := by
  induction ahead with
  | nil => rfl
  | cons names ahead ih =>
    funext s l
    rw [course, course, openLevel_limitedTo, ih]

theorem Workflow.Untimed.limitedTo {w : Workflow} (hw : w.Untimed) (parallelism : Option Nat) :
    (w.limitedTo parallelism).Untimed :=
  ⟨hw.timeout, hw.tasks⟩

/-- A provider that always gives the same answer, if there is one. -/
def Executor.SteadySecrets (x : Executor) : Prop :=
  ∀ p, x.secrets.provider = some p → ∃ answer, ∀ n, p.answer n = answer

theorem Executor.SteadySecrets.fresh {x : Executor} (h : x.SteadySecrets) :
    SecretCache.Steady { x.secrets with loaded := none } := by
  intro p hp
  obtain ⟨answer, hanswer⟩ := h p hp
  exact ⟨answer, hanswer, by simp⟩

/-- A run of a workflow keeps to its course, which does not depend on the number of permits. -/
theorem Executor.onCourse_begin {x : Executor} {store : WorkflowStore} {request : ExecutionRequest}
    {w : Workflow} {parallelism : Option Nat} {answer : Answers} {yields : Bool} {now : Nat}
    {r : Run} (hw : w.Untimed) (hsecrets : x.SteadySecrets) (hanswers : x.handler.Answers answer)
    (hpermits : parallelism.getD 1 ≤ maxPermits)
    (hget : store.get request.workflow = .ok (some (w.limitedTo parallelism)))
    (hbegin : x.begin store request false yields now = .ok r) :
    Run.OnCourse answer (w.limitedTo parallelism)
      (course answer w w.executionLevels (x.scopeOf w request) {}) r := by
  rw [begin, hget] at hbegin
  cases hbegin
  rw [← course_limitedTo answer w parallelism]
  exact Run.onCourse_start (hw.limitedTo parallelism) hanswers hsecrets.fresh rfl hpermits yields
    request.id now

/-- Runs of one workflow agree on whether they succeed, and on what their reports say, however many
tasks may run at once, in whatever order the turns come and whatever time the handler takes. -/
theorem runs_agree {x₁ x₂ : Executor} {store₁ store₂ : WorkflowStore} {request : ExecutionRequest}
    {w : Workflow} {parallelism₁ parallelism₂ : Option Nat} {answer : Answers}
    {yields₁ yields₂ : Bool} {now₁ now₂ : Nat} {r₁ r₂ : Run} (hw : w.Untimed)
    (hfunctions : x₁.functions = x₂.functions)
    (hprovider : x₁.secrets.provider = x₂.secrets.provider) (hsecrets : x₁.SteadySecrets)
    (hanswers₁ : x₁.handler.Answers answer) (hanswers₂ : x₂.handler.Answers answer)
    (hpermits₁ : parallelism₁.getD 1 ≤ maxPermits) (hpermits₂ : parallelism₂.getD 1 ≤ maxPermits)
    (hget₁ : store₁.get request.workflow = .ok (some (w.limitedTo parallelism₁)))
    (hget₂ : store₂.get request.workflow = .ok (some (w.limitedTo parallelism₂)))
    (hbegin₁ : x₁.begin store₁ request false yields₁ now₁ = .ok r₁)
    (hbegin₂ : x₂.begin store₂ request false yields₂ now₂ = .ok r₂)
    (play₁ : Play r₁) (play₂ : Play r₂) (hfair₁ : play₁.Fair) (hfair₂ : play₂.Fair) :
    (play₁.Succeeds ↔ play₂.Succeeds) ∧
      ∀ n₁ n₂ time₁ time₂, (play₁.run n₁).state = .over time₁ none →
        (play₂.run n₂).state = .over time₂ none →
        let report₁ := (play₁.run n₁).report request
        let report₂ := (play₂.run n₂).report request
        report₁.outputs = report₂.outputs ∧ report₁.completed = report₂.completed ∧
          report₁.skipped = report₂.skipped := by
  have hsecrets₂ : x₂.SteadySecrets := by
    intro p hp
    exact hsecrets p (hprovider.trans hp)
  have hcourse₁ := Executor.onCourse_begin hw hsecrets hanswers₁ hpermits₁ hget₁ hbegin₁
  have hcourse₂ := Executor.onCourse_begin hw hsecrets₂ hanswers₂ hpermits₂ hget₂ hbegin₂
  have halike : SecretCache.Alike { x₁.secrets with loaded := none }
      { x₂.secrets with loaded := none } := ⟨hprovider, hsecrets.fresh, hsecrets₂.fresh⟩
  have hsame : course answer w w.executionLevels (x₁.scopeOf w request) {} =
      course answer w w.executionLevels (x₂.scopeOf w request) {} := by
    have hscope : x₁.scopeOf w request =
        (x₂.scopeOf w request).withSecrets { x₁.secrets with loaded := none } := by
      rw [Executor.scopeOf, hfunctions]
      rfl
    rw [hscope]
    exact course_alike w w.executionLevels (x₂.scopeOf w request) {} halike
  rw [← hsame] at hcourse₂
  refine ⟨?_, ?_⟩
  · rw [Play.succeeds_iff (hw.limitedTo parallelism₁) hcourse₁ hfair₁,
      Play.succeeds_iff (hw.limitedTo parallelism₂) hcourse₂ hfair₂]
  · intro n₁ n₂ time₁ time₂ hover₁ hover₂
    have htotal₁ := (play₁.onCourse (hw.limitedTo parallelism₁) hcourse₁ n₁).succeeded time₁ hover₁
    have htotal₂ := (play₂.onCourse (hw.limitedTo parallelism₂) hcourse₂ n₂).succeeded time₂ hover₂
    rw [htotal₁, Option.some.injEq, Prod.mk.injEq] at htotal₂
    obtain ⟨houtputs, hledger⟩ := htotal₂
    exact ⟨houtputs, congrArg Ledger.completed hledger, congrArg Ledger.skipped hledger⟩

namespace Workflow

/-- Two tasks of one level, of which the first takes longer, and one after them. -/
def twins : Workflow where
  name := "twins"
  tasks := [{ name := "A" }, { name := "B" }, { name := "C", dependencies := ["A", "B"] }]

end Workflow

def twinsExecutor : Executor where
  handler task _ _ :=
    if task.name = "A" then .sleep 5 (.done (.value (.str "a"))) else .done (.value (.str "b"))
  functions := {}

def twinsAnswer : Answers := fun task _ =>
  some (.value (.str (if task.name = "A" then "a" else "b")))

def twinsRun (parallelism : Nat) : Run :=
  .start (Workflow.twins.limitedTo (some parallelism)) twinsExecutor.functions
    twinsExecutor.handler {} {} true "x" 0

theorem twins_answers : twinsExecutor.handler.Answers twinsAnswer := by
  intro task context n
  by_cases h : task.name = "A"
  · simp only [twinsExecutor, twinsAnswer, h, if_true]
    exact .sleep 5 (.done _)
  · simp only [twinsExecutor, twinsAnswer, h, if_false]
    exact .done _

/-- One task at a time or both: the runs succeed and say the same. -/
theorem runs_agree_twins :
    ∃ (one : Play (twinsRun 1)) (both : Play (twinsRun 2)), one.Fair ∧ both.Fair ∧
      (one.Succeeds ∧ both.Succeeds) ∧
      ∀ n₁ n₂ time₁ time₂, (one.run n₁).state = .over time₁ none →
        (both.run n₂).state = .over time₂ none →
        ((one.run n₁).report gateRequest).outputs = ((both.run n₂).report gateRequest).outputs ∧
        ((one.run n₁).report gateRequest).completed =
          ((both.run n₂).report gateRequest).completed ∧
        ((one.run n₁).report gateRequest).skipped =
          ((both.run n₂).report gateRequest).skipped := by
  obtain ⟨one, hone⟩ := Play.exists_fair (twinsRun 1)
  obtain ⟨both, hboth⟩ := Play.exists_fair (twinsRun 2)
  have huntimed : Workflow.twins.Untimed := ⟨rfl, by decide⟩
  have hsteady : twinsExecutor.SteadySecrets := nofun
  have hstore : ∀ parallelism, WorkflowStore.get
      { workflows := [("gate", Workflow.twins.limitedTo (some parallelism))] }
      gateRequest.workflow = .ok (some (Workflow.twins.limitedTo (some parallelism))) :=
    fun _ => rfl
  have hbegin : ∀ parallelism, twinsExecutor.begin
      { workflows := [("gate", Workflow.twins.limitedTo (some parallelism))] } gateRequest false
      true 0 = .ok (twinsRun parallelism) := fun _ => rfl
  have hcourse := Executor.onCourse_begin huntimed hsteady twins_answers (by decide)
    (hstore 1) (hbegin 1)
  have hsucceeds : one.Succeeds := by
    rw [Play.succeeds_iff (huntimed.limitedTo (some 1)) hcourse hone]
    have hsome : (course twinsAnswer .twins Workflow.twins.executionLevels
        (twinsExecutor.scopeOf .twins gateRequest) {}).isSome = true := by decide +kernel
    exact Option.isSome_iff_ne_none.mp hsome
  obtain ⟨hagree, hsame⟩ := runs_agree huntimed rfl rfl hsteady twins_answers twins_answers
    (by decide) (by decide) (hstore 1) (hstore 2) (hbegin 1) (hbegin 2) one both hone hboth
  exact ⟨one, both, hone, hboth, ⟨hsucceeds, hagree.mp hsucceeds⟩, hsame⟩

end WorkflowEngine
