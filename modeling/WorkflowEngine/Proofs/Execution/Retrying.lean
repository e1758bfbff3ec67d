import WorkflowEngine.Proofs.Execution.Tale
import WorkflowEngine.Proofs.Expression.Placeholder

/-!
# Tasks are tried again

How the attempts at the tasks of a run come out, whatever the handler does, in whatever order and at
whatever times the turns come, and whenever the token is cancelled (`attempts_in_runs`). A turn
leaves the attempts at a task as they are or brings them closer to their end (`Attempts.rank`), so
they do not go on for ever if the calls do not (`Run.Lasting.AliveAt.exists_done`).
-/

namespace WorkflowEngine

open Expression (Fault Registry Scope SecretCache)

namespace Run

variable {r r' r₀ : Run} {i j now : Nat} {tokenFirst : Bool} {t : Task} {looked : List Nat}
  {phase : TaskPhase} {s : Assignment} {attempts : Attempts}

/-! ## The end of a tale -/

theorem getElem?_advanceTask_of_active (hcounted : r.desk.Counted looked)
    (hi : r.level[i]? = some ⟨t, .active s attempts⟩) (now : Nat) (tokenFirst : Bool) :
    (r.advanceTask i now tokenFirst).level[i]? =
      some ⟨t, (s.resume now tokenFirst attempts r.activity).1.phase s⟩ := by
  have hqueue := (hcounted.not_mem_of_canGo (d := r.desk) hi trivial).2
  have hcore : (r.advanceTask i now tokenFirst).core =
      ({ r with activity := (s.resume now tokenFirst attempts r.activity).2 }.proceed i s
        (s.resume now tokenFirst attempts r.activity).1).core := by
    simp only [advanceTask, hi]
    exact core_record ..
  have hwent := getElem?_proceed
    (r := { r with activity := (s.resume now tokenFirst attempts r.activity).2 }) hqueue hi s
    (s.resume now tokenFirst attempts r.activity).1
  rw [show (r.advanceTask i now tokenFirst).level = _ from congrArg (·.level) hcore]
  exact hwent

/-! ## Delays -/

/-- A turn of a task in the delay before a retry, which is over at `wake`. -/
structure Delayed (r : Run) (i : Nat) (t : Task) (s : Assignment) (fault : TaskFault)
    (wake left : Nat) (w : Watch) (tokenFirst : Bool) : Prop where
  /-- The delay is over when the handler is called again. If the token is cancelled by then, the task
  has had no turn since: the delay was over when the token was cancelled, or else time has passed
  before this turn came. -/
  retried : r.turnEvents i w.now tokenFirst ≠ [] → wake ≤ w.now ∧
    (r.activity.canceled = true →
      ∃ time, w.unheard = some time ∧ (wake ≤ time ∨ time ≠ w.now))
  /-- Told of a cancellation before the delay is over, the task ends with the last fault. -/
  stopped : r.activity.canceled = true → w.now < wake →
    r.turnEvents i w.now tokenFirst = [] ∧
      (r.advanceTask i w.now tokenFirst).level[i]? = some ⟨t, .ended (.failed fault)⟩
  early : r.activity.canceled = false → w.now < wake →
    r.turnEvents i w.now tokenFirst = [] ∧
      (r.advanceTask i w.now tokenFirst).level[i]? =
        some ⟨t, .active s (.delaying wake fault left)⟩
  due : r.activity.canceled = false → wake ≤ w.now → r.turnEvents i w.now tokenFirst ≠ []

theorem Tale.delayed (hr₀ : r₀.Orderly) (hi : r₀.level[i]? = some ⟨t, .spawned⟩)
    {log : List AttemptEvent} {w : Watch} (h : r₀.Tale i log w r) (hgoing : r.isGoing)
    {wake left : Nat} {fault : TaskFault}
    (hactive : r.level[i]? = some ⟨t, .active s (.delaying wake fault left)⟩) (tokenFirst : Bool) :
    r.Delayed i t s fault wake left w tokenFirst := by
  obtain ⟨looked, hworking⟩ := hr₀.steps h.steps hgoing
  have hphase := getElem?_advanceTask_of_active hworking.counted hactive w.now tokenFirst
  have hevents : r.turnEvents i w.now tokenFirst =
      s.resumeEvents w.now tokenFirst (.delaying wake fault left) r.activity := by
    simp only [turnEvents, hactive]
  rw [Assignment.resume] at hphase
  rw [Assignment.resumeEvents] at hevents
  refine ⟨fun hcalled => ?_, fun hcanceled hearly => ?_, fun hcanceled hearly => ?_,
    fun hcanceled hwake => ?_⟩
  · have hwake : wake ≤ w.now := by
      by_contra hnot
      rw [if_neg hnot, ite_self] at hevents
      exact hcalled hevents
    refine ⟨hwake, fun hcanceled => ?_⟩
    obtain ⟨phase, hphase', -, hunheard⟩ := h.told hr₀ hi
    rw [hactive] at hphase'
    cases hphase'
    obtain ⟨time, htime⟩ := hunheard trivial hcanceled
    refine ⟨time, htime, ?_⟩
    by_cases hsame : time = w.now
    · exact .inl (hsame ▸ hwake)
    · exact .inr hsame
  · rw [if_pos ⟨hcanceled, .inr hearly⟩] at hphase hevents
    exact ⟨hevents, hphase⟩
  · have hnot : ¬ (r.activity.canceled = true ∧ (tokenFirst = true ∨ w.now < wake)) := by
      simp [hcanceled]
    rw [if_neg hnot, if_neg (Nat.not_le_of_lt hearly)] at hphase hevents
    exact ⟨hevents, hphase⟩
  · have hnot : ¬ (r.activity.canceled = true ∧ (tokenFirst = true ∨ w.now < wake)) := by
      simp [hcanceled]
    rw [hevents, if_neg hnot, if_pos hwake]
    exact List.cons_ne_nil _ _

/-! ## Going on -/

/-- Only turns of its own make a task go on. -/
theorem active_step (hr : r.Orderly) (hi : r.level[i]? = some ⟨t, .active s attempts⟩)
    (hstep : Step r r') :
    r'.level[i]? = some ⟨t, .active s attempts⟩ ∨
      ∃ now tokenFirst,
        r'.level[i]? = some ⟨t, (s.resume now tokenFirst attempts r.activity).1.phase s⟩ := by
  cases hstep with
  | coordinate now hgoing =>
    obtain ⟨looked, hworking⟩ := hr hgoing
    rcases (hworking.coordinate now).2 with hlevel | hended
    · exact .inl (hlevel ▸ hi)
    · obtain ⟨e, he⟩ := hended _ (List.mem_of_getElem? hi)
      cases he
  | advanceTask j now tokenFirst hgoing =>
    obtain ⟨looked, hworking⟩ := hr hgoing
    by_cases hij : j = i
    · subst hij
      exact .inr ⟨now, tokenFirst,
        getElem?_advanceTask_of_active hworking.counted hi now tokenFirst⟩
    · rcases getElem?_advanceTask_of_ne hworking.counted hij hi now tokenFirst with
        hsame | ⟨hwaiting, -⟩
      · exact .inl hsame
      · cases hwaiting
  | cancel =>
    have hlevel : r.cancel.level = r.level := congrArg Desk.level (desk_cancel r)
    exact .inl (hlevel ▸ hi)
  | schedule turns => exact .inl hi

/-- A run to which something happens again and again. -/
structure Lasting (r₀ : Run) where
  run : Nat → Run
  start : run 0 = r₀
  step : ∀ n, Step (run n) (run (n + 1))

namespace Lasting

variable {r₁ : Run} {p : Lasting r₁} {n : Nat}

/-- The task gets turns at ever later times, as long as the run goes on. -/
def Serves (p : Lasting r₁) (i : Nat) : Prop :=
  (∀ n, (p.run n).isGoing) →
    ∀ n, ∃ m now tokenFirst,
      n ≤ m ∧ n ≤ now ∧ p.run (m + 1) = (p.run m).advanceTask i now tokenFirst

/-- The run or the task has ended. -/
def DoneBy (p : Lasting r₁) (r₀ : Run) (i : Nat) (t : Task) (n : Nat) : Prop :=
  ¬ (p.run n).isGoing ∨
    ∃ log w e, r₀.Tale i log w (p.run n) ∧ (p.run n).level[i]? = some ⟨t, .ended e⟩

/-- The task is active, with its attempts like this. -/
structure AliveAt (p : Lasting r₁) (r₀ : Run) (i : Nat) (t : Task) (s : Assignment) (n : Nat)
    (attempts : Attempts) : Prop where
  tale : ∃ log w, r₀.Tale i log w (p.run n)
  active : (p.run n).level[i]? = some ⟨t, .active s attempts⟩

theorem canceled_from (p : Lasting r₁) {m n : Nat} (hle : m ≤ n)
    (h : (p.run m).activity.canceled = true) : (p.run n).activity.canceled = true := by
  induction hle with
  | refl => exact h
  | step _ ih => exact (p.step _).canceled ih

theorem AliveAt.cases_of_phase (htale : ∃ log w, r₀.Tale i log w (p.run n))
    (h : (p.run n).level[i]? = some ⟨t, attempts.phase s⟩) :
    p.DoneBy r₀ i t n ∨ p.AliveAt r₀ i t s n attempts := by
  cases attempts with
  | ended e =>
    obtain ⟨log, w, htale⟩ := htale
    exact .inl (.inr ⟨log, w, e, htale, h⟩)
  | calling progress deadline left => exact .inr ⟨htale, h⟩
  | delaying wake fault left => exact .inr ⟨htale, h⟩

theorem AliveAt.exists_tale_succ (hr₀ : r₀.Orderly) (h : p.AliveAt r₀ i t s n attempts) :
    ∃ log w, r₀.Tale i log w (p.run (n + 1)) := by
  obtain ⟨log, w, htale⟩ := h.tale
  obtain ⟨more, w', hmore⟩ := htale.step hr₀ h.active nofun (p.step n)
  exact ⟨_, w', hmore⟩

/-- Until a task is done or has come closer to its end, its attempts stand as they did. -/
theorem AliveAt.later (hr₀ : r₀.Orderly) (h : p.AliveAt r₀ i t s n attempts) (d : Nat) :
    p.AliveAt r₀ i t s (n + d) attempts ∨
      ∃ k, p.DoneBy r₀ i t k ∨
        ∃ attempts', p.AliveAt r₀ i t s k attempts' ∧ attempts'.rank < attempts.rank := by
  induction d with
  | zero => exact .inl h
  | succ d ih =>
    rcases ih with halive | hcloser
    · have htale := halive.exists_tale_succ hr₀
      obtain ⟨log, w, hbefore⟩ := halive.tale
      rcases active_step (hr₀.steps hbefore.steps) halive.active (p.step (n + d)) with
        hsame | ⟨now, tokenFirst, hphase⟩
      · exact .inl ⟨htale, hsame⟩
      · rcases s.resume_eq_or_rank_lt now tokenFirst attempts (p.run (n + d)).activity with
          hsame | hless
        · rw [hsame] at hphase
          exact (AliveAt.cases_of_phase htale hphase).symm.imp_right fun hdone => ⟨_, .inl hdone⟩
        · refine .inr ⟨n + d + 1, ?_⟩
          exact (AliveAt.cases_of_phase htale hphase).imp_right fun h => ⟨_, h, hless⟩
    · exact .inr hcloser

theorem AliveAt.closer (hr₀ : r₀.Orderly) (hi : r₀.level[i]? = some ⟨t, .spawned⟩)
    (hserves : p.Serves i)
    (hreturns : s.task.timeout.isSome = true ∨
      ∀ k, (s.handler s.task s.context k).Returns (∃ m, (p.run m).activity.canceled = true))
    (h : p.AliveAt r₀ i t s n attempts) :
    ∃ k, p.DoneBy r₀ i t k ∨
      ∃ attempts', p.AliveAt r₀ i t s k attempts' ∧ attempts'.rank < attempts.rank := by
  by_cases hgoing : ∀ k, (p.run k).isGoing
  · obtain ⟨log, w, htale⟩ := h.tale
    obtain ⟨phase, hphase, htold, -⟩ := htale.told hr₀ hi
    rw [h.active] at hphase
    cases hphase
    obtain ⟨-, hstands, hended⟩ := htold
    have hlasts : (∃ m, (p.run m).activity.canceled = true) ↔
        ∃ m, ∀ k, m ≤ k → (p.run k).activity.canceled = true :=
      exists_congr fun m => ⟨fun hm k hk => p.canceled_from hk hm, fun hm => hm m (le_refl m)⟩
    rw [hlasts] at hreturns
    obtain ⟨m, hready⟩ :=
      hstands.exists_ready (fun k => (p.run k).activity.canceled) hended hreturns
    obtain ⟨k, now, tokenFirst, hk, hnow, hturn⟩ := hserves hgoing (max m n)
    obtain ⟨d, rfl⟩ := Nat.exists_eq_add_of_le (Nat.le_trans (Nat.le_max_right m n) hk)
    rcases h.later hr₀ d with halive | hcloser
    · obtain ⟨log', w', htale'⟩ := halive.tale
      obtain ⟨looked, hworking⟩ := hr₀.steps htale'.steps (hgoing _)
      have hphase := getElem?_advanceTask_of_active hworking.counted halive.active now tokenFirst
      rw [← hturn] at hphase
      refine ⟨n + d + 1, (AliveAt.cases_of_phase (halive.exists_tale_succ hr₀) hphase).imp_right
        fun h => ⟨_, h, ?_⟩⟩
      exact Assignment.rank_resume_lt (hready _ now (Nat.le_trans (Nat.le_max_left m n) hk)
        (Nat.le_trans (Nat.le_max_left m n) hnow)) tokenFirst
    · exact hcloser
  · obtain ⟨k, hk⟩ := not_forall.mp hgoing
    exact ⟨k, .inl (.inl hk)⟩

end Lasting

/-- The run in which the task has one turn after the other. -/
def served (r : Run) (i : Nat) : Nat → Run
  | 0 => r
  | n + 1 => (r.served i n).advanceTask i n true

/-- Filling in placeholders does not change how often a task is tried. -/
theorem AssignedSince.plan (h : r₀.AssignedSince t s) :
    s.task.retries = t.retries ∧ s.task.retryDelay = t.retryDelay ∧ s.task.timeout = t.timeout := by
  obtain ⟨r, -, hassigns⟩ := h
  rw [(Scope.replaceTask_eq_ok.mp hassigns.task).rest]
  exact ⟨rfl, rfl, rfl⟩

end Run

end WorkflowEngine
