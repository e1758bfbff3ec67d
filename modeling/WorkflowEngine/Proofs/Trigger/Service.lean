import Mathlib.Logic.Relation
import WorkflowEngine.Trigger.Service

/-!
# Loops of the trigger service

A service with everything that is done to it, in any order and at any times (`TriggerService.Step`).
A loop needs an interval: without one it breaks down at its start, and with one it goes on until the
service is cancelled (`loops_run_until_canceled`). `settle_eq` carries this: as long as nobody
cancels, an instant runs one cycle for each loop that is due and keeps all loops.
-/

namespace WorkflowEngine

/-! ## Cycles -/

/-- The processors are asked one after the other, each once, and each finds the intake as the one
before has left it. -/
inductive Asks (now : Nat) (canceled : Bool) : List TriggerProcessor → Intake →
    List (Except String Nat) → List TriggerProcessor → Intake → Prop where
  | nil {t : Intake} : Asks now canceled [] t [] [] t
  | cons {p p' : TriggerProcessor} {ps ps' : List TriggerProcessor} {t t' t'' : Intake}
      {count : Except String Nat} {counts : List (Except String Nat)} :
      p.process now canceled t = (count, p', t') → Asks now canceled ps t' counts ps' t'' →
      Asks now canceled (p :: ps) t (count :: counts) (p' :: ps') t''

/-- What the processors that succeeded have counted together. -/
def countedBy (counts : List (Except String Nat)) : Nat :=
  (counts.filterMap Except.toOption).foldr (· + ·) 0

/-- The processors that failed, and why. -/
def failuresOf (ps : List TriggerProcessor) (counts : List (Except String Nat)) :
    List TriggerFailure :=
  (ps.zip counts).filterMap fun
    | (p, .error reason) => some ⟨p.name, reason⟩
    | (_, .ok _) => none

theorem runCycle_asks (now : Nat) (canceled : Bool) (ps : List TriggerProcessor) (t : Intake) :
    ∃ counts, Asks now canceled ps t counts (runCycle now canceled ps t).processors
        (runCycle now canceled ps t).intake ∧
      (runCycle now canceled ps t).fired = countedBy counts ∧
      (runCycle now canceled ps t).failures = failuresOf ps counts := by
  induction ps generalizing t with
  | nil => exact ⟨[], .nil, rfl, rfl⟩
  | cons p ps ih =>
    rw [runCycle]
    rcases hp : p.process now canceled t with ⟨count, p', t'⟩
    obtain ⟨counts, hasks, hfired, hfailures⟩ := ih t'
    cases count with
    | ok n =>
      refine ⟨.ok n :: counts, .cons hp hasks, ?_, hfailures⟩
      simp [countedBy, hfired, Except.toOption]
    | error reason =>
      refine ⟨.error reason :: counts, .cons hp hasks, hfired, ?_⟩
      simp [failuresOf, hfailures]

theorem Ticker.next_tick {t : Ticker} {now : Nat} (hpos : 0 < t.period) (hdue : t.isDue now) :
    t.next < (t.tick now).next ∧ (t.tick now).next ≤ now + t.period := by
  simp only [isDue, decide_eq_true_eq] at hdue
  simp only [tick]
  split <;> omega

namespace TriggerService

variable {s s' : TriggerService}

/-- All that can be done to a service. What others do to the queue meanwhile is left open. -/
inductive Step (s : TriggerService) : TriggerService → Prop where
  | start (now : Nat) : Step s (s.start now)
  | settle (now : Nat) : Step s (s.settle now)
  | runOnce (now : Nat) : Step s (s.runOnce now).2
  | cancel : Step s s.cancel
  | addSchedule (n : Nat) (schedule : Schedule) : Step s (s.addSchedule n schedule)
  | removeSchedules (n : Nat) (workflow : String) : Step s (s.removeSchedules n workflow)
  | others (intake : Intake) : Step s { s with intake }

abbrev Steps : TriggerService → TriggerService → Prop := Relation.ReflTransGen Step

theorem steps_advance (s : TriggerService) (now target : Nat) : s.Steps (s.advance now target) := by
  induction hdist : target - now using Nat.strongRecOn generalizing s now with
  | ind n ih =>
    rw [advance]
    split
    · have hsettle : s.Steps (s.settle now) := .single (.settle now)
      dsimp only
      split
      · exact hsettle
      · rename_i wake _
        split
        · rename_i hlt hwake
          exact hsettle.trans (ih (target - wake) (by omega) _ wake rfl)
        · exact hsettle
    · exact .refl

/-! ## Loops -/

def withLoops (s : TriggerService) (loops : List Ticker) : TriggerService := { s with loops }

/-- The service after so many cycles. -/
def cycles (now : Nat) : Nat → TriggerService → TriggerService
  | 0, s => s
  | n + 1, s => cycles now n (s.runOnce now).2

/-- A loop after an instant: one that was due has had its tick. -/
def ticked (now : Nat) (loop : Ticker) : Ticker := if loop.isDue now then loop.tick now else loop

theorem cycles_withLoops (now n : Nat) (s : TriggerService) (loops : List Ticker) :
    cycles now n (s.withLoops loops) = (cycles now n s).withLoops loops := by
  induction n generalizing s with
  | zero => rfl
  | succ n ih => exact ih (s.runOnce now).2

theorem cycles_frame (now n : Nat) (s : TriggerService) :
    (cycles now n s).interval = s.interval ∧ (cycles now n s).canceled = s.canceled ∧
      (cycles now n s).crashed = s.crashed := by
  induction n generalizing s with
  | zero => exact ⟨rfl, rfl, rfl⟩
  | succ n ih => exact ih (s.runOnce now).2

theorem runDue_eq (now : Nat) (loops : List Ticker) (s : TriggerService) :
    runDue now loops s = (cycles now (loops.countP fun loop => loop.isDue now) s).withLoops
      (s.loops ++ loops.map (ticked now)) := by
  induction loops generalizing s with
  | nil => simp [runDue, cycles, withLoops]
  | cons loop rest ih =>
    rw [runDue]
    split
    · rename_i hdue
      have hcycle := cycles_withLoops now (rest.countP fun loop => loop.isDue now)
        (s.runOnce now).2 (s.loops ++ [loop.tick now])
      rw [withLoops] at hcycle
      rw [ih, hcycle, List.countP_cons_of_pos (p := fun loop : Ticker => loop.isDue now) hdue]
      simp [withLoops, cycles, ticked, hdue]
    · rename_i hdue
      have hcycle := cycles_withLoops now (rest.countP fun loop => loop.isDue now) s
        (s.loops ++ [loop])
      rw [withLoops] at hcycle
      rw [ih, hcycle, List.countP_cons_of_neg (p := fun loop : Ticker => loop.isDue now) hdue]
      simp [withLoops, ticked, hdue]

/-- As long as nobody cancels, an instant runs one cycle for each loop that is due. -/
theorem settle_eq (hopen : s.canceled = false) (now : Nat) :
    s.settle now = (cycles now (s.loops.countP fun loop => loop.isDue now) s).withLoops
      (s.loops.map (ticked now)) := by
  have hcycle := cycles_withLoops now (s.loops.countP fun loop => loop.isDue now) s []
  rw [withLoops] at hcycle
  rw [settle, if_neg (by simp [hopen]), runDue_eq, hcycle]
  rfl

theorem start_eq (hinterval : s.interval ≠ 0) (now : Nat) :
    s.start now = (s.withLoops (s.loops ++ [⟨s.interval, now⟩])).settle now := by
  rw [start, if_neg hinterval, withLoops]

/-! ## What holds at all times -/

/-- Whoever has no interval has no loop either, and nothing else breaks down. -/
structure Sound (settings : Settings) (s : TriggerService) : Prop where
  interval : s.interval = settings.triggerInterval
  crashed : s.crashed = true → settings.triggerInterval = 0
  loops : settings.triggerInterval = 0 → s.loops = []
  period : ∀ loop ∈ s.loops, loop.period = settings.triggerInterval

variable {settings : Settings}

theorem period_ticked (now : Nat) (loop : Ticker) : (ticked now loop).period = loop.period := by
  rw [ticked]
  split <;> rfl

theorem Sound.settle (hs : s.Sound settings) (now : Nat) : (s.settle now).Sound settings := by
  cases hcanceled : s.canceled with
  | true =>
    rw [TriggerService.settle, if_pos hcanceled]
    exact ⟨hs.interval, hs.crashed, fun _ => rfl, nofun⟩
  | false =>
    obtain ⟨hinterval, -, hcrashed⟩ :=
      cycles_frame now (s.loops.countP fun loop => loop.isDue now) s
    rw [settle_eq hcanceled]
    refine ⟨hinterval.trans hs.interval, fun h => hs.crashed (hcrashed ▸ h), fun hnone => ?_, ?_⟩
    · show s.loops.map (ticked now) = []
      rw [hs.loops hnone, List.map_nil]
    · intro loop hloop
      obtain ⟨before, hbefore, rfl⟩ := List.mem_map.mp hloop
      exact (period_ticked now before).trans (hs.period before hbefore)

theorem Sound.start (hs : s.Sound settings) (now : Nat) : (s.start now).Sound settings := by
  -- Without an interval no loop is added, so that `loops` holds for lack of any.
  by_cases hinterval : s.interval = 0
  · rw [TriggerService.start, if_pos hinterval]
    exact ⟨hs.interval, fun _ => hs.interval ▸ hinterval, hs.loops, hs.period⟩
  · rw [start_eq hinterval]
    have hadded : (s.withLoops (s.loops ++ [⟨s.interval, now⟩])).Sound settings := by
      refine ⟨hs.interval, hs.crashed, fun hnone => ?_, fun loop hloop => ?_⟩
      · exact (hinterval (hs.interval.trans hnone)).elim
      · rcases List.mem_append.mp hloop with hloop | hloop
        · exact hs.period loop hloop
        · rw [List.mem_singleton.mp hloop]
          exact hs.interval
    exact hadded.settle now

theorem Sound.step (hs : s.Sound settings) (hstep : Step s s') : s'.Sound settings := by
  cases hstep with
  | start now => exact hs.start now
  | settle now => exact hs.settle now
  | runOnce _ | cancel | addSchedule _ _ | removeSchedules _ _ | others _ =>
    exact ⟨hs.interval, hs.crashed, hs.loops, hs.period⟩

theorem sound_of_steps {processors : List TriggerProcessor} {intake : Intake}
    (hsteps : Steps (ofSettings settings processors intake) s) : s.Sound settings := by
  induction hsteps with
  | refl => exact ⟨rfl, nofun, fun _ => rfl, nofun⟩
  | tail _ hstep ih => exact ih.step hstep

theorem length_settle (hopen : s.canceled = false) (now : Nat) :
    (s.settle now).loops.length = s.loops.length := by
  rw [settle_eq hopen]
  exact List.length_map _

theorem length_start (hopen : s.canceled = false) (hinterval : s.interval ≠ 0) (now : Nat) :
    (s.start now).loops.length = s.loops.length + 1 := by
  have hadded : (s.withLoops (s.loops ++ [⟨s.interval, now⟩])).canceled = false := hopen
  rw [start_eq hinterval, length_settle hadded]
  exact List.length_append

/-- A loop ends only when the service was cancelled. -/
theorem Step.canceled_of_ended (hstep : Step s s') (hless : s'.loops.length < s.loops.length) :
    s.canceled = true := by
  refine Bool.of_not_eq_false fun hopen => ?_
  cases hstep with
  | start now =>
    by_cases hinterval : s.interval = 0
    · rw [TriggerService.start, if_pos hinterval] at hless
      exact Nat.lt_irrefl _ hless
    · rw [length_start hopen hinterval] at hless
      omega
  | settle now =>
    rw [length_settle hopen] at hless
    exact Nat.lt_irrefl _ hless
  | runOnce _ | cancel | addSchedule _ _ | removeSchedules _ _ | others _ =>
    exact Nat.lt_irrefl _ hless

theorem Sound.crashed_start (hs : s.Sound settings) (now : Nat) :
    (s.start now).crashed = true ↔ settings.triggerInterval = 0 := by
  refine ⟨(hs.start now).crashed, fun hnone => ?_⟩
  rw [TriggerService.start, if_pos (hs.interval.trans hnone)]

/-- A loop breaks down at its start exactly when the interval is zero. Every other loop goes on
until the service is cancelled: it runs a cycle whenever it is due, and is due again within an
interval. In a cycle every processor is asked once, in order, whatever the others answer; those that
succeed are counted together, and those that fail are recorded. -/
theorem loops_run_until_canceled {processors : List TriggerProcessor} {intake : Intake}
    (hsteps : Steps (ofSettings settings processors intake) s) (now : Nat) :
    ((s.start now).crashed = true ↔ settings.triggerInterval = 0) ∧
    (s.crashed = true → settings.triggerInterval = 0) ∧
    (settings.triggerInterval = 0 → s.loops = [] ∧ (s.start now).loops = []) ∧
    (settings.triggerInterval ≠ 0 → s.canceled = false →
      (s.start now).loops.length = s.loops.length + 1 ∧
      s.settle now = (cycles now (s.loops.countP fun loop => loop.isDue now) s).withLoops
        (s.loops.map (ticked now)) ∧
      ∀ loop ∈ s.loops, loop.isDue now → loop.next < (loop.tick now).next ∧
        (loop.tick now).next ≤ now + settings.triggerInterval) ∧
    (∀ s', Step s s' → s'.loops.length < s.loops.length → s.canceled = true) ∧
    ∃ counts, Asks now s.canceled s.processors s.intake counts (s.runOnce now).2.processors
        (s.runOnce now).2.intake ∧
      (s.runOnce now).1 = countedBy counts ∧
      (s.runOnce now).2.failures = s.failures ++ failuresOf s.processors counts := by
  have hs := sound_of_steps hsteps
  refine ⟨hs.crashed_start now, hs.crashed, fun hnone => ⟨hs.loops hnone, ?_⟩,
    fun hsome hopen => ?_, fun s' hstep => hstep.canceled_of_ended, ?_⟩
  · exact (hs.start now).loops hnone
  · refine ⟨length_start hopen (hs.interval ▸ hsome) now, settle_eq hopen now, ?_⟩
    intro loop hloop hdue
    have hperiod := hs.period loop hloop
    rw [← hperiod]
    exact loop.next_tick (by omega) hdue
  · obtain ⟨counts, hasks, hfired, hfailures⟩ := runCycle_asks now s.canceled s.processors s.intake
    exact ⟨counts, hasks, hfired, congrArg (s.failures ++ ·) hfailures⟩

/-- One processor fails, and the other has a schedule that is due every tenth of a second. -/
def halfBroken : List TriggerProcessor :=
  [.other "broken" 0 fun _ => .error "offline", .timeBased [⟨"w", "u", 100000000, 0⟩]]

def halfBrokenLoop : TriggerService := (ofSettings { triggerInterval := 100 } halfBroken {}).start 0

/-- The failure ends neither the cycle nor the loop. -/
theorem loops_run_until_canceled_halfBroken :
    halfBrokenLoop.loops = [⟨100, 100⟩] ∧ halfBrokenLoop.crashed = false ∧
      halfBrokenLoop.settle 100 = (cycles 100 1 halfBrokenLoop).withLoops [⟨100, 200⟩] ∧
      (halfBrokenLoop.settle 100).failures = [⟨"broken", "offline"⟩, ⟨"broken", "offline"⟩] ∧
      (halfBrokenLoop.settle 100).intake.accepted.map (·.time) = [0, 100] := by
  have hloops : halfBrokenLoop.loops = [⟨100, 100⟩] := by decide +kernel
  obtain ⟨-, hcrashed, -, hruns, -, -⟩ := loops_run_until_canceled
    (.single (.start 0) : Steps (ofSettings { triggerInterval := 100 } halfBroken {}) _) 100
  have hsettle := (hruns (by decide) (by decide +kernel)).2.1
  refine ⟨hloops, ?_, ?_, by decide +kernel, by decide +kernel⟩
  · cases h : halfBrokenLoop.crashed with
    | false => rfl
    | true => cases hcrashed h
  · rw [halfBrokenLoop, hsettle, ← halfBrokenLoop, hloops]
    rfl

/-- Settings without an interval can be loaded, and an interval below a millisecond becomes none.
Then a loop breaks down before it asks anyone, although nobody has cancelled. -/
theorem broken_down_without_interval :
    (∃ settings, Settings.ofText .json "\x7b\"trigger_interval_ms\": 0\x7d" = .ok settings ∧
      ((ofSettings settings halfBroken {}).start 0).crashed = true ∧
      ((ofSettings settings halfBroken {}).start 0).failures = []) ∧
    ((ofSettings (Settings.withTriggerInterval {} 999) halfBroken {}).start 0).crashed = true := by
  have hloaded : Settings.ofText .json "\x7b\"trigger_interval_ms\": 0\x7d" =
      .ok { triggerInterval := 0 } := by
    have hread : (Format.json.read "\x7b\"trigger_interval_ms\": 0\x7d").bind
        (Settings.decode? Format.json.levels) = some { triggerInterval := 0 } := by
      decide +kernel
    rw [Settings.ofText, hread]
  exact ⟨⟨_, hloaded, by decide, by decide⟩, by decide⟩

end TriggerService

end WorkflowEngine
