import WorkflowEngine.Proofs.Execution.Turns

/-!
# The tale of a task

From its start on a task has turns, and other things happen in its run: other tasks and the
coordinator have turns, and the token is cancelled. `Run.Tale` tells what happened to the task
meanwhile. What a task has come to follows from its tale (`Run.Tale.told`), and until the task has
ended whatever happens is part of it (`Run.Tale.step`), because a level is closed only when all its
tasks have ended (`Run.Working.coordinate`).
-/

namespace WorkflowEngine

open Expression (Fault Registry Scope SecretCache)

namespace Run

variable {r r' r₀ : Run} {i j now : Nat} {tokenFirst : Bool} {t : Task} {looked : List Nat}

/-! ## Runs that go on -/

/-- While a run goes on, the coordinator has the results of the tasks that it has looked at. -/
def Orderly (r : Run) : Prop := r.isGoing → ∃ looked, r.Working looked

theorem orderly_openNext (now : Nat) (ahead : List (List String)) (hqueue : r.queue = [])
    (hended : r.ended = []) : (openNext now ahead r).Orderly := by
  induction ahead generalizing r with
  | nil => exact nofun
  | cons names ahead ih =>
    rw [openNext]
    split
    · exact nofun
    · dsimp only
      split
      · exact ih hqueue hended
      · have hopened : ({ r with
            ledger := (Ledger.openLevel r.workflow names r.ledger).2
            ahead
            level := (Ledger.openLevel r.workflow names r.ledger).1.map fun task => { task }
            seen := 0
            results := [] } : Run).Working [] := working_nil hqueue hended rfl
        intro _
        refine ⟨[], hopened.of_outline (outline_pushAll ..) ?_⟩
        rw [desk_pushAll]
        exact hopened.counted

theorem orderly_closeLevel (now : Nat) (hqueue : r.queue = []) (hended : r.ended = []) :
    (r.closeLevel now).Orderly := by
  rw [closeLevel]
  dsimp only
  split
  · exact nofun
  · exact orderly_openNext now _ hqueue hended

/-- The coordinator leaves the level as it is, or all its tasks have ended. -/
theorem Working.coordinate (hr : r.Working looked) (now : Nat) :
    (r.coordinate now).Orderly ∧
      ((r.coordinate now).level = r.level ∨ ∀ t ∈ r.level, ∃ e, t.phase = .ended e) := by
  have hlooked := hr.look now
  have hdesk := (look_sameLevel now r.ended { r with ended := [] }).desk
  rw [Run.coordinate]
  generalize Run.look now r.ended { r with ended := [] } = s at *
  have hlevel : s.level = r.level := congrArg Desk.level hdesk
  have hclose : (if s.isGoing ∧ s.seen = s.level.length then s.closeLevel now else s).Orderly ∧
      ((if s.isGoing ∧ s.seen = s.level.length then s.closeLevel now else s).level = r.level ∨
        ∀ t ∈ r.level, ∃ e, t.phase = .ended e) := by
    by_cases hall : s.isGoing ∧ s.seen = s.level.length
    · rw [if_pos hall]
      have hworking := hlooked hall.1
      obtain ⟨hended, hqueue⟩ :=
        hworking.counted.all_looked (hworking.seen.symm.trans hall.2)
      refine ⟨orderly_closeLevel now hqueue (congrArg Desk.ended hdesk), .inr ?_⟩
      intro t ht
      rw [← hlevel] at ht
      obtain ⟨i, hi⟩ := List.mem_iff_getElem?.mp ht
      obtain ⟨t', e, ht', he⟩ := hworking.counted.ended i
        (List.mem_append_left _ (hended i (List.getElem?_eq_some_iff.mp hi).1))
      rw [show s.desk.level[i]? = some t from hi] at ht'
      cases ht'
      exact ⟨e, he⟩
    · rw [if_neg hall]
      exact ⟨fun hgo => ⟨_, hlooked hgo⟩, .inl hlevel⟩
  generalize (if s.isGoing ∧ s.seen = s.level.length then s.closeLevel now else s) = u at hclose ⊢
  split
  · exact ⟨nofun, hclose.2⟩
  · exact hclose

theorem Orderly.step (hr : r.Orderly) (h : Step r r') : r'.Orderly := by
  cases h with
  | coordinate now hgoing =>
    obtain ⟨looked, hworking⟩ := hr hgoing
    exact (hworking.coordinate now).1
  | advanceTask i now tokenFirst hgoing =>
    obtain ⟨looked, hworking⟩ := hr hgoing
    exact fun _ => ⟨looked, hworking.advanceTask i now tokenFirst⟩
  | cancel =>
    intro hgoing
    have hstate : r.cancel.state = r.state := congrArg Outline.state (outline_cancel r)
    rw [isGoing, hstate] at hgoing
    obtain ⟨looked, hworking⟩ := hr hgoing
    exact ⟨looked, hworking.cancel⟩
  | schedule turns =>
    intro hgoing
    obtain ⟨looked, hworking⟩ := hr hgoing
    exact ⟨looked, hworking.counted, hworking.seen, hworking.results⟩

theorem Orderly.steps (hr : r.Orderly) (h : Steps r r') : r'.Orderly := by
  induction h with
  | refl => exact hr
  | tail _ hstep ih => exact ih.step hstep

theorem activity_pushAll (r : Run) (turns : List Turn) :
    (r.pushAll turns).activity = r.activity := congrArg (·.activity) (core_pushAll r turns)

theorem activity_openNext (now : Nat) (ahead : List (List String)) (r : Run) :
    (openNext now ahead r).activity = r.activity := by
  induction ahead generalizing r with
  | nil => rfl
  | cons names ahead ih =>
    rw [openNext]
    split
    · rfl
    · dsimp only
      split
      · exact ih _
      · exact activity_pushAll ..

theorem activity_closeLevel (r : Run) (now : Nat) : (r.closeLevel now).activity = r.activity := by
  rw [closeLevel]
  dsimp only
  split
  · rfl
  · exact activity_openNext ..

theorem look_canceled (now : Nat) (is : List Nat) (h : r.activity.canceled = true) :
    (look now is r).activity.canceled = true := by
  induction is generalizing r with
  | nil => exact h
  | cons i is ih =>
    rw [look]
    split
    · exact ih h
    · rfl
    · exact h
    · exact ih h

theorem coordinate_canceled (now : Nat) (h : r.activity.canceled = true) :
    (r.coordinate now).activity.canceled = true := by
  have hlook := look_canceled now r.ended (r := { r with ended := [] }) h
  rw [coordinate]
  generalize look now r.ended { r with ended := [] } = s at hlook ⊢
  have hclose : (if s.isGoing ∧ s.seen = s.level.length then s.closeLevel now
      else s).activity.canceled = true := by
    split
    · rw [activity_closeLevel]
      exact hlook
    · exact hlook
  generalize (if s.isGoing ∧ s.seen = s.level.length then s.closeLevel now else s) = u at hclose ⊢
  split
  · rfl
  · exact hclose

theorem cancel_canceled (r : Run) : r.cancel.activity.canceled = true := by
  unfold cancel
  split
  · assumption
  · rw [activity_pushAll]
    rfl

theorem advanceTask_canceled (i now : Nat) (tokenFirst : Bool) (h : r.activity.canceled = true) :
    (r.advanceTask i now tokenFirst).activity.canceled = true := by
  obtain ⟨r', hturned, hcore⟩ := turned_advanceTask r i now tokenFirst
  have hactivity : (r.advanceTask i now tokenFirst).activity = r'.activity :=
    congrArg (·.activity) hcore
  rw [hactivity]
  cases hturned with
  | idle => exact h
  | queued => exact h
  | failed hadmits =>
    rw [(sameRules_endTask ..).activity]
    cases hadmits <;> exact h
  | began hadmits _ _ houtcome =>
    rw [(sameRules_proceed ..).activity, houtcome]
    cases hadmits <;> exact Assignment.attempt_canceled h
  | resumed _ houtcome =>
    rw [(sameRules_proceed ..).activity, houtcome]
    exact Assignment.resume_keeps_canceled h tokenFirst

/-- A cancelled token stays cancelled. -/
theorem Step.canceled (h : Step r r') (hcanceled : r.activity.canceled = true) :
    r'.activity.canceled = true := by
  cases h with
  | coordinate now => exact coordinate_canceled now hcanceled
  | advanceTask i now tokenFirst => exact advanceTask_canceled i now tokenFirst hcanceled
  | cancel => exact cancel_canceled r
  | schedule turns => exact hcanceled

/-! ## Turns of a task -/

def launchEvents (r : Run) (task : Task) (now : Nat) : List AttemptEvent :=
  match r.scope.replaceTask task with
  | (.error _, _) => []
  | (.ok resolved, s) => Assignment.beginEvents ⟨resolved, s.context, r.handler⟩ now r.activity

/-- What happens to a task in its turn. -/
def turnEvents (r : Run) (i now : Nat) (tokenFirst : Bool) : List AttemptEvent :=
  match r.level[i]? with
  | some { task, phase := .spawned } => if r.permits = 0 then [] else r.launchEvents task now
  | some { task, phase := .granted } => r.launchEvents task now
  | some { phase := .active s attempts, .. } => s.resumeEvents now tokenFirst attempts r.activity
  | _ => []

/-- The task is what a task of the run becomes when its placeholders are filled in. -/
structure Assigns (r : Run) (t : Task) (s : Assignment) : Prop where
  task : (r.scope.replaceTask t).1 = .ok s.task
  context : s.context = (r.scope.replaceTask t).2.context
  handler : s.handler = r.handler

theorem turnEvents_of_admits (h : r.Admits i t r') :
    r.turnEvents i now tokenFirst = r'.launchEvents t now := by
  cases h with
  | spawned hi hpermits =>
    simp only [turnEvents, hi]
    rw [if_neg (by omega)]
    rfl
  | granted hi => simp only [turnEvents, hi]

theorem launchEvents_of_error {fault : Fault} (h : (r.scope.replaceTask t).1 = .error fault) :
    r.launchEvents t now = [] := by
  rw [launchEvents]
  split
  · rfl
  · rename_i hreplaced
    rw [hreplaced] at h
    cases h

theorem launchEvents_of_assigns {s : Assignment} (h : r.Assigns t s) :
    r.launchEvents t now = s.beginEvents now r.activity := by
  obtain ⟨task, context, handler⟩ := s
  obtain ⟨htask, hcontext, hhandler⟩ := h
  dsimp only at htask hcontext hhandler
  rw [launchEvents]
  split
  · rename_i hreplaced
    rw [hreplaced] at htask
    cases htask
  · rename_i hreplaced
    rw [hreplaced] at htask hcontext
    cases htask
    rw [hcontext, hhandler]

theorem assigns_of_turned {resolved : Task} (h : (r.scope.replaceTask t).1 = .ok resolved) :
    r.Assigns t ⟨resolved, (r.scope.replaceTask t).2.context, r.handler⟩ := ⟨h, rfl, rfl⟩

end Run

/-- What a task has come to after events: before it was assigned nothing happened. -/
def TaskPhase.Told (assigned : Assignment → Prop) (t : Task) (log : List AttemptEvent)
    (canceled : Bool) : TaskPhase → Prop
  | .active s attempts =>
    assigned s ∧ s.Stands log attempts canceled ∧ ∀ e, attempts ≠ .ended e
  | .ended e => (log = [] ∧ ∃ fault, e = .failed (.placeholders t.name fault)) ∨
      ∃ s, assigned s ∧ s.Stands log (.ended e) canceled
  | _ => log = []

/-- The task waits between two attempts. -/
def TaskPhase.Delays : TaskPhase → Prop
  | .active _ (.delaying ..) => True
  | _ => False

theorem Attempts.delays_phase {s : Assignment} {attempts : Attempts}
    (h : (attempts.phase s).Delays) : ∃ wake fault left, attempts = .delaying wake fault left := by
  cases attempts with
  | calling progress deadline left => cases h
  | delaying wake fault left => exact ⟨wake, fault, left, rfl⟩
  | ended e => cases h

namespace TaskPhase.Told

variable {assigned : Assignment → Prop} {t : Task} {log : List AttemptEvent} {phase : TaskPhase}

theorem mono {canceled canceled' : Bool} (h : phase.Told assigned t log canceled)
    (hcanceled : canceled = true → canceled' = true) : phase.Told assigned t log canceled' := by
  cases phase with
  | spawned => exact h
  | waiting => exact h
  | granted => exact h
  | active s attempts => exact ⟨h.1, h.2.1.mono hcanceled, h.2.2⟩
  | ended e => exact h.imp_right fun ⟨s, hs, hstands⟩ => ⟨s, hs, hstands.mono hcanceled⟩

theorem of_stands {s : Assignment} {attempts : Attempts} {canceled : Bool} (hs : assigned s)
    (h : s.Stands log attempts canceled) : (attempts.phase s).Told assigned t log canceled := by
  cases attempts with
  | ended e => exact .inr ⟨s, hs, h⟩
  | calling progress deadline left => exact ⟨hs, h, nofun⟩
  | delaying wake fault left => exact ⟨hs, h, nofun⟩

end TaskPhase.Told

namespace Run

variable {r r' r₀ : Run} {i j now : Nat} {tokenFirst : Bool} {t : Task} {looked : List Nat}
  {phase : TaskPhase} {log : List AttemptEvent} {assigned : Assignment → Prop}

theorem getElem?_proceed {u : TaskRun} (hqueue : i ∉ r.queue) (hi : r.level[i]? = some u)
    (s : Assignment) (attempts : Attempts) :
    (r.proceed i s attempts).level[i]? = some { u with phase := attempts.phase s } := by
  cases attempts with
  | ended e =>
    have hdesk := desk_endTask r i e
    have hended := Desk.getElem?_finish (d := r.desk) e hqueue hi
    rw [← hdesk] at hended
    exact hended
  | calling progress deadline left => exact Desk.getElem?_setPhase_self (d := r.desk) hi
  | delaying wake fault left => exact Desk.getElem?_setPhase_self (d := r.desk) hi

/-- A task that is about to begin has no events yet. -/
theorem Admits.told {t' : Task} {canceled : Bool} (h : r.Admits i t' r')
    (hcounted : r.desk.Counted looked) (hi : r.level[i]? = some ⟨t, phase⟩)
    (htold : phase.Told assigned t log canceled) :
    t' = t ∧ log = [] ∧ r'.level[i]? = some ⟨t, phase⟩ ∧ i ∉ r'.queue ∧
      ∀ s, r'.Assigns t s → r.Assigns t s := by
  cases h with
  | spawned hi' hpermits =>
    rw [hi] at hi'
    cases hi'
    exact ⟨rfl, htold, hi, (hcounted.not_mem_of_canGo (d := r.desk) hi trivial).2,
      fun s hs => ⟨hs.task, hs.context, hs.handler⟩⟩
  | granted hi' =>
    rw [hi] at hi'
    cases hi'
    exact ⟨rfl, htold, hi, (hcounted.not_mem_of_canGo (d := r.desk) hi trivial).2, fun s => id⟩

/-- What a turn of its own makes of a task. If it waits between two attempts then, the token is not
cancelled. -/
theorem told_turned (hcounted : r.desk.Counted looked) (hi : r.level[i]? = some ⟨t, phase⟩)
    (htold : phase.Told assigned t log r.activity.canceled)
    (hassigned : ∀ s, r.Assigns t s → assigned s) (h : r.Turned i now tokenFirst r') :
    ∃ phase', r'.level[i]? = some ⟨t, phase'⟩ ∧
      phase'.Told assigned t (log ++ r.turnEvents i now tokenFirst) r'.activity.canceled ∧
      (phase'.Delays → r'.activity.canceled = false) := by
  cases h with
  | idle hnot =>
    have hnone : r.turnEvents i now tokenFirst = [] := by
      rw [turnEvents, hi]
      cases phase with
      | waiting => rfl
      | ended e => rfl
      | spawned => exact absurd trivial (hnot _ hi)
      | granted => exact absurd trivial (hnot _ hi)
      | active s attempts => exact absurd trivial (hnot _ hi)
    rw [hnone, List.append_nil]
    refine ⟨phase, hi, htold, fun hdelays => ?_⟩
    cases phase with
    | active s attempts => exact absurd trivial (hnot _ hi)
    | _ => cases hdelays
  | queued hi' hpermits =>
    rw [hi] at hi'
    cases hi'
    have hnone : r.turnEvents i now tokenFirst = [] := by simp [turnEvents, hi, hpermits]
    rw [hnone, List.append_nil]
    exact ⟨.waiting, Desk.getElem?_setPhase_self (d := r.desk) hi, htold, nofun⟩
  | @failed t' fault r₁ hadmits hfault =>
    obtain ⟨rfl, rfl, hi₁, hqueue, -⟩ := hadmits.told hcounted hi htold
    rw [turnEvents_of_admits hadmits, launchEvents_of_error hfault]
    refine ⟨_, getElem?_proceed (r := r₁.setScope (r₁.scope.replaceTask t').2) hqueue hi₁
      ⟨t', r.context, r.handler⟩ (.ended (.failed (.placeholders t'.name fault))), ?_⟩
    exact ⟨.inl ⟨rfl, fault, rfl⟩, nofun⟩
  | @began t' resolved r₁ s outcome hadmits hresolved htask houtcome =>
    subst houtcome
    obtain ⟨rfl, rfl, hi₁, hqueue, hsame⟩ := hadmits.told hcounted hi htold
    have hassigns : r₁.Assigns t' s := htask ▸ assigns_of_turned hresolved
    rw [turnEvents_of_admits hadmits, launchEvents_of_assigns hassigns, List.nil_append]
    let started : Run :=
      { r₁.setScope (r₁.scope.replaceTask t').2 with activity := (s.begin now r₁.activity).2 }
    refine ⟨_, getElem?_proceed (r := started) hqueue hi₁ s (s.begin now r₁.activity).1, ?_⟩
    rw [(sameRules_proceed started i s (s.begin now r₁.activity).1).activity]
    refine ⟨.of_stands (hassigned s (hsame s hassigns)) (s.stands_begin now r₁.activity), ?_⟩
    intro hdelays
    obtain ⟨wake, fault, left, hdelaying⟩ := Attempts.delays_phase hdelays
    exact (s.follows ..).uncanceled hdelaying
  | @resumed t' s attempts outcome hi' houtcome =>
    subst houtcome
    rw [hi] at hi'
    cases hi'
    obtain ⟨hs, hstands, -⟩ := htold
    have hevents : r.turnEvents i now tokenFirst =
        s.resumeEvents now tokenFirst attempts r.activity := by
      simp only [turnEvents, hi]
    have hqueue := (hcounted.not_mem_of_canGo (d := r.desk) hi trivial).2
    let went : Run := { r with activity := (s.resume now tokenFirst attempts r.activity).2 }
    refine ⟨_, getElem?_proceed (r := went) hqueue hi s _, ?_⟩
    rw [(sameRules_proceed went i s _).activity, hevents]
    refine ⟨.of_stands hs (hstands.resume now tokenFirst), fun hdelays => ?_⟩
    obtain ⟨wake, fault, left, hdelaying⟩ := Attempts.delays_phase hdelays
    exact Assignment.resume_uncanceled hdelaying

/-- A turn of another task may give this one a permit, and does not touch it otherwise. -/
theorem getElem?_advanceTask_of_ne (hcounted : r.desk.Counted looked) (hne : j ≠ i)
    (hi : r.level[i]? = some ⟨t, phase⟩) (now : Nat) (tokenFirst : Bool) :
    (r.advanceTask j now tokenFirst).level[i]? = some ⟨t, phase⟩ ∨
      phase = .waiting ∧ (r.advanceTask j now tokenFirst).level[i]? = some ⟨t, .granted⟩ := by
  have hmove := (r.advanceTask_cases j now tokenFirst).2
  have hset (phase' : TaskPhase) : (r.desk.setPhase j phase').level[i]? = some ⟨t, phase⟩ :=
    (Desk.getElem?_setPhase_of_ne hne).trans hi
  rw [show (r.advanceTask j now tokenFirst).level = (r.advanceTask j now tokenFirst).desk.level
    from rfl]
  generalize (r.advanceTask j now tokenFirst).desk = d at hmove
  cases hmove with
  | nothing => exact .inl hi
  | queued => exact .inl (hset .waiting)
  | went => exact .inl (hset _)
  | finished e =>
    rw [Desk.finish, Desk.release]
    dsimp only
    split
    · exact .inl (hset (.ended e))
    · rename_i next rest hqueue
      by_cases hnext : next = i
      · subst hnext
        have hin : next ∈ r.desk.queue := by
          rw [show r.desk.queue = next :: rest from hqueue]
          exact List.mem_cons_self
        obtain ⟨u, hu, hwaiting⟩ := hcounted.waiting next hin
        rw [show r.desk.level[next]? = _ from hi] at hu
        cases hu
        exact .inr ⟨hwaiting, Desk.getElem?_setPhase_self (hset (.ended e))⟩
      · exact .inl ((Desk.getElem?_setPhase_of_ne hnext).trans (hset (.ended e)))

/-! ## The tale of a task -/

/-- What happens besides the turns of the task at that place, while its level lasts. -/
inductive Elsewhere (i now : Nat) (r : Run) : Run → Prop where
  | turn (j : Nat) (tokenFirst : Bool) : r.isGoing → j ≠ i →
      Elsewhere i now r (r.advanceTask j now tokenFirst)
  | coordinate : r.isGoing → (r.coordinate now).level = r.level →
      Elsewhere i now r (r.coordinate now)
  | cancel : Elsewhere i now r r.cancel
  | schedule (turns : List Turn) : Elsewhere i now r { r with turns }

theorem Elsewhere.step (h : r.Elsewhere i now r') : Step r r' := by
  cases h with
  | turn j tokenFirst hgoing => exact .advanceTask j now tokenFirst hgoing
  | coordinate hgoing => exact .coordinate now hgoing
  | cancel => exact .cancel
  | schedule turns => exact .schedule turns

theorem Elsewhere.level (hr : r.Orderly) (h : r.Elsewhere i now r')
    (hi : r.level[i]? = some ⟨t, phase⟩) :
    r'.level[i]? = some ⟨t, phase⟩ ∨
      phase = .waiting ∧ r'.level[i]? = some ⟨t, .granted⟩ := by
  cases h with
  | turn j tokenFirst hgoing hne =>
    obtain ⟨looked, hworking⟩ := hr hgoing
    exact getElem?_advanceTask_of_ne hworking.counted hne hi now tokenFirst
  | coordinate _ hlevel => exact .inl (hlevel ▸ hi)
  | cancel =>
    have hlevel : r.cancel.level = r.level := congrArg Desk.level (desk_cancel r)
    exact .inl (hlevel ▸ hi)
  | schedule turns => exact .inl hi

/-- The time, and whether a task has been told of a cancellation. -/
structure Watch where
  now : Nat
  /-- When the token was cancelled, if the task has had no turn since. -/
  unheard : Option Nat := none

namespace Watch

/-- The token is cancelled or not before and after something has happened. -/
def notes (w : Watch) (before after : Bool) : Watch :=
  if after && !before then { w with unheard := some w.now } else w

theorem notes_of_canceled (w : Watch) (after : Bool) : w.notes true after = w := by
  rw [notes, if_neg (by simp)]

theorem unheard_notes (w : Watch) : (w.notes false true).unheard = some w.now := rfl

end Watch

/-- What happened to the task at that place of the level since the first run, in turns of its own
and while anything else happened, at any times. The tale is over when the level is closed. -/
inductive Tale (r₀ : Run) (i : Nat) : List AttemptEvent → Watch → Run → Prop where
  | start (now : Nat) : Tale r₀ i [] { now } r₀
  | pass {log : List AttemptEvent} {w : Watch} {r : Run} (now : Nat) : Tale r₀ i log w r →
      Tale r₀ i log { w with now } r
  | turn {log : List AttemptEvent} {w : Watch} {r : Run} (tokenFirst : Bool) : Tale r₀ i log w r →
      r.isGoing → Tale r₀ i (log ++ r.turnEvents i w.now tokenFirst) { w with unheard := none }
        (r.advanceTask i w.now tokenFirst)
  | elsewhere {log : List AttemptEvent} {w : Watch} {r r' : Run} : Tale r₀ i log w r →
      r.Elsewhere i w.now r' →
      Tale r₀ i log (w.notes r.activity.canceled r'.activity.canceled) r'

variable {w : Watch}

theorem Tale.steps (h : r₀.Tale i log w r) : Steps r₀ r := by
  induction h with
  | start => exact .refl
  | pass _ _ ih => exact ih
  | turn tokenFirst _ hgoing ih => exact ih.tail (.advanceTask i _ tokenFirst hgoing)
  | elsewhere _ helse ih => exact ih.tail helse.step

/-- The task was assigned in some run on the way. -/
def AssignedSince (r₀ : Run) (t : Task) (s : Assignment) : Prop := ∃ r, Steps r₀ r ∧ r.Assigns t s

/-- What a task has come to. If it waits between two attempts and the token is cancelled, it has not
been told of that. -/
theorem Tale.told (hr₀ : r₀.Orderly) (hi : r₀.level[i]? = some ⟨t, .spawned⟩)
    (h : r₀.Tale i log w r) : ∃ phase, r.level[i]? = some ⟨t, phase⟩ ∧
      phase.Told (r₀.AssignedSince t) t log r.activity.canceled ∧
      (phase.Delays → r.activity.canceled = true → ∃ time, w.unheard = some time) := by
  induction h with
  | start => exact ⟨.spawned, hi, rfl, nofun⟩
  | pass _ _ ih => exact ih
  | @turn log w r tokenFirst htale hgoing ih =>
    obtain ⟨phase, hphase, htold, -⟩ := ih
    obtain ⟨looked, hworking⟩ := hr₀.steps htale.steps hgoing
    obtain ⟨r', hturned, hcore⟩ := turned_advanceTask r i w.now tokenFirst
    rw [show (r.advanceTask i w.now tokenFirst).level = r'.level from congrArg (·.level) hcore,
      show (r.advanceTask i w.now tokenFirst).activity = r'.activity
        from congrArg (·.activity) hcore]
    obtain ⟨phase', hphase', htold', huncanceled⟩ :=
      told_turned hworking.counted hphase htold (fun s hs => ⟨r, htale.steps, hs⟩) hturned
    refine ⟨phase', hphase', htold', fun hdelays hcanceled => ?_⟩
    rw [huncanceled hdelays] at hcanceled
    cases hcanceled
  | @elsewhere log w r r' htale helse ih =>
    obtain ⟨phase, hphase, htold, hunheard⟩ := ih
    have htold' := htold.mono helse.step.canceled
    rcases helse.level (hr₀.steps htale.steps) hphase with hsame | ⟨rfl, hgranted⟩
    · refine ⟨phase, hsame, htold', fun hdelays hcanceled => ?_⟩
      cases hbefore : r.activity.canceled with
      | true =>
        rw [w.notes_of_canceled]
        exact hunheard hdelays hbefore
      | false =>
        rw [hcanceled]
        exact ⟨_, w.unheard_notes⟩
    · exact ⟨.granted, hgranted, htold, nofun⟩

/-- Whatever happens, the tale goes on until the task has ended. -/
theorem Tale.step (hr₀ : r₀.Orderly) (h : r₀.Tale i log w r)
    (hi : r.level[i]? = some ⟨t, phase⟩) (hphase : ∀ e, phase ≠ .ended e) (hstep : Step r r') :
    ∃ more w', r₀.Tale i (log ++ more) w' r' := by
  have goes_on (now : Nat) (helse : r.Elsewhere i now r') :
      ∃ more w', r₀.Tale i (log ++ more) w' r' :=
    ⟨[], _, by rw [List.append_nil]; exact (h.pass now).elsewhere helse⟩
  cases hstep with
  | coordinate now hgoing =>
    obtain ⟨looked, hworking⟩ := hr₀.steps h.steps hgoing
    rcases (hworking.coordinate now).2 with hlevel | hended
    · exact goes_on now (.coordinate hgoing hlevel)
    · obtain ⟨e, he⟩ := hended _ (List.mem_of_getElem? hi)
      exact absurd he (hphase e)
  | advanceTask j now tokenFirst hgoing =>
    by_cases hij : j = i
    · subst hij
      exact ⟨_, _, (h.pass now).turn tokenFirst hgoing⟩
    · exact goes_on now (.turn j tokenFirst hgoing hij)
  -- what takes no time can be noted at any
  | cancel => exact goes_on 0 .cancel
  | schedule turns => exact goes_on 0 (.schedule turns)

end Run

end WorkflowEngine
