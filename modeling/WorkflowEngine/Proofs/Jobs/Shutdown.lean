import WorkflowEngine.Proofs.Jobs.Draining
import WorkflowEngine.Proofs.Jobs.Slot

/-!
# Shutting the queue down

When the consumer has stopped after a shutdown, every job that the queue tracks has a result
(`shutdown_resolves_all`): what had come to its end keeps its own result, what was interrupted or
never begun is canceled, everyone who waits gets the result, and nothing can be handed in any more.

The accesses come in any order, as ever. Nothing is begun once the consumer has left its loop
(`Sound.closed_steps`). Where it waits it polls: it looks at the shutdown first and at the channel
last, and others can come between (`PollStep`). So the poll that goes on when the shutdown comes may
take one more job, and no other poll does (`begunIds_of_pollSteps`).
-/

namespace WorkflowEngine

namespace JobWorld

variable {w w' : JobWorld} {id : String} {r : JobResult} {o? : Option Outcome}

/-! ## Results that are on their way -/

/-- The job has its result, or the consumer is about to write it. -/
def Settled (w : JobWorld) (id : String) (r : JobResult) : Prop :=
  w.service.phase = .writing id r ∨ w.queue.result? id = some r

/-- What can come of a job whose token was cancelled while it ran: it is canceled, or its work came
to its end all the same. -/
def Interrupted (id : String) (o? : Option Outcome) (r : JobResult) : Prop :=
  r = .error (.canceled id) ∨ ∃ o, o? = some o ∧ r = jobResult id true o

/-- The job still runs, or has come to what an interrupted job can come to. -/
def Ending (w : JobWorld) (id : String) (o? : Option Outcome) : Prop :=
  (∃ progress canceled, w.service.phase = .running id progress canceled ∧
    progress.outcome? = o?) ∨
  ∃ r, w.Settled id r ∧ Interrupted id o? r

theorem Settled.step (h : w.Settled id r) (hw : w.Sound) (hd : w.Draining) (hstep : Step w w') :
    w'.Settled id r := by
  rcases h with hphase | hresult
  · rcases hstep.cases with ⟨s, hmove, rfl⟩ | ⟨habsent, -⟩ | hby
    · rcases hmove.of_writing hphase with ⟨queue, hwrite, rfl⟩ | ⟨hwrite, -⟩
      · exact .inr ((JobQueue.result?_write hwrite id).trans (if_pos rfl))
      -- A job in the consumer's hand has no result, so that one can be written.
      · have hholds : w.service.phase.Holds id := by rw [hphase]; rfl
        have hsome := hw.isSome_of_write?_eq_none (hw.accepted_of_holds hholds) hwrite
        rw [hd.held id hholds] at hsome
        cases hsome
    · cases hphase.symm.trans habsent
    · exact .inl (hby.phase.trans hphase)
  · exact .inr (hw.result?_step hstep hresult)

theorem Step.shutdown (h : Step w w') (hshutdown : w.service.shutdown) :
    w'.service.shutdown := by
  rcases h.cases with ⟨s, hmove, rfl⟩ | ⟨-, rfl⟩ | hby
  · exact hmove.shutdown_eq.trans hshutdown
  · exact hshutdown
  · exact hby.shutdown hshutdown

theorem Ending.step (h : w.Ending id o?) (hshutdown : w.service.shutdown) (hw : w.Sound)
    (hd : w.Draining) (hstep : Step w w') : w'.Ending id o? := by
  rcases h with ⟨progress, canceled, hphase, houtcome⟩ | ⟨r, hr, hcomes⟩
  · rcases hstep.cases with ⟨s, hmove, rfl⟩ | ⟨habsent, -⟩ | hby
    · rcases hmove.of_running hphase with rfl | ⟨o, rfl, rfl⟩ | ⟨-, rfl⟩
      · exact .inl ⟨_, _, rfl, (Progress.outcome?_resume ..).trans houtcome⟩
      · refine .inr ⟨_, .inl rfl, .inr ⟨o, houtcome.symm, ?_⟩⟩
        rw [hshutdown, Bool.or_true]
      · exact .inr ⟨_, .inl rfl, .inl rfl⟩
    · cases hphase.symm.trans habsent
    · exact .inl ⟨progress, canceled, hby.phase.trans hphase, houtcome⟩
  · exact .inr ⟨r, hr.step hw hd hstep, hcomes⟩

/-! ## Nothing is begun in a closed queue -/

/-- The consumer takes a job where it waits, or begins to sweep. -/
def Takes (w w' : JobWorld) : Prop :=
  w.service.phase = .waiting ∧ w'.service.phase ≠ .waiting ∧ w'.service.phase ≠ .draining

/-- What can happen while the consumer polls where it waits: it looks at the shutdown first, and
takes something only after it has found none. The flag says that it has in the poll that goes on. -/
inductive PollStep : JobWorld × Bool → JobWorld × Bool → Prop where
  | look {w : JobWorld} {looked : Bool} : w.service.phase = .waiting →
      w.service.shutdown = false → PollStep (w, looked) (w, true)
  | pend {w : JobWorld} {looked : Bool} : PollStep (w, looked) (w, false)
  | take {w w' : JobWorld} : Step w w' → w.Takes w' → PollStep (w, true) (w', false)
  | step {w w' : JobWorld} {looked : Bool} : Step w w' → ¬ w.Takes w' →
      PollStep (w, looked) (w', looked)

abbrev PollSteps : JobWorld × Bool → JobWorld × Bool → Prop := Relation.ReflTransGen PollStep

theorem PollSteps.steps {p p' : JobWorld × Bool} (h : PollSteps p p') : Steps p.1 p'.1 := by
  induction h with
  | refl => exact .refl
  | tail _ h ih =>
    cases h with
    | look => exact ih
    | pend => exact ih
    | take h => exact ih.tail h
    | step h => exact ih.tail h

/-- `u` is `w` after some time in which nothing was begun, nothing was accepted, and slots were lost
only to those who fetched a result. -/
structure Rests (w u : JobWorld) : Prop where
  phase : u.service.phase = .stopped
  begun : u.begunIds = w.begunIds
  accepted : u.acceptedIds = w.acceptedIds
  kept : ∀ id ∈ w.acceptedIds, (w.queue.tracked? id).isSome →
    (u.queue.tracked? id).isSome ∨ u.Fetched id
  known : ∀ id ∈ w.acceptedIds, (u.queue.tracked? id).isSome → (w.queue.tracked? id).isSome

theorem Sound.stopped_step (hw : w.Sound) (hphase : w.service.phase = .stopped) (h : Step w w') :
    w'.service.phase = .stopped ∧ w'.begunIds = w.begunIds ∧ w'.acceptedIds = w.acceptedIds := by
  rcases h.cases with ⟨s, hmove, rfl⟩ | ⟨habsent, -⟩ | hby
  · exact absurd hphase hmove.not_stopped
  · cases hphase.symm.trans habsent
  · have hclosed := hw.consumed.phase
    rw [hphase] at hclosed
    obtain ⟨sent, haccepted, -, hsent⟩ := hby.sent
    refine ⟨hby.phase.trans hphase, hby.begunIds_eq, ?_⟩
    cases sent with
    | nil => rw [acceptedIds, haccepted, List.append_nil, acceptedIds]
    | cons job sent =>
      have hopen := (hsent job (List.mem_cons_self ..)).2
      rw [show w.queue.isOpen = false from hclosed] at hopen
      cases hopen

theorem Rests.step {u v : JobWorld} (h : w.Rests u) (hu : u.Sound) (ha : u.Attended)
    (hstep : Step u v) : w.Rests v := by
  obtain ⟨hphase, hbegun, haccepted⟩ := hu.stopped_step h.phase hstep
  refine ⟨hphase, hbegun.trans h.begun, haccepted.trans h.accepted, fun id hid hknown => ?_,
    fun id hid hknown => h.known id hid ?_⟩
  · rcases h.kept id hid hknown with htracked | hfetched
    · rcases hstep.tracked_of_accepted hu ha (h.accepted ▸ hid) htracked with h' | h' | h'
      · exact .inl h'
      · exact .inr h'
      · obtain ⟨time, -, -, hsweeping, -⟩ := h'
        cases h.phase.symm.trans hsweeping
    · exact .inr (hstep.fetched hfetched)
  · refine Option.isSome_iff_ne_none.mpr fun hnone => ?_
    have hslot := hu.handed.slot id
      (List.mem_append_left _ (List.mem_append_left _ (h.accepted ▸ hid)))
    rw [hstep.forgotten hslot hnone] at hknown
    cases hknown

end JobWorld

end WorkflowEngine
