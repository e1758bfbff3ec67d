import WorkflowEngine.Proofs.Jobs.Clients
import WorkflowEngine.Proofs.Jobs.Slot

/-!
# Draining the queue

A consumer that is told to stop closes the queue, cancels the jobs that are left in the channel one
by one, and then everything else that has no result. It gets to the end in a bounded number of its
own steps (`JobService.exists_stopped`). `Draining` is the invariant that carries it: a job in the
channel or in the consumer's hand has no result yet, and once the consumer goes through the slots,
every accepted job without a result is still ahead of it.
-/

namespace WorkflowEngine

namespace JobService

variable {s s' : JobService} {now : Nat}

/-! ## The way to the end -/

end JobService

namespace JobWorld

variable {w w' : JobWorld} {id : String} {r : JobResult} {s : JobService}

/-! ## Nothing is left out -/

/-- What was covered when the consumer is about to do something: once it goes through the slots,
nothing is left in the channel, and what has no result is still ahead of it. -/
def Covered (w : JobWorld) : ConsumerPhase → Prop
  | .canceling todo _ =>
    w.queue.channel = [] ∧ ∀ id ∈ w.acceptedIds, w.queue.result? id = none → id ∈ todo
  | .notingAll _ => w.queue.channel = [] ∧ ∀ id ∈ w.acceptedIds, (w.queue.result? id).isSome
  | .stopped => w.queue.channel = [] ∧ ∀ id ∈ w.acceptedIds, (w.queue.result? id).isSome
  | _ => True

/-- A job in the channel or in the consumer's hand has no result, and no job is left out. -/
structure Draining (w : JobWorld) : Prop where
  queued : ∀ job ∈ w.queue.channel,
    w.queue.result? job.id = none ∧ ¬ w.service.phase.Holds job.id
  held : ∀ id, w.service.phase.Holds id → w.queue.result? id = none
  covered : w.Covered w.service.phase

theorem Sound.accepted_of_holds (hw : w.Sound) (h : w.service.phase.Holds id) :
    id ∈ w.acceptedIds := by
  have hphase := hw.consumed.phase
  cases hw' : w.service.phase with
  | running id' progress canceled =>
    rw [hw'] at h hphase
    obtain ⟨-, -, -, job, hjob, hid, -⟩ := hphase
    exact h ▸ hid ▸ List.mem_map_of_mem hjob
  | writing id' r =>
    rw [hw'] at h hphase
    exact h ▸ hphase.1
  | _ =>
    rw [hw'] at h
    exact h.elim

/-- A job that is being handed in has no result while the queue is open. -/
theorem Sound.result?_of_registering (hw : w.Sound) (hopen : w.queue.isOpen)
    (hid : id ∈ w.registering.map (·.id)) : w.queue.result? id = none := by
  cases hresult : w.queue.result? id with
  | none => rfl
  | some r =>
    have hbegun := hw.consumed.unbegun hopen id (by rw [hresult]; rfl)
    exact absurd hid (hw.handed.givenOut (hw.consumed.begun_prefix.subset hbegun)).1

/-- The jobs in the channel have different ids. -/
theorem Sound.nodup_channel (hw : w.Sound) : (w.queue.channel.map (·.id)).Nodup := by
  obtain ⟨begun, dropped, haccepted, -⟩ := hw.consumed.order
  have hnodup := (List.nodup_append.mp (List.nodup_append.mp hw.handed.nodup).1).1
  rw [acceptedIds, haccepted, List.map_append] at hnodup
  exact (List.nodup_append.mp hnodup).2.1

theorem not_holds_goOn (s : JobService) : ¬ s.goOn.phase.Holds id := by
  rcases s.phase_goOn with h | h <;> rw [h] <;> exact not_false

theorem covered_goOn (s : JobService) : w.Covered s.goOn.phase := by
  rcases s.phase_goOn with h | h <;> rw [h] <;> trivial

theorem Covered.bystands {phase : ConsumerPhase} (hc : w.Covered phase) (h : w.Bystands w')
    (hclosed : w.PhaseSound phase) : w'.Covered phase := by
  obtain ⟨sent, haccepted, hchannel, hsent⟩ := h.sent
  have hsame : w.queue.isOpen = false →
      w'.queue.channel = w.queue.channel ∧ w'.acceptedIds = w.acceptedIds := by
    intro hopen
    cases sent with
    | nil => exact ⟨hchannel.trans (List.append_nil _), by simp [acceptedIds, haccepted]⟩
    | cons job sent =>
      have h := (hsent job (List.mem_cons_self ..)).2
      rw [hopen] at h
      cases h
  cases phase with
  | canceling todo canceled =>
    obtain ⟨hchannel, hids⟩ := hsame hclosed.1
    exact ⟨hchannel.trans hc.1, fun id hid hnone =>
      hc.2 id (hids ▸ hid) ((h.result id).symm.trans hnone)⟩
  | notingAll canceled =>
    obtain ⟨hchannel, hids⟩ := hsame hclosed.1
    exact ⟨hchannel.trans hc.1, fun id hid =>
      (congrArg Option.isSome (h.result id)).trans (hc.2 id (hids ▸ hid))⟩
  | stopped =>
    obtain ⟨hchannel, hids⟩ := hsame hclosed
    exact ⟨hchannel.trans hc.1, fun id hid =>
      (congrArg Option.isSome (h.result id)).trans (hc.2 id (hids ▸ hid))⟩
  | _ => trivial

theorem Draining.bystands (hd : w.Draining) (hw : w.Sound) (h : w.Bystands w') : w'.Draining := by
  obtain ⟨sent, -, hchannel, hsent⟩ := h.sent
  refine ⟨fun job hjob => ?_, fun id hid => ?_, ?_⟩
  · rw [h.phase, h.result]
    rw [hchannel] at hjob
    rcases List.mem_append.mp hjob with hjob | hjob
    · exact hd.queued job hjob
    · obtain ⟨hregistering, hopen⟩ := hsent job hjob
      have hid : job.id ∈ w.registering.map (·.id) := List.mem_map_of_mem hregistering
      exact ⟨hw.result?_of_registering hopen hid, fun hholds =>
        (hw.handed.givenOut (hw.accepted_of_holds hholds)).1 hid⟩
  · rw [h.result]
    exact hd.held id (h.phase ▸ hid)
  · rw [h.phase]
    exact hd.covered.bystands h hw.consumed.phase

/-- A turn of the consumer that takes no job and writes no result. -/
theorem Draining.turn (hd : w.Draining) (hchannel : s.queue.channel = w.queue.channel)
    (hresult : ∀ id, s.queue.result? id = w.queue.result? id)
    (hholds : ∀ id, s.phase.Holds id → w.service.phase.Holds id)
    (hcovered : Covered { w with service := s } s.phase) : Draining { w with service := s } := by
  refine ⟨fun job hjob => ?_, fun id hid => ?_, hcovered⟩
  · change job ∈ s.queue.channel at hjob
    obtain ⟨hnone, hnot⟩ := hd.queued job (hchannel ▸ hjob)
    exact ⟨(hresult job.id).trans hnone, fun h => hnot (hholds job.id h)⟩
  · exact (hresult id).trans (hd.held id (hholds id hid))

/-- The consumer takes the first job of the channel into its hand. -/
theorem Draining.take (hd : w.Draining) (hw : w.Sound) {job : Job} {queue : JobQueue}
    (htake : w.queue.take? = some (job, queue)) (hqueue : s.queue = queue)
    (hholds : ∀ id, s.phase.Holds id → job.id = id)
    (hcovered : Covered { w with service := s } s.phase) : Draining { w with service := s } := by
  subst hqueue
  obtain ⟨hchannel, hqueue⟩ := JobQueue.take?_eq_some htake
  have hresult : ∀ id, s.queue.result? id = w.queue.result? id := fun id => by
    rw [hqueue]
    rfl
  have hnodup := hw.nodup_channel
  rw [hchannel, List.map_cons, List.nodup_cons] at hnodup
  refine ⟨fun job' hjob => ⟨?_, fun h => ?_⟩, fun id hid => ?_, hcovered⟩
  · exact (hresult job'.id).trans (hd.queued job' (hchannel ▸ List.mem_cons_of_mem _ hjob)).1
  · exact hnodup.1 (hholds _ h ▸ List.mem_map_of_mem hjob)
  · refine (hresult id).trans ?_
    rw [← hholds id hid]
    exact (hd.queued job (hchannel ▸ List.mem_cons_self ..)).1

theorem Draining.consume (hd : w.Draining) (hw : w.Sound) (h : w.service.Move w.now s) :
    Draining { w with service := s } := by
  have hcovered := hd.covered
  cases h with
  | look h =>
    refine hd.turn rfl (fun _ => rfl) (fun id hid => ?_) ?_
    · dsimp only at hid
      split at hid <;> exact hid.elim
    · dsimp only
      split <;> trivial
  | lookAgain h _ => exact hd.turn rfl (fun _ => rfl) (fun _ => False.elim) trivial
  | stopPausing h _ => exact hd.turn rfl (fun _ => rfl) (fun _ => False.elim) trivial
  | stopWaiting h _ => exact hd.turn rfl (fun _ => rfl) (fun _ => False.elim) trivial
  | sweep h _ => exact hd.turn rfl (fun _ => rfl) (fun _ => False.elim) trivial
  | evict h hsweep =>
    have hkeeps := JobQueue.keeps_sweepOldest hw.consumed.noted hsweep
    refine hd.turn hkeeps.channel hkeeps.result (fun _ hid => hid) ?_
    dsimp only
    rw [h]
    trivial
  | swept h _ => exact hd.turn rfl (fun _ => rfl) (fun _ => False.elim) trivial
  | begin h htake => exact hd.take hw htake rfl (fun _ hid => hid) trivial
  | resume h => exact hd.turn rfl (fun _ => rfl) (fun id hid => by rw [h]; exact hid) trivial
  | finish h => exact hd.turn rfl (fun _ => rfl) (fun id hid => by rw [h]; exact hid) trivial
  | interrupt h _ => exact hd.turn rfl (fun _ => rfl) (fun id hid => by rw [h]; exact hid) trivial
  | @write id r queue h hwrite =>
    obtain ⟨hchannel, -, -, -⟩ := JobQueue.write_frame hwrite
    refine ⟨fun job hjob => ⟨?_, False.elim⟩, fun _ => False.elim, trivial⟩
    change job ∈ queue.channel at hjob
    rw [hchannel] at hjob
    obtain ⟨hnone, hnot⟩ := hd.queued job hjob
    have hne : id ≠ job.id := fun heq => hnot (by rw [h]; exact heq)
    exact (JobQueue.result?_write hwrite job.id).trans ((if_neg hne).trans hnone)
  | written h _ =>
    exact hd.turn rfl (fun _ => rfl) (fun _ h => (not_holds_goOn _ h).elim) (covered_goOn _)
  | note h =>
    exact hd.turn rfl (fun _ => rfl) (fun _ h => (not_holds_goOn _ h).elim) (covered_goOn _)
  | drain h htake => exact hd.take hw htake rfl (fun _ hid => hid) trivial
  | drained h htake =>
    refine hd.turn rfl (fun _ => rfl) (fun _ => False.elim) ⟨?_, fun id hid _ => ?_⟩
    · rw [JobQueue.take?] at htake
      split at htake
      · assumption
      · cases htake
    · obtain ⟨slot, hslot⟩ := Option.isSome_iff_exists.mp (hw.handed.slot id
        (List.mem_append_left _ (List.mem_append_left _ hid)))
      have hname : slot.id = id := by simpa using List.find?_some hslot
      exact hname ▸ List.mem_map_of_mem (List.mem_of_find?_eq_some hslot)
  | meet id h =>
    rw [h] at hcovered
    exact hd.turn rfl (fun _ => rfl) (fun _ => False.elim)
      ⟨hcovered.1, fun id hid hnone => List.mem_cons_of_mem _ (hcovered.2 id hid hnone)⟩
  | @cancel id todo canceled queue h hwrite =>
    rw [h] at hcovered
    obtain ⟨hchannel, -, -, -⟩ := JobQueue.write_frame hwrite
    have hempty : queue.channel = [] := hchannel.trans hcovered.1
    refine ⟨fun job hjob => ?_, fun _ => False.elim, hempty, fun id' hid hnone => ?_⟩
    · change job ∈ queue.channel at hjob
      rw [hempty] at hjob
      cases hjob
    · have hresult := (JobQueue.result?_write hwrite id').symm.trans hnone
      split at hresult
      · cases hresult
      · rename_i hne
        exact (List.mem_cons.mp (hcovered.2 id' hid hresult)).resolve_left (Ne.symm hne)
  | @skip id todo canceled h hwrite =>
    rw [h] at hcovered
    refine hd.turn rfl (fun _ => rfl) (fun _ => False.elim)
      ⟨hcovered.1, fun id' hid hnone => ?_⟩
    refine (List.mem_cons.mp (hcovered.2 id' hid hnone)).resolve_left fun heq => ?_
    subst heq
    have hsome := hw.isSome_of_write?_eq_none hid hwrite
    rw [show w.queue.result? id' = none from hnone] at hsome
    cases hsome
  | canceled h =>
    rw [h] at hcovered
    refine hd.turn rfl (fun _ => rfl) (fun _ => False.elim) ⟨hcovered.1, fun id hid => ?_⟩
    refine Option.isSome_iff_ne_none.mpr fun hnone => ?_
    cases hcovered.2 id hid hnone
  | noteNext h =>
    rw [h] at hcovered
    exact hd.turn rfl (fun _ => rfl) (fun _ => False.elim) hcovered
  | halt h =>
    rw [h] at hcovered
    exact hd.turn rfl (fun _ => rfl) (fun _ => False.elim) hcovered

theorem Draining.step (hd : w.Draining) (hw : w.Sound) (h : Step w w') : w'.Draining := by
  rcases h.cases with ⟨s, hmove, rfl⟩ | ⟨-, rfl⟩ | hby
  · exact hd.consume hw hmove
  · exact hd.turn rfl (fun _ => rfl) (fun _ => False.elim) trivial
  · exact hd.bystands hw hby

/-- What every step keeps, every run keeps. -/
theorem Draining.run {P : JobWorld → Prop} (hw : w.Sound) (hd : w.Draining) (h : Steps w w')
    (hP : P w) (hstep : ∀ {u v : JobWorld}, u.Sound → u.Draining → Step u v → P u → P v) :
    w'.Sound ∧ w'.Draining ∧ P w' := by
  induction h with
  | refl => exact ⟨hw, hd, hP⟩
  | tail _ h ih =>
    obtain ⟨hu, hdu, hPu⟩ := ih
    exact ⟨hu.step h, hdu.step hu h, hstep hu hdu h hPu⟩

end JobWorld

end WorkflowEngine
