import Mathlib.Data.List.Nodup
import WorkflowEngine.Proofs.Jobs.Queue
import WorkflowEngine.Proofs.Jobs.World

/-!
# What holds between two accesses to the queue

`Sound` is what holds in every state of a queue with its consumer and its clients: of the jobs that
were handed in (`Handed`), of what the consumer has done and is about to do (`Consumed`), and of the
calls that ask for results (`CallSound`). Most accesses of one party leave to the other what it
relies on: clients touch the slots of written results only (`Sound.client`), and the consumer makes
no slots and changes no result (`Consumed.evolves`).
-/

namespace WorkflowEngine

/-- What a piece of work ends with, if it ends. -/
def Work.outcome? : Work → Option Outcome
  | .done o => some o
  | .sleep _ next => next.outcome?
  | .awaitCancel next => next.outcome?
  | .cancel next => next.outcome?
  | .hang => none

def Progress.outcome? : Progress → Option Outcome
  | .ended o => some o
  | .sleeping _ next => next.outcome?
  | .awaiting next => next.outcome?
  | .hung => none

theorem Work.outcome?_settle (work : Work) (now : Nat) (canceled : Bool) :
    (work.settle now canceled).1.outcome? = work.outcome? := by
  fun_induction Work.settle now canceled work <;> simp_all [Work.outcome?, Progress.outcome?]

theorem Progress.outcome?_resume (p : Progress) (now : Nat) (canceled : Bool) :
    (p.resume now canceled).1.outcome? = p.outcome? := by
  cases p with
  | ended o => simp [Progress.resume, isDue]
  | sleeping wake next =>
    rw [Progress.resume]
    split
    · exact next.outcome?_settle now canceled
    · rfl
  | awaiting next =>
    rw [Progress.resume]
    split
    · exact next.outcome?_settle now canceled
    · rfl
  | hung => simp [Progress.resume, isDue]

/-- The consumer has the job in hand. -/
def ConsumerPhase.Holds (id : String) : ConsumerPhase → Prop
  | .running id' _ _ => id' = id
  | .writing id' _ => id' = id
  | _ => False

namespace JobWorld

variable {w w' : JobWorld} {id : String} {r : JobResult}

/-- The result says that the job was canceled, or comes from the work that was sent under the same
id and that was begun. -/
def Own (w : JobWorld) (id : String) (r : JobResult) : Prop :=
  r = .error (.canceled id) ∨
    ∃ job ∈ w.accepted, job.id = id ∧ id ∈ w.begunIds ∧
      ∃ o canceled, job.work.outcome? = some o ∧ r = jobResult id canceled o

/-- The ids of all jobs that were handed in and not refused for good. -/
def ids (w : JobWorld) : List String := w.acceptedIds ++ w.registering.map (·.id) ++ w.refused

/-- What is known of the jobs that were handed in. -/
structure Handed (w : JobWorld) : Prop where
  nodup : w.ids.Nodup
  slot : ∀ id ∈ w.ids, (w.queue.slot? id).isSome
  known : ∀ id, (w.queue.tracked? id).isSome → id ∈ w.ids
  pending : ∀ id ∈ w.acceptedIds ++ w.registering.map (·.id), w.queue.result? id = none →
    (w.queue.tracked? id).isSome

/-- What is known when the consumer is about to do something. -/
def PhaseSound (w : JobWorld) : ConsumerPhase → Prop
  | .absent => w.queue.isOpen
  | .looking => w.queue.isOpen
  | .pausing _ => w.queue.isOpen
  | .waiting => w.queue.isOpen
  | .sweeping _ => w.queue.isOpen
  | .running id progress _ => w.queue.isOpen ∧ w.queue.result? id = none ∧ id ∈ w.begunIds ∧
      ∃ job ∈ w.accepted, job.id = id ∧ progress.outcome? = job.work.outcome?
  | .writing id r => id ∈ w.acceptedIds ∧ (w.queue.isOpen → id ∈ w.begunIds) ∧ w.Own id r
  | .noting id => (w.queue.result? id).isSome
  | .draining => w.queue.isOpen = false
  | .canceling _ canceled => w.queue.isOpen = false ∧ ∀ id ∈ canceled, (w.queue.result? id).isSome
  | .notingAll canceled => w.queue.isOpen = false ∧ ∀ id ∈ canceled, (w.queue.result? id).isSome
  | .stopped => w.queue.isOpen = false

/-- What is known of the jobs that were begun and of the results that were written. While the queue
is open the jobs that are not begun wait in the channel; then some may be dropped. -/
structure Consumed (w : JobWorld) : Prop where
  order : ∃ begun dropped, w.accepted = begun ++ dropped ++ w.queue.channel ∧
    w.begunIds = begun.map (·.id) ∧ (w.queue.isOpen → dropped = [])
  own : ∀ id r, w.queue.result? id = some r → w.Own id r
  unbegun : w.queue.isOpen → ∀ id, (w.queue.result? id).isSome → id ∈ w.begunIds
  done : ∀ id ∈ w.begunIds, (w.queue.result? id).isSome ∨ w.service.phase.Holds id
  noted : ∀ entry ∈ w.queue.resolved, (w.queue.result? entry.1).isSome
  phase : w.PhaseSound w.service.phase

/-- What is known of a call that asks for a result. -/
def CallSound (w : JobWorld) : ResultCall → Prop
  | .waiting id => id ∈ w.acceptedIds
  | .holding id r => id ∈ w.acceptedIds ∧ w.queue.result? id = some r
  | .leaving id r =>
    id ∈ w.acceptedIds ∧ w.queue.result? id = some r ∧ w.queue.tracked? id = none
  | .returned id r =>
    id ∈ w.acceptedIds ∧ w.queue.result? id = some r ∧ w.queue.tracked? id = none
  | .unknown id => w.queue.tracked? id = none
  | .dropped _ => True

/-- What holds between any two accesses. -/
structure Sound (w : JobWorld) : Prop where
  handed : w.Handed
  consumed : w.Consumed
  calls : ∀ c ∈ w.calls, w.CallSound c

theorem sound_ofSettings (settings : Settings) : (ofSettings settings).Sound where
  handed := {
    nodup := by simp [ids, acceptedIds, ofSettings]
    slot := by simp [ids, acceptedIds, ofSettings]
    known := nofun
    pending := by simp [acceptedIds, ofSettings] }
  consumed := {
    order := ⟨[], [], rfl, rfl, fun _ => rfl⟩
    own := nofun
    unbegun := nofun
    done := nofun
    noted := nofun
    phase := rfl }
  calls := nofun

/-! ## What the clients and the consumer leave to each other -/

/-- Jobs that were sent stay so, and so do those that were begun. -/
theorem Own.mono (h : w.Own id r) (haccepted : ∀ job ∈ w.accepted, job ∈ w'.accepted)
    (hbegun : ∀ id ∈ w.begunIds, id ∈ w'.begunIds) : w'.Own id r := by
  rcases h with h | ⟨job, hjob, hid, hmem, h⟩
  · exact .inl h
  · exact .inr ⟨job, haccepted job hjob, hid, hbegun id hmem, h⟩

/-- The jobs may be moved about among those who hand them in. -/
theorem Handed.evolves (hw : w.Handed) (hqueue : w.queue.Evolves w'.queue)
    (hids : w'.ids.Perm w.ids)
    (hpending : ∀ id ∈ w'.acceptedIds ++ w'.registering.map (·.id),
      id ∈ w.acceptedIds ++ w.registering.map (·.id)) : w'.Handed := by
  refine ⟨hids.nodup_iff.mpr hw.nodup, fun id hid => ?_, fun id hid => ?_, fun id hid hnone => ?_⟩
  · rw [hqueue.slot]
    exact hw.slot id (hids.mem_iff.mp hid)
  · refine hids.mem_iff.mpr (hw.known id (Option.isSome_iff_ne_none.mpr fun hnone => ?_))
    rw [hqueue.forgotten id hnone] at hid
    cases hid
  · rw [hqueue.tracked id hnone]
    refine hw.pending id (hpending id hid) ?_
    cases hresult : w.queue.result? id with
    | none => rfl
    | some r =>
      rw [hqueue.result id r hresult] at hnone
      cases hnone

theorem CallSound.mono {c : ResultCall} (hc : w.CallSound c)
    (haccepted : ∀ id ∈ w.acceptedIds, id ∈ w'.acceptedIds)
    (hresult : ∀ id r, w.queue.result? id = some r → w'.queue.result? id = some r)
    (hforgotten : w.queue.tracked? c.id = none → w'.queue.tracked? c.id = none) :
    w'.CallSound c := by
  cases c with
  | waiting id => exact haccepted id hc
  | holding id r => exact ⟨haccepted id hc.1, hresult id r hc.2⟩
  | leaving id r => exact ⟨haccepted id hc.1, hresult id r hc.2.1, hforgotten hc.2.2⟩
  | returned id r => exact ⟨haccepted id hc.1, hresult id r hc.2.1, hforgotten hc.2.2⟩
  | unknown id => exact hforgotten hc
  | dropped id => trivial

theorem CallSound.evolves {c : ResultCall} (hc : w.CallSound c) (hqueue : w.queue.Evolves w'.queue)
    (haccepted : ∀ id ∈ w.acceptedIds, id ∈ w'.acceptedIds) : w'.CallSound c :=
  hc.mono haccepted hqueue.result (hqueue.forgotten c.id)

/-- The consumer does not notice what clients do, but for the jobs that they send. -/
theorem Consumed.client (hw : w.Consumed) (hphase : w'.service.phase = w.service.phase)
    (hstarted : w'.service.started = w.service.started) (hopen : w'.queue.isOpen = w.queue.isOpen)
    (hresult : ∀ id, w'.queue.result? id = w.queue.result? id)
    (hresolved : w'.queue.resolved = w.queue.resolved) (sent : List Job)
    (haccepted : w'.accepted = w.accepted ++ sent)
    (hchannel : w'.queue.channel = w.queue.channel ++ sent) : w'.Consumed := by
  have hbegun : w'.begunIds = w.begunIds := by rw [begunIds, begunIds, hstarted]
  have hjobs : ∀ job ∈ w.accepted, job ∈ w'.accepted := fun job hjob => by
    rw [haccepted]
    exact List.mem_append_left _ hjob
  have hown : ∀ id r, w.Own id r → w'.Own id r := fun id r h =>
    h.mono hjobs fun id hid => hbegun ▸ hid
  refine ⟨?_, fun id r h => ?_, fun h id hid => ?_, fun id hid => ?_, fun entry he => ?_, ?_⟩
  · obtain ⟨begun, dropped, h, hids, hdropped⟩ := hw.order
    refine ⟨begun, dropped, ?_, hbegun.trans hids, fun h => hdropped (hopen ▸ h)⟩
    rw [haccepted, hchannel, h, List.append_assoc _ w.queue.channel]
  · exact hown id r (hw.own id r ((hresult id).symm.trans h))
  · rw [hresult] at hid
    rw [hbegun]
    exact hw.unbegun (hopen ▸ h) id hid
  · rw [hresult, hphase]
    exact hw.done id (hbegun ▸ hid)
  · rw [hresult]
    exact hw.noted entry (hresolved ▸ he)
  · have h := hw.phase
    rw [hphase]
    generalize w.service.phase = phase at h ⊢
    cases phase with
    | running id progress canceled =>
      obtain ⟨h, hnone, hmem, job, hjob, hid, houtcome⟩ := h
      exact ⟨hopen ▸ h, (hresult id).trans hnone, hbegun ▸ hmem, job, hjobs job hjob, hid, houtcome⟩
    | writing id r =>
      obtain ⟨hid, h, hr⟩ := h
      obtain ⟨job, hjob, hname⟩ := List.mem_map.mp hid
      exact ⟨List.mem_map.mpr ⟨job, hjobs job hjob, hname⟩, fun h' => hbegun ▸ h (hopen ▸ h'),
        hown id r hr⟩
    | noting id => exact (congrArg Option.isSome (hresult id)).trans h
    | canceling todo canceled =>
      exact ⟨hopen.trans h.1,
        fun id hid => (congrArg Option.isSome (hresult id)).trans (h.2 id hid)⟩
    | notingAll canceled =>
      exact ⟨hopen.trans h.1,
        fun id hid => (congrArg Option.isSome (hresult id)).trans (h.2 id hid)⟩
    | _ => exact hopen.trans h

/-! ## Clients -/

/-- What clients do to the slots of accepted jobs. -/
theorem Sound.client (hw : w.Sound) (hqueue : w.queue.Keeps w'.queue)
    (hresolved : w'.queue.resolved = w.queue.resolved)
    (hphase : w'.service.phase = w.service.phase)
    (hstarted : w'.service.started = w.service.started) (haccepted : w'.accepted = w.accepted)
    (hregistering : w'.registering = w.registering) (hrefused : w'.refused = w.refused)
    (hcalls : ∀ c ∈ w'.calls, c ∈ w.calls ∨ w'.CallSound c) : w'.Sound where
  handed := by
    have hids : w'.ids = w.ids := by
      rw [ids, ids, acceptedIds, acceptedIds, haccepted, hregistering, hrefused]
    refine hw.handed.evolves hqueue.evolves (hids ▸ .refl _) fun id hid => ?_
    rwa [acceptedIds, haccepted, hregistering] at hid
  consumed :=
    hw.consumed.client hphase hstarted hqueue.isOpen hqueue.result hresolved []
      (haccepted.trans (List.append_nil _).symm) (hqueue.channel.trans (List.append_nil _).symm)
  calls := fun c hc => (hcalls c hc).elim
    (fun hc => (hw.calls c hc).evolves hqueue.evolves fun id hid => by
      rwa [acceptedIds, haccepted]) id

/-- An id that the queue knows and that was given out is that of an accepted job. -/
theorem Handed.accepted (hw : w.Handed) (hout : w.GivenOut id)
    (hknown : (w.queue.tracked? id).isSome) : id ∈ w.acceptedIds := by
  have hid := hw.known id hknown
  rw [ids, List.append_assoc, List.mem_append, List.mem_append] at hid
  rcases hid with hid | hid | hid
  · exact hid
  · exact absurd hid hout.1
  · exact absurd hid hout.2

/-- The id of an accepted job was given out. -/
theorem Handed.givenOut (hw : w.Handed) (hid : id ∈ w.acceptedIds) : w.GivenOut id := by
  have hnodup := hw.nodup
  rw [ids, List.append_assoc] at hnodup
  have hne := (List.nodup_append.mp hnodup).2.2 id hid
  exact ⟨fun h => hne id (List.mem_append_left _ h) rfl,
    fun h => hne id (List.mem_append_right _ h) rfl⟩

theorem mem_calls_set {c c' : ResultCall} {k : Nat} (h : c' ∈ w.calls.set k c) :
    c' ∈ w.calls ∨ c' = c :=
  List.mem_or_eq_of_mem_set h

theorem Sound.call (hw : w.Sound) {k : Nat} {c : ResultCall} (h : w.calls[k]? = some c) :
    w.CallSound c :=
  hw.calls c (List.mem_of_getElem? h)

theorem Sound.register (hw : w.Sound) (job : Job) (hnew : w.queue.slot? job.id = none)
    (hcalls : ∀ c ∈ w.calls, c.id ≠ job.id) :
    Sound { w.setQueue (w.queue.register job.id) with registering := w.registering ++ [job] } := by
  have hfresh : job.id ∉ w.ids := fun h => by
    have := hw.handed.slot _ h
    rw [hnew] at this
    cases this
  have hself : (w.queue.register job.id).slot? job.id = some { id := job.id } := by
    rw [JobQueue.slot?_register, hnew, if_pos rfl, Option.none_or]
  have hresult := w.queue.result?_register job.id
  have htracked : ∀ id ≠ job.id, (w.queue.register job.id).tracked? id = w.queue.tracked? id :=
    fun _ hid => w.queue.tracked?_register hid
  have hids : (w.acceptedIds ++ (w.registering ++ [job]).map (·.id) ++ w.refused).Perm
      (job.id :: w.ids) := by
    rw [List.map_append, List.map_singleton, ids, ← List.append_assoc, List.append_assoc _ [job.id],
      List.singleton_append]
    exact List.perm_middle
  refine ⟨⟨?_, fun id hid => ?_, fun id hid => ?_, fun id hid hnone => ?_⟩, ?_, fun c hc => ?_⟩
  · exact hids.nodup_iff.mpr (List.nodup_cons.mpr ⟨hfresh, hw.handed.nodup⟩)
  · change ((w.queue.register job.id).slot? id).isSome
    rcases List.mem_cons.mp (hids.mem_iff.mp hid) with rfl | hid
    · rw [hself]
      rfl
    · rw [JobQueue.slot?_register, Option.isSome_or, hw.handed.slot id hid]
      rfl
  · refine hids.mem_iff.mpr (List.mem_cons.mpr ?_)
    by_cases h : id = job.id
    · exact .inl h
    · change ((w.queue.register job.id).tracked? id).isSome at hid
      rw [htracked id h] at hid
      exact .inr (hw.handed.known id hid)
  · change ((w.queue.register job.id).tracked? id).isSome
    by_cases h : id = job.id
    · rw [h, JobQueue.tracked?, hself]
      rfl
    · rw [htracked id h]
      refine hw.handed.pending id ?_ ((hresult id).symm.trans hnone)
      rw [List.map_append, ← List.append_assoc, List.mem_append] at hid
      exact hid.resolve_right (by simpa using h)
  · exact hw.consumed.client rfl rfl rfl hresult rfl [] (List.append_nil _).symm
      (List.append_nil _).symm
  · exact (hw.calls c hc).mono (fun _ h => h) (fun id _ h => (hresult id).trans h)
      fun h => (htracked c.id (hcalls c hc)).trans h

theorem Sound.send (hw : w.Sound) {before after : List Job} {job : Job} {queue : JobQueue}
    (hregistering : w.registering = before ++ job :: after)
    (hsend : w.queue.send? job = some queue) :
    Sound { w.setQueue queue with
      registering := before ++ after
      accepted := w.accepted ++ [job] } := by
  obtain ⟨hopen, rfl⟩ := JobQueue.send?_eq_some.mp hsend
  have hpending : ((w.accepted ++ [job]).map (·.id) ++ (before ++ after).map (·.id)).Perm
      (w.acceptedIds ++ w.registering.map (·.id)) := by
    rw [hregistering, acceptedIds, ← List.map_append, ← List.map_append]
    refine List.Perm.map _ ?_
    rw [List.append_assoc, List.singleton_append]
    exact List.perm_middle.symm.append_left _
  have hqueue : w.queue.Evolves { w.queue with channel := w.queue.channel ++ [job] } :=
    .of_slots rfl
  refine ⟨?_, ?_, fun c hc => (hw.calls c hc).evolves hqueue fun id hid => ?_⟩
  · exact hw.handed.evolves hqueue (hpending.append_right _) fun id => hpending.mem_iff.mp
  · exact hw.consumed.client rfl rfl rfl (fun _ => rfl) rfl [job] rfl rfl
  · rw [acceptedIds, List.map_append]
    exact List.mem_append_left _ hid

theorem Sound.refuse (hw : w.Sound) {before after : List Job} {job : Job}
    (hregistering : w.registering = before ++ job :: after) :
    Sound { w with registering := before ++ after, refused := job.id :: w.refused } := by
  have hids : (w.acceptedIds ++ (before ++ after).map (·.id) ++ job.id :: w.refused).Perm
      w.ids := by
    rw [ids, hregistering]
    simp only [List.map_append, List.map_cons, List.append_assoc]
    refine List.Perm.append_left _ (List.Perm.append_left _ ?_)
    exact List.perm_middle
  refine ⟨?_, ?_, fun c hc => (hw.calls c hc).evolves (.of_slots rfl) fun _ h => h⟩
  · refine hw.handed.evolves (.of_slots rfl) hids fun id hid => ?_
    rw [hregistering]
    simp only [List.mem_append, List.map_append, List.map_cons, List.mem_cons] at hid ⊢
    tauto
  · exact hw.consumed.client rfl rfl rfl (fun _ => rfl) rfl [] (List.append_nil _).symm
      (List.append_nil _).symm

theorem Sound.withdraw (hw : w.Sound) {before after : List String} {id : String}
    (hrefused : w.refused = before ++ id :: after) :
    Sound { w.setQueue (w.queue.forget id) with refused := before ++ after } := by
  have hids : w.ids.Perm
      (id :: (w.acceptedIds ++ w.registering.map (·.id) ++ (before ++ after))) := by
    rw [ids, hrefused, ← List.append_assoc, ← List.append_assoc]
    exact List.perm_middle
  obtain ⟨hnot, hnodup⟩ := List.nodup_cons.mp (hids.nodup_iff.mp hw.handed.nodup)
  have htracked : ∀ id' ≠ id, (w.queue.forget id).tracked? id' = w.queue.tracked? id' := by
    intro id' hid'
    rw [JobQueue.tracked?_forget, if_neg (Ne.symm hid')]
  have hself : (w.queue.forget id).tracked? id = none := by
    rw [JobQueue.tracked?_forget, if_pos rfl]
  have hresult := w.queue.result?_forget id
  have hne : ∀ id' ∈ w.acceptedIds ++ w.registering.map (·.id) ++ (before ++ after), id' ≠ id :=
    fun id' h heq => hnot (heq ▸ h)
  refine ⟨⟨hnodup, fun id' hid => ?_, fun id' hid => ?_, fun id' hid hnone => ?_⟩, ?_,
    fun c hc => ?_⟩
  · change ((w.queue.forget id).slot? id').isSome
    rw [JobQueue.slot?_forget, if_neg (Ne.symm (hne id' hid))]
    exact hw.handed.slot id' (hids.mem_iff.mpr (List.mem_cons_of_mem _ hid))
  · change ((w.queue.forget id).tracked? id').isSome at hid
    by_cases h : id' = id
    · rw [h, hself] at hid
      cases hid
    · rw [htracked id' h] at hid
      exact (List.mem_cons.mp (hids.mem_iff.mp (hw.handed.known id' hid))).resolve_left h
  · change ((w.queue.forget id).tracked? id').isSome
    rw [htracked id' (hne id' (List.mem_append_left _ hid))]
    exact hw.handed.pending id' hid ((hresult id').symm.trans hnone)
  · exact hw.consumed.client rfl rfl rfl hresult rfl [] (List.append_nil _).symm
      (List.append_nil _).symm
  · refine (hw.calls c hc).mono (fun _ h => h) (fun id _ h => (hresult id).trans h) fun h => ?_
    by_cases hid : c.id = id
    · rw [hid]
      exact hself
    · exact (htracked c.id hid).trans h

/-! ## The consumer -/

section

variable {s : JobService}

/-- A turn of the consumer that begins no job and writes no result. -/
theorem Consumed.turn (hw : w.Consumed) (hstarted : s.started = w.service.started)
    (horder : ∃ dropped, w.queue.channel = dropped ++ s.queue.channel ∧
      (s.queue.isOpen → dropped = []))
    (hopen : s.queue.isOpen → w.queue.isOpen)
    (hresult : ∀ id, s.queue.result? id = w.queue.result? id)
    (hnoted : ∀ entry ∈ s.queue.resolved, (w.queue.result? entry.1).isSome)
    (hholds : ∀ id, w.service.phase.Holds id → (w.queue.result? id).isSome ∨ s.phase.Holds id)
    (hphase : PhaseSound { w with service := s } s.phase) :
    Consumed { w with service := s } := by
  have hbegun : begunIds { w with service := s } = w.begunIds := by
    rw [begunIds, begunIds, hstarted]
  refine ⟨?_, fun id r h => ?_, fun h id hid => ?_, fun id hid => ?_, fun entry he => ?_, hphase⟩
  · obtain ⟨begun, dropped, h, hids, hdropped⟩ := hw.order
    obtain ⟨more, hchannel, hmore⟩ := horder
    refine ⟨begun, dropped ++ more, ?_, hbegun.trans hids, fun h => ?_⟩
    · show w.accepted = begun ++ (dropped ++ more) ++ s.queue.channel
      rw [h, hchannel]
      simp only [List.append_assoc]
    · rw [hdropped (hopen h), hmore h]
      rfl
  · exact (hw.own id r ((hresult id).symm.trans h)).mono (fun _ h => h) fun id hid => hbegun ▸ hid
  · rw [hbegun]
    exact hw.unbegun (hopen h) id ((congrArg Option.isSome (hresult id)).symm.trans hid)
  · rw [hbegun] at hid
    change (s.queue.result? id).isSome ∨ s.phase.Holds id
    rw [hresult]
    exact (hw.done id hid).elim .inl (hholds id)
  · change (s.queue.result? entry.1).isSome
    rw [hresult]
    exact hnoted entry he

/-- A turn that changes nothing but what the consumer does next. -/
theorem Consumed.goTo (hw : w.Consumed) (hstarted : s.started = w.service.started)
    (hqueue : s.queue = w.queue)
    (hholds : ∀ id, w.service.phase.Holds id → (w.queue.result? id).isSome ∨ s.phase.Holds id)
    (hphase : PhaseSound { w with service := s } s.phase) :
    Consumed { w with service := s } :=
  hw.turn hstarted ⟨[], by rw [hqueue]; rfl, fun _ => rfl⟩ (fun h => hqueue ▸ h)
    (fun id => by rw [hqueue]) (fun entry he => hw.noted entry (hqueue ▸ he)) hholds hphase

/-- A turn that writes a result. -/
theorem Consumed.write (hw : w.Consumed) (hstarted : s.started = w.service.started) {id : String}
    {r : JobResult} (hwrite : w.queue.write? id r = some s.queue) (hown : w.Own id r)
    (hbegun : w.queue.isOpen → id ∈ w.begunIds)
    (hholds : ∀ id', w.service.phase.Holds id' → id' = id)
    (hphase : PhaseSound { w with service := s } s.phase) :
    Consumed { w with service := s } := by
  have hids : begunIds { w with service := s } = w.begunIds := by
    rw [begunIds, begunIds, hstarted]
  obtain ⟨hchannel, hopen, hresolved, -⟩ := JobQueue.write_frame hwrite
  have hresult : ∀ id', s.queue.result? id' = if id = id' then some r else w.queue.result? id' :=
    JobQueue.result?_write hwrite
  have hmono : ∀ id', (w.queue.result? id').isSome → (s.queue.result? id').isSome := fun id' h => by
    rw [hresult]
    split
    · rfl
    · exact h
  have hmine : ∀ id' r', w.Own id' r' → Own { w with service := s } id' r' := fun _ _ h =>
    h.mono (fun _ h => h) fun _ h => hids ▸ h
  refine ⟨?_, fun id' r' h => ?_, fun h id' hid => ?_, fun id' hid => ?_, fun entry he => ?_,
    hphase⟩
  · obtain ⟨begun, dropped, h, hbegun, hdropped⟩ := hw.order
    refine ⟨begun, dropped, ?_, hids.trans hbegun, fun h => hdropped (hopen ▸ h)⟩
    show w.accepted = begun ++ dropped ++ s.queue.channel
    rw [h, hchannel]
  · change s.queue.result? id' = some r' at h
    rw [hresult] at h
    split at h
    · rename_i heq
      cases h
      exact heq ▸ hmine id r hown
    · exact hmine id' r' (hw.own id' r' h)
  · rw [hids]
    change s.queue.isOpen at h
    change (s.queue.result? id').isSome at hid
    rw [hopen] at h
    rw [hresult] at hid
    split at hid
    · rename_i heq
      exact heq ▸ hbegun h
    · exact hw.unbegun h id' hid
  · rw [hids] at hid
    refine .inl ?_
    change (s.queue.result? id').isSome
    rcases hw.done id' hid with h | h
    · exact hmono id' h
    · rw [hholds id' h, hresult, if_pos rfl]
      rfl
  · exact hmono _ (hw.noted entry (hresolved ▸ he))

/-- What follows when a result could not be written: there is one. -/
theorem Sound.isSome_of_write?_eq_none (hw : w.Sound) {id : String} {r : JobResult}
    (hid : id ∈ w.acceptedIds) (h : w.queue.write? id r = none) : (w.queue.result? id).isSome := by
  rcases JobQueue.write?_eq_none h with h | h
  · cases hresult : w.queue.result? id with
    | some r => rfl
    | none =>
      have htracked := hw.handed.pending id (List.mem_append_left _ hid) hresult
      rw [h] at htracked
      cases htracked
  · exact h

theorem phaseSound_goOn (w : JobWorld) (s : JobService) :
    PhaseSound { w with service := s.goOn } s.goOn.phase := by
  rw [JobService.goOn]
  cases hopen : s.queue.isOpen with
  | true => exact hopen
  | false => exact hopen

/-- The consumer makes no slots, and changes no result. -/
theorem Consumed.evolves (hw : w.Consumed) (h : w.service.Move w.now s) :
    w.queue.Evolves s.queue := by
  cases h with
  | evict _ hsweep => exact (JobQueue.keeps_sweepOldest hw.noted hsweep).evolves
  | write _ hwrite => exact JobQueue.write_evolves hwrite
  | cancel _ hwrite => exact JobQueue.write_evolves hwrite
  | begin _ htake =>
    obtain ⟨-, hqueue⟩ := JobQueue.take?_eq_some htake
    exact .of_slots (congrArg JobQueue.slots hqueue :)
  | drain _ htake =>
    obtain ⟨-, hqueue⟩ := JobQueue.take?_eq_some htake
    exact .of_slots (congrArg JobQueue.slots hqueue :)
  | _ => exact .of_slots rfl

/-- The consumer begins the first job of the channel, which is the next that was sent. All jobs that
it has begun before have their results. -/
theorem Consumed.begin (hw : w.Consumed) (hnodup : w.acceptedIds.Nodup)
    (hphase : w.service.phase = .waiting) {job : Job} {queue : JobQueue}
    (htake : w.queue.take? = some (job, queue)) :
    Consumed { w with service := { w.service with
      queue
      phase := .running job.id (job.work.settle w.now false).1 (job.work.settle w.now false).2
      started := w.service.started ++ [(job.id, w.now)] } } := by
  obtain ⟨hchannel, hqueue⟩ := JobQueue.take?_eq_some htake
  have hopen : w.queue.isOpen := by
    have h := hw.phase
    rwa [hphase] at h
  have hresult : ∀ id, queue.result? id = w.queue.result? id := fun id => by rw [hqueue]; rfl
  have hisOpen : queue.isOpen = w.queue.isOpen := by rw [hqueue]
  have hbegun : begunIds { w with service := { w.service with
      queue
      phase := .running job.id (job.work.settle w.now false).1 (job.work.settle w.now false).2
      started := w.service.started ++ [(job.id, w.now)] } } = w.begunIds ++ [job.id] := by
    simp [begunIds]
  obtain ⟨begun, dropped, haccepted, hids, hdropped⟩ := hw.order
  rw [hdropped hopen, List.append_nil, hchannel] at haccepted
  have hmono : ∀ id ∈ w.begunIds, id ∈ w.begunIds ++ [job.id] :=
    fun id hid => List.mem_append_left _ hid
  refine ⟨⟨begun ++ [job], [], ?_, ?_, fun _ => rfl⟩, fun id r h => ?_, fun _ id hid => ?_,
    fun id hid => ?_, fun entry he => ?_, ?_⟩
  · rw [haccepted]
    simp [JobWorld.queue]
  · rw [hbegun, hids, List.map_append, List.map_singleton]
  · refine (hw.own id r ((hresult id).symm.trans h)).mono (fun _ h => h) fun id hid => ?_
    exact hbegun ▸ hmono id hid
  · rw [hbegun]
    exact hmono id (hw.unbegun hopen id ((congrArg Option.isSome (hresult id)).symm.trans hid))
  · rw [hbegun] at hid
    rcases List.mem_append.mp hid with hid | hid
    · have h := hw.done id hid
      rw [hphase] at h
      exact .inl ((congrArg Option.isSome (hresult id)).trans (h.resolve_right not_false))
    · exact .inr (List.mem_singleton.mp hid).symm
  · exact (congrArg Option.isSome (hresult _)).trans (hw.noted entry (by rwa [hqueue] at he))
  · refine ⟨hisOpen.trans hopen, (hresult _).trans ?_, ?_, job, ?_, rfl, ?_⟩
    · cases h : w.queue.result? job.id with
      | none => rfl
      | some r =>
        have hid := hw.unbegun hopen job.id (by rw [h]; rfl)
        rw [acceptedIds, haccepted, List.map_append, ← hids, List.map_cons] at hnodup
        exact absurd rfl ((List.nodup_append.mp hnodup).2.2 _ hid _ (List.mem_cons_self ..))
    · rw [hbegun]
      exact List.mem_append_right _ (List.mem_singleton_self _)
    · exact haccepted ▸ List.mem_append_right _ (List.mem_cons_self ..)
    · exact job.work.outcome?_settle w.now false

theorem Sound.consume (hw : w.Sound) (h : w.service.Move w.now s) :
    Sound { w with service := s } := by
  have hqueue : w.queue.Evolves s.queue := hw.consumed.evolves h
  refine ⟨hw.handed.evolves hqueue (.refl _) fun _ h => h, ?_,
    fun c hc => (hw.calls c hc).evolves hqueue fun _ h => h⟩
  have hc := hw.consumed
  have hphase := hc.phase
  -- A job in hand stays there (`hhold`), and where there is none nothing is lost (`hkeep`).
  have hkeep : ∀ {phase : ConsumerPhase}, w.service.phase = phase → (∀ id, ¬ phase.Holds id) →
      ∀ id, w.service.phase.Holds id → (w.queue.result? id).isSome ∨ s.phase.Holds id :=
    fun h hnot id hid => absurd (h ▸ hid) (hnot id)
  have hhold : ∀ {phase : ConsumerPhase}, w.service.phase = phase →
      ∀ id, w.service.phase.Holds id → phase.Holds id := fun h _ hid => h ▸ hid
  cases h with
  | look h =>
    rw [h] at hphase
    refine hc.goTo rfl rfl (hkeep h fun _ => id) ?_
    dsimp only
    split
    · exact hphase
    · exact hphase
  | lookAgain h =>
    rw [h] at hphase
    exact hc.goTo rfl rfl (hkeep h fun _ => id) hphase
  | stopPausing h =>
    exact hc.turn rfl ⟨[], rfl, fun _ => rfl⟩ nofun (fun _ => rfl) hc.noted (hkeep h fun _ => id)
      rfl
  | stopWaiting h =>
    exact hc.turn rfl ⟨[], rfl, fun _ => rfl⟩ nofun (fun _ => rfl) hc.noted (hkeep h fun _ => id)
      rfl
  | sweep h =>
    rw [h] at hphase
    exact hc.goTo rfl rfl (hkeep h fun _ => id) hphase
  | evict h hsweep =>
    have hkeeps := JobQueue.keeps_sweepOldest hc.noted hsweep
    rw [h] at hphase
    refine hc.turn rfl ⟨[], hkeeps.channel.symm, fun _ => rfl⟩ (fun h => hkeeps.isOpen ▸ h)
      hkeeps.result (fun entry he => hc.noted entry (hkeeps.resolved entry he))
      (hkeep h fun _ => id) ?_
    dsimp only
    rw [h]
    exact hkeeps.isOpen.trans hphase
  | swept h =>
    rw [h] at hphase
    exact hc.goTo rfl rfl (hkeep h fun _ => id) hphase
  | begin h htake =>
    have hnodup := (List.nodup_append.mp (List.nodup_append.mp hw.handed.nodup).1).1
    exact hc.begin hnodup h htake
  | resume h =>
    rw [h] at hphase
    obtain ⟨hopen, hnone, hid, job, hjob, hname, houtcome⟩ := hphase
    refine hc.goTo rfl rfl (fun id hid => .inr (hhold h id hid)) ?_
    exact ⟨hopen, hnone, hid, job, hjob, hname, (Progress.outcome?_resume ..).trans houtcome⟩
  | finish h =>
    rw [h] at hphase
    obtain ⟨-, -, hid, job, hjob, rfl, houtcome⟩ := hphase
    refine hc.goTo rfl rfl (fun id hid => .inr (hhold h id hid))
      ⟨List.mem_map_of_mem hjob, fun _ => hid, ?_⟩
    exact .inr ⟨job, hjob, rfl, hid, _, _, houtcome.symm, rfl⟩
  | interrupt h =>
    rw [h] at hphase
    obtain ⟨-, -, hid, job, hjob, rfl, -⟩ := hphase
    exact hc.goTo rfl rfl (fun id hid => .inr (hhold h id hid))
      ⟨List.mem_map_of_mem hjob, fun _ => hid, .inl rfl⟩
  | write h hwrite =>
    rw [h] at hphase
    obtain ⟨-, hbegun, hown⟩ := hphase
    refine hc.write rfl hwrite hown hbegun (fun id hid => (hhold h id hid).symm) ?_
    exact (congrArg Option.isSome (JobQueue.result?_write hwrite _)).trans (by rw [if_pos rfl]; rfl)
  | written h hwrite =>
    rw [h] at hphase
    have hsome := hw.isSome_of_write?_eq_none hphase.1 hwrite
    refine hc.goTo rfl rfl (fun id hid => .inl ?_) (phaseSound_goOn w w.service)
    rw [h] at hid
    exact hid ▸ hsome
  | note h =>
    rw [h] at hphase
    refine hc.turn rfl ⟨[], rfl, fun _ => rfl⟩ id (fun _ => rfl) (fun entry he => ?_)
      (hkeep h fun _ => id) (phaseSound_goOn w { w.service with queue := _ })
    rcases List.mem_append.mp he with he | he
    · exact hc.noted entry he
    · rw [List.mem_singleton.mp he]
      exact hphase
  | @drain job queue h htake =>
    obtain ⟨hchannel, hqueue⟩ := JobQueue.take?_eq_some htake
    obtain ⟨begun, dropped, haccepted, -⟩ := hc.order
    rw [h] at hphase
    have hclosed : ¬ queue.isOpen := by
      rw [hqueue, Bool.not_eq_true]
      exact hphase
    have hresult : ∀ id, queue.result? id = w.queue.result? id := fun id => by
      rw [hqueue]
      rfl
    have hresolved : queue.resolved = w.queue.resolved := (congrArg JobQueue.resolved hqueue :)
    refine hc.turn rfl ⟨[job], hchannel, fun hopen => absurd hopen hclosed⟩
      (fun hopen => absurd hopen hclosed) hresult (fun entry he => hc.noted entry (hresolved ▸ he))
      (hkeep h fun _ => id) ⟨?_, fun hopen => absurd hopen hclosed, .inl rfl⟩
    refine List.mem_map_of_mem ?_
    show job ∈ w.accepted
    rw [haccepted]
    exact List.mem_append_right _ (hchannel ▸ List.mem_cons_self ..)
  | drained h htake =>
    rw [h] at hphase
    exact hc.goTo rfl rfl (hkeep h fun _ => id) ⟨hphase, by simp⟩
  | meet id h =>
    rw [h] at hphase
    exact hc.goTo rfl rfl (hkeep h fun _ => not_false) hphase
  | cancel h hwrite =>
    rw [h] at hphase
    obtain ⟨hclosed, hall⟩ := hphase
    obtain ⟨-, hopen, -, -⟩ := JobQueue.write_frame hwrite
    refine hc.write rfl hwrite (.inl rfl) (fun hopen => ?_) (fun id hid => (hhold h id hid).elim)
      ⟨hopen.trans hclosed, fun id hid => ?_⟩
    · rw [hclosed] at hopen
      cases hopen
    · refine (congrArg Option.isSome (JobQueue.result?_write hwrite id)).trans ?_
      split
      · rfl
      · rename_i hne
        refine hall id ((List.mem_append.mp hid).resolve_right fun h => hne ?_)
        exact (List.mem_singleton.mp h).symm
  | skip h hwrite =>
    rw [h] at hphase
    exact hc.goTo rfl rfl (hkeep h fun _ => not_false) hphase
  | canceled h =>
    rw [h] at hphase
    exact hc.goTo rfl rfl (hkeep h fun _ => not_false) hphase
  | noteNext h =>
    rw [h] at hphase
    obtain ⟨hclosed, hall⟩ := hphase
    refine hc.turn rfl ⟨[], rfl, fun _ => rfl⟩ id (fun _ => rfl) (fun entry he => ?_)
      (hkeep h fun _ => not_false) ⟨hclosed, fun id hid => hall id (List.mem_cons_of_mem _ hid)⟩
    rcases List.mem_append.mp he with he | he
    · exact hc.noted entry he
    · rw [List.mem_singleton.mp he]
      exact hall _ (List.mem_cons_self ..)
  | halt h =>
    rw [h] at hphase
    exact hc.goTo rfl rfl (hkeep h fun _ => not_false) hphase.1

end

/-! ## Steps -/

theorem Sound.start (hw : w.Sound) {s : JobService} (h : w.service.start w.now = .ok s) :
    Sound { w with service := s } := by
  rw [JobService.start] at h
  split at h
  · rename_i habsent
    cases h
    have hphase := hw.consumed.phase
    rw [habsent] at hphase
    refine ⟨hw.handed.evolves (.of_slots rfl) (.refl _) fun _ h => h, ?_,
      fun c hc => (hw.calls c hc).evolves (.of_slots rfl) fun _ h => h⟩
    refine hw.consumed.goTo rfl rfl (fun id hid => ?_) hphase
    rw [habsent] at hid
    exact hid.elim
  · cases h

theorem Sound.step (hw : w.Sound) (h : Step w w') : w'.Sound := by
  cases h with
  | pass now _ =>
    exact hw.client (.of_slots rfl rfl rfl fun _ h => h) rfl rfl rfl rfl rfl rfl fun _ => .inl
  | pause =>
    exact hw.client (.of_slots rfl rfl rfl fun _ h => h) rfl rfl rfl rfl rfl rfl fun _ => .inl
  | resume =>
    exact hw.client (.of_slots rfl rfl rfl fun _ h => h) rfl rfl rfl rfl rfl rfl fun _ => .inl
  | shutDown =>
    exact hw.client (.of_slots rfl rfl rfl fun _ h => h) rfl rfl rfl rfl rfl rfl fun _ => .inl
  | start h => exact hw.start h
  | consume h => exact hw.consume h
  | register job h hcalls => exact hw.register job h hcalls
  | send hregistering h => exact hw.send hregistering h
  | refuse hregistering _ => exact hw.refuse hregistering
  | withdraw hrefused => exact hw.withdraw hrefused
  | @ask id queue hout h =>
    have hkeeps := JobQueue.keeps_subscribe h
    obtain ⟨hknown, hqueue⟩ := JobQueue.subscribe_eq_ok h
    have hresolved : queue.resolved = w.queue.resolved := (congrArg JobQueue.resolved hqueue :)
    refine hw.client hkeeps hresolved rfl rfl rfl rfl rfl fun c hc => ?_
    refine (List.mem_append.mp hc).imp_right fun hc => ?_
    rw [List.mem_singleton.mp hc]
    exact hw.handed.accepted hout hknown
  | askUnknown _ h =>
    refine hw.client (.of_slots rfl rfl rfl fun _ h => h) rfl rfl rfl rfl rfl rfl fun c hc => ?_
    refine (List.mem_append.mp hc).imp_right fun hc => ?_
    rw [List.mem_singleton.mp hc]
    exact (JobQueue.subscribe_eq_error.mp h).1
  | read hcall hresult =>
    refine hw.client (.of_slots rfl rfl rfl fun _ h => h) rfl rfl rfl rfl rfl rfl fun c hc => ?_
    refine (mem_calls_set hc).imp_right fun hc => ?_
    rw [hc]
    exact ⟨hw.call hcall, hresult⟩
  | @forget k id r hcall =>
    obtain ⟨hid, hresult⟩ := hw.call hcall
    have hkeeps : w.queue.Keeps (w.queue.forget id) := JobQueue.keeps_forget (by simp [hresult])
    refine hw.client hkeeps rfl rfl rfl rfl rfl rfl fun c hc => ?_
    refine (mem_calls_set hc).imp_right fun hc => ?_
    rw [hc]
    exact ⟨hid, (hkeeps.result id).trans hresult,
      (w.queue.tracked?_forget id id).trans (if_pos rfl)⟩
  | @leave k id r hcall =>
    obtain ⟨hid, hresult, hforgotten⟩ := hw.call hcall
    have hkeeps := JobQueue.keeps_unsubscribe w.queue id
    refine hw.client hkeeps rfl rfl rfl rfl rfl rfl fun c hc => ?_
    refine (mem_calls_set hc).imp_right fun hc => ?_
    rw [hc]
    exact ⟨hid, (hkeeps.result id).trans hresult, hkeeps.forgotten id hforgotten⟩
  | @drop k id hcall =>
    refine hw.client (JobQueue.keeps_unsubscribe w.queue id) rfl rfl rfl rfl rfl rfl fun c hc => ?_
    refine (mem_calls_set hc).imp_right fun hc => ?_
    rw [hc]
    trivial

theorem Sound.steps (hw : w.Sound) (h : Steps w w') : w'.Sound := by
  induction h with
  | refl => exact hw
  | tail _ h ih => exact ih.step h

end JobWorld

end WorkflowEngine
