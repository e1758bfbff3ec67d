import WorkflowEngine.Proofs.Execution.Delivery
import WorkflowEngine.Proofs.Workflow.Meaning
import WorkflowEngine.Submission

/-!
# What a desk stores and requests

A desk whose store and queue are in memory, with its calls in any order and with others who take
requests out of the queue, cancel executions and report on them (`SubmissionDesk.Step`). What is
stored is the optimized workflow and not the one that was validated: it is valid all the same, and
there is nothing left to optimize. A call does all that it does or nothing (`submissions_sound`).
-/

namespace WorkflowEngine

/-- Exactly one workflow was stored. -/
structure WorkflowStore.Added (s s' : WorkflowStore) (id : String) (w : Workflow) : Prop where
  unknown : ¬ s.workflows.has id
  found : s'.workflows.find? id = some w
  others : ∀ id', id' ≠ id → s'.workflows.find? id' = s.workflows.find? id'
  size : s'.size = s.size + 1

/-- Exactly one request was put into the queue, and it waits there. -/
structure ExecutionQueue.Added (q q' : ExecutionQueue) (r : ExecutionRequest) : Prop where
  unknown : q.record? r.id = none
  record : q'.record? r.id = some { status := .pending }
  others : ∀ id, id ≠ r.id → q'.record? id = q.record? id
  channel : q'.channel = q.channel ++ [r]
  count : ∀ status, q'.count status = q.count status + if status = .pending then 1 else 0

namespace SubmissionDesk

variable {d d' : SubmissionDesk} {now : Nat} {w : Workflow} {workflow user : String}

def ofSettings (settings : Settings) (processors : Nat) : SubmissionDesk := { settings, processors }

/-- A call of the desk, or something that others do to the queue. -/
inductive Step (d : SubmissionDesk) : SubmissionDesk → Prop where
  | register (w : Workflow) : Step d (d.register w).2
  | submit (now : Nat) (w : Workflow) (user : String) : Step d (d.submit now w user).2
  | trigger (now : Nat) (workflow user : String) : Step d (d.trigger now workflow user).2
  /-- Others put no requests into the queue. -/
  | others {q : QueueWorld} (a : QueueAction) : q.queue = d.intake.queue →
      (∀ r, a ≠ .enqueue r) →
      Step d { d with intake := { d.intake with queue := (q.perform a).2.queue } }

abbrev Steps : SubmissionDesk → SubmissionDesk → Prop := Relation.ReflTransGen Step

/-! ## What holds between the calls -/

/-- Nothing that is saved or looked up fails, and no request is refused. -/
structure InMemory (d : SubmissionDesk) : Prop where
  save : d.store.saveFault = none
  get : d.store.getFault = none
  accepts : ∀ attempt, d.intake.refuses attempt = false

/-- What holds between any two calls. Ids are given out by number, so that the next one is new. -/
structure Sound (d : SubmissionDesk) : Prop where
  inMemory : d.InMemory
  stored : ∀ e ∈ d.store.workflows, e.2.validate = .ok () ∧
    ∀ settings processors, e.2.optimize settings processors = { workflow := e.2, changes := [] }
  storeIds : ∀ id, d.store.workflows.has id → ∃ n < d.store.size, id = "w" ++ toString n
  queueIds : ∀ id, (d.intake.queue.record? id).isSome →
    ∃ n < d.intake.accepted.length, id = "e" ++ toString n
  refers : ∀ a ∈ d.intake.accepted, d.store.workflows.has a.request.workflow
  channel : ∀ r ∈ d.intake.queue.channel, ∃ a ∈ d.intake.accepted, a.request = r

theorem sound_ofSettings (settings : Settings) (processors : Nat) :
    (ofSettings settings processors).Sound where
  inMemory := ⟨rfl, rfl, fun _ => rfl⟩
  stored := nofun
  storeIds := nofun
  queueIds := nofun
  refers := nofun
  channel := nofun

theorem numbered_inj {stem : String} {m n : Nat} (h : stem ++ toString m = stem ++ toString n) :
    m = n := by
  have hrepr : m.repr = n.repr := by simpa using h
  have hdigits : Nat.toDigits 10 m = Nat.toDigits 10 n := by
    rw [← Nat.toList_repr, ← Nat.toList_repr, hrepr]
  rw [← Nat.ofDigitChars_ten_toDigits (n := m), hdigits, Nat.ofDigitChars_ten_toDigits]

theorem Sound.freshId (hd : d.Sound) : ¬ d.store.workflows.has d.freshId := by
  intro h
  obtain ⟨n, hlt, hid⟩ := hd.storeIds _ h
  have hn : d.store.size = n := numbered_inj hid
  omega

theorem Sound.intake_freshId (hd : d.Sound) :
    d.intake.queue.record? d.intake.freshId = none := by
  cases h : d.intake.queue.record? d.intake.freshId with
  | none => rfl
  | some record =>
    obtain ⟨n, hlt, hid⟩ := hd.queueIds _ (by rw [h]; rfl)
    have hn : d.intake.accepted.length = n := numbered_inj hid
    omega

/-! ## What the calls do -/

/-- What one who registers the workflow is told. -/
def registration (d : SubmissionDesk) (w : Workflow) : Registration where
  id := d.freshId
  workflow := (w.optimize d.settings d.processors).workflow
  explanation := (w.optimize d.settings d.processors).explanation

/-- The desk when the workflow was stored, optimized, under the next id. -/
def stores (d : SubmissionDesk) (w : Workflow) : SubmissionDesk :=
  { d with store := { d.store with
      workflows := d.store.workflows.insert d.freshId
        (w.optimize d.settings d.processors).workflow } }

/-- The desk when an execution was requested under the next id. -/
def requests (d : SubmissionDesk) (now : Nat) (workflow user : String) : SubmissionDesk :=
  let request : ExecutionRequest := { id := d.intake.freshId, workflow, user }
  { d with intake := { d.intake with
      attempts := d.intake.attempts + 1
      queue := { d.intake.queue.setRecord request.id {} with
        channel := d.intake.queue.channel ++ [request] }
      accepted := d.intake.accepted ++ [⟨request, now⟩] } }

theorem InMemory.register (hd : d.InMemory) (w : Workflow) :
    (∃ e, w.validate = .error e ∧ d.register w = (.error (.validation e), d)) ∨
      w.validate = .ok () ∧ d.register w = (.ok (d.registration w), d.stores w) := by
  rw [SubmissionDesk.register]
  cases hvalid : w.validate with
  | error e => exact .inl ⟨e, rfl, rfl⟩
  | ok _ => exact .inr ⟨rfl, by simp [WorkflowStore.save, hd.save, stores, registration]⟩

theorem Sound.request (hd : d.Sound) (now : Nat) (workflow user : String) :
    d.request now workflow user = (.ok d.intake.freshId, d.requests now workflow user) := by
  have haccepts := hd.inMemory.accepts d.intake.attempts
  have henqueue : d.intake.queue.enqueue { id := d.intake.freshId, workflow, user } =
      .ok (d.requests now workflow user).intake.queue := by
    rw [ExecutionQueue.enqueue, hd.intake_freshId]
    rfl
  simp [SubmissionDesk.request, Intake.submit, haccepts, henqueue, requests]

theorem Sound.stores (hd : d.Sound) (hvalid : w.validate = .ok ()) : (d.stores w).Sound := by
  have hperm := Fields.perm_insert (w.optimize d.settings d.processors).workflow hd.freshId
  have hsize : (d.stores w).store.size = d.store.size + 1 := hperm.length_eq
  refine ⟨⟨hd.inMemory.save, hd.inMemory.get, hd.inMemory.accepts⟩, fun e he => ?_,
    fun id hid => ?_, hd.queueIds, fun a ha => ?_, hd.channel⟩
  · rcases Fields.mem_insert he with rfl | he
    · exact ⟨Workflow.validate_optimize.mpr hvalid, fun _ _ => Workflow.optimize_optimize⟩
    · exact hd.stored e he
  · rw [hsize]
    rcases (Fields.has_insert ..).mp hid with rfl | hid
    · exact ⟨d.store.size, Nat.lt_succ_self _, rfl⟩
    · obtain ⟨n, hlt, hn⟩ := hd.storeIds id hid
      exact ⟨n, Nat.lt_succ_of_lt hlt, hn⟩
  · exact Fields.has_insert_of_has _ (hd.refers a ha)

theorem Sound.requests (hd : d.Sound) (hstored : d.store.workflows.has workflow) :
    (d.requests now workflow user).Sound := by
  have hlength : (d.requests now workflow user).intake.accepted.length =
      d.intake.accepted.length + 1 := by simp [SubmissionDesk.requests]
  refine ⟨⟨hd.inMemory.save, hd.inMemory.get, hd.inMemory.accepts⟩, hd.stored, hd.storeIds,
    fun id hid => ?_, fun a ha => ?_, fun r hr => ?_⟩
  · rw [hlength]
    have hrecord := ExecutionQueue.record?_setRecord d.intake.queue d.intake.freshId id {}
    by_cases hid' : d.intake.freshId = id
    · exact ⟨d.intake.accepted.length, Nat.lt_succ_self _, hid'.symm⟩
    · rw [if_neg hid'] at hrecord
      obtain ⟨n, hlt, hn⟩ := hd.queueIds id (hrecord ▸ hid)
      exact ⟨n, Nat.lt_succ_of_lt hlt, hn⟩
  · rcases List.mem_append.mp ha with ha | ha
    · exact hd.refers a ha
    · rw [List.mem_singleton.mp ha]
      exact hstored
  · rcases List.mem_append.mp hr with hr | hr
    · obtain ⟨a, ha, hr⟩ := hd.channel r hr
      exact ⟨a, List.mem_append_left _ ha, hr⟩
    · exact ⟨_, List.mem_append_right _ (List.mem_singleton_self _),
        (List.mem_singleton.mp hr).symm⟩

/-- Others know no more requests than were accepted. -/
theorem Sound.others (hd : d.Sound) {q : QueueWorld} {a : QueueAction}
    (hq : q.queue = d.intake.queue) (ha : ∀ r, a ≠ .enqueue r) :
    Sound { d with intake := { d.intake with queue := (q.perform a).2.queue } } := by
  have hstep := QueueWorld.step_perform q a
  have hnone : (q.perform a).1.acceptedBy a = [] := by
    cases a with
    | enqueue r => exact absurd rfl (ha r)
    | _ => cases (q.perform _).1 <;> rfl
  refine ⟨⟨hd.inMemory.save, hd.inMemory.get, hd.inMemory.accepts⟩, hd.stored, hd.storeIds,
    fun id hid => ?_, hd.refers, fun r hr => ?_⟩
  · have hknown := (hstep.known id).mp hid
    rw [hnone, hq] at hknown
    exact hd.queueIds id (hknown.resolve_right List.not_mem_nil)
  · have hchannel := hstep.channel
    rw [hnone, hq, List.append_nil] at hchannel
    exact hd.channel r (hchannel ▸ List.mem_append_right _ hr)

/-! ## Runs -/

theorem Sound.submit (hd : d.Sound) (now : Nat) (w : Workflow) (user : String) :
    (∃ e, w.validate = .error e ∧ d.submit now w user = (.error (.validation e), d)) ∨
      w.validate = .ok () ∧ d.submit now w user =
        (.ok (d.registration w, d.intake.freshId), (d.stores w).requests now d.freshId user) := by
  rw [SubmissionDesk.submit]
  rcases hd.inMemory.register w with ⟨e, hvalid, hregister⟩ | ⟨hvalid, hregister⟩
  · exact .inl ⟨e, hvalid, by rw [hregister]⟩
  · have hrequest := (hd.stores hvalid).request now (d.registration w).id user
    refine .inr ⟨hvalid, ?_⟩
    rw [hregister]
    dsimp only
    rw [hrequest]
    rfl

theorem Sound.trigger (hd : d.Sound) (now : Nat) (workflow user : String) :
    (¬ d.store.workflows.has workflow ∧
        d.trigger now workflow user = (.error (.unknownWorkflow workflow), d)) ∨
      d.store.workflows.has workflow ∧
        d.trigger now workflow user = (.ok d.intake.freshId, d.requests now workflow user) := by
  rw [SubmissionDesk.trigger, WorkflowStore.get, hd.inMemory.get]
  cases hfind : d.store.workflows.find? workflow with
  | none => exact .inl ⟨by simp [Fields.has, hfind], rfl⟩
  | some w => exact .inr ⟨by simp [Fields.has, hfind], hd.request now workflow user⟩

theorem Sound.step (hd : d.Sound) (h : Step d d') : d'.Sound := by
  cases h with
  | register w =>
    rcases hd.inMemory.register w with ⟨e, -, hregister⟩ | ⟨hvalid, hregister⟩
    · rwa [hregister]
    · rw [hregister]
      exact hd.stores hvalid
  | submit now w user =>
    rcases hd.submit now w user with ⟨e, -, hsubmit⟩ | ⟨hvalid, hsubmit⟩
    · rwa [hsubmit]
    · rw [hsubmit]
      exact (hd.stores hvalid).requests (Fields.has_insert_self ..)
  | trigger now workflow user =>
    rcases hd.trigger now workflow user with ⟨-, htrigger⟩ | ⟨hstored, htrigger⟩
    · rwa [htrigger]
    · rw [htrigger]
      exact hd.requests hstored
  | others a hq ha => exact hd.others hq ha

theorem Sound.steps (hd : d.Sound) (h : Steps d d') : d'.Sound := by
  induction h with
  | refl => exact hd
  | tail _ h ih => exact ih.step h

/-! ## What a call adds -/

theorem Sound.added_stores (hd : d.Sound) (w : Workflow) :
    d.store.Added (d.stores w).store d.freshId
      (w.optimize d.settings d.processors).workflow where
  unknown := hd.freshId
  found := (Fields.find?_insert ..).trans (if_pos rfl)
  others := fun _ hid => (Fields.find?_insert ..).trans (if_neg (Ne.symm hid))
  size := (Fields.perm_insert _ hd.freshId).length_eq

theorem Sound.added_requests (hd : d.Sound) (now : Nat) (workflow user : String) :
    d.intake.queue.Added (d.requests now workflow user).intake.queue
      { id := d.intake.freshId, workflow, user } where
  unknown := hd.intake_freshId
  record := (ExecutionQueue.record?_setRecord ..).trans (if_pos rfl)
  others := fun _ hid => (ExecutionQueue.record?_setRecord ..).trans (if_neg (Ne.symm hid))
  channel := rfl
  count := by
    intro status
    have hnew : ¬ d.intake.queue.records.has d.intake.freshId := by
      have hnone := hd.intake_freshId
      rw [ExecutionQueue.record?] at hnone
      simp [Fields.has, hnone]
    refine ((Fields.perm_insert _ hnew).countP_eq _).trans ?_
    rw [List.countP_cons]
    simp [ExecutionQueue.count, eq_comm]

/-- What a desk in memory stores and requests, after any calls. Every stored workflow is valid and
stays as it is when it is optimized. Every request that was put into the queue is for a stored
workflow. A call that fails changes nothing. A workflow that is submitted is stored once, optimized,
and one execution of it is requested, which then waits; and no valid workflow is turned down. -/
theorem submissions_sound {settings : Settings} {processors : Nat} {d : SubmissionDesk}
    (h : Steps (ofSettings settings processors) d) :
    (∀ e ∈ d.store.workflows, e.2.validate = .ok () ∧
      ∀ settings processors, e.2.optimize settings processors =
        { workflow := e.2, changes := [] }) ∧
    ((∀ a ∈ d.intake.accepted, d.store.workflows.has a.request.workflow) ∧
      ∀ r ∈ d.intake.queue.channel, d.store.workflows.has r.workflow) ∧
    ((∀ w e, (d.register w).1 = .error e → (d.register w).2 = d) ∧
      (∀ now w user e, (d.submit now w user).1 = .error e → (d.submit now w user).2 = d) ∧
      ∀ now workflow user e, (d.trigger now workflow user).1 = .error e →
        (d.trigger now workflow user).2 = d) ∧
    (∀ now w user registration id, (d.submit now w user).1 = .ok (registration, id) →
      d.store.Added (d.submit now w user).2.store registration.id registration.workflow ∧
      d.intake.queue.Added (d.submit now w user).2.intake.queue
        { id, workflow := registration.id, user }) ∧
    ∀ now w user, w.validate = .ok () → ∃ reply, (d.submit now w user).1 = .ok reply := by
  have hd : d.Sound := (sound_ofSettings settings processors).steps h
  refine ⟨hd.stored, ⟨hd.refers, fun r hr => ?_⟩, ⟨fun w e he => ?_, fun now w user e he => ?_,
    fun now workflow user e he => ?_⟩, fun now w user registration id hok => ?_,
    fun now w user hvalid => ?_⟩
  · obtain ⟨a, ha, rfl⟩ := hd.channel r hr
    exact hd.refers a ha
  · rcases hd.inMemory.register w with ⟨e', -, hregister⟩ | ⟨-, hregister⟩
    · rw [hregister]
    · rw [hregister] at he
      cases he
  · rcases hd.submit now w user with ⟨e', -, hsubmit⟩ | ⟨-, hsubmit⟩
    · rw [hsubmit]
    · rw [hsubmit] at he
      cases he
  · rcases hd.trigger now workflow user with ⟨-, htrigger⟩ | ⟨-, htrigger⟩
    · rw [htrigger]
    · rw [htrigger] at he
      cases he
  · rcases hd.submit now w user with ⟨e', -, hsubmit⟩ | ⟨hvalid, hsubmit⟩
    · rw [hsubmit] at hok
      cases hok
    · rw [hsubmit] at hok ⊢
      cases hok
      exact ⟨hd.added_stores w, (hd.stores hvalid).added_requests now d.freshId user⟩
  · rcases hd.submit now w user with ⟨e', hinvalid, -⟩ | ⟨-, hsubmit⟩
    · rw [hvalid] at hinvalid
      cases hinvalid
    · exact ⟨_, by rw [hsubmit]⟩

/-- A task that names its dependency twice. -/
def doubled : Workflow where
  name := "w"
  tasks := [{ name := "A" }, { name := "B", dependencies := ["A", "A"] }]

theorem submissions_sound_doubled :
    ∃ (d : SubmissionDesk) (registration : Registration) (id : String),
      Steps (ofSettings {} 4) d ∧
      (ofSettings {} 4).store.Added d.store registration.id registration.workflow ∧
      (ofSettings {} 4).intake.queue.Added d.intake.queue
        { id, workflow := registration.id, user := "user" } ∧
      d.store.size = 1 ∧
      ∀ e ∈ d.store.workflows, e.2.validate = .ok () := by
  obtain ⟨-, -, -, hadds, haccepts⟩ := submissions_sound (.refl (a := ofSettings {} 4))
  obtain ⟨⟨registration, id⟩, hok⟩ := haccepts 0 doubled "user" (by decide)
  obtain ⟨hstored, hrequested⟩ := hadds 0 doubled "user" registration id hok
  have hsteps : Steps (ofSettings {} 4) _ := .single (.submit 0 doubled "user")
  exact ⟨_, registration, id, hsteps, hstored, hrequested, hstored.size,
    fun e he => ((submissions_sound hsteps).1 e he).1⟩

end SubmissionDesk

end WorkflowEngine
