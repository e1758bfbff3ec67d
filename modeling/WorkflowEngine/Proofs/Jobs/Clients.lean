import WorkflowEngine.Proofs.Jobs.Invariant

/-!
# What clients leave to the consumer

A step is one of the consumer, the start of the service, or one of a client (`Step.cases`). A client
leaves alone what the consumer goes by (`Bystands`): its phase, its ticker and the list of times,
all results, and the channel but for the jobs that are sent while the queue is open.
-/

namespace WorkflowEngine

namespace JobWorld

variable {w w' : JobWorld} {id : String}

/-- What a step of a client leaves to the consumer. -/
structure Bystands (w w' : JobWorld) : Prop where
  phase : w'.service.phase = w.service.phase
  sweep : w'.service.sweep = w.service.sweep
  ttl : w'.service.ttl = w.service.ttl
  started : w'.service.started = w.service.started
  shutdown : w.service.shutdown → w'.service.shutdown
  now : w.now ≤ w'.now
  isOpen : w'.queue.isOpen = w.queue.isOpen
  resolved : w'.queue.resolved = w.queue.resolved
  result : ∀ id, w'.queue.result? id = w.queue.result? id
  sent : ∃ sent, w'.accepted = w.accepted ++ sent ∧
    w'.queue.channel = w.queue.channel ++ sent ∧
    ∀ job ∈ sent, job ∈ w.registering ∧ w.queue.isOpen

/-- A step that sends no job and changes nothing of the service but the slots of the queue. -/
theorem Bystands.of_slots (hservice : w'.service = { w.service with queue := w'.queue })
    (hqueue : w'.queue = { w.queue with slots := w'.queue.slots }) (hnow : w'.now = w.now)
    (haccepted : w'.accepted = w.accepted)
    (hresult : ∀ id, w'.queue.result? id = w.queue.result? id) : w.Bystands w' where
  phase := (congrArg JobService.phase hservice :)
  sweep := (congrArg JobService.sweep hservice :)
  ttl := (congrArg JobService.ttl hservice :)
  started := (congrArg JobService.started hservice :)
  shutdown := fun h => (congrArg JobService.shutdown hservice :).trans h
  now := Nat.le_of_eq hnow.symm
  isOpen := (congrArg JobQueue.isOpen hqueue :)
  resolved := (congrArg JobQueue.resolved hqueue :)
  result := hresult
  sent := ⟨[], haccepted.trans (List.append_nil _).symm,
    (congrArg JobQueue.channel hqueue :).trans (List.append_nil _).symm, nofun⟩

/-- Which party takes a step. -/
theorem Step.cases (h : Step w w') :
    (∃ s, w.service.Move w.now s ∧ w' = { w with service := s }) ∨
      (w.service.phase = .absent ∧ w' = { w with service := { w.service with
        sweep := ⟨max w.service.ttl 1, w.now⟩
        phase := .looking } }) ∨
      w.Bystands w' := by
  have hnone : ∃ sent, w.accepted = w.accepted ++ sent ∧
      w.queue.channel = w.queue.channel ++ sent ∧
      ∀ job ∈ sent, job ∈ w.registering ∧ w.queue.isOpen := ⟨[], by simp⟩
  cases h with
  | consume h => exact .inl ⟨_, h, rfl⟩
  | start h =>
    rw [JobService.start] at h
    split at h
    · rename_i habsent
      cases h
      exact .inr (.inl ⟨habsent, rfl⟩)
    · cases h
  | pass now hnow =>
    exact .inr (.inr ⟨rfl, rfl, rfl, rfl, id, hnow, rfl, rfl, fun _ => rfl, hnone⟩)
  | pause =>
    exact .inr (.inr ⟨rfl, rfl, rfl, rfl, id, Nat.le_refl _, rfl, rfl, fun _ => rfl, hnone⟩)
  | resume =>
    exact .inr (.inr ⟨rfl, rfl, rfl, rfl, id, Nat.le_refl _, rfl, rfl, fun _ => rfl, hnone⟩)
  | shutDown =>
    exact .inr (.inr ⟨rfl, rfl, rfl, rfl, fun _ => rfl, Nat.le_refl _, rfl, rfl, fun _ => rfl,
      hnone⟩)
  | register job _ _ =>
    exact .inr (.inr (.of_slots rfl rfl rfl rfl (w.queue.result?_register job.id)))
  | @send before after job queue hregistering hsend =>
    obtain ⟨hopen, rfl⟩ := JobQueue.send?_eq_some.mp hsend
    refine .inr (.inr ⟨rfl, rfl, rfl, rfl, id, Nat.le_refl _, rfl, rfl, fun _ => rfl,
      [job], rfl, rfl, fun job' hjob => ?_⟩)
    rw [List.mem_singleton.mp hjob, hregistering]
    exact ⟨List.mem_append_right _ (List.mem_cons_self ..), hopen⟩
  | @withdraw _ _ target _ =>
    exact .inr (.inr (.of_slots rfl rfl rfl rfl (w.queue.result?_forget target)))
  | ask _ hsubscribe =>
    have hkeeps := JobQueue.keeps_subscribe hsubscribe
    obtain ⟨-, rfl⟩ := JobQueue.subscribe_eq_ok hsubscribe
    exact .inr (.inr (.of_slots rfl rfl rfl rfl hkeeps.result))
  | @forget _ target _ _ =>
    exact .inr (.inr (.of_slots rfl rfl rfl rfl (w.queue.result?_forget target)))
  | @leave _ target _ _ =>
    exact .inr (.inr (.of_slots rfl rfl rfl rfl (JobQueue.keeps_unsubscribe w.queue target).result))
  | @drop _ target _ =>
    exact .inr (.inr (.of_slots rfl rfl rfl rfl (JobQueue.keeps_unsubscribe w.queue target).result))
  | _ => exact .inr (.inr (.of_slots rfl rfl rfl rfl fun _ => rfl))

theorem Bystands.begunIds_eq (h : w.Bystands w') : w'.begunIds = w.begunIds := by
  rw [begunIds, begunIds, h.started]

theorem Bystands.acceptedIds (h : w.Bystands w') (hid : id ∈ w'.acceptedIds) :
    id ∈ w.acceptedIds ∨ w.queue.isOpen ∧ id ∈ w.registering.map (·.id) := by
  obtain ⟨sent, haccepted, -, hsent⟩ := h.sent
  rw [JobWorld.acceptedIds, haccepted, List.map_append, List.mem_append] at hid
  rcases hid with hid | hid
  · exact .inl hid
  · obtain ⟨job, hjob, rfl⟩ := List.mem_map.mp hid
    exact .inr ⟨(hsent job hjob).2, List.mem_map_of_mem (hsent job hjob).1⟩

theorem Step.acceptedIds (h : Step w w') (hid : id ∈ w.acceptedIds) : id ∈ w'.acceptedIds := by
  rcases h.cases with ⟨s, hmove, rfl⟩ | ⟨-, rfl⟩ | hby
  · exact hid
  · exact hid
  · obtain ⟨sent, haccepted, -, -⟩ := hby.sent
    rw [JobWorld.acceptedIds, haccepted, List.map_append]
    exact List.mem_append_left _ hid

end JobWorld

end WorkflowEngine
