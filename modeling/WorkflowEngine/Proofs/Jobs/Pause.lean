import Mathlib.Data.Fintype.EquivFin
import WorkflowEngine.Proofs.Jobs.Invariant

/-!
# Pausing the queue

The consumer looks at the pause flag at one point of its loop only, before it waits. When the queue
is paused while the consumer waits already, it still begins the next job that comes; then it looks
again. So while the queue is paused at most one job is begun, and none is unless the consumer was
waiting when the pause began (`begins_while_paused`).
-/

namespace WorkflowEngine

theorem JobService.phase_goOn_ne_waiting (s : JobService) : s.goOn.phase ≠ .waiting := by
  rw [goOn]
  split
  · intro h
    cases h
  · intro h
    cases h

namespace JobWorld

variable {w w' : JobWorld}

/-- What can happen until somebody resumes the queue. -/
abbrev WhilePaused : JobWorld → JobWorld → Prop :=
  Relation.ReflTransGen fun u v => Step u v ∧ v.queue.paused

/-- While the queue is paused the consumer does not come to wait, and begins a job only if it
waits. -/
theorem phase_step_of_paused (hpaused : w.queue.paused) (h : Step w w') :
    (w'.service.phase = .waiting → w.service.phase = .waiting) ∧
      (w'.begunIds = w.begunIds ∨ w.service.phase = .waiting ∧ w'.service.phase ≠ .waiting ∧
        ∃ id, w'.begunIds = w.begunIds ++ [id]) := by
  cases h with
  | start h =>
    rw [JobService.start] at h
    split at h
    · cases h
      exact ⟨fun h => (by cases h), .inl rfl⟩
    · cases h
  | consume h =>
    cases h with
    | look h =>
      refine ⟨fun hwaiting => ?_, .inl rfl⟩
      have hp : w.service.queue.paused = true := hpaused
      simp [hp] at hwaiting
    | evict h _ => exact ⟨id, .inl rfl⟩
    | @begin job _ h _ =>
      exact ⟨fun _ => h, .inr ⟨h, fun h => (by cases h), job.id, by simp [begunIds]⟩⟩
    | written _ _ => exact ⟨fun h => absurd h (JobService.phase_goOn_ne_waiting _), .inl rfl⟩
    | note _ => exact ⟨fun h => absurd h (JobService.phase_goOn_ne_waiting _), .inl rfl⟩
    | _ => exact ⟨fun h => (by cases h), .inl rfl⟩
  | _ => exact ⟨id, .inl rfl⟩

/-- A job that is begun while the queue is paused is the only one, and the consumer was waiting when
the pause began. -/
theorem begunIds_whilePaused (hpaused : w.queue.paused) (h : WhilePaused w w') :
    w'.begunIds = w.begunIds ∧ (w'.service.phase = .waiting → w.service.phase = .waiting) ∨
      w.service.phase = .waiting ∧ w'.service.phase ≠ .waiting ∧
        ∃ id, w'.begunIds = w.begunIds ++ [id] := by
  have hstays : ∀ {u : JobWorld}, WhilePaused w u → u.queue.paused := fun h => by
    cases h with
    | refl => exact hpaused
    | tail _ h => exact h.2
  induction h with
  | refl => exact .inl ⟨rfl, id⟩
  | tail hsteps h ih =>
    obtain ⟨hwaiting, hbegun⟩ := phase_step_of_paused (hstays hsteps) h.1
    rcases ih with ⟨hsame, hphase⟩ | ⟨hphase, hnot, id, hid⟩
    · rcases hbegun with hbegun | ⟨hphase', hnot, id, hid⟩
      · exact .inl ⟨hbegun.trans hsame, fun h => hphase (hwaiting h)⟩
      · exact .inr ⟨hphase hphase', hnot, id, hid.trans (by rw [hsame])⟩
    -- After the first job the consumer does not come to wait again, so it begins no second one.
    · rcases hbegun with hbegun | ⟨hphase', -, -⟩
      · exact .inr ⟨hphase, fun h => hnot (hwaiting h), id, hbegun.trans hid⟩
      · exact absurd hphase' hnot

/-- A consumer that waits begins the next job, paused or not. -/
theorem exists_begin {job : Job} {rest : List Job} (hphase : w.service.phase = .waiting)
    (hchannel : w.queue.channel = job :: rest) :
    ∃ u, Step w u ∧ u.queue.paused = w.queue.paused ∧ u.begunIds = w.begunIds ++ [job.id] := by
  have htake : w.service.queue.take? = some (job, { w.queue with channel := rest }) := by
    rw [JobQueue.take?, show w.service.queue.channel = job :: rest from hchannel]
    rfl
  exact ⟨_, .consume (.begin hphase htake), rfl, by simp [begunIds]⟩

/-- Somebody can always hand in a job under a new id. -/
theorem exists_new_id (w : JobWorld) :
    ∃ id, w.queue.slot? id = none ∧ ∀ c ∈ w.calls, c.id ≠ id := by
  obtain ⟨id, hid⟩ := Infinite.exists_notMem_finset
    (w.queue.slots.map (·.id) ++ w.calls.map (·.id)).toFinset
  simp only [List.mem_toFinset, List.mem_append, List.mem_map, not_or, not_exists, not_and] at hid
  refine ⟨id, ?_, fun c hc => hid.2 c hc⟩
  rw [JobQueue.slot?, List.find?_eq_none]
  exact fun s hs => by simpa using hid.1 s hs

theorem exists_sent (hpaused : w.queue.paused) (hopen : w.queue.isOpen) {job : Job}
    (hslot : w.queue.slot? job.id = none) (hcalls : ∀ c ∈ w.calls, c.id ≠ job.id) :
    ∃ v, WhilePaused w v ∧ v.queue.paused ∧ v.service.phase = w.service.phase ∧
      v.begunIds = w.begunIds ∧ v.queue.channel = w.queue.channel ++ [job] := by
  have hsend := @Step.send { w.setQueue (w.queue.register job.id) with
    registering := w.registering ++ [job] } w.registering [] job _ rfl
      (JobQueue.send?_eq_some.mpr ⟨hopen, rfl⟩)
  exact ⟨_, .tail (.single ⟨.register job hslot hcalls, hpaused⟩) ⟨hsend, hpaused⟩, hpaused, rfl,
    rfl, rfl⟩

/-- A consumer that waits can begin a job while the queue is paused: one that is there, or one that
somebody hands in. -/
theorem Sound.exists_begin_whilePaused (hw : w.Sound) (hpaused : w.queue.paused)
    (hphase : w.service.phase = .waiting) :
    ∃ u, WhilePaused w u ∧ u.begunIds ≠ w.begunIds := by
  have hopen : w.queue.isOpen := by
    have h := hw.consumed.phase
    rwa [hphase] at h
  obtain ⟨id, hslot, hcalls⟩ := w.exists_new_id
  obtain ⟨v, hv, hvp, hvphase, hvbegun, hchannel⟩ :=
    @exists_sent w hpaused hopen ⟨id, .hang⟩ hslot hcalls
  obtain ⟨job, rest, hne⟩ :=
    List.exists_cons_of_ne_nil (List.append_ne_nil_of_right_ne_nil w.queue.channel
      (List.cons_ne_nil (⟨id, .hang⟩ : Job) []))
  obtain ⟨u, hu, hup, hbegun⟩ := exists_begin (hvphase.trans hphase) (hchannel.trans hne)
  refine ⟨u, hv.tail ⟨hu, hup.trans hvp⟩, ?_⟩
  rw [hbegun, hvbegun]
  simp

/-- While the queue is paused at most one job is begun. One can be begun exactly if the consumer was
waiting already, and so had looked before, when the pause began. -/
theorem begins_while_paused {settings : Settings} {w : JobWorld}
    (h : Steps (ofSettings settings) w) (hpaused : w.queue.paused) :
    (∀ u, WhilePaused w u → ∃ ids, u.begunIds = w.begunIds ++ ids ∧ ids.length ≤ 1) ∧
    ((∃ u, WhilePaused w u ∧ u.begunIds ≠ w.begunIds) ↔ w.service.phase = .waiting) := by
  have hw : w.Sound := (sound_ofSettings settings).steps h
  refine ⟨fun u hu => ?_, fun ⟨u, hu, hne⟩ => ?_, hw.exists_begin_whilePaused hpaused⟩
  · rcases begunIds_whilePaused hpaused hu with ⟨hsame, -⟩ | ⟨-, -, id, hid⟩
    · exact ⟨[], by simp [hsame], by simp⟩
    · exact ⟨[id], hid, by simp⟩
  · rcases begunIds_whilePaused hpaused hu with ⟨hsame, -⟩ | ⟨hphase, -, -⟩
    · exact absurd hsame hne
    · exact hphase

theorem exists_pausedWaiting : ∃ w, Steps (ofSettings {}) w ∧ w.queue.paused ∧
    w.service.phase = .waiting := by
  have h₁ := Relation.ReflTransGen.single (Step.start (w := ofSettings {}) rfl)
  have h₂ := h₁.tail (.consume (.look rfl))
  exact ⟨_, h₂.tail .pause, rfl, rfl⟩

theorem begins_while_paused_waiting : ∃ w, Steps (ofSettings {}) w ∧ w.queue.paused ∧
    ∃ u, WhilePaused w u ∧ u.begunIds ≠ w.begunIds := by
  obtain ⟨w, h, hpaused, hphase⟩ := exists_pausedWaiting
  exact ⟨w, h, hpaused, (begins_while_paused h hpaused).2.mpr hphase⟩

/-- A job that is handed in while the queue is paused, and is begun. -/
theorem begun_although_paused : ∃ w u, Steps (ofSettings {}) w ∧ w.queue.paused ∧
    w.begunIds = [] ∧ Step w u ∧ u.queue.paused ∧ u.begunIds = ["A"] := by
  have h₁ := Relation.ReflTransGen.single (Step.start (w := ofSettings {}) rfl)
  have h₂ := h₁.tail (.consume (.look rfl))
  have h₃ := h₂.tail .pause
  have h₄ := h₃.tail (.register ⟨"A", .done (.value .null)⟩ rfl nofun)
  have h₅ := h₄.tail (@Step.send _ [] [] _ _ rfl rfl)
  exact ⟨_, _, h₅, rfl, rfl, .consume (.begin rfl rfl), rfl, rfl⟩

end JobWorld

end WorkflowEngine
