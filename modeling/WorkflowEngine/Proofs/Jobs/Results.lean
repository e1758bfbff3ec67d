import WorkflowEngine.Proofs.Jobs.Invariant

/-!
# Every job gets its own result

In every run of a queue with its consumer and its clients, jobs are begun one at a time in the order
in which they were sent, a slot is written at most once and only with what its own job came to, all
who wait for a job get that result, and once somebody got it the queue does not know the job any
more.
-/

namespace WorkflowEngine

/-- What can become of a call. One that is over stays as it is. -/
structure ResultCall.Becomes (c c' : ResultCall) : Prop where
  id : c'.id = c.id
  known : ∀ id, c' = .unknown id → c = .unknown id
  returned : ∀ id r, c = .returned id r → c' = c
  unknown : ∀ id, c = .unknown id → c' = c

theorem ResultCall.Becomes.refl (c : ResultCall) : c.Becomes c :=
  ⟨rfl, fun _ h => h, fun _ _ _ => rfl, fun _ _ => rfl⟩

theorem ResultCall.Becomes.trans {c c' c'' : ResultCall} (h : c.Becomes c') (h' : c'.Becomes c'') :
    c.Becomes c'' where
  id := h'.id.trans h.id
  known := fun id hc => h.known id (h'.known id hc)
  returned := fun id r hc => by
    have hsame := h.returned id r hc
    rw [h'.returned id r (hsame.trans hc), hsame]
  unknown := fun id hc => by
    have hsame := h.unknown id hc
    rw [h'.unknown id (hsame.trans hc), hsame]

/-- The call waits for a job, went away, or has got the result of the job. -/
def ResultCall.Awaits (q : JobQueue) (id : String) : ResultCall → Prop
  | waiting id' => id' = id
  | holding id' r => id' = id ∧ q.result? id = some r
  | leaving id' r => id' = id ∧ q.result? id = some r
  | returned id' r => id' = id ∧ q.result? id = some r
  | unknown _ => False
  | dropped id' => id' = id

/-- The call is over, and has an answer. -/
def ResultCall.IsAnswered : ResultCall → Prop
  | returned _ _ => True
  | unknown _ => True
  | _ => False

namespace JobWorld

variable {w w' : JobWorld} {id : String} {r : JobResult}

/-! ## What never changes -/

/-- Results are never changed or taken back. -/
theorem Sound.result?_step (hw : w.Sound) (h : Step w w') (hr : w.queue.result? id = some r) :
    w'.queue.result? id = some r := by
  cases h with
  | consume h => exact (hw.consumed.evolves h).result id r hr
  | start h =>
    rw [JobService.start] at h
    split at h
    · cases h
      exact hr
    · cases h
  | register job _ _ => exact (w.queue.result?_register job.id id).trans hr
  | send _ h =>
    obtain ⟨-, rfl⟩ := JobQueue.send?_eq_some.mp h
    exact hr
  | @withdraw _ _ id' _ => exact (w.queue.result?_forget id' id).trans hr
  | ask _ h => exact ((JobQueue.keeps_subscribe h).result id).trans hr
  | @forget _ id' _ _ => exact (w.queue.result?_forget id' id).trans hr
  | @leave _ id' _ _ => exact ((JobQueue.keeps_unsubscribe w.queue id').result id).trans hr
  | @drop _ id' _ => exact ((JobQueue.keeps_unsubscribe w.queue id').result id).trans hr
  | _ => exact hr

theorem Sound.result?_steps (hw : w.Sound) (h : Steps w w') (hr : w.queue.result? id = some r) :
    w'.queue.result? id = some r := by
  induction h with
  | refl => exact hr
  | tail hsteps h ih => exact (hw.steps hsteps).result?_step h ih

theorem becomes_set {k : Nat} {c c' : ResultCall} (hc : w.calls[k]? = some c) (h : c.Becomes c')
    {k' : Nat} {c₀ : ResultCall} (hk : w.calls[k']? = some c₀) :
    ∃ c₁, (w.calls.set k c')[k']? = some c₁ ∧ c₀.Becomes c₁ := by
  rw [List.getElem?_set]
  split
  · rename_i heq
    subst heq
    rw [hc] at hk
    cases hk
    rw [if_pos (List.getElem?_eq_some_iff.mp hc).1]
    exact ⟨c', rfl, h⟩
  · exact ⟨c₀, hk, .refl c₀⟩

theorem becomes_append {calls : List ResultCall} {k : Nat} {c : ResultCall}
    (hk : w.calls[k]? = some c) :
    ∃ c', (w.calls ++ calls)[k]? = some c' ∧ c.Becomes c' :=
  ⟨c, by rw [List.getElem?_append_left (List.getElem?_eq_some_iff.mp hk).1, hk], .refl c⟩

theorem becomes_step (h : Step w w') {k : Nat} {c : ResultCall} (hk : w.calls[k]? = some c) :
    ∃ c', w'.calls[k]? = some c' ∧ c.Becomes c' := by
  cases h with
  | ask _ _ => exact becomes_append hk
  | askUnknown _ _ => exact becomes_append hk
  | read hc _ =>
    refine becomes_set hc ?_ hk
    exact ⟨rfl, nofun, nofun, nofun⟩
  | forget hc =>
    refine becomes_set hc ?_ hk
    exact ⟨rfl, nofun, nofun, nofun⟩
  | leave hc =>
    refine becomes_set hc ?_ hk
    exact ⟨rfl, nofun, nofun, nofun⟩
  | drop hc =>
    refine becomes_set hc ?_ hk
    exact ⟨rfl, nofun, nofun, nofun⟩
  | _ => exact ⟨c, hk, .refl c⟩

theorem becomes_steps (h : Steps w w') {k : Nat} {c : ResultCall} (hk : w.calls[k]? = some c) :
    ∃ c', w'.calls[k]? = some c' ∧ c.Becomes c' := by
  induction h with
  | refl => exact ⟨c, hk, .refl c⟩
  | tail _ h ih =>
    obtain ⟨c', hc', hbecomes⟩ := ih
    obtain ⟨c'', hc'', hbecomes'⟩ := becomes_step h hc'
    exact ⟨c'', hc'', hbecomes.trans hbecomes'⟩

/-! ## One job at a time -/

theorem Consumed.begun_prefix (hw : w.Consumed) : w.begunIds <+: w.acceptedIds := by
  obtain ⟨begun, dropped, haccepted, hids, -⟩ := hw.order
  rw [acceptedIds, haccepted, hids, List.append_assoc, List.map_append]
  exact List.prefix_append ..

/-- A job is begun only when all jobs begun before it have their results. -/
theorem Consumed.begun_step (hw : w.Consumed) (h : Step w w') :
    w'.begunIds = w.begunIds ∨
      ∃ id, w'.begunIds = w.begunIds ++ [id] ∧
        ∀ id' ∈ w.begunIds, (w.queue.result? id').isSome := by
  cases h with
  | start h =>
    rw [JobService.start] at h
    split at h
    · cases h
      exact .inl rfl
    · cases h
  | consume h =>
    cases h with
    | @begin job _ hphase _ =>
      refine .inr ⟨job.id, by simp [begunIds], fun id' hid => ?_⟩
      have hdone := hw.done id' hid
      rw [hphase] at hdone
      exact hdone.resolve_right not_false
    | _ => exact .inl rfl
  | _ => exact .inl rfl

/-! ## Waiting for a result -/

/-- One who waits can get the result as soon as it is written. -/
theorem returned_of_waiting {k : Nat} (hk : w.calls[k]? = some (.waiting id))
    (hr : w.queue.result? id = some r) :
    ∃ u, Steps w u ∧ u.calls[k]? = some (.returned id r) := by
  have hlt : k < w.calls.length := (List.getElem?_eq_some_iff.mp hk).1
  have hset : ∀ {calls : List ResultCall} (c : ResultCall), k < calls.length →
      (calls.set k c)[k]? = some c := fun c h => List.getElem?_set_self h
  have hread := Step.read hk hr
  have hforget := Step.forget (w := { w with calls := w.calls.set k (.holding id r) })
    (hset (.holding id r) hlt)
  have hleave := Step.leave (w := { w.setQueue (w.queue.forget id) with
    calls := (w.calls.set k (.holding id r)).set k (.leaving id r) })
    (hset (.leaving id r) (by rw [List.length_set]; exact hlt))
  exact ⟨_, .tail (.tail (.single hread) hforget) hleave, hset _ (by simpa using hlt)⟩

/-- The slot of a job that somebody waits for is not given up before it has a result. -/
theorem Sound.waiting (hw : w.Sound) {k : Nat} (hk : w.calls[k]? = some (.waiting id)) :
    (w.queue.tracked? id).isSome ∨ (w.queue.result? id).isSome := by
  cases hresult : w.queue.result? id with
  | none => exact .inl (hw.handed.pending id (List.mem_append_left _ (hw.call hk)) hresult)
  | some r => exact .inr rfl

/-- A call that waited has got the right result, if it got any. -/
theorem Sound.awaits (hw : w.Sound) {k : Nat} {c : ResultCall} (hk : w.calls[k]? = some c)
    (hid : c.id = id) (hknown : ∀ id, c ≠ .unknown id) : c.Awaits w.queue id := by
  subst hid
  have hc := hw.call hk
  cases c with
  | waiting id => exact rfl
  | holding id r => exact ⟨rfl, hc.2⟩
  | leaving id r => exact ⟨rfl, hc.2.1⟩
  | returned id r => exact ⟨rfl, hc.2.1⟩
  | unknown id => exact absurd rfl (hknown id)
  | dropped id => exact rfl

/-- After an answer the queue does not know the job any more. -/
theorem Sound.unknown_of_answered (hw : w.Sound) {k : Nat} {c : ResultCall}
    (hk : w.calls[k]? = some c) (hc : c.IsAnswered) :
    w.queue.subscribe c.id = .error (.unknownJob c.id) := by
  refine JobQueue.subscribe_eq_error.mpr ⟨?_, rfl⟩
  have hcall := hw.call hk
  cases c with
  | returned id r => exact hcall.2.2
  | unknown id => exact hcall
  | _ => exact hc.elim

/-- What is true of every state of a queue with one consumer, and of every later one. Jobs are begun
in the order in which they were sent, none twice, and each only when those begun before have their
results. A result that was written stays, and is the job's own. A call that waits for a job gets the
result of the job, if it does not go away: the slot is not given up before the result is written,
and then the call can return. Once a call has returned, all later ones are told that the job is
unknown. -/
theorem jobs_get_own_results {settings : Settings} {w w' : JobWorld}
    (h : Steps (ofSettings settings) w) (h' : Steps w w') :
    (w.begunIds <+: w.acceptedIds ∧ w.acceptedIds.Nodup) ∧
    (∀ u, Step w u → u.begunIds = w.begunIds ∨
      ∃ id, u.begunIds = w.begunIds ++ [id] ∧
        ∀ id' ∈ w.begunIds, (w.queue.result? id').isSome) ∧
    (∀ id r, w.queue.result? id = some r → w.Own id r ∧ w'.queue.result? id = some r) ∧
    (∀ (k : Nat) id, w.calls[k]? = some (.waiting id) →
      (∃ c, w'.calls[k]? = some c ∧ c.Awaits w'.queue id) ∧
      ((w.queue.tracked? id).isSome ∨ (w.queue.result? id).isSome) ∧
      ∀ r, w.queue.result? id = some r →
        ∃ u, Steps w u ∧ u.calls[k]? = some (.returned id r)) ∧
    ∀ (k : Nat) c, w.calls[k]? = some c → c.IsAnswered →
      w'.queue.subscribe c.id = .error (.unknownJob c.id) := by
  have hw : w.Sound := (sound_ofSettings settings).steps h
  have hw' : w'.Sound := hw.steps h'
  refine ⟨⟨hw.consumed.begun_prefix, ?_⟩, fun u => hw.consumed.begun_step, fun id r hr =>
    ⟨hw.consumed.own id r hr, hw.result?_steps h' hr⟩, fun k id hk =>
    ⟨?_, hw.waiting hk, fun r => returned_of_waiting hk⟩, fun k c hk hc => ?_⟩
  · exact (List.nodup_append.mp (List.nodup_append.mp hw.handed.nodup).1).1
  · obtain ⟨c, hc, hbecomes⟩ := becomes_steps h' hk
    refine ⟨c, hc, hw'.awaits hc hbecomes.id fun id hunknown => ?_⟩
    cases hbecomes.known id hunknown
  · obtain ⟨c', hc', hbecomes⟩ := becomes_steps h' hk
    have hsame : c' = c := by
      cases c with
      | returned id r => exact hbecomes.returned id r rfl
      | unknown id => exact hbecomes.unknown id rfl
      | _ => exact hc.elim
    rw [hsame] at hc'
    exact hw'.unknown_of_answered hc' hc

/-- A job is handed in and run, and somebody gets its result. -/
theorem exists_oneJob : ∃ w, Steps (ofSettings {}) w ∧ w.begunIds = ["A"] ∧
    w.queue.result? "A" = some (.ok .null) ∧ w.calls = [.returned "A" (.ok .null)] := by
  have h₁ := Step.register (w := ofSettings {}) ⟨"A", .done (.value .null)⟩ rfl nofun
  have h₂ := Relation.ReflTransGen.tail (.single h₁) (@Step.send _ [] [] _ _ rfl rfl)
  have h₃ := h₂.tail (.start rfl)
  have h₄ := h₃.tail (.consume (.look rfl))
  have h₅ := h₄.tail (.consume (.begin rfl rfl))
  have h₆ := h₅.tail (.consume (.finish rfl))
  have h₇ := h₆.tail (.consume (.write rfl rfl))
  have h₈ := h₇.tail (.consume (.note rfl))
  have h₉ := h₈.tail (@Step.ask _ "A" _ ⟨nofun, nofun⟩ rfl)
  have h₁₀ := h₉.tail (@Step.read _ 0 _ _ rfl rfl)
  have h₁₁ := h₁₀.tail (@Step.forget _ 0 _ _ rfl)
  have h₁₂ := h₁₁.tail (@Step.leave _ 0 _ _ rfl)
  exact ⟨_, h₁₂, rfl, rfl, rfl⟩

theorem jobs_get_own_results_oneJob : ∃ w, Steps (ofSettings {}) w ∧ w.Own "A" (.ok .null) ∧
    w.queue.subscribe "A" = .error (.unknownJob "A") := by
  obtain ⟨w, h, -, hresult, hcalls⟩ := exists_oneJob
  obtain ⟨-, -, hown, -, hanswered⟩ := jobs_get_own_results h .refl
  exact ⟨w, h, (hown "A" _ hresult).1,
    hanswered 0 (.returned "A" (.ok .null)) (by rw [hcalls]; rfl) trivial⟩

end JobWorld

end WorkflowEngine
