import WorkflowEngine.Jobs.Queue

/-!
# Accesses to the job queue

What every access does to the slot under an id (`slot?`), and that the other parts of the queue stay
as they are. The results that were written never change, and a slot that was given up is never known
again.
-/

namespace WorkflowEngine

namespace JobQueue

variable {q q' : JobQueue} {id id' : String} {result r : JobResult}

theorem slot?_update (q : JobQueue) (id id' : String) (change : JobSlot → JobSlot)
    (hid : ∀ s, (change s).id = s.id) :
    (q.update id change).slot? id' =
      if id = id' then (q.slot? id').map change else q.slot? id' := by
  simp only [update, slot?, List.find?_map]
  have hsame : ((fun s : JobSlot => s.id == id') ∘ fun s => if s.id == id then change s else s) =
      fun s => s.id == id' := by
    funext s
    simp only [Function.comp]
    split
    · rw [hid]
    · rfl
  rw [hsame]
  cases hfind : q.slots.find? fun s => s.id == id' with
  | none => simp
  | some s =>
    have hs : s.id = id' := by simpa using List.find?_some hfind
    by_cases h : id = id'
    · simp [hs, h]
    · simp [hs, h, Ne.symm h]

theorem tracked?_eq_some {s : JobSlot} :
    q.tracked? id = some s ↔ q.slot? id = some s ∧ s.tracked = true := by
  rw [tracked?]
  cases q.slot? id with
  | none => simp
  | some t =>
    by_cases ht : t.tracked
    · simp only [ht, if_true, Option.some.injEq]
      exact ⟨fun h => ⟨h, h ▸ ht⟩, fun h => h.1⟩
    · simp only [ht, if_false, Option.some.injEq, Bool.false_eq_true, reduceCtorEq, false_iff]
      rintro ⟨rfl, h⟩
      exact ht h

theorem tracked?_eq_none :
    q.tracked? id = none ↔ ∀ s, q.slot? id = some s → s.tracked = false := by
  rw [Option.eq_none_iff_forall_ne_some]
  simp only [ne_eq, tracked?_eq_some, not_and, Bool.not_eq_true]

theorem isPending_iff :
    q.isPending id ↔ (q.tracked? id).isSome ∧ q.result? id = none := by
  rw [isPending, result?]
  cases h : q.tracked? id with
  | none => simp
  | some s =>
    obtain ⟨hs, -⟩ := tracked?_eq_some.mp h
    simp [hs]

/-! ## Slots -/

theorem isSome_slot_of_result (h : (q.result? id).isSome) : (q.slot? id).isSome := by
  cases hslot : q.slot? id with
  | none => simp [result?, hslot] at h
  | some slot => rfl

theorem slot?_register (q : JobQueue) (id id' : String) :
    (q.register id).slot? id' = (q.slot? id').or (if id = id' then some { id } else none) := by
  simp only [register, slot?, List.find?_append]
  by_cases h : id = id' <;> simp [h]

theorem slot?_forget (q : JobQueue) (id id' : String) :
    (q.forget id).slot? id' =
      if id = id' then (q.slot? id').map fun s => { s with tracked := false } else q.slot? id' :=
  slot?_update q id id' _ fun _ => rfl

theorem result?_register (q : JobQueue) (id id' : String) :
    (q.register id).result? id' = q.result? id' := by
  rw [result?, result?, slot?_register]
  cases q.slot? id' with
  | none => by_cases h : id = id' <;> simp [h]
  | some s => rfl

theorem tracked?_register (q : JobQueue) {id id' : String} (h : id' ≠ id) :
    (q.register id).tracked? id' = q.tracked? id' := by
  rw [tracked?, tracked?, slot?_register, if_neg (Ne.symm h), Option.or_none]

/-- One who waits finds the result also in a slot that was given up. -/
theorem result?_forget (q : JobQueue) (id id' : String) :
    (q.forget id).result? id' = q.result? id' := by
  rw [result?, result?, slot?_forget]
  split
  · cases q.slot? id' <;> rfl
  · rfl

theorem tracked?_forget (q : JobQueue) (id id' : String) :
    (q.forget id).tracked? id' = if id = id' then none else q.tracked? id' := by
  rw [tracked?, slot?_forget]
  by_cases h : id = id'
  · rw [if_pos h, if_pos h]
    cases q.slot? id' <;> rfl
  · rw [if_neg h, if_neg h]
    rfl

theorem subscribe_eq_ok (h : q.subscribe id = .ok q') :
    (q.tracked? id).isSome ∧ q' = q.update id fun s => { s with waiters := s.waiters + 1 } := by
  rw [subscribe] at h
  split at h
  · rename_i s hs
    cases h
    exact ⟨by simp [hs], rfl⟩
  · cases h

theorem subscribe_eq_error {e : JobError} :
    q.subscribe id = .error e ↔ q.tracked? id = none ∧ e = .unknownJob id := by
  rw [subscribe]
  cases q.tracked? id with
  | none => simp [eq_comm]
  | some s => simp

theorem write?_eq_some (h : q.write? id result = some q') :
    (q.tracked? id).isSome ∧ q.result? id = none ∧
      q' = q.update id fun s => { s with result := some result } := by
  rw [write?] at h
  split at h
  · rename_i hpending
    cases h
    obtain ⟨htracked, hnone⟩ := isPending_iff.mp hpending
    exact ⟨htracked, hnone, rfl⟩
  · cases h

theorem write?_eq_none (h : q.write? id result = none) :
    q.tracked? id = none ∨ (q.result? id).isSome := by
  rw [write?] at h
  split at h
  · cases h
  · rename_i hpending
    cases htracked : q.tracked? id with
    | none => exact .inl rfl
    | some s =>
      refine .inr (Option.isSome_iff_ne_none.mpr fun hnone => hpending ?_)
      exact isPending_iff.mpr ⟨by simp [htracked], hnone⟩

theorem slot?_write (h : q.write? id result = some q') (id' : String) :
    q'.slot? id' =
      if id = id' then (q.slot? id').map fun s => { s with result := some result }
      else q.slot? id' := by
  obtain ⟨-, -, rfl⟩ := write?_eq_some h
  exact slot?_update q id id' _ fun _ => rfl

/-- A result that is written is found under its own id only. -/
theorem result?_write (h : q.write? id result = some q') (id' : String) :
    q'.result? id' = if id = id' then some result else q.result? id' := by
  rw [result?, slot?_write h]
  by_cases hid : id = id'
  · obtain ⟨htracked, -, -⟩ := write?_eq_some h
    obtain ⟨s, hs⟩ := Option.isSome_iff_exists.mp htracked
    simp [← hid, (tracked?_eq_some.mp hs).1]
  · simp [hid, result?]

theorem tracked?_write (h : q.write? id result = some q') (id' : String) :
    (q'.tracked? id').isSome = (q.tracked? id').isSome := by
  rw [tracked?, tracked?, slot?_write h]
  by_cases hid : id = id'
  · cases q.slot? id' with
    | none => simp
    | some s => by_cases ht : s.tracked <;> simp [hid, ht]
  · simp [hid]

theorem write_frame (h : q.write? id result = some q') :
    q'.channel = q.channel ∧ q'.isOpen = q.isOpen ∧ q'.resolved = q.resolved ∧
      q'.paused = q.paused := by
  obtain ⟨-, -, rfl⟩ := write?_eq_some h
  exact ⟨rfl, rfl, rfl, rfl⟩

theorem take?_eq_some {job : Job} (h : q.take? = some (job, q')) :
    q.channel = job :: q'.channel ∧ q' = { q with channel := q'.channel } := by
  rw [take?] at h
  split at h
  · cases h
  · rename_i hchannel
    cases h
    exact ⟨hchannel, rfl⟩

theorem send?_eq_some {job : Job} :
    q.send? job = some q' ↔ q.isOpen ∧ q' = { q with channel := q.channel ++ [job] } := by
  rw [send?]
  cases q.isOpen
  · simp
  · simp [eq_comm]

theorem slot?_unsubscribe (q : JobQueue) (id id' : String) :
    (q.unsubscribe id).slot? id' =
      if id = id' then (q.slot? id').map fun s => { s with waiters := s.waiters - 1 }
      else q.slot? id' :=
  slot?_update q id id' _ fun _ => rfl

theorem slot?_subscribe (h : q.subscribe id = .ok q') (id' : String) :
    q'.slot? id' =
      if id = id' then (q.slot? id').map fun s => { s with waiters := s.waiters + 1 }
      else q.slot? id' := by
  obtain ⟨-, rfl⟩ := subscribe_eq_ok h
  exact slot?_update q id id' _ fun _ => rfl

theorem slot?_evict (q : JobQueue) (id id' : String) :
    (q.evict id).slot? id' =
      if id = id' then
        (q.slot? id').map fun s => if s.waiters = 0 then { s with tracked := false } else s
      else q.slot? id' :=
  slot?_update q id id' _ fun s => by split <;> rfl

/-- Without subscribers a slot is given up, and no other slot changes. -/
theorem tracked?_evict (q : JobQueue) (id id' : String) :
    (q.evict id).tracked? id' =
      if id = id' ∧ ∀ s, q.slot? id = some s → s.waiters = 0 then none else q.tracked? id' := by
  rw [tracked?, slot?_evict]
  by_cases hid : id = id'
  · subst hid
    cases hslot : q.slot? id with
    | none => simp
    | some s => by_cases hs : s.waiters = 0 <;> simp [tracked?, hslot, hs]
  · simp [hid, tracked?]

/-- A sweep gives up one slot at a time, that of the oldest result. -/
theorem sweepOldest?_eq_some {ttl now : Nat} (h : q.sweepOldest? ttl now = some q') :
    ∃ id written rest, q.resolved = (id, written) :: rest ∧ isExpired ttl now written ∧
      q' = { q with resolved := rest }.evict id := by
  rw [sweepOldest?] at h
  split at h
  · cases h
  · rename_i id written rest hresolved
    split at h
    · rename_i hexpired
      cases h
      exact ⟨id, written, rest, hresolved, hexpired, rfl⟩
    · cases h

theorem sweepOldest?_eq_none {ttl now : Nat} (h : q.sweepOldest? ttl now = none)
    {entry : String × Nat} {rest : List (String × Nat)} (hresolved : q.resolved = entry :: rest) :
    ¬ isExpired ttl now entry.2 := by
  rw [sweepOldest?, hresolved] at h
  dsimp only at h
  split at h
  · cases h
  · assumption

/-! ## What leaves the results alone -/

/-- All that can have happened is that slots with a result were given up, and that somebody came to
wait or left. -/
structure Keeps (q q' : JobQueue) : Prop where
  channel : q'.channel = q.channel
  isOpen : q'.isOpen = q.isOpen
  resolved : ∀ entry ∈ q'.resolved, entry ∈ q.resolved
  slot : ∀ id, (q'.slot? id).isSome = (q.slot? id).isSome
  result : ∀ id, q'.result? id = q.result? id
  tracked : ∀ id, q.result? id = none → (q'.tracked? id).isSome = (q.tracked? id).isSome
  forgotten : ∀ id, q.tracked? id = none → q'.tracked? id = none

theorem Keeps.of_slots (hslots : q'.slots = q.slots) (hchannel : q'.channel = q.channel)
    (hopen : q'.isOpen = q.isOpen) (hresolved : ∀ entry ∈ q'.resolved, entry ∈ q.resolved) :
    q.Keeps q' := by
  have hslot : ∀ id, q'.slot? id = q.slot? id := fun id => by rw [slot?, slot?, hslots]
  have htracked : ∀ id, q'.tracked? id = q.tracked? id := fun id => by
    rw [tracked?, tracked?, hslot]
  exact ⟨hchannel, hopen, hresolved, fun id => by rw [hslot], fun id => by
    rw [result?, result?, hslot], fun id _ => by rw [htracked], fun id h => by rw [htracked, h]⟩

theorem Keeps.trans {q'' : JobQueue} (h : q.Keeps q') (h' : q'.Keeps q'') : q.Keeps q'' where
  channel := h'.channel.trans h.channel
  isOpen := h'.isOpen.trans h.isOpen
  resolved := fun entry he => h.resolved entry (h'.resolved entry he)
  slot := fun id => (h'.slot id).trans (h.slot id)
  result := fun id => (h'.result id).trans (h.result id)
  tracked := fun id hid => (h'.tracked id ((h.result id).trans hid)).trans (h.tracked id hid)
  forgotten := fun id hid => h'.forgotten id (h.forgotten id hid)

/-- Changing a slot without touching its result. -/
theorem keeps_update (change : JobSlot → JobSlot) (hid : ∀ s, (change s).id = s.id)
    (hresult : ∀ s, (change s).result = s.result)
    (htracked : ∀ s, (change s).tracked → s.tracked)
    (hpending : q.result? id = none → ∀ s, s.tracked → (change s).tracked) :
    q.Keeps (q.update id change) := by
  have hslot := fun id' => slot?_update q id id' change hid
  refine ⟨rfl, rfl, fun _ h => h, fun id' => ?_, fun id' => ?_, fun id' hnone => ?_,
    fun id' hnone => ?_⟩
  · rw [hslot]
    split <;> simp
  · rw [result?, result?, hslot]
    split
    · cases q.slot? id' <;> simp [hresult]
    · rfl
  · rw [tracked?, tracked?, hslot]
    by_cases h : id = id'
    · subst h
      rw [if_pos rfl]
      cases q.slot? id with
      | none => rfl
      | some s =>
        have hiff : (change s).tracked = s.tracked :=
          Bool.eq_iff_iff.mpr ⟨htracked s, hpending hnone s⟩
        by_cases hs : s.tracked <;> simp [hiff, hs]
    · rw [if_neg h]
  · rw [tracked?_eq_none] at hnone ⊢
    intro s hs
    rw [hslot] at hs
    split at hs
    · obtain ⟨t, ht, rfl⟩ := Option.map_eq_some_iff.mp hs
      have hfalse := hnone t ht
      cases hchange : (change t).tracked with
      | false => rfl
      | true =>
        rw [htracked t hchange] at hfalse
        cases hfalse
    · exact hnone s hs

theorem keeps_subscribe (h : q.subscribe id = .ok q') : q.Keeps q' := by
  obtain ⟨-, rfl⟩ := subscribe_eq_ok h
  exact keeps_update _ (fun _ => rfl) (fun _ => rfl) (fun _ h => h) fun _ _ h => h

theorem keeps_unsubscribe (q : JobQueue) (id : String) : q.Keeps (q.unsubscribe id) :=
  keeps_update _ (fun _ => rfl) (fun _ => rfl) (fun _ h => h) fun _ _ h => h

theorem keeps_forget (h : (q.result? id).isSome) : q.Keeps (q.forget id) :=
  keeps_update _ (fun _ => rfl) (fun _ => rfl) (fun _ h => by cases h) fun hnone => by
    simp [hnone] at h

theorem keeps_evict (h : (q.result? id).isSome) : q.Keeps (q.evict id) :=
  keeps_update _ (fun s => by split <;> rfl) (fun s => by split <;> rfl)
    (fun s => by split <;> simp) fun hnone => by simp [hnone] at h

/-- A sweep gives up only what has a result. -/
theorem keeps_sweepOldest {ttl now : Nat}
    (hresolved : ∀ entry ∈ q.resolved, (q.result? entry.1).isSome)
    (h : q.sweepOldest? ttl now = some q') : q.Keeps q' := by
  rw [sweepOldest?] at h
  split at h
  · cases h
  · rename_i id written rest hlist
    split at h
    · cases h
      have hpop : q.Keeps { q with resolved := rest } :=
        .of_slots rfl rfl rfl fun entry he => by simp [hlist, he]
      exact hpop.trans (keeps_evict (hresolved (id, written) (by simp [hlist])))
    · cases h

/-! ## What may have been written meanwhile -/

/-- No slot was made, no result was changed, and only slots with a result were given up. -/
structure Evolves (q q' : JobQueue) : Prop where
  slot : ∀ id, (q'.slot? id).isSome = (q.slot? id).isSome
  result : ∀ id r, q.result? id = some r → q'.result? id = some r
  tracked : ∀ id, q'.result? id = none → (q'.tracked? id).isSome = (q.tracked? id).isSome
  forgotten : ∀ id, q.tracked? id = none → q'.tracked? id = none

theorem Keeps.evolves (h : q.Keeps q') : q.Evolves q' where
  slot := h.slot
  result := fun id _ hr => (h.result id).trans hr
  tracked := fun id hid => h.tracked id ((h.result id).symm.trans hid)
  forgotten := h.forgotten

theorem Evolves.of_slots (h : q'.slots = q.slots) : q.Evolves q' := by
  have hslot : ∀ id, q'.slot? id = q.slot? id := fun id => by rw [slot?, slot?, h]
  have htracked : ∀ id, q'.tracked? id = q.tracked? id := fun id => by
    rw [tracked?, tracked?, hslot]
  exact ⟨fun id => by rw [hslot], fun id _ hr => by rwa [result?, hslot], fun id _ => by
    rw [htracked], fun id hid => by rw [htracked, hid]⟩

theorem write_evolves (h : q.write? id result = some q') : q.Evolves q' where
  slot := fun id' => by
    rw [slot?_write h]
    split <;> simp
  result := fun id' r hr => by
    rw [result?_write h, if_neg]
    · exact hr
    · rintro rfl
      rw [(write?_eq_some h).2.1] at hr
      cases hr
  tracked := fun id' _ => tracked?_write h id'
  forgotten := fun id' hid => by
    have hsome := tracked?_write h id'
    rw [hid] at hsome
    simpa using hsome

end JobQueue

end WorkflowEngine
