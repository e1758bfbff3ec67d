import WorkflowEngine.Proofs.Jobs.Results

/-!
# What a step makes of a slot

There are few things that a step can make of the slot of a job (`SlotStep`): its result is written,
somebody comes to wait for it or leaves, or it is given up. Whoever can do the latter says why: a
sweep found nobody waiting, the result was fetched, or the job was refused.

* `Attended`: a slot counts the calls that wait for it.
* `Step.tracked_of_accepted`: how the slot of an accepted job can be lost.
-/

namespace WorkflowEngine

/-- The call is subscribed to the slot of the job. -/
def ResultCall.attends (id : String) : ResultCall → Bool
  | waiting id' => id' == id
  | holding id' _ => id' == id
  | leaving id' _ => id' == id
  | _ => false

/-- The call has taken the result of the job away. -/
def ResultCall.HasFetched (id : String) : ResultCall → Prop
  | leaving id' _ => id' = id
  | returned id' _ => id' = id
  | _ => False

theorem ResultCall.attends_of_ne {c : ResultCall} {id : String} (h : c.id ≠ id) :
    c.attends id = false := by
  cases c with
  | waiting id' => exact beq_false_of_ne h
  | holding id' r => exact beq_false_of_ne h
  | leaving id' r => exact beq_false_of_ne h
  | _ => rfl

namespace JobWorld

variable {w w' : JobWorld} {id : String}

/-- How many calls are subscribed to the slot of the job. -/
def attending (w : JobWorld) (id : String) : Nat := w.calls.countP (·.attends id)

/-- Somebody has taken the result of the job away. -/
def Fetched (w : JobWorld) (id : String) : Prop := ∃ c ∈ w.calls, c.HasFetched id

/-- What a step makes of the slot of a job. -/
inductive SlotStep (w w' : JobWorld) (id : String) (slot : JobSlot) : JobSlot → Prop where
  | keep : w'.attending id = w.attending id → SlotStep w w' id slot slot
  | write (r : JobResult) : slot.result = none → w'.calls = w.calls →
      SlotStep w w' id slot { slot with result := some r }
  | subscribe : w'.attending id = w.attending id + 1 →
      SlotStep w w' id slot { slot with waiters := slot.waiters + 1 }
  | unsubscribe : w'.attending id + 1 = w.attending id →
      SlotStep w w' id slot { slot with waiters := slot.waiters - 1 }
  | evict {time written : Nat} {rest : List (String × Nat)} :
      w.service.phase = .sweeping time → w.queue.resolved = (id, written) :: rest →
      JobQueue.isExpired w.service.ttl time written → slot.waiters = 0 → w'.calls = w.calls →
      SlotStep w w' id slot { slot with tracked := false }
  | fetch : w'.Fetched id → w'.attending id = w.attending id →
      SlotStep w w' id slot { slot with tracked := false }
  | withdraw : id ∈ w.refused → w'.calls = w.calls →
      SlotStep w w' id slot { slot with tracked := false }

/-! ## Calls -/

theorem attending_set {k : Nat} {c : ResultCall} (hk : w.calls[k]? = some c) (c' : ResultCall)
    (id : String) :
    (w.calls.set k c').countP (·.attends id) + (if c.attends id then 1 else 0) =
      w.attending id + (if c'.attends id then 1 else 0) := by
  obtain ⟨hlt, rfl⟩ := List.getElem?_eq_some_iff.mp hk
  rw [List.countP_set hlt, attending]
  by_cases h : w.calls[k].attends id
  · have hpos : 0 < w.calls.countP (·.attends id) :=
      List.countP_pos_iff.mpr ⟨_, List.getElem_mem hlt, h⟩
    simp only [h, if_true]
    omega
  · simp only [h, Bool.false_eq_true, if_false]
    omega

theorem attending_set_same {k : Nat} {c c' : ResultCall} (hk : w.calls[k]? = some c) {id : String}
    (h : c'.attends id = c.attends id) :
    (w.calls.set k c').countP (·.attends id) = w.attending id := by
  have hset := attending_set hk c' id
  rw [h] at hset
  omega

theorem attending_set_left {k : Nat} {c c' : ResultCall} (hk : w.calls[k]? = some c) {id : String}
    (h : c.attends id = true) (h' : c'.attends id = false) :
    (w.calls.set k c').countP (·.attends id) + 1 = w.attending id := by
  have hset := attending_set hk c' id
  rw [h, h'] at hset
  exact hset

theorem attending_append (calls : List ResultCall) (id : String) :
    (w.calls ++ calls).countP (·.attends id) = w.attending id + calls.countP (·.attends id) :=
  List.countP_append

theorem fetched_set {k : Nat} {c : ResultCall} (hk : k < w.calls.length) (h : c.HasFetched id) :
    ∃ c' ∈ w.calls.set k c, c'.HasFetched id :=
  ⟨c, List.mem_of_getElem? (List.getElem?_set_self hk), h⟩

/-! ## The slot under an id -/

theorem slotStep_same {slot : JobSlot} (hslots : w'.queue.slots = w.queue.slots)
    (hattending : w'.attending id = w.attending id) (hslot : w.queue.slot? id = some slot) :
    ∃ slot', w'.queue.slot? id = some slot' ∧ SlotStep w w' id slot slot' :=
  ⟨slot, by rw [JobQueue.slot?, hslots]; exact hslot, .keep hattending⟩

/-- A step that changes the slot of one job and leaves the others alone. -/
theorem slotStep_change {target : String} {slot : JobSlot} {change : JobSlot → JobSlot}
    (hslots : w'.queue.slot? id =
      if target = id then (w.queue.slot? id).map change else w.queue.slot? id)
    (hslot : w.queue.slot? id = some slot)
    (hset : target = id → SlotStep w w' id slot (change slot))
    (hkeep : target ≠ id → w'.attending id = w.attending id) :
    ∃ slot', w'.queue.slot? id = some slot' ∧ SlotStep w w' id slot slot' := by
  rw [hslot] at hslots
  by_cases htarget : target = id
  · rw [if_pos htarget] at hslots
    exact ⟨change slot, hslots, hset htarget⟩
  · rw [if_neg htarget] at hslots
    exact ⟨slot, hslots, .keep (hkeep htarget)⟩

theorem slotStep_written {target : String} {r : JobResult} {slot : JobSlot}
    (hwrite : w.queue.write? target r = some w'.queue) (hcalls : w'.calls = w.calls)
    (hslot : w.queue.slot? id = some slot) :
    ∃ slot', w'.queue.slot? id = some slot' ∧ SlotStep w w' id slot slot' := by
  refine slotStep_change (JobQueue.slot?_write hwrite id) hslot (fun heq => ?_) fun _ =>
    congrArg (List.countP _) hcalls
  obtain ⟨-, hnone, -⟩ := JobQueue.write?_eq_some hwrite
  rw [heq, JobQueue.result?, hslot] at hnone
  exact .write r hnone hcalls

theorem slotStep_consume {s : JobService} {slot : JobSlot} (h : w.service.Move w.now s)
    (hslot : w.queue.slot? id = some slot) :
    ∃ slot', JobQueue.slot? (queue { w with service := s }) id = some slot' ∧
      SlotStep w { w with service := s } id slot slot' := by
  cases h with
  | @evict time queue hphase hsweep =>
    obtain ⟨target, written, rest, hresolved, hexpired, rfl⟩ :=
      JobQueue.sweepOldest?_eq_some hsweep
    refine slotStep_change (JobQueue.slot?_evict _ target id) hslot (fun heq => ?_) fun _ => rfl
    subst heq
    by_cases hwaiters : slot.waiters = 0
    · rw [if_pos hwaiters]
      exact .evict hphase hresolved hexpired hwaiters rfl
    · rw [if_neg hwaiters]
      exact .keep rfl
  | write _ hwrite => exact slotStep_written hwrite rfl hslot
  | cancel _ hwrite => exact slotStep_written hwrite rfl hslot
  | begin _ htake =>
    exact slotStep_same (congrArg JobQueue.slots (JobQueue.take?_eq_some htake).2 :) rfl hslot
  | drain _ htake =>
    exact slotStep_same (congrArg JobQueue.slots (JobQueue.take?_eq_some htake).2 :) rfl hslot
  | _ => exact slotStep_same rfl rfl hslot

/-- What one step makes of a slot. A step that makes a slot does so under a new id. -/
theorem Step.slotStep {slot : JobSlot} (h : Step w w') (hslot : w.queue.slot? id = some slot) :
    ∃ slot', w'.queue.slot? id = some slot' ∧ SlotStep w w' id slot slot' := by
  cases h with
  | consume h => exact slotStep_consume h hslot
  | start h =>
    rw [JobService.start] at h
    split at h
    · cases h
      exact slotStep_same rfl rfl hslot
    · cases h
  | register job _ _ =>
    refine ⟨slot, ?_, .keep rfl⟩
    refine (JobQueue.slot?_register w.queue job.id id).trans ?_
    rw [hslot, Option.some_or]
  | send _ hsend =>
    obtain ⟨-, rfl⟩ := JobQueue.send?_eq_some.mp hsend
    exact slotStep_same rfl rfl hslot
  | @withdraw before after target hrefused =>
    refine slotStep_change (JobQueue.slot?_forget w.queue target id) hslot (fun heq => ?_)
      fun _ => rfl
    subst heq
    exact .withdraw (hrefused ▸ List.mem_append_right _ (List.mem_cons_self ..)) rfl
  | @ask target queue _ hsubscribe =>
    refine slotStep_change (JobQueue.slot?_subscribe hsubscribe id) hslot
      (fun heq => .subscribe ?_) fun hne => ?_
    · refine (attending_append _ id).trans ?_
      simp [ResultCall.attends, heq]
    · refine (attending_append _ id).trans ?_
      simp [ResultCall.attends, hne]
  | askUnknown _ _ =>
    refine slotStep_same rfl ?_ hslot
    exact (attending_append _ id).trans (by simp [ResultCall.attends])
  | read hcall _ => exact slotStep_same rfl (attending_set_same hcall rfl) hslot
  | @forget k target r hcall =>
    refine slotStep_change (JobQueue.slot?_forget w.queue target id) hslot
      (fun heq => .fetch ?_ (attending_set_same hcall rfl)) fun _ => attending_set_same hcall rfl
    exact fetched_set (List.getElem?_eq_some_iff.mp hcall).1 heq
  | @leave k target r hcall =>
    refine slotStep_change (JobQueue.slot?_unsubscribe w.queue target id) hslot
      (fun heq => .unsubscribe ?_) fun hne => ?_
    · exact attending_set_left hcall (beq_iff_eq.mpr heq) rfl
    · exact attending_set_same hcall (beq_false_of_ne hne).symm
  | @drop k target hcall =>
    refine slotStep_change (JobQueue.slot?_unsubscribe w.queue target id) hslot
      (fun heq => .unsubscribe ?_) fun hne => ?_
    · exact attending_set_left hcall (beq_iff_eq.mpr heq) rfl
    · exact attending_set_same hcall (beq_false_of_ne hne).symm
  | _ => exact slotStep_same rfl rfl hslot

/-- A slot is made under a new id, for a job that nobody has asked about. -/
theorem Sound.slot?_step (hw : w.Sound) (h : Step w w') (hnone : w.queue.slot? id = none) :
    w'.queue.slot? id = none ∨
      w'.queue.slot? id = some { id } ∧ w'.calls = w.calls ∧ ∀ c ∈ w.calls, c.id ≠ id := by
  have hstays : ∀ {q : JobQueue}, (q.slot? id).isSome = (w.queue.slot? id).isSome →
      q.slot? id = none := fun h => by rwa [hnone, Option.isSome_none, Option.isSome_eq_false_iff,
        Option.isNone_iff_eq_none] at h
  cases h with
  | consume h => exact .inl (hstays ((hw.consumed.evolves h).slot id))
  | start h =>
    rw [JobService.start] at h
    split at h
    · cases h
      exact .inl hnone
    · cases h
  | register job _ hcalls =>
    have hregister := w.queue.slot?_register job.id id
    rw [hnone, Option.none_or] at hregister
    by_cases hid : job.id = id
    · subst hid
      rw [if_pos rfl] at hregister
      exact .inr ⟨hregister, rfl, hcalls⟩
    · rw [if_neg hid] at hregister
      exact .inl hregister
  | send _ hsend =>
    obtain ⟨-, rfl⟩ := JobQueue.send?_eq_some.mp hsend
    exact .inl hnone
  | @withdraw _ _ target _ =>
    refine .inl ((w.queue.slot?_forget target id).trans ?_)
    simp [hnone]
  | ask _ hsubscribe => exact .inl (hstays ((JobQueue.keeps_subscribe hsubscribe).slot id))
  | @forget _ target _ _ =>
    refine .inl ((w.queue.slot?_forget target id).trans ?_)
    simp [hnone]
  | @leave _ target _ _ =>
    exact .inl (hstays ((JobQueue.keeps_unsubscribe w.queue target).slot id))
  | @drop _ target _ => exact .inl (hstays ((JobQueue.keeps_unsubscribe w.queue target).slot id))
  | _ => exact .inl hnone

/-! ## Subscriptions -/

/-- Every slot counts the calls that are subscribed to it. -/
def Attended (w : JobWorld) : Prop :=
  ∀ id slot, w.queue.slot? id = some slot → slot.waiters = w.attending id

theorem attended_ofSettings (settings : Settings) : (ofSettings settings).Attended := nofun

theorem SlotStep.waiters {slot slot' : JobSlot} (h : SlotStep w w' id slot slot')
    (hslot : slot.waiters = w.attending id) : slot'.waiters = w'.attending id := by
  have hsame : w'.calls = w.calls → w'.attending id = w.attending id := congrArg (List.countP _)
  cases h with
  | keep hcalls => omega
  | write _ _ hcalls => exact hslot.trans (hsame hcalls).symm
  | subscribe hcalls =>
    dsimp only
    omega
  | unsubscribe hcalls =>
    dsimp only
    omega
  | evict _ _ _ _ hcalls => exact hslot.trans (hsame hcalls).symm
  | fetch _ hcalls => exact hslot.trans hcalls.symm
  | withdraw _ hcalls => exact hslot.trans (hsame hcalls).symm

theorem Attended.step (ha : w.Attended) (hw : w.Sound) (h : Step w w') : w'.Attended := by
  intro id slot' hslot'
  cases hslot : w.queue.slot? id with
  | some slot =>
    obtain ⟨slot₁, hslot₁, hstep⟩ := h.slotStep hslot
    cases hslot'.symm.trans hslot₁
    exact hstep.waiters (ha id slot hslot)
  | none =>
    rcases hw.slot?_step h hslot with hnone | ⟨hnew, hcalls, hne⟩
    · cases hslot'.symm.trans hnone
    · cases hslot'.symm.trans hnew
      rw [attending, hcalls]
      refine (List.countP_eq_zero.mpr fun c hc => ?_).symm
      rw [ResultCall.attends_of_ne (hne c hc)]
      exact Bool.false_ne_true

theorem attended_of_steps {settings : Settings} (h : Steps (ofSettings settings) w) :
    w.Attended := by
  induction h with
  | refl => exact attended_ofSettings settings
  | tail hsteps h ih => exact ih.step ((sound_ofSettings settings).steps hsteps) h

/-! ## How a slot is lost -/

theorem fetched_of_set {k : Nat} {c c' : ResultCall} (hk : w.calls[k]? = some c)
    (hc : c.HasFetched id → c'.HasFetched id) (h : w.Fetched id) :
    ∃ x ∈ w.calls.set k c', x.HasFetched id := by
  obtain ⟨x, hx, hfetched⟩ := h
  obtain ⟨j, hj⟩ := List.mem_iff_getElem?.mp hx
  obtain ⟨hlt, -⟩ := List.getElem?_eq_some_iff.mp hk
  by_cases hjk : k = j
  · subst hjk
    cases hj.symm.trans hk
    exact fetched_set hlt (hc hfetched)
  · exact ⟨x, List.mem_of_getElem? ((List.getElem?_set_ne hjk).trans hj), hfetched⟩

theorem Step.fetched (h : Step w w') (hfetched : w.Fetched id) : w'.Fetched id := by
  have happend : ∀ c, ∃ x ∈ w.calls ++ [c], x.HasFetched id := fun c => by
    obtain ⟨x, hx, h⟩ := hfetched
    exact ⟨x, List.mem_append_left _ hx, h⟩
  cases h with
  | ask _ _ => exact happend _
  | askUnknown _ _ => exact happend _
  | read hk _ => exact fetched_of_set hk False.elim hfetched
  | forget hk => exact fetched_of_set hk False.elim hfetched
  | leave hk => exact fetched_of_set hk (fun h => h) hfetched
  | drop hk => exact fetched_of_set hk False.elim hfetched
  | _ => exact hfetched

/-- The sweep comes to the slot of the job now, and gives it up: it has been kept long enough and
nobody waits. -/
def Expiring (w : JobWorld) (id : String) : Prop :=
  ∃ time written rest, w.service.phase = .sweeping time ∧
    w.queue.resolved = (id, written) :: rest ∧
    JobQueue.isExpired w.service.ttl time written ∧ w.attending id = 0

/-- The slot of an accepted job is lost only when its result is fetched, or to a sweep. -/
theorem Step.tracked_of_accepted (h : Step w w') (hw : w.Sound) (ha : w.Attended)
    (hid : id ∈ w.acceptedIds) (htracked : (w.queue.tracked? id).isSome) :
    (w'.queue.tracked? id).isSome ∨ w'.Fetched id ∨ w.Expiring id := by
  obtain ⟨slot, hslot⟩ := Option.isSome_iff_exists.mp htracked
  obtain ⟨hslot, hknown⟩ := JobQueue.tracked?_eq_some.mp hslot
  obtain ⟨slot', hslot', hstep⟩ := h.slotStep hslot
  have hstays : slot'.tracked = true → (w'.queue.tracked? id).isSome := fun h =>
    Option.isSome_iff_exists.mpr ⟨slot', JobQueue.tracked?_eq_some.mpr ⟨hslot', h⟩⟩
  cases hstep with
  | evict hphase hresolved hexpired hwaiters _ =>
    exact .inr (.inr ⟨_, _, _, hphase, hresolved, hexpired, (ha id slot hslot).symm.trans hwaiters⟩)
  | fetch hfetched _ => exact .inr (.inl hfetched)
  | withdraw hrefused _ => exact absurd hrefused (hw.handed.givenOut hid).2
  | _ => exact .inl (hstays hknown)

/-- A slot that was given up is never known again. -/
theorem Step.forgotten (h : Step w w') (hslot : (w.queue.slot? id).isSome)
    (hnone : w.queue.tracked? id = none) : w'.queue.tracked? id = none := by
  obtain ⟨slot, hslot⟩ := Option.isSome_iff_exists.mp hslot
  have hknown := JobQueue.tracked?_eq_none.mp hnone slot hslot
  obtain ⟨slot', hslot', hstep⟩ := h.slotStep hslot
  refine JobQueue.tracked?_eq_none.mpr fun s hs => ?_
  cases hslot'.symm.trans hs
  cases hstep with
  | evict _ _ _ _ _ => rfl
  | fetch _ _ => rfl
  | withdraw _ _ => rfl
  | _ => exact hknown

end JobWorld

end WorkflowEngine
