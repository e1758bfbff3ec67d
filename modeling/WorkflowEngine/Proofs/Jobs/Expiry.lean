import WorkflowEngine.Proofs.Jobs.Clients
import WorkflowEngine.Proofs.Jobs.Slot

/-!
# How long results are kept

The list of times has two writers, the consumer after a job and the consumer when it stops. It is
sorted all the same, since both append the time it is (`Dated`). So a sweep that stops at the first
entry that is not old enough leaves none behind that is.

A result is kept at least as long as the queue was told to, unless somebody fetches it (`Kept`). A
sweep gives up the slots of those that were kept long enough and that nobody is subscribed to, and
no others; whoever is subscribed gets the result (`results_kept_and_swept`).
-/

namespace WorkflowEngine

theorem JobQueue.isExpired_iff {ttl now written : Nat} (h : written ≤ now) :
    isExpired ttl now written ↔ written + ttl ≤ now := by
  simp only [isExpired, decide_eq_true_eq]
  omega

namespace JobQueue

variable {q : JobQueue} {ttl time : Nat} {id id₀ : String}

/-- A sweep at `time` gives up the slot: its result has been kept long enough and nobody is
subscribed. -/
def Overdue (q : JobQueue) (ttl time : Nat) (id : String) : Prop :=
  (∃ written, (id, written) ∈ q.resolved ∧ written + ttl ≤ time) ∧
    ∀ slot, q.slot? id = some slot → slot.waiters = 0

/-- Nobody comes or leaves when a slot is given up. -/
theorem waiters_evict (q : JobQueue) (id₀ id : String) :
    (∀ slot, (q.evict id₀).slot? id = some slot → slot.waiters = 0) ↔
      ∀ slot, q.slot? id = some slot → slot.waiters = 0 := by
  rw [slot?_evict]
  by_cases hid : id₀ = id
  · subst hid
    cases q.slot? id₀ with
    | none => simp
    | some slot => by_cases hslot : slot.waiters = 0 <;> simp [hslot]
  · simp [hid]

theorem overdue_evict {written₀ : Nat} {rest : List (String × Nat)}
    (hresolved : q.resolved = (id₀, written₀) :: rest) (hexpired : written₀ + ttl ≤ time) :
    q.Overdue ttl time id ↔
      Overdue (evict { q with resolved := rest } id₀) ttl time id ∨
        id₀ = id ∧ ∀ slot, q.slot? id = some slot → slot.waiters = 0 := by
  have hwaiters := waiters_evict { q with resolved := rest } id₀ id
  have hslot : slot? { q with resolved := rest } id = q.slot? id := rfl
  rw [hslot] at hwaiters
  simp only [Overdue, hwaiters, hresolved, List.mem_cons, Prod.mk.injEq]
  constructor
  · rintro ⟨⟨written, ⟨rfl, rfl⟩ | hmem, hold⟩, hnobody⟩
    · exact .inr ⟨rfl, hnobody⟩
    · exact .inl ⟨⟨written, hmem, hold⟩, hnobody⟩
  · rintro (⟨⟨written, hmem, hold⟩, hnobody⟩ | ⟨rfl, hnobody⟩)
    · exact ⟨⟨written, .inr hmem, hold⟩, hnobody⟩
    · exact ⟨⟨written₀, .inl ⟨rfl, rfl⟩, hexpired⟩, hnobody⟩

/-- When the first entry was dropped, and the others were swept after it, all of them were. -/
theorem swept_of_evict {written₀ : Nat} {rest : List (String × Nat)}
    (hresolved : q.resolved = (id₀, written₀) :: rest) (hexpired : written₀ + ttl ≤ time)
    {known : Option JobSlot} (hgone : Overdue (evict { q with resolved := rest } id₀) ttl time id →
      known = none)
    (hsame : ¬ Overdue (evict { q with resolved := rest } id₀) ttl time id →
      known = (evict { q with resolved := rest } id₀).tracked? id) :
    (q.Overdue ttl time id → known = none) ∧
      (¬ q.Overdue ttl time id → known = q.tracked? id) := by
  have hevict := tracked?_evict { q with resolved := rest } id₀ id
  have hoverdue : q.Overdue ttl time id ↔ _ := overdue_evict hresolved hexpired
  by_cases hlater : Overdue (evict { q with resolved := rest } id₀) ttl time id
  · exact ⟨fun _ => hgone hlater, fun h => absurd (hoverdue.mpr (.inl hlater)) h⟩
  · rw [hsame hlater]
    refine ⟨fun h => ?_, fun h => ?_⟩
    · obtain ⟨rfl, hnobody⟩ := (hoverdue.mp h).resolve_left hlater
      exact hevict.trans (if_pos ⟨rfl, hnobody⟩)
    · refine hevict.trans (if_neg ?_)
      rintro ⟨rfl, hnobody⟩
      exact h (hoverdue.mpr (.inr ⟨rfl, hnobody⟩))

/-- The list is sorted, so that no later entry is older than the one at which a sweep stops. -/
theorem fresh_of_swept (hsorted : q.resolved.Pairwise (·.2 ≤ ·.2))
    (hpast : ∀ e ∈ q.resolved, e.2 ≤ time) (hsweep : q.sweepOldest? ttl time = none) :
    ∀ e ∈ q.resolved, time < e.2 + ttl := by
  cases hlist : q.resolved with
  | nil => nofun
  | cons first rest =>
    rw [hlist] at hsorted hpast
    have hfirst := sweepOldest?_eq_none hsweep hlist
    rw [isExpired_iff (hpast _ (List.mem_cons_self ..))] at hfirst
    intro e he
    rcases List.mem_cons.mp he with rfl | he
    · omega
    · have hle := (List.pairwise_cons.mp hsorted).1 e he
      omega

theorem not_overdue_of_fresh (hfresh : ∀ e ∈ q.resolved, time < e.2 + ttl) :
    ¬ q.Overdue ttl time id := by
  rintro ⟨⟨written, hmem, hold⟩, -⟩
  have hlt := hfresh _ hmem
  dsimp only at hlt
  omega

end JobQueue

namespace JobService

variable {s s' : JobService} {now : Nat}

theorem goOn_phase_ne_sweeping (s : JobService) (time : Nat) : s.goOn.phase ≠ .sweeping time := by
  rcases s.phase_goOn with h | h <;> simp [h]

/-- What the consumer can make of the list of times: nothing, drop the first entry in a sweep, or
append one. -/
theorem Move.resolved (h : s.Move now s') :
    (s'.queue.resolved = s.queue.resolved ∧ ∀ time, s'.phase = .sweeping time → time = now) ∨
    (∃ time id written, s.phase = .sweeping time ∧ s'.phase = .sweeping time ∧
      s.queue.resolved = (id, written) :: s'.queue.resolved ∧
      JobQueue.isExpired s.ttl time written ∧
      s'.queue = JobQueue.evict { s.queue with resolved := s'.queue.resolved } id) ∨
    ∃ id, s'.queue.resolved = s.queue.resolved ++ [(id, now)] ∧
      ∀ time, s'.phase ≠ .sweeping time := by
  have hkeeps : s'.queue.resolved = s.queue.resolved → (∀ time, s'.phase ≠ .sweeping time) →
      s'.queue.resolved = s.queue.resolved ∧ ∀ time, s'.phase = .sweeping time → time = now :=
    fun hsame hnot => ⟨hsame, fun time htime => absurd htime (hnot time)⟩
  cases h with
  | look h => exact .inl (hkeeps rfl fun time => by dsimp only; split <;> simp)
  | sweep h hdue =>
    refine .inl ⟨rfl, fun time htime => ?_⟩
    cases htime
    rfl
  | @evict time queue h hsweep =>
    obtain ⟨id, written, rest, hresolved, hexpired, rfl⟩ := JobQueue.sweepOldest?_eq_some hsweep
    exact .inr (.inl ⟨time, id, written, h, h, hresolved, hexpired, rfl⟩)
  | begin h htake =>
    exact .inl (hkeeps (congrArg JobQueue.resolved (JobQueue.take?_eq_some htake).2 :) (by simp))
  | drain h htake =>
    exact .inl (hkeeps (congrArg JobQueue.resolved (JobQueue.take?_eq_some htake).2 :) (by simp))
  | write h hwrite => exact .inl (hkeeps (JobQueue.write_frame hwrite).2.2.1 (by simp))
  | cancel h hwrite => exact .inl (hkeeps (JobQueue.write_frame hwrite).2.2.1 (by simp))
  | written h _ => exact .inl (hkeeps rfl s.goOn_phase_ne_sweeping)
  | @note id h => exact .inr (.inr ⟨id, rfl, goOn_phase_ne_sweeping _⟩)
  | @noteNext id rest h => exact .inr (.inr ⟨id, rfl, by simp⟩)
  | stopPausing h _ => exact .inl (hkeeps rfl (by simp [stop]))
  | stopWaiting h _ => exact .inl (hkeeps rfl (by simp [stop]))
  | _ => exact .inl (hkeeps rfl (by simp))

theorem steps_of_swept {time : Nat} (hphase : s.phase = .sweeping time)
    (hsweep : s.queue.sweepOldest? s.ttl time = none) (now : Nat) :
    s.steps now 1 = { s with phase := .looking } := by
  simp [steps, step?, hphase, hsweep]

theorem steps_of_evicted {time : Nat} {queue : JobQueue} (hphase : s.phase = .sweeping time)
    (hsweep : s.queue.sweepOldest? s.ttl time = some queue) (now n : Nat) :
    s.steps now (n + 1) = steps now n { s with queue } := by
  simp [steps, step?, hphase, hsweep]

/-- A sweep that nothing comes between drops the entries that are old enough, and gives up exactly
those of their slots that nobody is subscribed to. -/
theorem exists_swept {time : Nat} (hphase : s.phase = .sweeping time)
    (hsorted : s.queue.resolved.Pairwise (·.2 ≤ ·.2))
    (hpast : ∀ e ∈ s.queue.resolved, e.2 ≤ time) (now : Nat) :
    ∃ n, (s.steps now n).phase = .looking ∧
      (s.steps now n).queue.resolved = s.queue.resolved.filter (fun e => time < e.2 + s.ttl) ∧
      ∀ id, (s.queue.Overdue s.ttl time id → (s.steps now n).queue.tracked? id = none) ∧
        (¬ s.queue.Overdue s.ttl time id →
          (s.steps now n).queue.tracked? id = s.queue.tracked? id) := by
  -- Each turn of the sweep makes the list shorter.
  induction hlength : s.queue.resolved.length using Nat.strongRecOn generalizing s with
  | ind length ih =>
    cases hsweep : s.queue.sweepOldest? s.ttl time with
    | none =>
      have hsteps := steps_of_swept hphase hsweep now
      have hfresh := JobQueue.fresh_of_swept hsorted hpast hsweep
      refine ⟨1, by rw [hsteps], ?_, fun id => ⟨fun h => ?_, fun _ => by rw [hsteps]⟩⟩
      · rw [hsteps]
        exact (List.filter_eq_self.mpr fun e he => decide_eq_true (hfresh e he)).symm
      · exact absurd h (JobQueue.not_overdue_of_fresh hfresh)
    | some queue =>
      have hsteps := steps_of_evicted hphase hsweep now
      obtain ⟨id₀, written₀, rest, hresolved, hexpired, rfl⟩ := JobQueue.sweepOldest?_eq_some hsweep
      rw [hresolved] at hsorted hpast hlength
      have hold := (JobQueue.isExpired_iff (hpast _ (List.mem_cons_self ..))).mp hexpired
      have hshorter : rest.length < length := by
        rw [← hlength]
        exact Nat.lt_succ_self _
      obtain ⟨n, hlooking, hfresh, htracked⟩ := ih rest.length hshorter
        (s := { s with queue := JobQueue.evict { s.queue with resolved := rest } id₀ }) hphase
        (List.pairwise_cons.mp hsorted).2 (fun e he => hpast e (List.mem_cons_of_mem _ he)) rfl
      refine ⟨n + 1, by rw [hsteps, hlooking], ?_, fun id => ?_⟩
      · rw [hsteps, hresolved, List.filter_cons_of_neg (by simpa using hold)]
        exact hfresh
      · rw [hsteps]
        exact JobQueue.swept_of_evict hresolved hold (htracked id).1 (htracked id).2

end JobService

/-- What a call comes back with. -/
def ResultCall.answer? : ResultCall → Option JobResult
  | returned _ r => some r
  | unknown id => some (.error (.unknownJob id))
  | _ => none

namespace JobWorld

variable {w w' : JobWorld} {id : String} {r : JobResult} {written : Nat}

/-! ## The list of times -/

/-- The list of times is sorted and lies in the past; that was so already when a sweep began. -/
structure Dated (w : JobWorld) : Prop where
  sorted : w.queue.resolved.Pairwise (·.2 ≤ ·.2)
  past : ∀ e ∈ w.queue.resolved, e.2 ≤ w.now
  sweeping : ∀ time, w.service.phase = .sweeping time →
    time ≤ w.now ∧ ∀ e ∈ w.queue.resolved, e.2 ≤ time

theorem dated_ofSettings (settings : Settings) : (ofSettings settings).Dated :=
  ⟨.nil, nofun, nofun⟩

theorem Dated.consume (hd : w.Dated) {s : JobService} (h : w.service.Move w.now s) :
    Dated { w with service := s } := by
  rcases h.resolved with ⟨hsame, hsweeping⟩ | ⟨time, id, written, hphase, hphase', hlist, -, -⟩ |
    ⟨id, hlist, hsweeping⟩
  · have hpast : ∀ e ∈ s.queue.resolved, e.2 ≤ w.now := fun e he => hd.past e (hsame ▸ he)
    refine ⟨(congrArg (List.Pairwise _) hsame).mpr hd.sorted, hpast, fun time htime => ?_⟩
    rw [hsweeping time htime]
    exact ⟨Nat.le_refl _, hpast⟩
  · have hmem : ∀ e ∈ s.queue.resolved, e ∈ w.queue.resolved := fun e he =>
      (show w.queue.resolved = _ from hlist) ▸ List.mem_cons_of_mem _ he
    have hsorted := hd.sorted
    rw [show w.queue.resolved = _ from hlist] at hsorted
    refine ⟨(List.pairwise_cons.mp hsorted).2, fun e he => hd.past e (hmem e he),
      fun time' htime => ?_⟩
    cases hphase'.symm.trans htime
    obtain ⟨hle, hall⟩ := hd.sweeping time hphase
    exact ⟨hle, fun e he => hall e (hmem e he)⟩
  · refine ⟨?_, fun e he => ?_, fun time htime => absurd htime (hsweeping time)⟩
    · refine (congrArg (List.Pairwise _) hlist).mpr (List.pairwise_append.mpr
        ⟨hd.sorted, List.pairwise_singleton .., fun e he e' he' => ?_⟩)
      rw [List.mem_singleton.mp he']
      exact hd.past e he
    · change e ∈ s.queue.resolved at he
      rw [hlist] at he
      rcases List.mem_append.mp he with he | he
      · exact hd.past e he
      · exact Nat.le_of_eq (congrArg Prod.snd (List.mem_singleton.mp he))

theorem Dated.step (hd : w.Dated) (h : Step w w') : w'.Dated := by
  rcases h.cases with ⟨s, hmove, rfl⟩ | ⟨-, rfl⟩ | hby
  · exact hd.consume hmove
  · exact ⟨hd.sorted, hd.past, nofun⟩
  · refine ⟨hby.resolved ▸ hd.sorted, fun e he => ?_, fun time htime => ?_⟩
    · exact Nat.le_trans (hd.past e (hby.resolved ▸ he)) hby.now
    · obtain ⟨hle, hall⟩ := hd.sweeping time (hby.phase ▸ htime)
      exact ⟨Nat.le_trans hle hby.now, fun e he => hall e (hby.resolved ▸ he)⟩

theorem dated_of_steps {settings : Settings} (h : Steps (ofSettings settings) w) : w.Dated := by
  induction h with
  | refl => exact dated_ofSettings settings
  | tail _ h ih => exact ih.step h

/-! ## What never changes -/

theorem Step.ttl_eq (h : Step w w') : w'.service.ttl = w.service.ttl := by
  rcases h.cases with ⟨s, hmove, rfl⟩ | ⟨-, rfl⟩ | hby
  · cases hmove <;> rfl
  · rfl
  · exact hby.ttl

theorem ttl_of_steps {settings : Settings} (h : Steps (ofSettings settings) w) :
    w.service.ttl = settings.jobTtl := by
  induction h with
  | refl => rfl
  | tail _ h ih => exact h.ttl_eq.trans ih

theorem Step.now_le (h : Step w w') : w.now ≤ w'.now := by
  rcases h.cases with ⟨s, hmove, rfl⟩ | ⟨-, rfl⟩ | hby
  · exact Nat.le_refl _
  · exact Nat.le_refl _
  · exact hby.now

/-! ## No result is lost early -/

/-- The result that an accepted job got at `written` is still there, or somebody fetched it, or it
has been kept long enough. -/
structure Kept (w : JobWorld) (id : String) (r : JobResult) (written : Nat) : Prop where
  accepted : id ∈ w.acceptedIds
  result : w.queue.result? id = some r
  past : written ≤ w.now
  noted : ∀ e ∈ w.queue.resolved, e.1 = id → written ≤ e.2
  tracked : (w.queue.tracked? id).isSome ∨ w.Fetched id ∨ written + w.service.ttl ≤ w.now

theorem Step.resolved (h : Step w w') {e : String × Nat}
    (he : e ∈ w'.queue.resolved) : e ∈ w.queue.resolved ∨ e.2 = w.now := by
  rcases h.cases with ⟨s, hmove, rfl⟩ | ⟨-, rfl⟩ | hby
  · change e ∈ s.queue.resolved at he
    rcases hmove.resolved with ⟨hsame, -⟩ | ⟨_, id, written, -, -, hlist, -, -⟩ | ⟨id, hlist, -⟩
    · exact .inl (hsame ▸ he)
    · exact .inl ((show w.queue.resolved = _ from hlist) ▸ List.mem_cons_of_mem _ he)
    · rw [hlist] at he
      rcases List.mem_append.mp he with he | he
      · exact .inl he
      · exact .inr (by rw [List.mem_singleton.mp he])
  · exact .inl he
  · exact .inl (hby.resolved ▸ he)

/-- What a sweep gives up has been kept long enough. -/
theorem Kept.of_expiring (hk : w.Kept id r written) (hd : w.Dated) (h : w.Expiring id) :
    written + w.service.ttl ≤ w.now := by
  obtain ⟨time, noted, rest, hphase, hresolved, hexpired, -⟩ := h
  obtain ⟨htime, hall⟩ := hd.sweeping time hphase
  have hmem : (id, noted) ∈ w.queue.resolved := hresolved ▸ List.mem_cons_self ..
  have hnoted := hk.noted _ hmem rfl
  have hold := (JobQueue.isExpired_iff (hall _ hmem)).mp hexpired
  dsimp only at hnoted
  omega

theorem Kept.step (hk : w.Kept id r written) (hw : w.Sound) (ha : w.Attended) (hd : w.Dated)
    (h : Step w w') : w'.Kept id r written := by
  have hnow := h.now_le
  refine ⟨h.acceptedIds hk.accepted, hw.result?_step h hk.result, Nat.le_trans hk.past hnow,
    fun e he hid => ?_, ?_⟩
  · rcases h.resolved he with he | he
    · exact hk.noted e he hid
    · exact he ▸ hk.past
  · rw [h.ttl_eq]
    rcases hk.tracked with htracked | hfetched | hlong
    · rcases h.tracked_of_accepted hw ha hk.accepted htracked with h' | h' | h'
      · exact .inl h'
      · exact .inr (.inl h')
      · exact .inr (.inr (Nat.le_trans (hk.of_expiring hd h') hnow))
    · exact .inr (.inl (h.fetched hfetched))
    · exact .inr (.inr (Nat.le_trans hlong hnow))

theorem Sound.kept_of_written (hw : w.Sound) (ha : w.Attended) (h : Step w w')
    (hid : id ∈ w.acceptedIds) (hnone : w.queue.result? id = none)
    (hr : w'.queue.result? id = some r) : w'.Kept id r w.now := by
  -- What has no result is not on the list.
  have hnot : ∀ e ∈ w.queue.resolved, e.1 ≠ id := by
    intro e he heq
    have hsome := hw.consumed.noted e he
    rw [heq, hnone] at hsome
    cases hsome
  refine ⟨h.acceptedIds hid, hr, h.now_le, fun e he heq => ?_, ?_⟩
  · rcases h.resolved he with he | he
    · exact absurd heq (hnot e he)
    · exact Nat.le_of_eq he.symm
  · have htracked := hw.handed.pending id (List.mem_append_left _ hid) hnone
    rcases h.tracked_of_accepted hw ha hid htracked with h' | h' | h'
    · exact .inl h'
    · exact .inr (.inl h')
    · obtain ⟨_, _, _, -, hresolved, -, -⟩ := h'
      exact absurd rfl (hnot _ (hresolved ▸ List.mem_cons_self ..))

theorem kept_of_steps {settings : Settings} {u v : JobWorld} (hu : Steps (ofSettings settings) u)
    (huv : Step u v) (hid : id ∈ u.acceptedIds) (hnone : u.queue.result? id = none)
    (hr : v.queue.result? id = some r) (h : Steps v w) : w.Kept id r u.now := by
  have hsound : u.Sound := (sound_ofSettings settings).steps hu
  induction h with
  | refl => exact hsound.kept_of_written (attended_of_steps hu) huv hid hnone hr
  | tail hsteps h ih =>
    have hreach := (hu.tail huv).trans hsteps
    exact ih.step ((sound_ofSettings settings).steps hreach) (attended_of_steps hreach)
      (dated_of_steps hreach) h

/-! ## Sweeps -/

/-- A sweep at `time` gives up the slot: its result has been kept long enough and no call is
subscribed. -/
def Overdue (w : JobWorld) (time : Nat) (id : String) : Prop :=
  (∃ written, (id, written) ∈ w.queue.resolved ∧ written + w.service.ttl ≤ time) ∧
    w.attending id = 0

theorem Attended.overdue_iff (ha : w.Attended) (hw : w.Sound) {time : Nat} :
    w.Overdue time id ↔ w.queue.Overdue w.service.ttl time id := by
  constructor
  · rintro ⟨hold, hnobody⟩
    exact ⟨hold, fun slot hslot => (ha id slot hslot).trans hnobody⟩
  · rintro ⟨hold, hnobody⟩
    obtain ⟨written, hmem, hle⟩ := hold
    have hresult := hw.consumed.noted _ hmem
    dsimp only at hresult
    obtain ⟨slot, hslot⟩ := Option.isSome_iff_exists.mp (JobQueue.isSome_slot_of_result hresult)
    exact ⟨⟨written, hmem, hle⟩, (ha id slot hslot).symm.trans (hnobody slot hslot)⟩

theorem Dated.fresh_of_swept (hd : w.Dated) {time : Nat} (hphase : w.service.phase = .sweeping time)
    (hsweep : w.service.queue.sweepOldest? w.service.ttl time = none) :
    ∀ e ∈ w.queue.resolved, time < e.2 + w.service.ttl :=
  JobQueue.fresh_of_swept hd.sorted (hd.sweeping time hphase).2 hsweep

/-- A turn of a sweep gives up the slot of the first entry, if that is old enough and no call is
subscribed. A sweep ends only when no entry is old enough. -/
theorem Dated.sweep_move (hd : w.Dated) (hw : w.Sound) (ha : w.Attended) {time : Nat}
    (hphase : w.service.phase = .sweeping time) {s : JobService} (h : w.service.Move w.now s) :
    (∃ id written, w.queue.resolved = (id, written) :: s.queue.resolved ∧
      written + w.service.ttl ≤ time ∧ s.phase = .sweeping time ∧
      ∀ id', s.queue.tracked? id' =
        if id = id' ∧ w.attending id = 0 then none else w.queue.tracked? id') ∨
    s = { w.service with phase := .looking } ∧
      ∀ e ∈ w.queue.resolved, time < e.2 + w.service.ttl := by
  obtain ⟨-, hpast⟩ := hd.sweeping time hphase
  rcases h.of_sweeping hphase with ⟨queue, hsweep, rfl⟩ | ⟨hsweep, rfl⟩
  · obtain ⟨id, written, rest, hresolved, hexpired, rfl⟩ := JobQueue.sweepOldest?_eq_some hsweep
    have hmem : (id, written) ∈ w.queue.resolved :=
      (show w.queue.resolved = _ from hresolved) ▸ List.mem_cons_self ..
    have hold := (JobQueue.isExpired_iff (hpast _ hmem)).mp hexpired
    refine .inl ⟨id, written, hresolved, hold, hphase, fun id' => ?_⟩
    refine (JobQueue.tracked?_evict _ id id').trans ?_
    have hiff : (∀ slot, w.queue.slot? id = some slot → slot.waiters = 0) ↔
        w.attending id = 0 := by
      have h : w.Overdue time id ↔ _ := ha.overdue_iff hw
      simp only [Overdue, JobQueue.Overdue] at h
      constructor
      · intro hnobody
        exact (h.mpr ⟨⟨written, hmem, hold⟩, hnobody⟩).2
      · intro hnobody
        exact (h.mp ⟨⟨written, hmem, hold⟩, hnobody⟩).2
    exact if_congr (and_congr_right fun _ => hiff) rfl rfl
  · exact .inr ⟨rfl, hd.fresh_of_swept hphase hsweep⟩

/-! ## Asking -/

/-- One who asks for a job that the queue knows and that has a result gets it. -/
theorem ask_eq_answered {q : JobQueue} (htracked : (q.tracked? id).isSome)
    (hr : q.result? id = some r) : (Inquiry.ask q id).1 = .answered r := by
  rw [Inquiry.ask]
  cases hsubscribe : q.subscribe id with
  | error e =>
    rw [(JobQueue.subscribe_eq_error.mp hsubscribe).1] at htracked
    cases htracked
  | ok q' => simp [Inquiry.poll, ((JobQueue.keeps_subscribe hsubscribe).result id).trans hr]

theorem Own.ne_queueClosed (h : w.Own id r) : r ≠ .error .queueClosed := by
  rintro rfl
  rcases h with h | ⟨job, -, -, -, o, canceled, -, h⟩
  · cases h
  · cases o with
    | value v => cases h
    | failure reasons => cases canceled <;> cases h
    | panic text => cases text <;> cases h

theorem Sound.answer_ne_queueClosed (hw : w.Sound) {c : ResultCall} (hc : c ∈ w.calls) :
    c.answer? ≠ some (.error .queueClosed) := by
  have hsound := hw.calls c hc
  cases c with
  | returned id r =>
    intro h
    exact (hw.consumed.own id r hsound.2.1).ne_queueClosed (Option.some.inj h)
  | unknown id => nofun
  | _ => nofun

/-- How long results are kept. The list of times is always sorted. A result that a job got at some
time, and that nobody fetched, can be asked for before the time to keep it is over. A sweep gives up
the slots on the list that have been kept long enough at its time and that no call is subscribed to,
and no others: each access does so for one slot, it ends only when no entry is old enough, and a
sweep that nothing comes between does it for all. Whoever was subscribed before gets the result, and
nobody is told that the queue is closed. -/
theorem results_kept_and_swept {settings : Settings} {w : JobWorld}
    (h : Steps (ofSettings settings) w) :
    w.queue.resolved.Pairwise (·.2 ≤ ·.2) ∧
    (∀ u v id r, Steps (ofSettings settings) u → Step u v → id ∈ u.acceptedIds →
      u.queue.result? id = none → v.queue.result? id = some r → Steps v w →
      w.now < u.now + settings.jobTtl → ¬ w.Fetched id →
      (Inquiry.ask w.queue id).1 = .answered r ∧
        ∃ x, Step w x ∧ x.calls = w.calls ++ [.waiting id]) ∧
    (∀ time, w.service.phase = .sweeping time →
      (∀ s, w.service.Move w.now s →
        (∃ id written, w.queue.resolved = (id, written) :: s.queue.resolved ∧
          written + settings.jobTtl ≤ time ∧ s.phase = .sweeping time ∧
          ∀ id', s.queue.tracked? id' =
            if id = id' ∧ w.attending id = 0 then none else w.queue.tracked? id') ∨
        s = { w.service with phase := .looking } ∧
          ∀ e ∈ w.queue.resolved, time < e.2 + settings.jobTtl) ∧
      ∃ n, (w.service.steps w.now n).phase = .looking ∧
        (w.service.steps w.now n).queue.resolved =
          w.queue.resolved.filter (fun e => time < e.2 + settings.jobTtl) ∧
        ∀ id, (w.Overdue time id → (w.service.steps w.now n).queue.tracked? id = none) ∧
          (¬ w.Overdue time id →
            (w.service.steps w.now n).queue.tracked? id = w.queue.tracked? id)) ∧
    (∀ (k : Nat) id w', w.calls[k]? = some (.waiting id) → Steps w w' →
      (∃ c, w'.calls[k]? = some c ∧ c.Awaits w'.queue id) ∧
      (w'.calls[k]? = some (.waiting id) →
        ((w'.queue.tracked? id).isSome ∨ (w'.queue.result? id).isSome) ∧
        ∀ r, w'.queue.result? id = some r →
          ∃ x, Steps w' x ∧ x.calls[k]? = some (.returned id r))) ∧
    ∀ c ∈ w.calls, c.answer? ≠ some (.error .queueClosed) := by
  have hw : w.Sound := (sound_ofSettings settings).steps h
  have ha := attended_of_steps h
  have hd := dated_of_steps h
  have httl := ttl_of_steps h
  refine ⟨hd.sorted, fun u v id r hu huv hid hnone hr hvw hnow hfetched => ?_,
    fun time hphase => ⟨fun s hmove => httl ▸ hd.sweep_move hw ha hphase hmove, ?_⟩,
    fun k id w' hk h' => ?_, fun c => hw.answer_ne_queueClosed⟩
  · have hkept := kept_of_steps hu huv hid hnone hr hvw
    have htracked : (w.queue.tracked? id).isSome := by
      rcases hkept.tracked with h | h | h
      · exact h
      · exact absurd h hfetched
      · omega
    refine ⟨ask_eq_answered htracked hkept.result, ?_⟩
    cases hsubscribe : w.queue.subscribe id with
    | error e =>
      rw [(JobQueue.subscribe_eq_error.mp hsubscribe).1] at htracked
      cases htracked
    | ok queue => exact ⟨_, .ask (hw.handed.givenOut hkept.accepted) hsubscribe, rfl⟩
  · obtain ⟨-, hpast⟩ := hd.sweeping time hphase
    obtain ⟨n, hlooking, hresolved, htracked⟩ :=
      JobService.exists_swept hphase hd.sorted hpast w.now
    refine ⟨n, hlooking, httl ▸ hresolved, fun id => ?_⟩
    rw [ha.overdue_iff hw]
    exact htracked id
  · have hw' : w'.Sound := hw.steps h'
    obtain ⟨c, hc, hbecomes⟩ := becomes_steps h' hk
    refine ⟨⟨c, hc, hw'.awaits hc hbecomes.id fun id hunknown => ?_⟩,
      fun hk' => ⟨hw'.waiting hk', fun r => returned_of_waiting hk'⟩⟩
    cases hbecomes.known id hunknown

/-- A result that is kept for ten milliseconds: written, after nine, and when a sweep comes. -/
theorem exists_keptTen : ∃ u v w x, Steps (ofSettings { jobTtl := 10 }) u ∧ Step u v ∧
    (u.acceptedIds = ["A"] ∧ u.now = 0 ∧ u.queue.result? "A" = none ∧
      v.queue.result? "A" = some (.ok .null)) ∧
    (Steps v w ∧ w.now = 9 ∧ w.calls = []) ∧
    (Steps v x ∧ x.service.phase = .sweeping 10 ∧ x.queue.resolved = [("A", 0)] ∧
      x.calls = []) := by
  have h₁ := Step.register (w := ofSettings { jobTtl := 10 }) ⟨"A", .done (.value .null)⟩ rfl nofun
  have h₂ := Relation.ReflTransGen.tail (.single h₁) (@Step.send _ [] [] _ _ rfl rfl)
  have h₃ := h₂.tail (.start rfl)
  have h₄ := h₃.tail (.consume (.look rfl))
  have h₅ := h₄.tail (.consume (.begin rfl rfl))
  have h₆ := h₅.tail (.consume (.finish rfl))
  refine ⟨_, _, _, _, h₆, .consume (.write rfl rfl), ⟨rfl, rfl, rfl, rfl⟩,
    ⟨.tail (.single (.consume (.note rfl))) (.pass 9 (by decide)), rfl, rfl⟩,
    .tail (.tail (.tail (.single (.consume (.note rfl))) (.consume (.look rfl)))
      (.pass 10 (by decide))) (.consume (.sweep rfl rfl)), rfl, rfl, rfl⟩

theorem results_kept_and_swept_ten :
    (∃ w, Steps (ofSettings { jobTtl := 10 }) w ∧ w.now = 9 ∧
      (Inquiry.ask w.queue "A").1 = .answered (.ok .null)) ∧
    ∃ x n, Steps (ofSettings { jobTtl := 10 }) x ∧ x.service.phase = .sweeping 10 ∧
      (x.service.steps x.now n).queue.tracked? "A" = none := by
  obtain ⟨u, v, w, x, hu, huv, ⟨hid, hzero, hnone, hr⟩, ⟨hvw, hnine, hcalls⟩, hvx, hphase,
    hresolved, hcalls'⟩ := exists_keptTen
  have hw := (hu.tail huv).trans hvw
  have hx := (hu.tail huv).trans hvx
  have hfetched : ¬ w.Fetched "A" := by simp [Fetched, hcalls]
  refine ⟨⟨w, hw, hnine, ?_⟩, ?_⟩
  · have hkept := (results_kept_and_swept hw).2.1 u v "A" (.ok .null) hu huv (by simp [hid])
      hnone hr hvw
    exact (hkept (by simp [hnine, hzero]) hfetched).1
  · obtain ⟨-, n, -, -, htracked⟩ := (results_kept_and_swept hx).2.2.1 10 hphase
    refine ⟨x, n, hx, hphase, (htracked "A").1 ⟨⟨0, by simp [hresolved], ?_⟩, ?_⟩⟩
    · simp [ttl_of_steps hx]
    · simp [attending, hcalls']

end JobWorld

end WorkflowEngine
