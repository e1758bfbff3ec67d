import WorkflowEngine.Proofs.Jobs.Expiry

/-!
# What becomes of results that nobody fetches

A result that was written is put on the list of times by the consumer's next access, and stays there
until a sweep comes to it. A sweep that finds nobody subscribed then gives up the slot. One that
finds a call subscribed leaves the slot to the call, which gives it up when it has got the result.
So a slot with a result is on the list, or some call is subscribed to it (`listed_or_attended`).

Sweeps are made by the consumer, where it waits for a job. Whenever it waits and an entry is older
than the time to keep results by a period of the ticker, a sweep is due (`Ticking`), which gives up
the slot. While a job runs, or while the queue is paused, there are no sweeps (`unfetched_kept`).
-/

namespace WorkflowEngine

/-- The consumer is about to take down when the job got its result. -/
def ConsumerPhase.Notes (id : String) : ConsumerPhase → Prop
  | .noting id' => id' = id
  | .canceling _ canceled => id ∈ canceled
  | .notingAll canceled => id ∈ canceled
  | _ => False

namespace JobService

variable {s s' : JobService} {now : Nat} {id : String}

/-- The result of the job is on the list of times, or is put there next. -/
def Listed (s : JobService) (id : String) : Prop :=
  id ∈ s.queue.resolved.map (·.1) ∨ s.phase.Notes id

theorem listed_goOn (s : JobService) (id : String) :
    s.goOn.Listed id ↔ id ∈ s.queue.resolved.map (·.1) := by
  by_cases hopen : s.queue.isOpen <;> simp [Listed, goOn, ConsumerPhase.Notes, hopen]

/-- A result stays on the list, unless a sweep takes it off. -/
theorem Move.listed (h : s.Move now s') (hr : (s.queue.result? id).isSome) :
    (s'.Listed id ↔ s.Listed id) ∨
      ∃ time written, s.phase = .sweeping time ∧
        s.queue.resolved = (id, written) :: s'.queue.resolved ∧
        s'.queue = JobQueue.evict { s.queue with resolved := s'.queue.resolved } id := by
  cases h with
  | look h =>
    refine .inl ?_
    by_cases hpaused : s.queue.paused <;> simp [Listed, ConsumerPhase.Notes, h, hpaused]
  | @evict time queue h hsweep =>
    obtain ⟨id', written, rest, hresolved, -, rfl⟩ := JobQueue.sweepOldest?_eq_some hsweep
    by_cases hid : id' = id
    · subst hid
      exact .inr ⟨time, written, h, hresolved, rfl⟩
    · refine .inl ?_
      simp [Listed, ConsumerPhase.Notes, h, hresolved, JobQueue.evict, JobQueue.update,
        Ne.symm hid]
  | begin h htake =>
    have hresolved := congrArg JobQueue.resolved (JobQueue.take?_eq_some htake).2
    exact .inl (by simp [Listed, ConsumerPhase.Notes, h, hresolved])
  | drain h htake =>
    have hresolved := congrArg JobQueue.resolved (JobQueue.take?_eq_some htake).2
    exact .inl (by simp [Listed, ConsumerPhase.Notes, h, hresolved])
  | @write id' r queue h hwrite =>
    have hne : id' ≠ id := by
      rintro rfl
      rw [(JobQueue.write?_eq_some hwrite).2.1] at hr
      cases hr
    have hresolved := (JobQueue.write_frame hwrite).2.2.1
    exact .inl (by simp [Listed, ConsumerPhase.Notes, h, hresolved, hne])
  | @cancel id' todo canceled queue h hwrite =>
    have hne : id' ≠ id := by
      rintro rfl
      rw [(JobQueue.write?_eq_some hwrite).2.1] at hr
      cases hr
    have hresolved := (JobQueue.write_frame hwrite).2.2.1
    exact .inl (by simp [Listed, ConsumerPhase.Notes, h, hresolved, Ne.symm hne])
  | written h _ =>
    exact .inl ((s.listed_goOn id).trans (by simp [Listed, ConsumerPhase.Notes, h]))
  | @note id' h =>
    refine .inl ((listed_goOn _ id).trans ?_)
    simp [Listed, ConsumerPhase.Notes, h, JobQueue.note, eq_comm]
  | noteNext h => exact .inl (by simp [Listed, ConsumerPhase.Notes, h, JobQueue.note, or_assoc])
  | _ => exact .inl (by simp_all [Listed, ConsumerPhase.Notes, stop, JobQueue.close, beginSweep])

/-- The ticker moves only when a sweep begins. -/
theorem Move.sweep_eq (h : s.Move now s') :
    s'.sweep = s.sweep ∨ s.phase = .waiting ∧ s.sweep.isDue now ∧ s' = s.beginSweep now := by
  cases h with
  | sweep h hdue => exact .inr ⟨h, hdue, rfl⟩
  | _ => exact .inl rfl

end JobService

theorem Ticker.next_tick_le {t : Ticker} {now : Nat} (h : t.isDue now) :
    (t.tick now).next ≤ now + t.period := by
  simp only [isDue, decide_eq_true_eq] at h
  simp only [tick]
  split <;> omega

namespace JobWorld

variable {w w' : JobWorld} {id : String} {r : JobResult}

/-! ## The list is complete -/

/-- In this step a sweep takes the job off the list of times. -/
def Pops (w w' : JobWorld) (id : String) : Prop :=
  w'.calls = w.calls ∧ ∃ time written, w.service.phase = .sweeping time ∧
    w.queue.resolved = (id, written) :: w'.queue.resolved ∧
    w'.queue = JobQueue.evict { w.queue with resolved := w'.queue.resolved } id

theorem Step.listed (h : Step w w') (hr : (w.queue.result? id).isSome) :
    (w'.service.Listed id ↔ w.service.Listed id) ∨ w.Pops w' id := by
  rcases h.cases with ⟨s, hmove, rfl⟩ | ⟨habsent, rfl⟩ | hby
  · exact (hmove.listed hr).imp_right fun hpops => ⟨rfl, hpops⟩
  · exact .inl (by simp [JobService.Listed, ConsumerPhase.Notes, habsent])
  · refine .inl ?_
    have hresolved : w'.service.queue.resolved = w.service.queue.resolved := hby.resolved
    simp [JobService.Listed, hresolved, hby.phase]

/-- Whoever writes a result puts it on the list next. -/
theorem Sound.listed_of_written (hw : w.Sound) (h : Step w w')
    (hnone : w.queue.result? id = none) (hsome : (w'.queue.result? id).isSome) :
    w'.service.Listed id := by
  have hsame : ∀ {q : JobQueue}, (q.result? id).isSome → q.result? id = w.queue.result? id →
      False := by
    intro q hsome hsame
    rw [hsame, hnone] at hsome
    cases hsome
  rcases h.cases with ⟨s, hmove, rfl⟩ | ⟨-, rfl⟩ | hby
  · cases hmove with
    | @write id' r queue _ hwrite =>
      have hresult := JobQueue.result?_write hwrite id
      by_cases hid : id' = id
      · exact .inr hid
      · exact (hsame hsome (hresult.trans (if_neg hid))).elim
    | @cancel id' todo canceled queue _ hwrite =>
      have hresult := JobQueue.result?_write hwrite id
      by_cases hid : id' = id
      · exact .inr (List.mem_append_right _ (List.mem_singleton.mpr hid.symm))
      · exact (hsame hsome (hresult.trans (if_neg hid))).elim
    | evict _ hsweep =>
      exact (hsame hsome ((JobQueue.keeps_sweepOldest hw.consumed.noted hsweep).result id)).elim
    | begin _ htake =>
      rw [(JobQueue.take?_eq_some htake).2] at hsome
      exact (hsame hsome rfl).elim
    | drain _ htake =>
      rw [(JobQueue.take?_eq_some htake).2] at hsome
      exact (hsame hsome rfl).elim
    | _ => exact (hsame hsome rfl).elim
  · exact (hsame hsome rfl).elim
  · exact (hsame hsome (hby.result id)).elim

/-- A job that a sweep takes off the list while nobody is subscribed is not known any more. -/
theorem Pops.forgotten (h : w.Pops w' id) (ha : w.Attended) (hnobody : w.attending id = 0) :
    w'.queue.tracked? id = none := by
  obtain ⟨-, time, written, -, -, hqueue⟩ := h
  rw [hqueue, JobQueue.tracked?_evict]
  exact if_pos ⟨rfl, fun slot hslot => (ha id slot hslot).trans hnobody⟩

/-- When nobody is subscribed any more, the last call has fetched the result or goes away. -/
theorem Step.attending_eq_zero (h : Step w w') (hpos : 0 < w.attending id)
    (hzero : w'.attending id = 0) :
    (∃ (k : Nat) (r : JobResult), w.calls[k]? = some (.leaving id r)) ∨
      ∃ k : Nat, w.calls[k]? = some (.waiting id) ∧ w'.calls[k]? = some (.dropped id) := by
  have hsame : w'.attending id ≠ w.attending id := by omega
  cases h with
  | ask _ _ =>
    have happend := (attending_append _ id).symm.trans hzero
    omega
  | askUnknown _ _ =>
    have happend := (attending_append _ id).symm.trans hzero
    omega
  | read hk _ => exact (hsame (attending_set_same hk rfl)).elim
  | forget hk => exact (hsame (attending_set_same hk rfl)).elim
  | @leave k target r hk =>
    by_cases htarget : target = id
    · exact .inl ⟨k, r, htarget ▸ hk⟩
    · exact (hsame (attending_set_same hk (beq_false_of_ne htarget).symm)).elim
  | @drop k target hk =>
    by_cases htarget : target = id
    · subst htarget
      exact .inr ⟨k, hk, List.getElem?_set_self (List.getElem?_eq_some_iff.mp hk).1⟩
    · exact (hsame (attending_set_same hk (beq_false_of_ne htarget).symm)).elim
  | _ => exact absurd rfl hsame

/-- In this step the last call that is subscribed to the job goes away without its result, although
a sweep took the job off the list before. -/
structure Abandons (w w' : JobWorld) (id : String) : Prop where
  dropped : ∃ k : Nat, w.calls[k]? = some (.waiting id) ∧ w'.calls[k]? = some (.dropped id)
  nobody : w'.attending id = 0
  result : (w.queue.result? id).isSome
  unlisted : ¬ w.service.Listed id

/-- The steps in which nobody abandons the job. -/
abbrev CaringSteps (id : String) : JobWorld → JobWorld → Prop :=
  Relation.ReflTransGen fun u v => Step u v ∧ ¬ u.Abandons v id

theorem CaringSteps.steps (h : CaringSteps id w w') : Steps w w' :=
  Relation.ReflTransGen.mono (fun _ _ h => h.1) _ _ h

/-- Every result that the queue knows is on the list, or is put there next, or some call is
subscribed to it. -/
theorem listed_or_attended {settings : Settings} (h : CaringSteps id (ofSettings settings) w)
    (hknown : (w.queue.tracked? id).isSome) (hr : (w.queue.result? id).isSome) :
    w.service.Listed id ∨ 0 < w.attending id := by
  induction h with
  | refl => cases hknown
  | @tail u v hsteps hstep ih =>
    obtain ⟨hstep, hcaring⟩ := hstep
    have hreach := CaringSteps.steps hsteps
    have hu : u.Sound := (sound_ofSettings settings).steps hreach
    cases hresult : u.queue.result? id with
    | none => exact .inl (hu.listed_of_written hstep hresult hr)
    | some r =>
      have hsome : (u.queue.result? id).isSome := by rw [hresult]; rfl
      have hknown' : (u.queue.tracked? id).isSome := by
        refine Option.isSome_iff_ne_none.mpr fun hnone => ?_
        rw [hstep.forgotten (JobQueue.isSome_slot_of_result hsome) hnone] at hknown
        cases hknown
      rcases hstep.listed hsome with hlisted | hpops
      · by_cases hlist : u.service.Listed id
        · exact .inl (hlisted.mpr hlist)
        · refine .inr (Nat.pos_of_ne_zero fun hzero => ?_)
          have hpos := (ih hknown' hsome).resolve_left hlist
          rcases hstep.attending_eq_zero hpos hzero with ⟨k, r, hk⟩ | hdropped
          · rw [(hu.call hk).2.2] at hknown'
            cases hknown'
          · exact hcaring ⟨hdropped, hzero, hsome, hlist⟩
      · refine .inr (Nat.pos_of_ne_zero fun hzero => ?_)
        rw [attending, hpops.1] at hzero
        rw [hpops.forgotten (attended_of_steps hreach) hzero] at hknown
        cases hknown

/-! ## Sweeps are due in time -/

/-- The next sweep comes at most a period of the ticker from now, and no later than a period after
the first entry is old enough. -/
structure Ticking (w : JobWorld) : Prop where
  unstarted : w.service.phase = .absent → w.queue.resolved = []
  period : w.service.phase ≠ .absent → w.service.sweep.period = max w.service.ttl 1
  next : w.service.phase ≠ .absent → w.service.sweep.next ≤ w.now + max w.service.ttl 1
  sweeping : ∀ time, w.service.phase = .sweeping time →
    w.service.sweep.next ≤ time + max w.service.ttl 1
  due : (∀ time, w.service.phase ≠ .sweeping time) → ∀ e ∈ w.queue.resolved,
    w.service.sweep.next ≤ e.2 + w.service.ttl + max w.service.ttl 1

theorem ticking_ofSettings (settings : Settings) : (ofSettings settings).Ticking :=
  ⟨fun _ => rfl, fun h => absurd rfl h, fun h => absurd rfl h, nofun, nofun⟩

theorem Ticking.consume (ht : w.Ticking) (hd : w.Dated) {s : JobService}
    (h : w.service.Move w.now s) : Ticking { w with service := s } := by
  obtain ⟨hstarted, hstarted'⟩ := h.not_absent
  have httl : s.ttl = w.service.ttl := (Step.consume h).ttl_eq
  have hnext := ht.next hstarted
  rcases h.sweep_eq with hsame | ⟨hwaiting, hdue, rfl⟩
  · refine ⟨fun h => absurd h hstarted', fun _ => ?_, fun _ => ?_, fun time htime => ?_,
      fun hnot e he => ?_⟩
    · exact (congrArg Ticker.period hsame).trans ((ht.period hstarted).trans (by rw [httl]))
    · show s.sweep.next ≤ w.now + max s.ttl 1
      rwa [hsame, httl]
    · show s.sweep.next ≤ time + max s.ttl 1
      rw [hsame, httl]
      rcases h.resolved with ⟨-, hsweeping⟩ | ⟨time', _, _, hphase, hphase', -⟩ |
        ⟨_, -, hsweeping⟩
      · exact hsweeping time htime ▸ hnext
      · cases hphase'.symm.trans htime
        exact ht.sweeping time hphase
      · exact absurd htime (hsweeping time)
    · show s.sweep.next ≤ e.2 + s.ttl + max s.ttl 1
      rw [hsame, httl]
      change e ∈ s.queue.resolved at he
      by_cases hsweeping : ∃ time, w.service.phase = .sweeping time
      -- After a sweep only entries are left that were not old enough at its time.
      · obtain ⟨time, hphase⟩ := hsweeping
        rcases h.of_sweeping hphase with ⟨queue, -, rfl⟩ | ⟨hsweep, rfl⟩
        · exact absurd hphase (hnot time)
        · have hfresh := hd.fresh_of_swept hphase hsweep e he
          have hsoon := ht.sweeping time hphase
          omega
      · have hall : ∀ time, w.service.phase ≠ .sweeping time := fun time htime =>
          hsweeping ⟨time, htime⟩
        rcases h.resolved with ⟨hlist, -⟩ | ⟨time, _, _, hphase, -⟩ | ⟨id, hlist, -⟩
        · exact ht.due hall e (hlist ▸ he)
        · exact absurd hphase (hall time)
        · rw [hlist] at he
          rcases List.mem_append.mp he with he | he
          · exact ht.due hall e he
          · rw [List.mem_singleton.mp he]
            dsimp only
            omega
  · have hperiod := ht.period hstarted
    have htick := Ticker.next_tick_le hdue
    rw [hperiod] at htick
    refine ⟨fun h => absurd h hstarted', fun _ => hperiod, fun _ => htick, fun time htime => ?_,
      fun hnot => absurd rfl (hnot w.now)⟩
    cases htime
    exact htick

theorem Ticking.step (ht : w.Ticking) (hd : w.Dated) (h : Step w w') : w'.Ticking := by
  rcases h.cases with ⟨s, hmove, rfl⟩ | ⟨habsent, rfl⟩ | hby
  · exact ht.consume hd hmove
  · refine ⟨nofun, fun _ => rfl, fun _ => Nat.le_add_right .., nofun, fun _ e he => ?_⟩
    change e ∈ w.queue.resolved at he
    rw [ht.unstarted habsent] at he
    cases he
  · have hnow := hby.now
    refine ⟨fun h => hby.resolved.trans (ht.unstarted (hby.phase ▸ h)), fun h => ?_, fun h => ?_,
      fun time htime => ?_, fun hnot e he => ?_⟩
    · rw [hby.sweep, hby.ttl]
      exact ht.period (hby.phase ▸ h)
    · have hnext := ht.next (hby.phase ▸ h)
      rw [hby.sweep, hby.ttl]
      omega
    · rw [hby.sweep, hby.ttl]
      exact ht.sweeping time (hby.phase ▸ htime)
    · rw [hby.sweep, hby.ttl]
      exact ht.due (fun time htime => hnot time (hby.phase ▸ htime)) e (hby.resolved ▸ he)

theorem ticking_of_steps {settings : Settings} (h : Steps (ofSettings settings) w) :
    w.Ticking := by
  induction h with
  | refl => exact ticking_ofSettings settings
  | tail hsteps h ih => exact ih.step (dated_of_steps hsteps) h

/-- A consumer that waits sweeps as soon as a sweep is due, and gives up all that is old enough. -/
theorem exists_sweep (hd : w.Dated) (hphase : w.service.phase = .waiting)
    (hshutdown : w.service.shutdown = false) (hdue : w.service.sweep.isDue w.now) :
    ∃ n, (w.service.steps w.now n).phase = .looking ∧
      ∀ id, w.queue.Overdue w.service.ttl w.now id →
        (w.service.steps w.now n).queue.tracked? id = none := by
  have hstep : w.service.step? w.now = some (w.service.beginSweep w.now) := by
    simp [JobService.step?, hphase, hshutdown, hdue]
  obtain ⟨n, hlooking, -, htracked⟩ :=
    JobService.exists_swept (s := w.service.beginSweep w.now) rfl hd.sorted hd.past w.now
  refine ⟨n + 1, ?_⟩
  have hsteps : w.service.steps w.now (n + 1) =
      JobService.steps w.now n (w.service.beginSweep w.now) := by
    rw [JobService.steps, hstep]
  rw [hsteps]
  exact ⟨hlooking, fun id => (htracked id).1⟩

/-- What becomes of a result that nobody fetches. While the queue knows it and no call is
subscribed, it is on the list of times, or the consumer puts it there next; unless a sweep took it
off the list when calls were subscribed, and the last of them went away. And whenever the consumer
waits, and was not told to stop, a result that is on the list for the time to keep it and a period
of the ticker more is given up at once, if nobody is subscribed. -/
theorem unfetched_listed_and_swept {settings : Settings} {w : JobWorld}
    (h : Steps (ofSettings settings) w) :
    (∀ id, CaringSteps id (ofSettings settings) w → (w.queue.tracked? id).isSome →
      (w.queue.result? id).isSome → w.attending id = 0 →
      (∃ written, (id, written) ∈ w.queue.resolved) ∨ w.service.phase.Notes id) ∧
    (w.service.phase = .waiting → w.service.shutdown = false →
      ∀ id written, (id, written) ∈ w.queue.resolved → w.attending id = 0 →
        written + settings.jobTtl + max settings.jobTtl 1 ≤ w.now →
        ∃ n, (w.service.steps w.now n).phase = .looking ∧
          (w.service.steps w.now n).queue.tracked? id = none) := by
  have hw : w.Sound := (sound_ofSettings settings).steps h
  have hd := dated_of_steps h
  refine ⟨fun id hcaring hknown hr hnobody => ?_,
    fun hphase hshutdown id written hmem hnobody hold => ?_⟩
  · have hlisted := (listed_or_attended hcaring hknown hr).resolve_right (by omega)
    refine hlisted.imp_left fun hid => ?_
    obtain ⟨⟨id', written⟩, hmem, rfl⟩ := List.mem_map.mp hid
    exact ⟨written, hmem⟩
  · rw [← ttl_of_steps h] at hold
    have hdue : w.service.sweep.isDue w.now := by
      have hnext := (ticking_of_steps h).due (by simp [hphase]) _ hmem
      simp only [Ticker.isDue, decide_eq_true_eq]
      dsimp only at hnext
      omega
    obtain ⟨n, hlooking, htracked⟩ := exists_sweep hd hphase hshutdown hdue
    refine ⟨n, hlooking, htracked id ?_⟩
    exact ((attended_of_steps h).overdue_iff hw).mp ⟨⟨written, hmem, by omega⟩, hnobody⟩

/-- A result that nobody asked for, when it is old enough and the consumer waits. -/
theorem exists_unfetched : ∃ w, CaringSteps "A" (ofSettings { jobTtl := 10 }) w ∧
    w.queue.result? "A" = some (.ok .null) ∧ (w.queue.tracked? "A").isSome ∧
    w.attending "A" = 0 ∧ w.queue.resolved = [("A", 0)] ∧ w.now = 20 ∧
    w.service.phase = .waiting ∧ w.service.shutdown = false := by
  have hcaring : ∀ {u v : JobWorld}, u.calls = [] → ¬ u.Abandons v "A" := by
    rintro u v hcalls ⟨⟨k, hk, -⟩, -, -, -⟩
    simp [hcalls] at hk
  have h₁ := Step.register (w := ofSettings { jobTtl := 10 }) ⟨"A", .done (.value .null)⟩ rfl nofun
  have h₂ := Relation.ReflTransGen.tail (r := fun u v => Step u v ∧ ¬ u.Abandons v "A")
    (.single ⟨h₁, hcaring rfl⟩) ⟨@Step.send _ [] [] _ _ rfl rfl, hcaring rfl⟩
  have h₃ := h₂.tail ⟨.start rfl, hcaring rfl⟩
  have h₄ := h₃.tail ⟨.consume (.look rfl), hcaring rfl⟩
  have h₅ := h₄.tail ⟨.consume (.begin rfl rfl), hcaring rfl⟩
  have h₆ := h₅.tail ⟨.consume (.finish rfl), hcaring rfl⟩
  have h₇ := h₆.tail ⟨.consume (.write rfl rfl), hcaring rfl⟩
  have h₈ := h₇.tail ⟨.consume (.note rfl), hcaring rfl⟩
  have h₉ := h₈.tail ⟨.consume (.look rfl), hcaring rfl⟩
  have h₁₀ := h₉.tail ⟨.pass 20 (by decide), hcaring rfl⟩
  exact ⟨_, h₁₀, rfl, rfl, rfl, rfl, rfl, rfl, rfl⟩

theorem unfetched_listed_and_swept_twenty : ∃ w, Steps (ofSettings { jobTtl := 10 }) w ∧
    ((∃ written, ("A", written) ∈ w.queue.resolved) ∨ w.service.phase.Notes "A") ∧
    ∃ n, (w.service.steps w.now n).phase = .looking ∧
      (w.service.steps w.now n).queue.tracked? "A" = none := by
  obtain ⟨w, hcaring, hr, hknown, hnobody, hlist, hnow, hphase, hshutdown⟩ := exists_unfetched
  obtain ⟨hlisted, hswept⟩ := unfetched_listed_and_swept hcaring.steps
  refine ⟨w, hcaring.steps, hlisted "A" hcaring hknown (by rw [hr]; rfl) hnobody, ?_⟩
  exact hswept hphase hshutdown "A" 0 (by simp [hlist]) hnobody (by simp [hnow])

/-- A result that is not on the list is given up only when somebody fetches it. -/
theorem kept_of_unlisted (hw : w.Sound) (ha : w.Attended) (hid : id ∈ w.acceptedIds)
    (hr : w.queue.result? id = some r) (hnot : ¬ w.service.Listed id)
    (hknown : (w.queue.tracked? id).isSome) (h : Steps w w') :
    (w'.queue.tracked? id).isSome ∨ w'.Fetched id := by
  have hrun : (w'.Sound ∧ w'.Attended ∧ id ∈ w'.acceptedIds) ∧ w'.queue.result? id = some r ∧
      ¬ w'.service.Listed id ∧ ((w'.queue.tracked? id).isSome ∨ w'.Fetched id) := by
    induction h with
    | refl => exact ⟨⟨hw, ha, hid⟩, hr, hnot, .inl hknown⟩
    | @tail u v _ h ih =>
      obtain ⟨⟨hu, hau, hidu⟩, hru, hnotu, hkept⟩ := ih
      have hhead : ∀ {written : Nat} {rest : List (String × Nat)},
          u.queue.resolved = (id, written) :: rest → False := fun hlist =>
        hnotu (.inl (List.mem_map.mpr ⟨_, (show u.service.queue.resolved = _ from hlist) ▸
          List.mem_cons_self .., rfl⟩))
      refine ⟨⟨hu.step h, hau.step hu h, h.acceptedIds hidu⟩, hu.result?_step h hru, ?_, ?_⟩
      · rcases h.listed (by rw [hru]; rfl) with hiff | ⟨-, _, _, -, hlist, -⟩
        · exact fun hlisted => hnotu (hiff.mp hlisted)
        · exact (hhead hlist).elim
      · rcases hkept with htracked | hfetched
        · rcases h.tracked_of_accepted hu hau hidu htracked with h' | h' | ⟨_, _, _, -, hlist, -⟩
          · exact .inl h'
          · exact .inr h'
          · exact (hhead hlist).elim
        · exact .inr (h.fetched hfetched)
  exact hrun.2.2.2

/-- Somebody asks for a job, and goes away after a sweep took its result off the list. -/
theorem exists_passedOver : ∃ w, Steps (ofSettings { jobTtl := 10 }) w ∧
    w.acceptedIds = ["A"] ∧ w.queue.result? "A" = some (.ok .null) ∧
    (w.queue.tracked? "A").isSome ∧ w.attending "A" = 0 ∧ w.queue.resolved = [] ∧
    w.service.phase = .looking := by
  have h₁ := Step.register (w := ofSettings { jobTtl := 10 }) ⟨"A", .done (.value .null)⟩ rfl nofun
  have h₂ := Relation.ReflTransGen.tail (.single h₁) (@Step.send _ [] [] _ _ rfl rfl)
  have h₃ := h₂.tail (@Step.ask _ "A" _ ⟨nofun, nofun⟩ rfl)
  have h₄ := h₃.tail (.start rfl)
  have h₅ := h₄.tail (.consume (.look rfl))
  have h₆ := h₅.tail (.consume (.begin rfl rfl))
  have h₇ := h₆.tail (.consume (.finish rfl))
  have h₈ := h₇.tail (.consume (.write rfl rfl))
  have h₉ := h₈.tail (.consume (.note rfl))
  have h₁₀ := h₉.tail (.consume (.look rfl))
  have h₁₁ := h₁₀.tail (.pass 10 (by decide))
  have h₁₂ := h₁₁.tail (.consume (.sweep rfl rfl))
  have h₁₃ := h₁₂.tail (.consume (.evict rfl rfl))
  have h₁₄ := h₁₃.tail (.consume (.swept rfl rfl))
  have h₁₅ := h₁₄.tail (@Step.drop _ 0 _ rfl)
  exact ⟨_, h₁₅, rfl, rfl, rfl, rfl, rfl, rfl⟩

/-- A job runs that never ends, after another one whose result nobody fetches. -/
theorem exists_hung : ∃ w, Steps (ofSettings { jobTtl := 10 }) w ∧
    w.queue.result? "A" = some (.ok .null) ∧ (w.queue.tracked? "A").isSome ∧
    w.attending "A" = 0 ∧ w.queue.resolved = [("A", 0)] ∧ w.now = 1000 ∧
    ∀ now, w.service.step? now = none := by
  have h₁ := Step.register (w := ofSettings { jobTtl := 10 }) ⟨"A", .done (.value .null)⟩ rfl nofun
  have h₂ := Relation.ReflTransGen.tail (.single h₁) (@Step.send _ [] [] _ _ rfl rfl)
  have h₃ := h₂.tail (.register ⟨"B", .hang⟩ rfl nofun)
  have h₄ := h₃.tail (@Step.send _ [] [] _ _ rfl rfl)
  have h₅ := h₄.tail (.start rfl)
  have h₆ := h₅.tail (.consume (.look rfl))
  have h₇ := h₆.tail (.consume (.begin rfl rfl))
  have h₈ := h₇.tail (.consume (.finish rfl))
  have h₉ := h₈.tail (.consume (.write rfl rfl))
  have h₁₀ := h₉.tail (.consume (.note rfl))
  have h₁₁ := h₁₀.tail (.consume (.look rfl))
  have h₁₂ := h₁₁.tail (.consume (.begin rfl rfl))
  have h₁₃ := h₁₂.tail (.pass 1000 (by decide))
  exact ⟨_, h₁₃, rfl, rfl, rfl, rfl, rfl, fun _ => rfl⟩

/-- A result of which nobody is subscribed, and that is not on the list: the queue knows it until
somebody fetches it, for as long as the service runs. And a result on the list that is long old
enough, while the consumer will do nothing at any time. -/
theorem unfetched_kept :
    (∃ w, Steps (ofSettings { jobTtl := 10 }) w ∧ w.queue.result? "A" = some (.ok .null) ∧
      (w.queue.tracked? "A").isSome ∧ w.attending "A" = 0 ∧ w.queue.resolved = [] ∧
      ∀ w', Steps w w' → (w'.queue.tracked? "A").isSome ∨ w'.Fetched "A") ∧
    ∃ w, Steps (ofSettings { jobTtl := 10 }) w ∧ w.queue.result? "A" = some (.ok .null) ∧
      (w.queue.tracked? "A").isSome ∧ w.attending "A" = 0 ∧ w.queue.resolved = [("A", 0)] ∧
      w.now = 1000 ∧ ∀ now, w.service.step? now = none := by
  refine ⟨?_, exists_hung⟩
  obtain ⟨w, h, hids, hr, hknown, hnobody, hlist, hphase⟩ := exists_passedOver
  refine ⟨w, h, hr, hknown, hnobody, hlist, fun w' h' => ?_⟩
  refine kept_of_unlisted ((sound_ofSettings _).steps h) (attended_of_steps h) (by simp [hids]) hr
    ?_ hknown h'
  rw [JobService.Listed, hphase, show w.service.queue.resolved = [] from hlist]
  simp [ConsumerPhase.Notes]

end JobWorld

end WorkflowEngine
