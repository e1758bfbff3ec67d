import WorkflowEngine.Proofs.Execution.Queue

/-!
# The life of a request

What one call can make of a record (`ExecutionRecord.Becomes`), and from it what is true of every
later state as long as calls do not overlap: a request that is over stays as it is, a token stays
cancelled, and a cancelled request is never delivered if it was still waiting and never fails.
-/

namespace WorkflowEngine

/-- The changes of a status that there are. -/
inductive ExecutionStatus.Moves : ExecutionStatus → ExecutionStatus → Prop where
  | deliver : Moves .pending .dequeued
  | cancelWaiting : Moves .pending .canceled
  | complete : Moves .dequeued .completed
  | fail : Moves .dequeued .failed
  | abort : Moves .dequeued .canceled

theorem ExecutionStatus.Moves.not_terminal {s s' : ExecutionStatus} (h : s.Moves s') :
    s.isTerminal = false := by
  cases h <;> rfl

theorem ExecutionStatus.Moves.ne_pending {s s' : ExecutionStatus} (h : s.Moves s') :
    s' ≠ .pending := by
  cases h <;> decide

theorem ExecutionStatus.Moves.ne {s s' : ExecutionStatus} (h : s.Moves s') : s ≠ s' := by
  cases h <;> decide

/-- What one access can make of a record, unless it makes the record anew. -/
structure ExecutionRecord.Goes (r r' : ExecutionRecord) : Prop where
  status : r'.status = r.status ∨ r.status.Moves r'.status
  failure : r'.status = r.status → r'.failure = r.failure
  canceled : r.canceled = true → r'.canceled = true

/-- What one call can make of a record: a request whose token is cancelled does not fail. -/
structure ExecutionRecord.Becomes (r r' : ExecutionRecord) : Prop extends r.Goes r' where
  failed : r.canceled = true → r'.status = .failed → r.status = .failed

namespace ExecutionRecord

variable {r r' : ExecutionRecord}

namespace Goes

theorem refl (r : ExecutionRecord) : r.Goes r := ⟨.inl rfl, fun _ => rfl, id⟩

theorem of_moves (hmoves : r.status.Moves r'.status)
    (hcanceled : r.canceled = true → r'.canceled = true) : r.Goes r' :=
  ⟨.inr hmoves, fun hsame => (hmoves.ne hsame.symm).elim, hcanceled⟩

theorem terminal (h : r.Goes r') (hterminal : r.status.isTerminal) :
    r'.status = r.status ∧ r'.failure = r.failure := by
  have hstatus := h.status.resolve_right fun hmoves => by
    rw [hmoves.not_terminal] at hterminal
    cases hterminal
  exact ⟨hstatus, h.failure hstatus⟩

theorem ne_pending (h : r.Goes r') (hr : r.status ≠ .pending) : r'.status ≠ .pending := by
  rcases h.status with hsame | hmoves
  · rwa [hsame]
  · exact hmoves.ne_pending

end Goes

theorem Becomes.refl (r : ExecutionRecord) : r.Becomes r := ⟨.refl r, fun _ => id⟩

theorem Becomes.of_moves (hmoves : r.status.Moves r'.status)
    (hcanceled : r.canceled = true → r'.canceled = true)
    (hfailed : r.canceled = true → r'.status ≠ .failed) : r.Becomes r' :=
  ⟨.of_moves hmoves hcanceled, fun hc hf => (hfailed hc hf).elim⟩

end ExecutionRecord

namespace QueueWorld

variable {w w' : QueueWorld} {h : QueueHistory} {a : QueueAction} {reply : QueueReply}
  {id : String} {record : ExecutionRecord}

/-! ## One step -/

/-- What a step makes of the record of a request. -/
inductive RecordStep (id : String) (record : ExecutionRecord) :
    QueueAction → QueueReply → ExecutionRecord → Prop where
  | keep {a : QueueAction} {reply : QueueReply} : ¬reply.Cancels a id →
      (∀ r ∈ reply.takenBy, r.id = id → record.status ≠ .pending) →
      RecordStep id record a reply record
  | skip {stream : Nat} {r : ExecutionRequest} : r.id = id → record.status = .pending →
      record.canceled = true →
      RecordStep id record (.take stream) (.skipped r) { record with status := .canceled }
  | deliver {stream : Nat} {r : ExecutionRequest} : r.id = id → record.status = .pending →
      record.canceled = false →
      RecordStep id record (.take stream) (.delivered r) { record with status := .dequeued }
  | cancelWaiting : record.status = .pending →
      RecordStep id record (.cancel id) (.canceled true)
        { record with status := .canceled, canceled := true }
  | cancelRunning : record.status = .dequeued →
      RecordStep id record (.cancel id) (.canceled true) { record with canceled := true }
  | cancelToken :
      RecordStep id record (.cancelToken id) (.canceled true) { record with canceled := true }
  | complete : record.status = .dequeued →
      RecordStep id record (.complete id) .done
        { record with status := .completed, failure := none }
  | fail {reason : String} : record.status = .dequeued →
      RecordStep id record (.fail id reason) .done
        { record with
          status := if record.canceled then .canceled else .failed
          failure := some reason }

/-- A step that sets one record changes that one and keeps the others. -/
theorem recordStep_setRecord {id' : String} {old new : ExecutionRecord}
    (hrecord : w.queue.record? id = some record) (hold : w.queue.record? id' = some old)
    (hset : RecordStep id' old a reply new)
    (hkeep : id' ≠ id → ¬reply.Cancels a id ∧ ∀ r ∈ reply.takenBy, r.id ≠ id) :
    ∃ record', (w.setRecord id' new).queue.record? id = some record' ∧
      RecordStep id record a reply record' := by
  rw [record?_setRecord]
  split
  · rename_i heq
    subst heq
    rw [hrecord] at hold
    cases hold
    exact ⟨new, rfl, hset⟩
  · rename_i hne
    obtain ⟨hcancels, htaken⟩ := hkeep hne
    exact ⟨record, hrecord, .keep hcancels fun r hr hid => (htaken r hr hid).elim⟩

theorem Step.recordStep (hstep : Step w a reply w') (hrecord : w.queue.record? id = some record) :
    ∃ record', w'.queue.record? id = some record' ∧ RecordStep id record a reply record' := by
  cases hstep with
  | @accept r hnone =>
    refine ⟨record, ?_, .keep nofun nofun⟩
    rw [record?_setChannel, record?_setRecord, if_neg, hrecord]
    rintro rfl
    rw [hnone] at hrecord
    cases hrecord
  | refuse => exact ⟨record, hrecord, .keep nofun nofun⟩
  | ended _ => exact ⟨record, hrecord, .keep nofun nofun⟩
  | wait _ _ => exact ⟨record, hrecord, .keep nofun nofun⟩
  | stop _ => exact ⟨record, hrecord, .keep nofun nofun⟩
  | cancelNothing => exact ⟨record, hrecord, .keep nofun nofun⟩
  | @pass stream r rest _ _ hnot =>
    refine ⟨record, hrecord, .keep nofun fun r' hr' hid => ?_⟩
    cases List.mem_singleton.mp hr'
    exact hnot record (hid ▸ hrecord)
  | skip _ _ hold hstatus hcanceled =>
    exact recordStep_setRecord hrecord hold (.skip rfl hstatus hcanceled)
      fun hne => ⟨nofun, by simpa [QueueReply.takenBy] using hne⟩
  | deliver _ _ hold hstatus hcanceled =>
    exact recordStep_setRecord hrecord hold (.deliver rfl hstatus hcanceled)
      fun hne => ⟨nofun, by simpa [QueueReply.takenBy] using hne⟩
  | cancelWaiting hold hstatus =>
    exact recordStep_setRecord hrecord hold (.cancelWaiting hstatus)
      fun hne => ⟨by simpa [QueueReply.Cancels] using hne, nofun⟩
  | cancelRunning hold hstatus =>
    exact recordStep_setRecord hrecord hold (.cancelRunning hstatus)
      fun hne => ⟨by simpa [QueueReply.Cancels] using hne, nofun⟩
  | cancelToken hold =>
    exact recordStep_setRecord hrecord hold .cancelToken
      fun hne => ⟨by simpa [QueueReply.Cancels] using hne, nofun⟩
  | complete hold hstatus =>
    exact recordStep_setRecord hrecord hold (.complete hstatus) fun _ => ⟨nofun, nofun⟩
  | fail hold hstatus =>
    exact recordStep_setRecord hrecord hold (.fail hstatus) fun _ => ⟨nofun, nofun⟩

theorem RecordStep.becomes {record' : ExecutionRecord}
    (hstep : RecordStep id record a reply record') : record.Becomes record' := by
  cases hstep with
  | keep _ _ => exact .refl record
  | skip _ hstatus _ => exact .of_moves (hstatus ▸ .cancelWaiting) (fun h => h) fun _ => nofun
  | deliver _ hstatus _ => exact .of_moves (hstatus ▸ .deliver) (fun h => h) fun _ => nofun
  | cancelWaiting hstatus =>
    exact .of_moves (hstatus ▸ .cancelWaiting) (fun _ => rfl) fun _ => nofun
  | cancelRunning _ => exact ⟨⟨.inl rfl, fun _ => rfl, fun _ => rfl⟩, fun _ h => h⟩
  | cancelToken => exact ⟨⟨.inl rfl, fun _ => rfl, fun _ => rfl⟩, fun _ h => h⟩
  | complete hstatus => exact .of_moves (hstatus ▸ .complete) (fun h => h) fun _ => nofun
  | fail hstatus =>
    refine .of_moves ?_ (fun h => h) ?_
    · rw [hstatus]
      cases record.canceled
      · exact .fail
      · exact .abort
    · intro hcanceled hfailed
      rw [hcanceled] at hfailed
      cases hfailed

theorem Step.becomes (hstep : Step w a reply w') (hrecord : w.queue.record? id = some record) :
    ∃ record', w'.queue.record? id = some record' ∧ record.Becomes record' := by
  obtain ⟨record', hrecord', hchange⟩ := hstep.recordStep hrecord
  exact ⟨record', hrecord', hchange.becomes⟩

/-- A record begins as that of a request that waits. -/
theorem Step.appears (hstep : Step w a reply w') (hnone : w.queue.record? id = none) :
    w'.queue.record? id = none ∨
      ∃ r ∈ reply.acceptedBy a,
        r.id = id ∧ w'.queue.record? id = some { canceled := r.canceled } := by
  have hother : ∀ {id' : String} {record' : ExecutionRecord} (changed : ExecutionRecord),
      w.queue.record? id' = some record' → (w.setRecord id' changed).queue.record? id = none := by
    intro id' record' changed h
    rw [record?_setRecord, if_neg, hnone]
    rintro rfl
    rw [hnone] at h
    cases h
  cases hstep with
  | @accept r _ =>
    rw [record?_setChannel, record?_setRecord]
    split
    · rename_i hid
      exact .inr ⟨r, List.mem_singleton_self r, hid, rfl⟩
    · exact .inl hnone
  | skip _ _ h _ _ => exact .inl (hother _ h)
  | deliver _ _ h _ _ => exact .inl (hother _ h)
  | cancelWaiting h _ => exact .inl (hother _ h)
  | cancelRunning h _ => exact .inl (hother _ h)
  | cancelToken h => exact .inl (hother _ h)
  | complete h _ => exact .inl (hother _ h)
  | fail h _ => exact .inl (hother _ h)
  | _ => exact .inl hnone

theorem Step.eq_of_refusal (hstep : Step w a reply w') (hrefusal : reply.IsRefusal) : w' = w := by
  cases hstep with
  | refuse => rfl
  | cancelNothing => rfl
  | cancelWaiting _ _ => cases hrefusal
  | cancelRunning _ _ => cases hrefusal
  | cancelToken _ => cases hrefusal
  | _ => exact hrefusal.elim

/-- A request that is delivered was waiting, and does not wait any more. -/
theorem Step.delivered {r : ExecutionRequest} (hstep : Step w a (.delivered r) w') :
    (∃ record, w.queue.record? r.id = some record ∧ record.status = .pending) ∧
      ∃ record, w'.queue.record? r.id = some record ∧ record.status ≠ .pending := by
  cases hstep with
  | deliver _ _ hrecord hstatus _ =>
    exact ⟨⟨_, hrecord, hstatus⟩, _, record?_setRecord_self .., nofun⟩

/-- After a cancellation the token is cancelled and the request does not wait any more. -/
theorem Step.canceled (hstep : Step w (.cancel id) (.canceled true) w') :
    ∃ record, w'.queue.record? id = some record ∧ record.canceled = true ∧
      record.status ≠ .pending ∧ record.status ≠ .failed := by
  cases hstep with
  | cancelWaiting _ _ => exact ⟨_, record?_setRecord_self .., rfl, nofun, nofun⟩
  | cancelRunning _ hstatus =>
    refine ⟨_, record?_setRecord_self .., rfl, ?_, ?_⟩
    · simp [hstatus]
    · simp [hstatus]

/-! ## Runs -/

/-- What no step takes from a record, no run takes. -/
theorem Runs.kept (hrun : Runs w h w') {p : ExecutionRecord → Prop}
    (hp : ∀ r r' : ExecutionRecord, r.Becomes r' → p r → p r')
    (hrecord : w.queue.record? id = some record) (hr : p record) :
    ∃ record', w'.queue.record? id = some record' ∧ p record' := by
  induction hrun with
  | start => exact ⟨record, hrecord, hr⟩
  | next a _ ih =>
    obtain ⟨r, hr, hpr⟩ := ih
    obtain ⟨r', hr', hbecomes⟩ := (step_perform _ a).becomes hr
    exact ⟨r', hr', hp r r' hbecomes hpr⟩

theorem Runs.terminal (hrun : Runs w h w') (hrecord : w.queue.record? id = some record)
    (hterminal : record.status.isTerminal) :
    ∃ record', w'.queue.record? id = some record' ∧
      record'.status = record.status ∧ record'.failure = record.failure := by
  refine hrun.kept (fun r r' hbecomes ⟨hstatus, hfailure⟩ => ?_) hrecord ⟨rfl, rfl⟩
  obtain ⟨hstatus', hfailure'⟩ := hbecomes.terminal (hstatus ▸ hterminal)
  exact ⟨hstatus'.trans hstatus, hfailure'.trans hfailure⟩

/-- A token stays cancelled, and a request whose token is cancelled does not fail any more. -/
theorem Runs.canceled (hrun : Runs w h w') (hrecord : w.queue.record? id = some record)
    (hcanceled : record.canceled = true) (hfailed : record.status ≠ .failed) :
    ∃ record', w'.queue.record? id = some record' ∧
      record'.canceled = true ∧ record'.status ≠ .failed :=
  hrun.kept (fun _ _ hbecomes ⟨hcanceled, hfailed⟩ =>
    ⟨hbecomes.canceled hcanceled, fun h => hfailed (hbecomes.failed hcanceled h)⟩) hrecord
    ⟨hcanceled, hfailed⟩

theorem Runs.delivered_ne_pending (hrun : Runs {} h w) {stream : Nat} {r : ExecutionRequest}
    (hmem : (.take stream, .delivered r) ∈ h) :
    ∃ record, w.queue.record? r.id = some record ∧ record.status ≠ .pending := by
  induction hrun with
  | start => cases hmem
  | @next h w a _ ih =>
    have hstep := step_perform w a
    rcases List.mem_cons.mp hmem with heq | hmem
    · rw [← (Prod.mk.inj heq).2] at hstep
      exact hstep.delivered.2
    · obtain ⟨record, hrecord, hstatus⟩ := ih hmem
      obtain ⟨r', hr', hbecomes⟩ := hstep.becomes hrecord
      exact ⟨r', hr', hbecomes.ne_pending hstatus⟩

/-- A request that does not wait is not delivered. -/
theorem Runs.not_delivered (hrun : Runs w h w') (hrecord : w.queue.record? id = some record)
    (hstatus : record.status ≠ .pending) {stream : Nat} {r : ExecutionRequest}
    (hmem : (.take stream, .delivered r) ∈ h) : r.id ≠ id := by
  induction hrun with
  | start => cases hmem
  | @next h w' a hrun ih =>
    rcases List.mem_cons.mp hmem with heq | hmem
    · rintro rfl
      have hstep := step_perform w' a
      rw [← (Prod.mk.inj heq).2] at hstep
      obtain ⟨⟨record', hrecord', hwaits⟩, -⟩ := hstep.delivered
      obtain ⟨r', hr', hne⟩ := hrun.kept (fun _ _ h => h.ne_pending) hrecord hstatus
      rw [hrecord'] at hr'
      cases hr'
      exact hne hwaits
    · exact ih hmem

/-- What is true of every step of every run in which calls do not overlap. A status moves as it
should and begins with a request that waits; what is over stays as it is; a call that is turned down
changes nothing; and after a cancellation the token is cancelled for good, a request that waited is
never delivered, and one that was delivered never fails. -/
theorem request_lifecycle {h' : QueueHistory} (hrun : Runs {} h w) (a : QueueAction)
    (hlater : Runs (w.perform a).2 h' w') :
    (∀ id s, w.queue.status? id = some s →
      ∃ s', (w.perform a).2.queue.status? id = some s' ∧ (s' = s ∨ s.Moves s')) ∧
    (∀ id, w.queue.status? id = none →
      (w.perform a).2.queue.status? id = none ∨
        (w.perform a).2.queue.status? id = some .pending) ∧
    (∀ id s, w.queue.status? id = some s → s.isTerminal →
      w'.queue.status? id = some s ∧ w'.queue.failure? id = w.queue.failure? id) ∧
    ((w.perform a).1.IsRefusal → (w.perform a).2 = w) ∧
    ∀ id, a = .cancel id → (w.perform a).1 = .canceled true →
      w'.queue.isCanceled id ∧
      (w.queue.status? id = some .pending → ∀ stream r,
        (.take stream, .delivered r) ∈ h' ++ (a, (w.perform a).1) :: h → r.id ≠ id) ∧
      (w.queue.status? id = some .dequeued → w'.queue.status? id ≠ some .failed) := by
  refine ⟨fun id s hs => ?_, fun id hs => ?_, fun id s hs hterminal => ?_,
    (step_perform w a).eq_of_refusal, fun id ha hfound => ?_⟩
  · obtain ⟨record, hrecord, rfl⟩ := Option.map_eq_some_iff.mp hs
    obtain ⟨r, hr, hbecomes⟩ := (step_perform w a).becomes hrecord
    exact ⟨r.status, ExecutionQueue.status?_of_record? hr, hbecomes.status⟩
  · rcases (step_perform w a).appears (Option.map_eq_none_iff.mp hs) with h | ⟨r, -, -, h⟩
    · exact .inl (Option.map_eq_none_iff.mpr h)
    · exact .inr (ExecutionQueue.status?_of_record? h)
  · obtain ⟨record, hrecord, rfl⟩ := Option.map_eq_some_iff.mp hs
    obtain ⟨record', hrecord', hstatus, hfailure⟩ :=
      ((Runs.start.next a).trans hlater).terminal hrecord hterminal
    refine ⟨?_, ?_⟩
    · rw [ExecutionQueue.status?_of_record? hrecord', hstatus]
    · rw [ExecutionQueue.failure?, ExecutionQueue.failure?, hrecord, hrecord']
      exact hfailure
  · subst ha
    have hstep := step_perform w (.cancel id)
    rw [hfound] at hstep
    obtain ⟨record, hrecord, hcanceled, hwaits, hfailed⟩ := hstep.canceled
    obtain ⟨record', hrecord', htoken, hnever⟩ := hlater.canceled hrecord hcanceled hfailed
    refine ⟨?_, fun hpending stream r hmem => ?_, fun _ => ?_⟩
    · rw [ExecutionQueue.isCanceled, hrecord']
      exact htoken
    · rcases List.mem_append.mp hmem with hafter | hmem
      · exact hlater.not_delivered hrecord hwaits hafter
      · rcases List.mem_cons.mp hmem with heq | hbefore
        · cases heq
        · rintro rfl
          obtain ⟨old, hold, hstatus⟩ := hrun.delivered_ne_pending hbefore
          rw [ExecutionQueue.status?_of_record? hold] at hpending
          exact hstatus (Option.some.inj hpending)
    · rw [ExecutionQueue.status?_of_record? hrecord']
      exact fun h => hnever (Option.some.inj h)

end QueueWorld

end WorkflowEngine
