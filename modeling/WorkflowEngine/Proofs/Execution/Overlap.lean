import WorkflowEngine.Proofs.Execution.Accesses

/-!
# Records under overlapping calls

What one access can make of a record (`RecordAccess`), and from it what stays as it is from then on.
Two things that calls which do not overlap keep are lost. An enqueue that looked for a record before
another enqueue of that id made one puts a new record in its place. A report of a failure that
looked at the token before a cancellation ends in a failure. `request_accesses` says that all else
is kept, and that each of the two happens whenever such a call goes on.
-/

namespace WorkflowEngine.SharedQueue

open QueueEvent (Cancels markedBy)
open ExecutionQueue (record?_of_records record?_setRecord record?_setRecord_self
  status?_of_record?)

variable {w w' : SharedQueue} {h : QueueLog} {e : QueueEvent} {id : String}
  {record record' : ExecutionRecord}

/-! ## One access -/

/-- What an access makes of the record of a request. -/
inductive RecordAccess (w : SharedQueue) (id : String) (record : ExecutionRecord) :
    QueueEvent → ExecutionRecord → Prop where
  | keep {e : QueueEvent} : ¬e.Cancels id →
      (∀ m ∈ e.markedBy, m.2.id = id → record.status ≠ .pending) → RecordAccess w id record e record
  | replace {r : ExecutionRequest} : r.id = id →
      RecordAccess w id record (.replaced r) { canceled := r.canceled }
  | skip {stream : Nat} {r : ExecutionRequest} : r.id = id → record.status = .pending →
      (id ∉ w.renewed → record.canceled = true) →
      RecordAccess w id record (.marked stream r false) { record with status := .canceled }
  | deliver {stream : Nat} {r : ExecutionRequest} : r.id = id → record.status = .pending →
      (id ∉ w.renewed → record.canceled = false) →
      RecordAccess w id record (.marked stream r true) { record with status := .dequeued }
  | cancelWaiting : record.status = .pending →
      RecordAccess w id record (.canceled id true)
        { record with status := .canceled, canceled := true }
  | cancelRunning : record.status = .dequeued →
      RecordAccess w id record (.canceled id true) { record with canceled := true }
  | cancelToken : RecordAccess w id record (.tokenCanceled id) { record with canceled := true }
  | complete : record.status = .dequeued →
      RecordAccess w id record (.completed id)
        { record with status := .completed, failure := none }
  | fail {canceled : Bool} {reason : String} : record.status = .dequeued →
      RecordAccess w id record (.failed id canceled)
        { record with
          status := if canceled then .canceled else .failed
          failure := some reason }

/-- What an access writes to the records: to one at most. -/
inductive Writes (w : SharedQueue) : QueueEvent → ExecutionQueue → Prop where
  | nothing {e : QueueEvent} {q : ExecutionQueue} : q.records = w.queue.records →
      (∀ id, ¬e.Cancels id) →
      (∀ m ∈ e.markedBy, ∀ record, w.queue.record? m.2.id = some record →
        record.status ≠ .pending) → Writes w e q
  | insert {r : ExecutionRequest} {q : ExecutionQueue} : w.queue.record? r.id = none →
      q.records = (w.queue.setRecord r.id { canceled := r.canceled }).records →
      Writes w (.inserted r) q
  | change {e : QueueEvent} {q : ExecutionQueue} {id : String} {old new : ExecutionRecord} :
      w.queue.record? id = some old → RecordAccess w id old e new →
      (∀ id', id ≠ id' → ¬e.Cancels id' ∧ ∀ m ∈ e.markedBy, m.2.id ≠ id') →
      q.records = (w.queue.setRecord id new).records → Writes w e q

theorem Access.writes (haccess : Access w e w') : Writes w e w'.queue := by
  cases haccess with
  | insert _ hnone => exact .insert hnone rfl
  | replace _ hold => exact .change hold (.replace rfl) (by simp [Cancels, markedBy]) rfl
  | pop _ hpop =>
    exact .nothing (ExecutionQueue.pop?_eq hpop).2 (by simp [Cancels]) (by simp [markedBy])
  | @mark stream r _ =>
    obtain ⟨hnot, h⟩ | ⟨old, hold, hstatus, ⟨hcanceled, h⟩ | ⟨hcanceled, h⟩⟩ :=
      w.queue.mark_cases r <;> simp only [h]
    · exact .nothing rfl (by simp [Cancels]) (by simpa [markedBy] using hnot)
    · exact .change hold (.skip rfl hstatus fun _ => hcanceled) (by simp [Cancels, markedBy]) rfl
    · exact .change hold (.deliver rfl hstatus fun _ => hcanceled) (by simp [Cancels, markedBy]) rfl
  | @markAmiss stream r old canceled _ hrenewed hold hstatus =>
    refine .change hold ?_ (by simp [Cancels, markedBy]) rfl
    cases canceled with
    | true => exact .skip rfl hstatus fun hnot => (hnot hrenewed).elim
    | false => exact .deliver rfl hstatus fun hnot => (hnot hrenewed).elim
  | cancel id =>
    obtain h | ⟨old, hold, ⟨hstatus, h⟩ | ⟨hstatus, h⟩⟩ := w.queue.cancel_cases id <;>
      simp only [h]
    · exact .nothing rfl (by simp [Cancels]) (by simp [markedBy])
    · exact .change hold (.cancelWaiting hstatus) (by simp [Cancels, markedBy]) rfl
    · exact .change hold (.cancelRunning hstatus) (by simp [Cancels, markedBy]) rfl
  | cancelToken hold =>
    rw [ExecutionQueue.cancelToken, hold]
    exact .change hold .cancelToken (by simp [Cancels, markedBy]) rfl
  | complete hcomplete =>
    obtain ⟨old, hold, hstatus, rfl⟩ := ExecutionQueue.finish_ok hcomplete
    exact .change hold (.complete hstatus) (by simp [Cancels, markedBy]) rfl
  | fail _ hfinish =>
    obtain ⟨old, hold, hstatus, rfl⟩ := ExecutionQueue.finish_ok hfinish
    exact .change hold (.fail hstatus) (by simp [Cancels, markedBy]) rfl
  | _ => exact .nothing rfl (by simp [Cancels]) (by simp [markedBy])

theorem Access.recordAccess (haccess : Access w e w')
    (hrecord : w.queue.record? id = some record) :
    ∃ record', w'.queue.record? id = some record' ∧ RecordAccess w id record e record' := by
  cases haccess.writes with
  | nothing hsame hcancels hmarked =>
    refine ⟨record, ?_, .keep (hcancels id) fun m hm hid => hmarked m hm record (hid ▸ hrecord)⟩
    rwa [record?_of_records hsame]
  | insert hnone hnew =>
    refine ⟨record, ?_, .keep (by simp [Cancels]) (by simp [markedBy])⟩
    rw [record?_of_records hnew, record?_setRecord, if_neg, hrecord]
    rintro rfl
    rw [hnone] at hrecord
    cases hrecord
  | change hold hset hkeep hnew =>
    rw [record?_of_records hnew, record?_setRecord]
    split
    · rename_i heq
      subst heq
      rw [hrecord] at hold
      cases hold
      exact ⟨_, rfl, hset⟩
    · rename_i hne
      obtain ⟨hcancels, hmarked⟩ := hkeep id hne
      exact ⟨record, hrecord, .keep hcancels fun m hm hid => (hmarked m hm hid).elim⟩

/-- A record begins as that of a request that waits. -/
theorem Access.appears (haccess : Access w e w') (hnone : w.queue.record? id = none) :
    w'.queue.record? id = none ∨ ∃ r, e = .inserted r ∧ r.id = id ∧
      w'.queue.record? id = some { canceled := r.canceled } := by
  cases haccess.writes with
  | nothing hsame _ _ => exact .inl (by rwa [record?_of_records hsame])
  | @insert r _ _ hnew =>
    rw [record?_of_records hnew, record?_setRecord]
    split
    · rename_i hid
      exact .inr ⟨r, rfl, hid, rfl⟩
    · exact .inl hnone
  | change hold _ _ hnew =>
    rw [record?_of_records hnew, record?_setRecord, if_neg, hnone]
    · exact .inl rfl
    · rintro rfl
      rw [hnone] at hold
      cases hold

theorem RecordAccess.goes (haccess : RecordAccess w id record e record')
    (hone : ∀ r, e = .replaced r → r.id ≠ id) : record.Goes record' := by
  cases haccess with
  | keep _ _ => exact .refl record
  | replace hid => exact (hone _ rfl hid).elim
  | skip _ hstatus _ => exact .of_moves (hstatus ▸ .cancelWaiting) fun h => h
  | deliver _ hstatus _ => exact .of_moves (hstatus ▸ .deliver) fun h => h
  | cancelWaiting hstatus => exact .of_moves (hstatus ▸ .cancelWaiting) fun _ => rfl
  | cancelRunning _ => exact ⟨.inl rfl, fun _ => rfl, fun _ => rfl⟩
  | cancelToken => exact ⟨.inl rfl, fun _ => rfl, fun _ => rfl⟩
  | complete hstatus => exact .of_moves (hstatus ▸ .complete) fun h => h
  | @fail canceled _ hstatus =>
    refine .of_moves ?_ fun h => h
    rw [hstatus]
    cases canceled
    · exact .fail
    · exact .abort

/-- Only a report that saw no cancellation makes a request fail. -/
theorem RecordAccess.failed (haccess : RecordAccess w id record e record')
    (hfailed : record'.status = .failed) : record.status = .failed ∨ e = .failed id false := by
  cases haccess with
  | keep _ _ => exact .inl hfailed
  | cancelRunning _ => exact .inl hfailed
  | cancelToken => exact .inl hfailed
  | @fail canceled _ _ =>
    cases canceled
    · exact .inr rfl
    · cases hfailed
  | _ => cases hfailed

/-- A call that is turned down, and a look at a token, leave all but the call itself alone. -/
theorem Access.eq_of_refusal (haccess : Access w e w')
    (hrefusal : e.IsRefusal ∨ ∃ id canceled, e = .saw id canceled) :
    ∃ failing, w' = { w with failing } := by
  cases haccess with
  | known _ => exact ⟨_, rfl⟩
  | refuseToComplete _ => exact ⟨_, rfl⟩
  | refuseToFail _ _ => exact ⟨_, rfl⟩
  | see id reason => exact ⟨_, rfl⟩
  | cancel id =>
    obtain h | ⟨old, -, ⟨-, h⟩ | ⟨-, h⟩⟩ := w.queue.cancel_cases id
    · exact ⟨w.failing, by rw [h]⟩
    · simp [h, QueueEvent.IsRefusal] at hrefusal
    · simp [h, QueueEvent.IsRefusal] at hrefusal
  | _ => simp [QueueEvent.IsRefusal] at hrefusal

/-- A request that is delivered was waiting, and does not wait any more. -/
theorem Access.delivered {stream : Nat} {r : ExecutionRequest}
    (haccess : Access w (.marked stream r true) w') :
    (∃ record, w.queue.record? r.id = some record ∧ record.status = .pending) ∧
      ∃ record, w'.queue.record? r.id = some record ∧ record.status ≠ .pending := by
  have hwaits : ∃ record, w.queue.record? r.id = some record ∧ record.status = .pending := by
    generalize hdelivered : true = delivered at haccess
    cases haccess with
    | mark _ =>
      obtain ⟨-, h⟩ | ⟨record, hrecord, hstatus, -⟩ := w.queue.mark_cases r
      · rw [h] at hdelivered
        cases hdelivered
      · exact ⟨record, hrecord, hstatus⟩
    | markAmiss _ _ _ hrecord hstatus => exact ⟨_, hrecord, hstatus⟩
  obtain ⟨record, hrecord, hstatus⟩ := hwaits
  obtain ⟨record', hrecord', hchange⟩ := haccess.recordAccess hrecord
  refine ⟨⟨record, hrecord, hstatus⟩, record', hrecord', ?_⟩
  cases hchange with
  | keep _ hmarked => exact hmarked (stream, r) (List.mem_singleton_self _) rfl
  | deliver _ _ _ => simp

/-- After a cancellation the token is cancelled and the request does not wait any more. -/
theorem Access.canceled (haccess : Access w (.canceled id true) w') :
    ∃ record, w'.queue.record? id = some record ∧ record.canceled = true ∧
      record.status ≠ .pending ∧ record.status ≠ .failed := by
  generalize hfound : true = found at haccess
  cases haccess with
  | cancel id =>
    obtain h | ⟨record, -, ⟨-, h⟩ | ⟨hstatus, h⟩⟩ := w.queue.cancel_cases id <;>
      rw [h] at hfound ⊢
    · cases hfound
    · exact ⟨_, record?_setRecord_self .., rfl, by simp, by simp⟩
    · exact ⟨_, record?_setRecord_self .., rfl, by simp [hstatus], by simp [hstatus]⟩

theorem Access.failing_of_canceled {found : Bool} (haccess : Access w (.canceled id found) w') :
    w'.failing = w.failing := by
  cases haccess
  rfl

theorem Access.mem_failing (haccess : Access w e w') {f : FailureReport} (hf : f ∈ w'.failing) :
    f ∈ w.failing ∨ f.canceled = w.queue.isCanceled f.id := by
  cases haccess with
  | see id reason =>
    rcases List.mem_cons.mp hf with rfl | hf
    · exact .inr rfl
    · exact .inl hf
  | fail _ _ => exact .inl (List.mem_of_mem_erase hf)
  | refuseToFail _ _ => exact .inl (List.mem_of_mem_erase hf)
  | _ => exact .inl hf

theorem Access.of_failed {canceled : Bool} (haccess : Access w (.failed id canceled) w') :
    ∃ f ∈ w.failing, f.id = id ∧ f.canceled = canceled := by
  cases haccess with
  | fail hf _ => exact ⟨_, hf, rfl, rfl⟩

/-! ## Runs -/

/-- What no access takes from a record, no run takes, unless the record is made anew. -/
theorem Accesses.kept (hrun : Accesses w h w') {p : ExecutionRecord → Prop}
    (hp : ∀ r r' : ExecutionRecord, r.Goes r' → p r → p r') (hundisputed : Undisputed h id)
    (hrecord : w.queue.record? id = some record) (hr : p record) :
    ∃ record', w'.queue.record? id = some record' ∧ p record' := by
  induction hrun with
  | start => exact ⟨record, hrecord, hr⟩
  | next _ haccess ih =>
    obtain ⟨r, hr, hpr⟩ := ih hundisputed.tail
    obtain ⟨r', hr', hchange⟩ := haccess.recordAccess hr
    exact ⟨r', hr', hp r r' (hchange.goes hundisputed.head) hpr⟩

theorem Accesses.terminal (hrun : Accesses w h w') (hundisputed : Undisputed h id)
    (hrecord : w.queue.record? id = some record) (hterminal : record.status.isTerminal) :
    ∃ record', w'.queue.record? id = some record' ∧
      record'.status = record.status ∧ record'.failure = record.failure := by
  refine hrun.kept (fun r r' hgoes ⟨hstatus, hfailure⟩ => ?_) hundisputed hrecord ⟨rfl, rfl⟩
  obtain ⟨hstatus', hfailure'⟩ := hgoes.terminal (hstatus ▸ hterminal)
  exact ⟨hstatus'.trans hstatus, hfailure'.trans hfailure⟩

theorem Accesses.delivered_ne_pending {w₀ : SharedQueue} (hrun : Accesses w₀ h w) {stream : Nat}
    {r : ExecutionRequest} (hundisputed : Undisputed h r.id) (hmem : .marked stream r true ∈ h) :
    ∃ record, w.queue.record? r.id = some record ∧ record.status ≠ .pending := by
  induction hrun with
  | start => cases hmem
  | next _ haccess ih =>
    rcases List.mem_cons.mp hmem with rfl | hmem
    · exact haccess.delivered.2
    · obtain ⟨record, hrecord, hstatus⟩ := ih hundisputed.tail hmem
      obtain ⟨r', hr', hchange⟩ := haccess.recordAccess hrecord
      exact ⟨r', hr', (hchange.goes hundisputed.head).ne_pending hstatus⟩

/-- A request that does not wait is not delivered. -/
theorem Accesses.not_delivered (hrun : Accesses w h w') (hundisputed : Undisputed h id)
    (hrecord : w.queue.record? id = some record) (hstatus : record.status ≠ .pending)
    {stream : Nat} {r : ExecutionRequest} (hmem : .marked stream r true ∈ h) : r.id ≠ id := by
  induction hrun with
  | start => cases hmem
  | next hrun haccess ih =>
    rcases List.mem_cons.mp hmem with rfl | hmem
    · rintro rfl
      obtain ⟨⟨record', hrecord', hwaits⟩, -⟩ := haccess.delivered
      obtain ⟨r', hr', hne⟩ := hrun.kept (fun _ _ hgoes => hgoes.ne_pending) hundisputed.tail
        hrecord hstatus
      rw [hrecord'] at hr'
      cases hr'
      exact hne hwaits
    · exact ih hundisputed.tail hmem

/-- Once the token is cancelled, only a report that had looked at it before can fail. -/
theorem Accesses.not_failed (hrun : Accesses w h w') (hundisputed : Undisputed h id)
    (hrecord : w.queue.record? id = some record) (hcanceled : record.canceled = true)
    (hfailed : record.status ≠ .failed)
    (hfailing : ∀ f ∈ w.failing, f.id = id → f.canceled = true) :
    ∃ record', w'.queue.record? id = some record' ∧ record'.canceled = true ∧
      record'.status ≠ .failed ∧ ∀ f ∈ w'.failing, f.id = id → f.canceled = true := by
  induction hrun with
  | start => exact ⟨record, hrecord, hcanceled, hfailed, hfailing⟩
  | next _ haccess ih =>
    obtain ⟨r, hr, htoken, hnot, hreports⟩ := ih hundisputed.tail
    obtain ⟨r', hr', hchange⟩ := haccess.recordAccess hr
    refine ⟨r', hr', (hchange.goes hundisputed.head).canceled htoken, fun h => ?_,
      fun f hf hid => ?_⟩
    · obtain rfl := (hchange.failed h).resolve_left hnot
      obtain ⟨f, hf, hid, hfalse⟩ := haccess.of_failed
      rw [hreports f hf hid] at hfalse
      cases hfalse
    · rcases haccess.mem_failing hf with hf | hseen
      · exact hreports f hf hid
      · rw [hseen, hid, ExecutionQueue.isCanceled, hr]
        exact htoken

/-- After a cancellation the token is cancelled for good, a request that waited is never delivered,
and one that was delivered fails only through a report that had looked before. -/
theorem Accesses.canceled {w₀ v : SharedQueue} {h' : QueueLog} (hrun : Accesses w₀ h w)
    (haccess : Access w (.canceled id true) w') (hlater : Accesses w' h' v)
    (hundisputed : Undisputed h' id) :
    v.queue.isCanceled id ∧
    (w.queue.status? id = some .pending → Undisputed h id → ∀ stream r,
      .marked stream r true ∈ h' ++ .canceled id true :: h → r.id ≠ id) ∧
    (v.queue.status? id = some .failed → ∃ f ∈ w.failing, f.id = id ∧ f.canceled = false) := by
  obtain ⟨record, hrecord, hcanceled, hwaits, hfailed⟩ := haccess.canceled
  refine ⟨?_, fun hpending hbefore stream r hmem => ?_, fun hv => ?_⟩
  · obtain ⟨record', hrecord', htoken⟩ :=
      hlater.kept (fun _ _ hgoes => hgoes.canceled) hundisputed hrecord hcanceled
    rw [ExecutionQueue.isCanceled, hrecord']
    exact htoken
  · rcases List.mem_append.mp hmem with hafter | hmem
    · exact hlater.not_delivered hundisputed hrecord hwaits hafter
    · rcases List.mem_cons.mp hmem with heq | hearlier
      · cases heq
      · rintro rfl
        obtain ⟨old, hold, hstatus⟩ := hrun.delivered_ne_pending hbefore hearlier
        rw [status?_of_record? hold] at hpending
        exact hstatus (Option.some.inj hpending)
  · -- were there no such report, the request could not have failed
    refine Classical.byContradiction fun hnone => ?_
    have hfailing : ∀ f ∈ w'.failing, f.id = id → f.canceled = true := fun f hf hid => by
      rw [haccess.failing_of_canceled] at hf
      exact (Bool.not_eq_false _).mp fun hfalse => hnone ⟨f, hf, hid, hfalse⟩
    obtain ⟨record', hrecord', -, hnot, -⟩ :=
      hlater.not_failed hundisputed hrecord hcanceled hfailed hfailing
    rw [status?_of_record? hrecord'] at hv
    exact hnot (Option.some.inj hv)

/-- An enqueue that found no record goes on although by now there is one, and makes it anew. -/
theorem replaces {r : ExecutionRequest} (hlooking : r ∈ w.looking)
    (hknown : (w.queue.record? r.id).isSome) :
    ∃ w'', Access w (.replaced r) w'' ∧ w''.queue.status? r.id = some .pending := by
  obtain ⟨record, hrecord⟩ := Option.isSome_iff_exists.mp hknown
  exact ⟨_, .replace hlooking hrecord, status?_of_record? (record?_setRecord_self ..)⟩

/-- A report that saw no cancellation goes on although by now there is one: the request fails. -/
theorem fails {f : FailureReport} (hf : f ∈ w.failing) (hseen : f.canceled = false)
    (hdequeued : w.queue.status? f.id = some .dequeued) :
    ∃ w'', Access w (.failed f.id false) w'' ∧ w''.queue.status? f.id = some .failed := by
  obtain ⟨record, hrecord, hstatus⟩ := Option.map_eq_some_iff.mp hdequeued
  have hfinish : w.queue.finish f.id f.status (some f.reason) = .ok (w.queue.setRecord f.id
      { record with status := .failed, failure := some f.reason }) := by
    simp [ExecutionQueue.finish, hrecord, hstatus, FailureReport.status, hseen]
  have haccess : Access w (.failed f.id f.canceled) _ := .fail hf hfinish
  rw [hseen] at haccess
  exact ⟨_, haccess, status?_of_record? (record?_setRecord_self ..)⟩

/-- What is true of every access of every run. A status moves as it should and begins with a request
that waits, what is over stays as it is, and a call that is turned down changes nothing. After a
cancellation the token is cancelled for good, a request that waited is never delivered, and one that
was delivered fails only through a report that had looked at the token before. An enqueue that found
no record before another one made it undoes all this: it makes the record anew. -/
theorem request_accesses {h' : QueueLog} {v : SharedQueue} (hrun : Accesses {} h w)
    (haccess : Access w e w') (hlater : Accesses w' h' v) (id : String) :
    (∀ s, w.queue.status? id = some s → ∃ s', w'.queue.status? id = some s' ∧
      (s' = s ∨ s.Moves s' ∨ s' = .pending ∧ ∃ r, e = .replaced r ∧ r.id = id)) ∧
    (w.queue.status? id = none →
      w'.queue.status? id = none ∨ w'.queue.status? id = some .pending) ∧
    (∀ s, w'.queue.status? id = some s → s.isTerminal → Undisputed h' id →
      v.queue.status? id = some s ∧ v.queue.failure? id = w'.queue.failure? id) ∧
    (e.IsRefusal ∨ (∃ id canceled, e = .saw id canceled) → ∃ failing, w' = { w with failing }) ∧
    (e = .canceled id true → Undisputed h' id →
      v.queue.isCanceled id ∧
      (w.queue.status? id = some .pending → Undisputed h id → ∀ stream r,
        .marked stream r true ∈ h' ++ e :: h → r.id ≠ id) ∧
      (v.queue.status? id = some .failed → ∃ f ∈ w.failing, f.id = id ∧ f.canceled = false)) ∧
    (∀ r ∈ w.looking, (w.queue.record? r.id).isSome →
      ∃ w'', Access w (.replaced r) w'' ∧ w''.queue.status? r.id = some .pending) ∧
    ∀ f ∈ w.failing, f.canceled = false → w.queue.status? f.id = some .dequeued →
      ∃ w'', Access w (.failed f.id false) w'' ∧ w''.queue.status? f.id = some .failed := by
  refine ⟨fun s hs => ?_, fun hnone => ?_, fun s hs hterminal hundisputed => ?_,
    haccess.eq_of_refusal, ?_, fun r => replaces, fun f => fails⟩
  · obtain ⟨record, hrecord, rfl⟩ := Option.map_eq_some_iff.mp hs
    obtain ⟨record', hrecord', hchange⟩ := haccess.recordAccess hrecord
    refine ⟨_, status?_of_record? hrecord', ?_⟩
    by_cases hone : ∀ r, e = .replaced r → r.id ≠ id
    · exact (hchange.goes hone).status.imp_right .inl
    · cases hchange with
      | keep _ _ => exact .inl rfl
      | @replace r hid => exact .inr (.inr ⟨rfl, r, rfl, hid⟩)
      | _ => exact (hone (by simp)).elim
  · rcases haccess.appears (Option.map_eq_none_iff.mp hnone) with h | ⟨r, -, -, h⟩
    · exact .inl (Option.map_eq_none_iff.mpr h)
    · exact .inr (status?_of_record? h)
  · obtain ⟨record, hrecord, rfl⟩ := Option.map_eq_some_iff.mp hs
    obtain ⟨record', hrecord', hstatus, hfailure⟩ :=
      hlater.terminal hundisputed hrecord hterminal
    refine ⟨?_, ?_⟩
    · rw [status?_of_record? hrecord', hstatus]
    · rw [ExecutionQueue.failure?, ExecutionQueue.failure?, hrecord, hrecord']
      exact hfailure
  · rintro rfl hundisputed
    exact hrun.canceled haccess hlater hundisputed

/-- A request for which no record was found is delivered when nobody comes in between. -/
theorem accesses_lone (r : ExecutionRequest) (hr : r.canceled = false)
    (looking : List ExecutionRequest) :
    Accesses { looking := r :: looking }
      [.marked 0 r true, .popped 0 r, .polled 0, .sent r, .inserted r]
      { looking, queue := { records := [(r.id, { status := .dequeued })] } } := by
  have hinsert : Access { looking := r :: looking } (.inserted r)
      { looking, sending := [r], queue := { records := [(r.id, {})] } } := by
    have haccess : Access { looking := r :: looking } (.inserted r) _ := .insert (.head _) rfl
    rwa [hr, List.erase_cons_head] at haccess
  have hsend : Access { looking, sending := [r], queue := { records := [(r.id, {})] } } (.sent r)
      { looking, queue := { records := [(r.id, {})], channel := [r] } } := by
    have haccess : Access { looking, sending := [r], queue := { records := [(r.id, {})] } }
      (.sent r) _ := .send (.head _)
    rwa [List.erase_cons_head] at haccess
  have hpoll : Access { looking, queue := { records := [(r.id, {})], channel := [r] } } (.polled 0)
      { looking, polling := some 0, queue := { records := [(r.id, {})], channel := [r] } } :=
    .poll List.not_mem_nil rfl fun _ => List.not_mem_nil
  have hpop : Access
      { looking, polling := some 0, queue := { records := [(r.id, {})], channel := [r] } }
      (.popped 0 r) { looking, held := [(0, r)], queue := { records := [(r.id, {})] } } :=
    .pop rfl rfl
  have hmark : Access { looking, held := [(0, r)], queue := { records := [(r.id, {})] } }
      (.marked 0 r true)
      { looking, queue := { records := [(r.id, { status := .dequeued })] } } := by
    have haccess : Access { looking, held := [(0, r)], queue := { records := [(r.id, {})] } }
      (.marked 0 r _) _ := .mark (.head _)
    have hmark : ExecutionQueue.mark { records := [(r.id, {})] } r =
        (true, { records := [(r.id, { status := .dequeued })] }) := by
      simp [ExecutionQueue.mark, ExecutionQueue.markTaken, Fields.find?, Fields.insert]
    rwa [hmark, List.erase_cons_head] at haccess
  exact (((hinsert.single.next hsend).next hpoll).next hpop).next hmark

/-- A request is cancelled after it was delivered; a report that looks at the token after that is
not one of a failure. -/
theorem request_accesses_delivered :
    let r : ExecutionRequest := { id := "x", workflow := "w", user := "u" }
    ∃ w w' v : SharedQueue,
      Accesses {} [.marked 0 r true, .popped 0 r, .polled 0, .sent r, .inserted r, .looked r] w ∧
      Access w (.canceled "x" true) w' ∧ Accesses w' [.failed "x" true, .saw "x" true] v ∧
      w.queue.status? "x" = some .dequeued ∧ v.queue.isCanceled "x" ∧
      v.queue.status? "x" ≠ some .failed ∧ v.queue.status? "x" = some .canceled := by
  intro r
  have hlook : Access {} (.looked r) { looking := [r] } := .look rfl
  have hrun := hlook.single.trans (accesses_lone r rfl [])
  have hcancel : Access { queue := { records := [("x", { status := .dequeued })] } }
      (.canceled "x" true)
      { queue := { records := [("x", { status := .dequeued, canceled := true })] } } :=
    .cancel "x"
  have hsee : Access { queue := { records := [("x", { status := .dequeued, canceled := true })] } }
      (.saw "x" true) _ := .see "x" "broken"
  have hlater : Accesses _ [.failed "x" true, .saw "x" true] _ :=
    hsee.single.next (@Access.fail _ ⟨"x", "broken", true⟩ _ (.head _) rfl)
  obtain ⟨-, -, -, -, hafter, -⟩ := request_accesses hrun hcancel hlater "x"
  obtain ⟨htoken, -, hfails⟩ := hafter rfl (by simp [Undisputed])
  refine ⟨_, _, _, hrun, hcancel, hlater, rfl, htoken, fun hfailed => ?_, rfl⟩
  obtain ⟨f, hf, -⟩ := hfails hfailed
  cases hf

/-- A report of a failure looks at the token, the request is cancelled, and then it fails. And when
two enqueues of one request have both found no record, the second makes the record anew after the
request was delivered and completed. -/
theorem fails_canceled_and_waits_completed :
    let r : ExecutionRequest := { id := "x", workflow := "w", user := "u" }
    (∃ w w' v : SharedQueue,
      Accesses {} [.saw "x" false, .marked 0 r true, .popped 0 r, .polled 0, .sent r, .inserted r,
        .looked r] w ∧ w.queue.status? "x" = some .dequeued ∧
      Access w (.canceled "x" true) w' ∧ Accesses w' [.failed "x" false] v ∧
      v.queue.status? "x" = some .failed) ∧
    ∃ w w' : SharedQueue,
      Accesses {} [.completed "x", .marked 0 r true, .popped 0 r, .polled 0, .sent r, .inserted r,
        .looked r, .looked r] w ∧ w.queue.status? "x" = some .completed ∧
      Access w (.replaced r) w' ∧ w'.queue.status? "x" = some .pending := by
  intro r
  have hlook : Access {} (.looked r) { looking := [r] } := .look rfl
  refine ⟨?_, ?_⟩
  · have hsee : Access { queue := { records := [("x", { status := .dequeued })] } }
        (.saw "x" false)
        { queue := { records := [("x", { status := .dequeued })] }
          failing := [⟨"x", "broken", false⟩] } := .see "x" "broken"
    have hcancel : Access
        { queue := { records := [("x", { status := .dequeued })] }
          failing := [⟨"x", "broken", false⟩] } (.canceled "x" true)
        { queue := { records := [("x", { status := .dequeued, canceled := true })] }
          failing := [⟨"x", "broken", false⟩] } := .cancel "x"
    have hfail : Access
        { queue := { records := [("x", { status := .dequeued, canceled := true })] }
          failing := [⟨"x", "broken", false⟩] } (.failed "x" false) _ :=
      @Access.fail _ ⟨"x", "broken", false⟩ _ (.head _) rfl
    exact ⟨_, _, _, (hlook.single.trans (accesses_lone r rfl [])).next hsee, rfl, hcancel,
      hfail.single, rfl⟩
  · have hagain : Access { looking := [r] } (.looked r) { looking := [r, r] } := .look rfl
    have hcomplete : Access
        { looking := [r], queue := { records := [("x", { status := .dequeued })] } }
        (.completed "x")
        { looking := [r], queue := { records := [("x", { status := .completed })] } } :=
      .complete rfl
    have hrun := ((hlook.single.next hagain).trans (accesses_lone r rfl [r])).next hcomplete
    obtain ⟨w', hreplace, hwaits⟩ := replaces (List.mem_singleton_self r) (r := r)
      (w := { looking := [r], queue := { records := [("x", { status := .completed })] } }) rfl
    exact ⟨_, w', hrun, rfl, hreplace, hwaits⟩

end WorkflowEngine.SharedQueue
