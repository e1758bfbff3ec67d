import WorkflowEngine.Proofs.Execution.Lifecycle

/-!
# Deliveries

What was accepted, taken out of the channel and delivered is read off the history, and so is which
requests were cancelled at the moment when they were taken out. `Tracks` ties them to the state as
long as calls do not overlap: what was accepted is what was taken out, in that order, and then what
is in the channel. All streams share the channel, so that it does not matter which of them takes an
entry.
-/

namespace WorkflowEngine

namespace QueueWorld

def CanceledIn (h : QueueHistory) (id : String) : Prop := ∃ e ∈ h, e.2.Cancels e.1 id

instance {h : QueueHistory} {id : String} : Decidable (CanceledIn h id) :=
  inferInstanceAs (Decidable (∃ e ∈ h, _))

/-- The token of an accepted request is cancelled: it was so before, or was cancelled since. -/
def TokenCanceled (h : QueueHistory) (r : ExecutionRequest) : Prop :=
  r.canceled = true ∨ CanceledIn h r.id

instance {h : QueueHistory} {r : ExecutionRequest} : Decidable (TokenCanceled h r) :=
  inferInstanceAs (Decidable (_ ∨ _))

/-- The accepted requests in the order in which they were accepted. -/
def accepted : QueueHistory → List ExecutionRequest
  | [] => []
  | (a, reply) :: h => accepted h ++ reply.acceptedBy a

/-- The requests that were taken out of the channel, in that order, and whether each was cancelled
at that moment. -/
def taken : QueueHistory → List (ExecutionRequest × Bool)
  | [] => []
  | (_, reply) :: h => taken h ++ reply.takenBy.map fun r => (r, decide (TokenCanceled h r))

/-- What the streams delivered, in that order. -/
def delivered : QueueHistory → List ExecutionRequest
  | [] => []
  | (_, reply) :: h => delivered h ++ reply.deliveredBy

variable {w w' : QueueWorld} {h : QueueHistory} {a : QueueAction} {reply : QueueReply}
  {id : String} {record record' : ExecutionRecord}

theorem tokenCanceled_cons {r : ExecutionRequest} :
    TokenCanceled ((a, reply) :: h) r ↔ TokenCanceled h r ∨ reply.Cancels a r.id := by
  simp only [TokenCanceled, CanceledIn, List.mem_cons, exists_eq_or_imp, or_assoc]
  rw [or_comm (a := reply.Cancels a r.id)]

/-! ## One step -/

theorem Step.channel (hstep : Step w a reply w') :
    reply.takenBy ++ w'.queue.channel = w.queue.channel ++ reply.acceptedBy a := by
  cases hstep with
  | accept _ => rfl
  | pass _ hchannel _ => rw [hchannel]; exact (List.append_nil _).symm
  | skip _ hchannel _ _ _ => rw [hchannel]; exact (List.append_nil _).symm
  | deliver _ hchannel _ _ _ => rw [hchannel]; exact (List.append_nil _).symm
  | _ => exact (List.append_nil _).symm

theorem Step.mem_channel (hstep : Step w a reply w') {r : ExecutionRequest}
    (hr : r ∈ reply.takenBy) : r ∈ w.queue.channel := by
  have hmem : r ∈ w.queue.channel ++ reply.acceptedBy a := by
    rw [← hstep.channel]
    exact List.mem_append_left _ hr
  refine (List.mem_append.mp hmem).resolve_right fun hnew => ?_
  cases hstep with
  | accept _ => cases hr
  | _ => cases hnew

theorem Step.accepted (hstep : Step w a reply w') {r : ExecutionRequest}
    (hr : r ∈ reply.acceptedBy a) :
    w.queue.record? r.id = none ∧ w'.queue.record? r.id = some { canceled := r.canceled } := by
  cases hstep with
  | accept hnone =>
    cases List.mem_singleton.mp hr
    exact ⟨hnone, record?_setRecord_self ..⟩
  | _ => cases hr

theorem Step.known (hstep : Step w a reply w') (id : String) :
    (w'.queue.record? id).isSome ↔
      (w.queue.record? id).isSome ∨ id ∈ (reply.acceptedBy a).map (·.id) := by
  constructor
  · intro hknown
    cases hrecord : w.queue.record? id with
    | some record => exact .inl rfl
    | none =>
      rcases hstep.appears hrecord with hnone | ⟨r, hr, hid, -⟩
      · rw [hnone] at hknown
        cases hknown
      · exact .inr (List.mem_map.mpr ⟨r, hr, hid⟩)
  · rintro (hknown | hid)
    · obtain ⟨record, hrecord⟩ := Option.isSome_iff_exists.mp hknown
      obtain ⟨record', hrecord', -⟩ := hstep.becomes hrecord
      rw [hrecord']
      rfl
    · obtain ⟨r, hr, rfl⟩ := List.mem_map.mp hid
      rw [(hstep.accepted hr).2]
      rfl

theorem Step.known_of_cancels (hstep : Step w a reply w') (hcancels : reply.Cancels a id) :
    (w.queue.record? id).isSome := by
  obtain ⟨rfl | rfl, rfl⟩ := hcancels
  · cases hstep with
    | cancelWaiting hrecord _ => rw [hrecord]; rfl
    | cancelRunning hrecord _ => rw [hrecord]; rfl
  · cases hstep with
    | cancelToken hrecord => rw [hrecord]; rfl

/-- An entry that is taken out is delivered if its record waits and is not cancelled. -/
theorem Step.delivers (hstep : Step w a reply w') {r : ExecutionRequest}
    (hr : r ∈ reply.takenBy) (hrecord : w.queue.record? r.id = some record)
    (hwaits : record.status = .pending ∨ record.canceled = true) :
    reply.takenBy = [r] ∧ reply.deliveredBy = if record.canceled then [] else [r] := by
  cases hstep with
  | pass _ _ hnot =>
    cases List.mem_singleton.mp hr
    rw [if_pos (hwaits.resolve_left (hnot record hrecord))]
    exact ⟨rfl, rfl⟩
  | skip _ _ hold _ hcanceled =>
    cases List.mem_singleton.mp hr
    rw [hold] at hrecord
    cases hrecord
    rw [if_pos hcanceled]
    exact ⟨rfl, rfl⟩
  | deliver _ _ hold _ hcanceled =>
    cases List.mem_singleton.mp hr
    rw [hold] at hrecord
    cases hrecord
    rw [hcanceled]
    exact ⟨rfl, rfl⟩
  | _ => cases hr

theorem RecordStep.canceled_iff (hchange : RecordStep id record a reply record') :
    record'.canceled = true ↔ record.canceled = true ∨ reply.Cancels a id := by
  cases hchange with
  | keep hcancels _ => exact ⟨.inl, fun h => h.resolve_right hcancels⟩
  | cancelWaiting _ => exact ⟨fun _ => .inr ⟨.inl rfl, rfl⟩, fun _ => rfl⟩
  | cancelRunning _ => exact ⟨fun _ => .inr ⟨.inl rfl, rfl⟩, fun _ => rfl⟩
  | cancelToken => exact ⟨fun _ => .inr ⟨.inr rfl, rfl⟩, fun _ => rfl⟩
  | _ => exact ⟨.inl, fun h => h.resolve_right nofun⟩

/-- A request waits on unless it is cancelled or taken out of the channel. -/
theorem RecordStep.waits (hchange : RecordStep id record a reply record')
    (hid : id ∉ reply.takenBy.map (·.id))
    (hwaits : record.status = .pending ∨ record.canceled = true) :
    record'.status = .pending ∨ record'.canceled = true := by
  have hdequeued (hstatus : record.status = .dequeued) : record.canceled = true :=
    hwaits.resolve_left (by simp [hstatus])
  cases hchange with
  | keep _ _ => exact hwaits
  | skip _ _ hcanceled => exact .inr hcanceled
  | deliver hr _ _ => exact (hid (by simp [QueueReply.takenBy, hr])).elim
  | complete hstatus => exact .inr (hdequeued hstatus)
  | fail hstatus => exact .inr (hdequeued hstatus)
  | _ => exact .inr rfl

theorem RecordStep.taken (hchange : RecordStep id record a reply record')
    (hid : id ∈ reply.takenBy.map (·.id)) : record'.status ≠ .pending := by
  cases hchange with
  | keep _ htaken =>
    obtain ⟨r, hr, hrid⟩ := List.mem_map.mp hid
    exact htaken r hr hrid
  | skip _ _ _ => nofun
  | deliver _ _ _ => nofun
  | _ => cases hid

/-! ## Runs -/

/-- How the history and the state belong together. -/
structure Tracks (h : QueueHistory) (w : QueueWorld) : Prop where
  order : accepted h = (taken h).map Prod.fst ++ w.queue.channel
  unique : ((accepted h).map (·.id)).Nodup
  known : ∀ id, (w.queue.record? id).isSome ↔ id ∈ (accepted h).map (·.id)
  cancels : ∀ id, CanceledIn h id → (w.queue.record? id).isSome
  token : ∀ r ∈ accepted h, ∀ record, w.queue.record? r.id = some record →
    (record.canceled = true ↔ TokenCanceled h r)
  /-- What is in the channel is delivered unless it is cancelled. -/
  waits : ∀ r ∈ w.queue.channel, ∀ record, w.queue.record? r.id = some record →
    record.status = .pending ∨ record.canceled = true
  gone : ∀ p ∈ taken h, ∀ record, w.queue.record? p.1.id = some record →
    record.status ≠ .pending
  deliveries : delivered h = ((taken h).filter fun p => !p.2).map Prod.fst

namespace Tracks

theorem start : Tracks [] {} where
  order := rfl
  unique := .nil
  known _ := by simp [accepted, ExecutionQueue.record?, Fields.find?]
  cancels _ h := by simp [CanceledIn] at h
  token _ hr := by cases hr
  waits _ hr := by cases hr
  gone _ hp := by cases hp
  deliveries := rfl

variable (ht : Tracks h w)

include ht

theorem record_of_accepted {r : ExecutionRequest} (hr : r ∈ accepted h) :
    ∃ record, w.queue.record? r.id = some record :=
  Option.isSome_iff_exists.mp ((ht.known r.id).mpr (List.mem_map_of_mem hr))

theorem accepted_of_channel {r : ExecutionRequest} (hr : r ∈ w.queue.channel) :
    r ∈ accepted h := by
  rw [ht.order]
  exact List.mem_append_right _ hr

theorem accepted_of_taken {p : ExecutionRequest × Bool} (hp : p ∈ taken h) :
    p.1 ∈ accepted h := by
  rw [ht.order]
  exact List.mem_append_left _ (List.mem_map_of_mem hp)

theorem order_step (hstep : Step w a reply w') :
    accepted ((a, reply) :: h) =
      (taken ((a, reply) :: h)).map Prod.fst ++ w'.queue.channel := by
  calc accepted h ++ reply.acceptedBy a
      = (taken h).map Prod.fst ++ (w.queue.channel ++ reply.acceptedBy a) := by
        rw [ht.order, List.append_assoc]
    _ = (taken h).map Prod.fst ++ (reply.takenBy ++ w'.queue.channel) := by rw [hstep.channel]
    _ = (taken ((a, reply) :: h)).map Prod.fst ++ w'.queue.channel := by
        simp [taken, Function.comp_def]

theorem unique_step (hstep : Step w a reply w') :
    ((accepted ((a, reply) :: h)).map (·.id)).Nodup := by
  rw [accepted, List.map_append]
  refine List.nodup_append.mpr ⟨ht.unique, ?_, fun id hold id' hnew heq => ?_⟩
  · cases hstep with
    | accept _ => exact List.pairwise_singleton _ _
    | _ => exact List.nodup_nil
  · obtain ⟨r, hr, rfl⟩ := List.mem_map.mp hnew
    have hknown := (ht.known r.id).mpr (heq ▸ hold)
    rw [(hstep.accepted hr).1] at hknown
    cases hknown

theorem known_step (hstep : Step w a reply w') (id : String) :
    (w'.queue.record? id).isSome ↔ id ∈ (accepted ((a, reply) :: h)).map (·.id) := by
  rw [hstep.known, ht.known, accepted, List.map_append, List.mem_append]

theorem known_of_canceledIn (hstep : Step w a reply w')
    (hcanceled : CanceledIn ((a, reply) :: h) id) : (w.queue.record? id).isSome := by
  obtain ⟨e, he, hcancels⟩ := hcanceled
  rcases List.mem_cons.mp he with rfl | he
  · exact hstep.known_of_cancels hcancels
  · exact ht.cancels id ⟨e, he, hcancels⟩

theorem token_step (hstep : Step w a reply w') (r : ExecutionRequest)
    (hr : r ∈ accepted ((a, reply) :: h)) (record' : ExecutionRecord)
    (hrecord' : w'.queue.record? r.id = some record') :
    record'.canceled = true ↔ TokenCanceled ((a, reply) :: h) r := by
  rcases List.mem_append.mp hr with hold | hnew
  · obtain ⟨record, hrecord⟩ := ht.record_of_accepted hold
    obtain ⟨_, hnext, hchange⟩ := hstep.recordStep hrecord
    rw [hnext] at hrecord'
    cases hrecord'
    rw [hchange.canceled_iff, ht.token r hold record hrecord]
    exact tokenCanceled_cons.symm
  · obtain ⟨hnone, hsome⟩ := hstep.accepted hnew
    rw [hsome] at hrecord'
    cases hrecord'
    refine ⟨.inl, fun htoken => htoken.resolve_right fun hcanceled => ?_⟩
    have hknown := ht.known_of_canceledIn hstep hcanceled
    rw [hnone] at hknown
    cases hknown

theorem waits_step (hstep : Step w a reply w') (r : ExecutionRequest)
    (hr : r ∈ w'.queue.channel) (record' : ExecutionRecord)
    (hrecord' : w'.queue.record? r.id = some record') :
    record'.status = .pending ∨ record'.canceled = true := by
  have hmem : r ∈ w.queue.channel ++ reply.acceptedBy a := by
    rw [← hstep.channel]
    exact List.mem_append_right _ hr
  rcases List.mem_append.mp hmem with hold | hnew
  · obtain ⟨record, hrecord⟩ := ht.record_of_accepted (ht.accepted_of_channel hold)
    obtain ⟨_, hnext, hchange⟩ := hstep.recordStep hrecord
    rw [hnext] at hrecord'
    cases hrecord'
    refine hchange.waits (fun htaken => ?_) (ht.waits r hold record hrecord)
    -- what a step takes out is not in the channel any more
    have hunique := ht.unique_step hstep
    rw [ht.order_step hstep, List.map_append] at hunique
    refine (List.nodup_append.mp hunique).2.2 r.id ?_ r.id (List.mem_map_of_mem hr) rfl
    simp only [taken, List.map_append, List.map_map, Function.comp_def, List.mem_append]
    exact .inr htaken
  · rw [(hstep.accepted hnew).2] at hrecord'
    cases hrecord'
    exact .inl rfl

theorem gone_step (hstep : Step w a reply w') (p : ExecutionRequest × Bool)
    (hp : p ∈ taken ((a, reply) :: h)) (record' : ExecutionRecord)
    (hrecord' : w'.queue.record? p.1.id = some record') : record'.status ≠ .pending := by
  rcases List.mem_append.mp hp with hold | hnew
  · obtain ⟨record, hrecord⟩ := ht.record_of_accepted (ht.accepted_of_taken hold)
    obtain ⟨_, hnext, hbecomes⟩ := hstep.becomes hrecord
    rw [hnext] at hrecord'
    cases hrecord'
    exact hbecomes.ne_pending (ht.gone p hold record hrecord)
  · obtain ⟨r, hr, rfl⟩ := List.mem_map.mp hnew
    obtain ⟨record, hrecord⟩ :=
      ht.record_of_accepted (ht.accepted_of_channel (hstep.mem_channel hr))
    obtain ⟨_, hnext, hchange⟩ := hstep.recordStep hrecord
    rw [hnext] at hrecord'
    cases hrecord'
    exact hchange.taken (List.mem_map_of_mem hr)

theorem deliveries_step (hstep : Step w a reply w') :
    delivered ((a, reply) :: h) =
      ((taken ((a, reply) :: h)).filter fun p => !p.2).map Prod.fst := by
  rw [delivered, taken, List.filter_append, List.map_append, ht.deliveries]
  congr 1
  rcases List.eq_nil_or_concat reply.takenBy with hnone | ⟨_, r, hsome⟩
  · rw [hnone, reply.deliveredBy_eq_nil hnone]
    rfl
  · have hr : r ∈ reply.takenBy := by simp [hsome]
    have hchannel := hstep.mem_channel hr
    obtain ⟨record, hrecord⟩ := ht.record_of_accepted (ht.accepted_of_channel hchannel)
    have htoken := ht.token r (ht.accepted_of_channel hchannel) record hrecord
    obtain ⟨htaken, hdelivered⟩ := hstep.delivers hr hrecord (ht.waits r hchannel record hrecord)
    rw [htaken, hdelivered]
    by_cases hcanceled : TokenCanceled h r
    · simp [htoken.mpr hcanceled, hcanceled]
    · simp [mt htoken.mp hcanceled, hcanceled]

theorem step (hstep : Step w a reply w') : Tracks ((a, reply) :: h) w' where
  order := ht.order_step hstep
  unique := ht.unique_step hstep
  known := ht.known_step hstep
  cancels id hcanceled := by
    rw [hstep.known]
    exact .inl (ht.known_of_canceledIn hstep hcanceled)
  token := ht.token_step hstep
  waits := ht.waits_step hstep
  gone := ht.gone_step hstep
  deliveries := ht.deliveries_step hstep

end Tracks

theorem Runs.tracks (hrun : Runs {} h w) : Tracks h w := by
  induction hrun with
  | start => exact .start
  | @next h w a _ ih => exact ih.step (step_perform w a)

theorem Tracks.pending_once (ht : Tracks h w) (hpending : w.queue.status? id = some .pending) :
    (w.queue.channel.map (·.id)).count id = 1 := by
  obtain ⟨record, hrecord, hstatus⟩ := Option.map_eq_some_iff.mp hpending
  have hknown := (ht.known id).mp (by rw [hrecord]; rfl)
  have hunique := ht.unique
  rw [ht.order, List.map_append] at hknown hunique
  have htaken : id ∉ ((taken h).map Prod.fst).map (·.id) := fun hid => by
    simp only [List.map_map, List.mem_map] at hid
    obtain ⟨p, hp, rfl⟩ := hid
    exact ht.gone p hp record hrecord hstatus
  have hchannel := (List.mem_append.mp hknown).resolve_left htaken
  rw [(List.nodup_append.mp hunique).2.1.count, if_pos hchannel]

theorem Step.stopped (hstep : Step w a reply w') {stream : Nat} (hstopped : stream ∈ w.stopped) :
    stream ∈ w'.stopped := by
  cases hstep with
  | stop _ => exact List.mem_cons_of_mem _ hstopped
  | _ => exact hstopped

theorem Runs.stopped (hrun : Runs {} h w) {stream : Nat}
    (hstop : (.stop stream, reply) ∈ h) : stream ∈ w.stopped := by
  induction hrun with
  | start => cases hstop
  | @next h w a _ ih =>
    have hstep := step_perform w a
    rcases List.mem_cons.mp hstop with heq | hstop
    · cases (Prod.mk.inj heq).1
      exact List.mem_cons_self
    · exact hstep.stopped (ih hstop)

/-- When calls do not overlap, the streams together deliver the requests that are taken out of the
channel, in the order in which they were accepted, except those that are cancelled by then. None is
delivered twice, none is lost or duplicated, and a stream that was cancelled leaves the channel
alone. -/
theorem deliveries_in_order (hrun : Runs {} h w) :
    delivered h = ((taken h).filter fun p => !p.2).map Prod.fst ∧
    accepted h = (taken h).map Prod.fst ++ w.queue.channel ∧
    ((accepted h).map (·.id)).Nodup ∧ ((delivered h).map (·.id)).Nodup ∧
    (∀ id, w.queue.status? id = some .pending → (w.queue.channel.map (·.id)).count id = 1) ∧
    ∀ stream reply, (.stop stream, reply) ∈ h → w.perform (.take stream) = (.ended, w) := by
  have ht := hrun.tracks
  refine ⟨ht.deliveries, ht.order, ht.unique, ?_, fun id => ht.pending_once,
    fun stream reply hstop => if_pos (hrun.stopped hstop)⟩
  -- what is delivered is part of what was accepted
  have hsub : ((delivered h).map (·.id)).Sublist ((accepted h).map (·.id)) := by
    rw [ht.deliveries, ht.order]
    exact ((List.filter_sublist.map _).trans (List.sublist_append_left ..)).map _
  exact ht.unique.sublist hsub

end QueueWorld

end WorkflowEngine
