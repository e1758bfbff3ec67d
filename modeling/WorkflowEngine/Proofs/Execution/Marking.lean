import WorkflowEngine.Proofs.Execution.Streams

/-!
# What overlapping streams deliver

A request that a stream takes out of the channel is delivered if it is not cancelled when the stream
marks it. `Settles` ties the records to the log for the runs in which no record was made anew, and
`deliveries_by_access` states what is true of all runs and of those.
-/

namespace WorkflowEngine.SharedQueue

open QueueEvent (insertedBy sentBy poppedBy markedBy deliveredBy)
open ExecutionQueue (record?_setRecord_self status?_of_record?)

def CanceledIn (h : QueueLog) (id : String) : Prop := ∃ e ∈ h, e.Cancels id

instance {h : QueueLog} {id : String} : Decidable (CanceledIn h id) :=
  inferInstanceAs (Decidable (∃ e ∈ h, _))

/-- The token of a request is cancelled: it was so when its record was made, or was cancelled
since. -/
def TokenCanceled (h : QueueLog) (r : ExecutionRequest) : Prop :=
  r.canceled = true ∨ CanceledIn h r.id

instance {h : QueueLog} {r : ExecutionRequest} : Decidable (TokenCanceled h r) :=
  inferInstanceAs (Decidable (_ ∨ _))

/-- What the streams marked, and whether it was cancelled at that moment. -/
def marks : QueueLog → List ((Nat × ExecutionRequest) × Bool)
  | [] => []
  | e :: h => marks h ++ e.markedBy.map fun m => (m, decide (TokenCanceled h m.2))

variable {w w' : SharedQueue} {h : QueueLog} {e : QueueEvent} {id : String}
  {r : ExecutionRequest} {m : Nat × ExecutionRequest} {record record' : ExecutionRecord}

theorem tokenCanceled_cons : TokenCanceled (e :: h) r ↔ TokenCanceled h r ∨ e.Cancels r.id := by
  simp only [TokenCanceled, CanceledIn, List.mem_cons, exists_eq_or_imp, or_assoc]
  rw [or_comm (a := e.Cancels r.id)]

/-! ## One access -/

theorem Access.inserted (haccess : Access w e w') (hr : r ∈ e.insertedBy) :
    w'.queue.record? r.id = some { canceled := r.canceled } := by
  cases haccess with
  | insert _ _ =>
    cases List.mem_singleton.mp hr
    exact record?_setRecord_self ..
  | replace _ _ =>
    cases List.mem_singleton.mp hr
    exact record?_setRecord_self ..
  | _ => cases hr

theorem Access.inserted_once (haccess : Access w e w') (hone : ∀ r, e ≠ .replaced r)
    (hr : r ∈ e.insertedBy) : w.queue.record? r.id = none ∧ e.insertedBy = [r] := by
  cases haccess with
  | insert _ hnone =>
    cases List.mem_singleton.mp hr
    exact ⟨hnone, rfl⟩
  | replace _ _ => exact (hone _ rfl).elim
  | _ => cases hr

theorem Access.known_iff (haccess : Access w e w') (id : String) :
    (w'.queue.record? id).isSome ↔
      (w.queue.record? id).isSome ∨ id ∈ e.insertedBy.map (·.id) := by
  constructor
  · intro hknown
    cases hrecord : w.queue.record? id with
    | some record => exact .inl rfl
    | none =>
      rcases haccess.appears hrecord with hnone | ⟨r, rfl, hid, -⟩
      · rw [hnone] at hknown
        cases hknown
      · exact .inr (List.mem_map.mpr ⟨r, List.mem_singleton_self r, hid⟩)
  · rintro (hknown | hid)
    · obtain ⟨record, hrecord⟩ := Option.isSome_iff_exists.mp hknown
      obtain ⟨record', hrecord', -⟩ := haccess.recordAccess hrecord
      rw [hrecord']
      rfl
    · obtain ⟨r, hr, rfl⟩ := List.mem_map.mp hid
      rw [haccess.inserted hr]
      rfl

theorem Access.known_of_cancels (haccess : Access w e w') (hcancels : e.Cancels id) :
    (w.queue.record? id).isSome := by
  rcases hcancels with heq | heq
  · generalize hevent : e = event at haccess
    cases haccess with
    | cancel other =>
      rw [heq] at hevent
      obtain ⟨rfl, hfound⟩ := QueueEvent.canceled.inj hevent
      obtain h | ⟨record, hrecord, -⟩ := w.queue.cancel_cases id
      · rw [h] at hfound
        cases hfound
      · rw [hrecord]
        rfl
    | _ => cases hevent.symm.trans heq
  · subst heq
    cases haccess with
    | cancelToken hrecord =>
      rw [hrecord]
      rfl

theorem Access.renewed (haccess : Access w e w') (hone : ∀ r, e ≠ .replaced r) :
    w'.renewed = w.renewed := by
  cases haccess with
  | replace _ _ => exact (hone _ rfl).elim
  | _ => rfl

theorem RecordAccess.canceled_iff (hchange : RecordAccess w id record e record')
    (hone : ∀ r, e ≠ .replaced r) :
    record'.canceled = true ↔ record.canceled = true ∨ e.Cancels id := by
  cases hchange with
  | keep hcancels _ => exact ⟨.inl, fun h => h.resolve_right hcancels⟩
  | replace _ => exact (hone _ rfl).elim
  | cancelWaiting _ => exact ⟨fun _ => .inr (.inl rfl), fun _ => rfl⟩
  | cancelRunning _ => exact ⟨fun _ => .inr (.inl rfl), fun _ => rfl⟩
  | cancelToken => exact ⟨fun _ => .inr (.inr rfl), fun _ => rfl⟩
  | _ => exact ⟨.inl, fun h => h.resolve_right (by simp [QueueEvent.Cancels])⟩

/-- A request waits on unless it is cancelled or marked. -/
theorem RecordAccess.waits (hchange : RecordAccess w id record e record')
    (hid : id ∉ e.markedBy.map (·.2.id))
    (hwaits : record.status = .pending ∨ record.canceled = true) :
    record'.status = .pending ∨ record'.canceled = true := by
  have hdequeued (hstatus : record.status = .dequeued) : record.canceled = true :=
    hwaits.resolve_left (by simp [hstatus])
  cases hchange with
  | keep _ _ => exact hwaits
  | replace _ => exact .inl rfl
  | skip hr _ _ => exact (hid (by simp [markedBy, hr])).elim
  | deliver hr _ _ => exact (hid (by simp [markedBy, hr])).elim
  | complete hstatus => exact .inr (hdequeued hstatus)
  | fail hstatus => exact .inr (hdequeued hstatus)
  | _ => exact .inr rfl

theorem RecordAccess.marked (hchange : RecordAccess w id record e record')
    (hid : id ∈ e.markedBy.map (·.2.id)) : record'.status ≠ .pending := by
  cases hchange with
  | keep _ hmarked =>
    obtain ⟨m, hm, hmid⟩ := List.mem_map.mp hid
    exact hmarked m hm hmid
  | skip _ _ _ => simp
  | deliver _ _ _ => simp
  | _ => cases hid

theorem Access.mem_held (haccess : Access w e w') (hm : m ∈ e.markedBy) : m ∈ w.held := by
  cases haccess with
  | mark hr =>
    cases List.mem_singleton.mp hm
    exact hr
  | markAmiss _ hr _ _ _ =>
    cases List.mem_singleton.mp hm
    exact hr
  | _ => cases hm

/-- A request that is marked is delivered if its record waits and is not cancelled. -/
theorem Access.delivers (haccess : Access w e w') (hrenewed : w.renewed = [])
    (hm : m ∈ e.markedBy) (hrecord : w.queue.record? m.2.id = some record)
    (hwaits : record.status = .pending ∨ record.canceled = true) :
    e.markedBy = [m] ∧ e.deliveredBy = if record.canceled then [] else [m] := by
  cases haccess with
  | @mark stream r _ =>
    cases List.mem_singleton.mp hm
    obtain ⟨hnot, h⟩ | ⟨old, hold, -, ⟨hcanceled, h⟩ | ⟨hcanceled, h⟩⟩ := w.queue.mark_cases r <;>
      rw [h]
    · rw [hwaits.resolve_left (hnot record hrecord)]
      exact ⟨rfl, rfl⟩
    · rw [hold] at hrecord
      cases hrecord
      rw [hcanceled]
      exact ⟨rfl, rfl⟩
    · rw [hold] at hrecord
      cases hrecord
      rw [hcanceled]
      exact ⟨rfl, rfl⟩
  | markAmiss _ _ hamiss _ _ =>
    rw [hrenewed] at hamiss
    cases hamiss
  | _ => cases hm

/-! ## Runs -/

/-- How the records and the log belong together as long as no record was made anew. -/
structure Settles (h : QueueLog) (w : SharedQueue) : Prop where
  renewed : w.renewed = []
  unique : ((told insertedBy h).map (·.id)).Nodup
  known : ∀ id, (w.queue.record? id).isSome ↔ id ∈ (told insertedBy h).map (·.id)
  cancels : ∀ id, CanceledIn h id → (w.queue.record? id).isSome
  token : ∀ r ∈ told insertedBy h, ∀ record, w.queue.record? r.id = some record →
    (record.canceled = true ↔ TokenCanceled h r)
  /-- What was not marked yet is delivered unless it is cancelled. -/
  waits : ∀ r ∈ w.places, ∀ record, w.queue.record? r.id = some record →
    record.status = .pending ∨ record.canceled = true
  gone : ∀ m ∈ told markedBy h, ∀ record, w.queue.record? m.2.id = some record →
    record.status ≠ .pending
  deliveries : told deliveredBy h = ((marks h).filter fun m => !m.2).map Prod.fst

theorem Flows.inserted_of_place (hf : Flows h w) (hr : r ∈ w.places) : r ∈ told insertedBy h :=
  hf.placed.mem_iff.mpr (List.mem_append_right _ hr)

theorem Flows.inserted_of_marked (hf : Flows h w) (hm : m ∈ told markedBy h) :
    m.2 ∈ told insertedBy h :=
  hf.placed.mem_iff.mpr (List.mem_append_left _ (List.mem_map_of_mem hm))

namespace Settles

theorem start : Settles [] {} where
  renewed := rfl
  unique := .nil
  known _ := by simp [told, ExecutionQueue.record?, Fields.find?]
  cancels _ h := by simp [CanceledIn] at h
  token _ hr := by cases hr
  waits _ hr := by cases hr
  gone _ hm := by cases hm
  deliveries := rfl

variable (hs : Settles h w)

include hs

theorem record_of_inserted (hr : r ∈ told insertedBy h) :
    ∃ record, w.queue.record? r.id = some record :=
  Option.isSome_iff_exists.mp ((hs.known r.id).mpr (List.mem_map_of_mem hr))

theorem unique_next (haccess : Access w e w') (hone : ∀ r, e ≠ .replaced r) :
    ((told insertedBy (e :: h)).map (·.id)).Nodup := by
  rw [told, List.map_append]
  refine List.nodup_append.mpr ⟨hs.unique, ?_, fun id hold id' hnew heq => ?_⟩
  · cases hinserted : e.insertedBy with
    | nil => exact .nil
    | cons r _ =>
      obtain ⟨-, h⟩ := haccess.inserted_once hone (hinserted ▸ List.mem_cons_self)
      rw [← hinserted, h]
      exact List.pairwise_singleton _ _
  · obtain ⟨r, hr, rfl⟩ := List.mem_map.mp hnew
    have hknown := (hs.known r.id).mpr (heq ▸ hold)
    rw [(haccess.inserted_once hone hr).1] at hknown
    cases hknown

theorem known_next (haccess : Access w e w') (id : String) :
    (w'.queue.record? id).isSome ↔ id ∈ (told insertedBy (e :: h)).map (·.id) := by
  rw [haccess.known_iff, hs.known, told, List.map_append, List.mem_append]

theorem known_of_canceledIn (haccess : Access w e w') (hcanceled : CanceledIn (e :: h) id) :
    (w.queue.record? id).isSome := by
  obtain ⟨event, hevent, hcancels⟩ := hcanceled
  rcases List.mem_cons.mp hevent with rfl | hevent
  · exact haccess.known_of_cancels hcancels
  · exact hs.cancels id ⟨event, hevent, hcancels⟩

theorem token_next (haccess : Access w e w') (hone : ∀ r, e ≠ .replaced r)
    (r : ExecutionRequest) (hr : r ∈ told insertedBy (e :: h)) (record' : ExecutionRecord)
    (hrecord' : w'.queue.record? r.id = some record') :
    record'.canceled = true ↔ TokenCanceled (e :: h) r := by
  rcases List.mem_append.mp hr with hold | hnew
  · obtain ⟨record, hrecord⟩ := hs.record_of_inserted hold
    obtain ⟨_, hnext, hchange⟩ := haccess.recordAccess hrecord
    rw [hnext] at hrecord'
    cases hrecord'
    rw [hchange.canceled_iff hone, hs.token r hold record hrecord]
    exact tokenCanceled_cons.symm
  · rw [haccess.inserted hnew] at hrecord'
    cases hrecord'
    refine ⟨.inl, fun htoken => htoken.resolve_right fun hcanceled => ?_⟩
    have hknown := hs.known_of_canceledIn haccess hcanceled
    rw [(haccess.inserted_once hone hnew).1] at hknown
    cases hknown

theorem waits_next (hf : Flows h w) (haccess : Access w e w') (hone : ∀ r, e ≠ .replaced r)
    (r : ExecutionRequest) (hr : r ∈ w'.places) (record' : ExecutionRecord)
    (hrecord' : w'.queue.record? r.id = some record') :
    record'.status = .pending ∨ record'.canceled = true := by
  rcases List.mem_append.mp (haccess.places.mem_iff.mpr (List.mem_append_right _ hr)) with
    hnew | hold
  · rw [haccess.inserted hnew] at hrecord'
    cases hrecord'
    exact .inl rfl
  · obtain ⟨record, hrecord⟩ := hs.record_of_inserted (hf.inserted_of_place hold)
    obtain ⟨_, hnext, hchange⟩ := haccess.recordAccess hrecord
    rw [hnext] at hrecord'
    cases hrecord'
    refine hchange.waits (fun hmarked => ?_) (hs.waits r hold record hrecord)
    -- what is marked has no place any more
    have hunique := ((hf.placed_next haccess).map (·.id)).nodup_iff.mp
      (hs.unique_next haccess hone)
    rw [List.map_append] at hunique
    refine (List.nodup_append.mp hunique).2.2 r.id ?_ r.id (List.mem_map_of_mem hr) rfl
    simp only [told, List.map_append, List.map_map, List.mem_append]
    exact .inr hmarked

theorem gone_next (hf : Flows h w) (haccess : Access w e w') (hone : ∀ r, e ≠ .replaced r)
    (m : Nat × ExecutionRequest) (hm : m ∈ told markedBy (e :: h)) (record' : ExecutionRecord)
    (hrecord' : w'.queue.record? m.2.id = some record') : record'.status ≠ .pending := by
  rcases List.mem_append.mp hm with hold | hnew
  · obtain ⟨record, hrecord⟩ := hs.record_of_inserted (hf.inserted_of_marked hold)
    obtain ⟨_, hnext, hchange⟩ := haccess.recordAccess hrecord
    rw [hnext] at hrecord'
    cases hrecord'
    exact (hchange.goes fun r hr => (hone r hr).elim).ne_pending (hs.gone m hold record hrecord)
  · have hplace : m.2 ∈ w.places :=
      List.mem_append_right _ (List.mem_map_of_mem (haccess.mem_held hnew))
    obtain ⟨record, hrecord⟩ := hs.record_of_inserted (hf.inserted_of_place hplace)
    obtain ⟨_, hnext, hchange⟩ := haccess.recordAccess hrecord
    rw [hnext] at hrecord'
    cases hrecord'
    exact hchange.marked (List.mem_map_of_mem hnew)

theorem deliveries_next (hf : Flows h w) (haccess : Access w e w') :
    told deliveredBy (e :: h) = ((marks (e :: h)).filter fun m => !m.2).map Prod.fst := by
  rw [told, marks, List.filter_append, List.map_append, hs.deliveries]
  congr 1
  cases hmarked : e.markedBy with
  | nil =>
    cases e with
    | marked _ _ _ => cases hmarked
    | _ => rfl
  | cons m rest =>
    have hm : m ∈ e.markedBy := by rw [hmarked]; exact List.mem_cons_self
    have hplace : m.2 ∈ w.places :=
      List.mem_append_right _ (List.mem_map_of_mem (haccess.mem_held hm))
    have hinserted := hf.inserted_of_place hplace
    obtain ⟨record, hrecord⟩ := hs.record_of_inserted hinserted
    have htoken := hs.token m.2 hinserted record hrecord
    obtain ⟨hone, hdelivered⟩ :=
      haccess.delivers hs.renewed hm hrecord (hs.waits m.2 hplace record hrecord)
    rw [← hmarked, hone, hdelivered]
    by_cases hcanceled : TokenCanceled h m.2
    · simp [htoken.mpr hcanceled, hcanceled]
    · simp [mt htoken.mp hcanceled, hcanceled]

theorem next (hf : Flows h w) (haccess : Access w e w') (hone : ∀ r, e ≠ .replaced r) :
    Settles (e :: h) w' where
  renewed := (haccess.renewed hone).trans hs.renewed
  unique := hs.unique_next haccess hone
  known := hs.known_next haccess
  cancels id hcanceled := by
    rw [haccess.known_iff]
    exact .inl (hs.known_of_canceledIn haccess hcanceled)
  token := hs.token_next haccess hone
  waits := hs.waits_next hf haccess hone
  gone := hs.gone_next hf haccess hone
  deliveries := hs.deliveries_next hf haccess

/-- A request that waits has one place. -/
theorem pending_once (hf : Flows h w) (hpending : w.queue.status? id = some .pending) :
    (w.places.map (·.id)).count id = 1 := by
  obtain ⟨record, hrecord, hstatus⟩ := Option.map_eq_some_iff.mp hpending
  have hids := hf.placed.map (·.id)
  have hunique := hids.nodup_iff.mp hs.unique
  have hknown := hids.mem_iff.mp ((hs.known id).mp (by rw [hrecord]; rfl))
  rw [List.map_append] at hunique hknown
  have hmarked : id ∉ ((told markedBy h).map Prod.snd).map (·.id) := fun hid => by
    simp only [List.map_map, List.mem_map] at hid
    obtain ⟨m, hm, rfl⟩ := hid
    exact hs.gone m hm record hrecord hstatus
  have hplace := (List.mem_append.mp hknown).resolve_left hmarked
  rw [(List.nodup_append.mp hunique).2.1.count, if_pos hplace]

end Settles

theorem Accesses.settles (hrun : Accesses {} h w) (hundisputed : ∀ id, Undisputed h id) :
    Settles h w := by
  induction hrun with
  | start => exact .start
  | next hrun haccess ih =>
    exact (ih fun id => (hundisputed id).tail).next hrun.flows haccess
      fun r hr => (hundisputed r.id).head r hr rfl

/-- The requests leave the channel in the order in which they were sent. Each stream marks what it
takes out in that order, one at a time, and so delivers in that order. A stream that was cancelled
takes out nothing but what it was already at the channel for. And as long as no record was made
anew, what is delivered is what was marked and not cancelled by then, none is delivered twice, and a
request that waits is to be sent, in the channel or in the hand of a stream, once. -/
theorem deliveries_by_access (hrun : Accesses {} h w) :
    told sentBy h = (told poppedBy h).map Prod.snd ++ w.queue.channel ∧
    (∀ stream, ofStream stream (told poppedBy h) =
        ofStream stream (told markedBy h) ++ ofStream stream w.held ∧
      (ofStream stream w.held).length ≤ 1 ∧
      ((ofStream stream (told deliveredBy h)).map Prod.snd).Sublist (told sentBy h)) ∧
    (∀ stream ∈ w.stopped, ∀ h' w', Accesses w h' w' →
      (ofStream stream (told poppedBy h')).length ≤ if w.polling = some stream then 1 else 0) ∧
    ((∀ id, Undisputed h id) →
      told deliveredBy h = ((marks h).filter fun m => !m.2).map Prod.fst ∧
      ((told sentBy h).map (·.id)).Nodup ∧ ((told deliveredBy h).map (·.2.id)).Nodup ∧
      ∀ id, w.queue.status? id = some .pending → (w.places.map (·.id)).count id = 1) := by
  have hf := hrun.flows
  refine ⟨hf.order, fun stream => ⟨hf.inTurn stream, hf.length_held stream,
    hf.delivered_sublist stream⟩, fun stream hstopped h' w' hlater => ?_, fun hundisputed => ?_⟩
  · exact Nat.le_trans (Nat.le_add_right _ _) (hlater.stopped hstopped).2
  · have hs := hrun.settles hundisputed
    have hsent := (hf.made.map (·.id)).nodup_iff.mp hs.unique
    have hmarked := (hf.placed.map (·.id)).nodup_iff.mp hs.unique
    rw [List.map_append] at hsent hmarked
    refine ⟨hs.deliveries, (List.nodup_append.mp hsent).2.1, ?_, fun id => hs.pending_once hf⟩
    have hsub := ((told_deliveredBy_sublist h).map Prod.snd).map (·.id)
    have hnodup := (List.nodup_append.mp hmarked).1.sublist hsub
    rwa [List.map_map] at hnodup

def early : ExecutionRequest := { id := "x", workflow := "w", user := "u" }

def late : ExecutionRequest := { id := "y", workflow := "w", user := "u" }

/-- A stream is cancelled when it is at the channel and takes out the first request. Another one
takes out and delivers the second request before the first is marked. -/
def overtaking : QueueLog :=
  [.marked 1 late true, .popped 1 late, .polled 1, .popped 0 early, .stopped 0, .polled 0,
    .sent late, .inserted late, .looked late, .sent early, .inserted early, .looked early]

theorem accesses_overtaking :
    Accesses {} overtaking
      { queue := { records := [("x", {}), ("y", { status := .dequeued })] }
        stopped := [0]
        held := [(0, early)] } := by
  have hsent := (accesses_enqueue {} early rfl).trans (accesses_enqueue _ late rfl)
  have hpoll : Access { queue := { records := [("x", {}), ("y", {})], channel := [early, late] } }
      (.polled 0) _ := .poll List.not_mem_nil rfl fun _ => List.not_mem_nil
  have hpop := (hpoll.single.next (.stop 0)).next (.pop rfl rfl)
  have hother : Access
      { queue := { records := [("x", {}), ("y", {})], channel := [late] }
        stopped := [0]
        held := [(0, early)] }
      (.polled 1) _ := .poll (by decide) rfl (by simp [early])
  have hmark := (hother.single.next (.pop rfl rfl)).next (.mark (.head _))
  exact (hsent.trans hpop).trans hmark

/-- The request that is in the hand of the first stream waits on. -/
theorem deliveries_by_access_overtaking :
    ∃ w, Accesses {} overtaking w ∧ (∀ id, Undisputed overtaking id) ∧
      told deliveredBy overtaking = [(1, late)] ∧
      told deliveredBy overtaking = ((marks overtaking).filter fun m => !m.2).map Prod.fst ∧
      w.queue.status? "x" = some .pending ∧ (w.places.map (·.id)).count "x" = 1 := by
  have hundisputed : ∀ id, Undisputed overtaking id := by simp [Undisputed, overtaking]
  obtain ⟨-, -, -, hall⟩ := deliveries_by_access accesses_overtaking
  obtain ⟨hdelivered, -, -, hplaces⟩ := hall hundisputed
  exact ⟨_, accesses_overtaking, hundisputed, rfl, hdelivered, rfl, hplaces "x" rfl⟩

/-- A stream that was cancelled takes a request out, which then waits although the channel is empty.
If the stream marks it now, it is delivered after the one that was sent after it. If it is cancelled
before that, it is not delivered, although it was not cancelled when it was taken out. -/
theorem overtaken_after_pop :
    ∃ w v v' : SharedQueue, Accesses {} overtaking w ∧
      w.queue.status? "x" = some .pending ∧ w.queue.channel = [] ∧
      told sentBy overtaking = [early, late] ∧
      told poppedBy overtaking = [(0, early), (1, late)] ∧ ¬TokenCanceled overtaking early ∧
      Access w (.marked 0 early true) v ∧
      told deliveredBy (.marked 0 early true :: overtaking) = [(1, late), (0, early)] ∧
      Accesses w [.marked 0 early false, .tokenCanceled "x"] v' ∧
      told deliveredBy (.marked 0 early false :: .tokenCanceled "x" :: overtaking) =
        [(1, late)] := by
  have hmark : Access
      { queue := { records := [("x", {}), ("y", { status := .dequeued })] }
        stopped := [0]
        held := [(0, early)] }
      (.marked 0 early true) _ := .mark (.head _)
  have hcancel : Access
      { queue := { records := [("x", {}), ("y", { status := .dequeued })] }
        stopped := [0]
        held := [(0, early)] }
      (.tokenCanceled "x")
      { queue := { records := [("x", { canceled := true }), ("y", { status := .dequeued })] }
        stopped := [0]
        held := [(0, early)] } := .cancelToken rfl
  have hskip := hcancel.single.next (.mark (.head _))
  exact ⟨_, _, _, accesses_overtaking, rfl, rfl, rfl, rfl, by decide, hmark, rfl, hskip, rfl⟩

end WorkflowEngine.SharedQueue
