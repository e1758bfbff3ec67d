import WorkflowEngine.Proofs.Execution.Overlap

/-!
# Streams under overlapping calls

What was sent, taken out of the channel, marked and delivered is read off the log, and so is which
requests were cancelled when they were marked. `Flows` ties the order of the requests to the state:
they leave the channel in the order in which they were sent, and each stream marks what it takes in
that order, one at a time. `Settles` ties the records to it, when no record was made anew.

Between two streams there is no order: one can take a request out before the other and mark it after
it. And a request that was taken out and not marked yet waits, although the channel is without it.
-/

namespace WorkflowEngine

namespace QueueEvent

def insertedBy : QueueEvent → List ExecutionRequest
  | inserted r => [r]
  | replaced r => [r]
  | _ => []

def sentBy : QueueEvent → List ExecutionRequest
  | sent r => [r]
  | _ => []

/-- The request that a stream took out of the channel, if one did. -/
def poppedBy : QueueEvent → List (Nat × ExecutionRequest)
  | popped stream r => [(stream, r)]
  | _ => []

def deliveredBy : QueueEvent → List (Nat × ExecutionRequest)
  | marked stream r true => [(stream, r)]
  | _ => []

end QueueEvent

namespace SharedQueue

open QueueEvent (insertedBy sentBy poppedBy markedBy deliveredBy)

/-- What the events of a log tell, the earliest first. -/
def told {α : Type} (f : QueueEvent → List α) : QueueLog → List α
  | [] => []
  | e :: h => told f h ++ f e

theorem told_deliveredBy_sublist (h : QueueLog) :
    (told deliveredBy h).Sublist (told markedBy h) := by
  induction h with
  | nil => exact .slnil
  | cons e h ih =>
    refine ih.append ?_
    cases e with
    | marked stream r delivered =>
      cases delivered
      · exact List.nil_sublist _
      · exact .refl _
    | _ => exact .slnil

/-- The requests that have a record and were not marked yet: they are to be sent, in the channel, or
taken out of it. -/
def places (w : SharedQueue) : List ExecutionRequest :=
  w.sending ++ w.queue.channel ++ w.held.map Prod.snd

def ofStream (stream : Nat) (entries : List (Nat × ExecutionRequest)) :
    List (Nat × ExecutionRequest) := entries.filter (·.1 = stream)

variable {w w' : SharedQueue} {h : QueueLog} {e : QueueEvent} {stream : Nat}
  {r : ExecutionRequest} {entries : List (Nat × ExecutionRequest)}

@[simp] theorem ofStream_nil (stream : Nat) : ofStream stream [] = [] := rfl

@[simp] theorem ofStream_cons (stream other : Nat) (r : ExecutionRequest) :
    ofStream stream ((other, r) :: entries) =
      if other = stream then (other, r) :: ofStream stream entries
      else ofStream stream entries := by
  simp [ofStream, List.filter_cons]

@[simp] theorem ofStream_append (stream : Nat) (entries more : List (Nat × ExecutionRequest)) :
    ofStream stream (entries ++ more) = ofStream stream entries ++ ofStream stream more :=
  List.filter_append ..

theorem mem_ofStream (hr : (stream, r) ∈ entries) : (stream, r) ∈ ofStream stream entries :=
  List.mem_filter.mpr ⟨hr, by simp⟩

theorem ofStream_erase {other : Nat} (halone : ofStream other entries = [(other, r)]) :
    ofStream stream (entries.erase (other, r)) =
      if other = stream then [] else ofStream stream entries := by
  rw [ofStream, ← List.erase_filter]
  split
  · rename_i heq
    subst heq
    have hfilter : entries.filter (·.1 = other) = [(other, r)] := halone
    rw [hfilter, List.erase_cons_head]
  · rename_i hne
    exact List.erase_of_not_mem fun hmem => hne (by simpa using (List.mem_filter.mp hmem).2)

/-! ## The way of the requests -/

theorem Access.channel (haccess : Access w e w') :
    e.poppedBy.map Prod.snd ++ w'.queue.channel = w.queue.channel ++ e.sentBy := by
  cases haccess with
  | send _ => rfl
  | pop _ hpop =>
    rw [(ExecutionQueue.pop?_eq hpop).1]
    exact (List.append_nil _).symm
  | cancel id =>
    rw [ExecutionQueue.cancel_channel]
    exact (List.append_nil _).symm
  | cancelToken _ =>
    rw [ExecutionQueue.cancelToken_channel]
    exact (List.append_nil _).symm
  | complete hcomplete =>
    obtain ⟨_, -, -, rfl⟩ := ExecutionQueue.finish_ok hcomplete
    exact (List.append_nil _).symm
  | fail _ hfinish =>
    obtain ⟨_, -, -, rfl⟩ := ExecutionQueue.finish_ok hfinish
    exact (List.append_nil _).symm
  | _ => exact (List.append_nil _).symm

theorem Access.sending (haccess : Access w e w') :
    (e.insertedBy ++ w.sending).Perm (e.sentBy ++ w'.sending) := by
  cases haccess with
  | send hr => exact List.perm_cons_erase hr
  | _ => exact .refl _

theorem Access.held (haccess : Access w e w') :
    (e.poppedBy ++ w.held).Perm (e.markedBy ++ w'.held) := by
  cases haccess with
  | mark hr => exact List.perm_cons_erase hr
  | markAmiss _ hr _ _ _ => exact List.perm_cons_erase hr
  | _ => exact .refl _

theorem Access.places (haccess : Access w e w') :
    (e.insertedBy ++ w.places).Perm (e.markedBy.map Prod.snd ++ w'.places) := by
  refine List.perm_iff_count.mpr fun r => ?_
  have hchannel := congrArg (List.count r) haccess.channel
  have hsending := haccess.sending.count_eq r
  have hheld := (haccess.held.map Prod.snd).count_eq r
  simp only [SharedQueue.places, List.map_append, List.count_append] at hchannel hsending hheld ⊢
  omega

/-- How the order of the requests and the state belong together. -/
structure Flows (h : QueueLog) (w : SharedQueue) : Prop where
  order : told sentBy h = (told poppedBy h).map Prod.snd ++ w.queue.channel
  placed : (told insertedBy h).Perm ((told markedBy h).map Prod.snd ++ w.places)
  taken : (told poppedBy h).Perm (told markedBy h ++ w.held)
  inTurn : ∀ stream, ofStream stream (told poppedBy h) =
    ofStream stream (told markedBy h) ++ ofStream stream w.held
  /-- A stream marks what it took out before it takes out more. -/
  alone : ∀ stream r, (stream, r) ∈ w.held → ofStream stream w.held = [(stream, r)]
  polls : ∀ stream, w.polling = some stream → ofStream stream w.held = []

namespace Flows

theorem start : Flows [] {} where
  order := rfl
  placed := .nil
  taken := .nil
  inTurn _ := rfl
  alone _ _ hr := by cases hr
  polls _ hpolling := by cases hpolling

variable (hf : Flows h w)

include hf

/-- A stream that marks a request has that one in hand and no other. -/
theorem turn_mark (hr : (stream, r) ∈ w.held) (other : Nat) :
    ofStream other w.held ++ [] =
      ofStream other [(stream, r)] ++ ofStream other (w.held.erase (stream, r)) := by
  rw [ofStream_erase (hf.alone stream r hr), ofStream_cons, List.append_nil]
  split
  · rename_i heq
    subst heq
    exact hf.alone stream r hr
  · rfl

theorem order_next (haccess : Access w e w') :
    told sentBy (e :: h) = (told poppedBy (e :: h)).map Prod.snd ++ w'.queue.channel := by
  calc told sentBy h ++ e.sentBy
      = (told poppedBy h).map Prod.snd ++ (w.queue.channel ++ e.sentBy) := by
        rw [hf.order, List.append_assoc]
    _ = (told poppedBy h).map Prod.snd ++ (e.poppedBy.map Prod.snd ++ w'.queue.channel) := by
        rw [haccess.channel]
    _ = (told poppedBy (e :: h)).map Prod.snd ++ w'.queue.channel := by simp [told]

theorem placed_next (haccess : Access w e w') :
    (told insertedBy (e :: h)).Perm ((told markedBy (e :: h)).map Prod.snd ++ w'.places) := by
  refine List.perm_iff_count.mpr fun r => ?_
  have hbefore := hf.placed.count_eq r
  have hmoves := haccess.places.count_eq r
  simp only [told, List.map_append, List.count_append] at hbefore hmoves ⊢
  omega

theorem taken_next (haccess : Access w e w') :
    (told poppedBy (e :: h)).Perm (told markedBy (e :: h) ++ w'.held) := by
  refine List.perm_iff_count.mpr fun m => ?_
  have hbefore := hf.taken.count_eq m
  have hmoves := haccess.held.count_eq m
  simp only [told, List.count_append] at hbefore hmoves ⊢
  omega

theorem turn (haccess : Access w e w') (stream : Nat) :
    ofStream stream w.held ++ ofStream stream e.poppedBy =
      ofStream stream e.markedBy ++ ofStream stream w'.held := by
  cases haccess with
  | @pop other r _ hpolling _ =>
    simp only [poppedBy, markedBy, ofStream_cons, ofStream_nil, List.nil_append]
    split
    · rename_i heq
      subst heq
      rw [hf.polls _ hpolling]
      rfl
    · exact List.append_nil _
  | @mark other r hr => exact hf.turn_mark hr _
  | @markAmiss other r _ _ hr _ _ _ => exact hf.turn_mark hr _
  | _ => exact List.append_nil _

theorem inTurn_next (haccess : Access w e w') (stream : Nat) :
    ofStream stream (told poppedBy (e :: h)) =
      ofStream stream (told markedBy (e :: h)) ++ ofStream stream w'.held := by
  calc ofStream stream (told poppedBy h ++ e.poppedBy)
      = ofStream stream (told markedBy h) ++
          (ofStream stream w.held ++ ofStream stream e.poppedBy) := by
        rw [ofStream_append, hf.inTurn, List.append_assoc]
    _ = ofStream stream (told markedBy h) ++
          (ofStream stream e.markedBy ++ ofStream stream w'.held) := by
        rw [hf.turn haccess]
    _ = ofStream stream (told markedBy h ++ e.markedBy) ++ ofStream stream w'.held := by
        rw [ofStream_append, List.append_assoc]

theorem alone_erase {other : Nat} {s : ExecutionRequest} (hs : (other, s) ∈ w.held)
    (hr : (stream, r) ∈ w.held.erase (other, s)) :
    ofStream stream (w.held.erase (other, s)) = [(stream, r)] := by
  have hmem := mem_ofStream hr
  rw [ofStream_erase (hf.alone other s hs)] at hmem ⊢
  split at hmem
  · cases hmem
  · rename_i hne
    rw [if_neg hne]
    exact hf.alone stream r (List.mem_of_mem_erase hr)

theorem alone_next (haccess : Access w e w') (stream : Nat) (r : ExecutionRequest)
    (hr : (stream, r) ∈ w'.held) : ofStream stream w'.held = [(stream, r)] := by
  cases haccess with
  | @pop other s _ hpolling _ =>
    have hnone := hf.polls other hpolling
    rw [ofStream_cons]
    rcases List.mem_cons.mp hr with heq | hr
    · cases heq
      rw [if_pos rfl, hnone]
    · rw [if_neg, hf.alone stream r hr]
      rintro rfl
      rw [hf.alone other r hr] at hnone
      cases hnone
  | mark hs => exact hf.alone_erase hs hr
  | markAmiss _ hs _ _ _ => exact hf.alone_erase hs hr
  | _ => exact hf.alone stream r hr

theorem polls_erase {other : Nat} (hr : (other, r) ∈ w.held) (hpolling : w.polling = some stream) :
    ofStream stream (w.held.erase (other, r)) = [] := by
  rw [ofStream_erase (hf.alone other r hr), hf.polls stream hpolling]
  exact ite_self _

theorem polls_next (haccess : Access w e w') (stream : Nat)
    (hpolling : w'.polling = some stream) : ofStream stream w'.held = [] := by
  cases haccess with
  | poll _ _ hnone =>
    cases hpolling
    refine List.filter_eq_nil_iff.mpr fun m hm hstream => hnone m.2 ?_
    rwa [← of_decide_eq_true hstream]
  | wait _ => cases hpolling
  | pop _ _ => cases hpolling
  | mark hr => exact hf.polls_erase hr hpolling
  | markAmiss _ hr _ _ _ => exact hf.polls_erase hr hpolling
  | _ => exact hf.polls stream hpolling

theorem next (haccess : Access w e w') : Flows (e :: h) w' where
  order := hf.order_next haccess
  placed := hf.placed_next haccess
  taken := hf.taken_next haccess
  inTurn := hf.inTurn_next haccess
  alone := hf.alone_next haccess
  polls := hf.polls_next haccess

theorem made : (told insertedBy h).Perm (w.sending ++ told sentBy h) := by
  refine List.perm_iff_count.mpr fun r => ?_
  have hplaced := hf.placed.count_eq r
  have htaken := (hf.taken.map Prod.snd).count_eq r
  rw [hf.order]
  simp only [places, List.map_append, List.count_append] at hplaced htaken ⊢
  omega

theorem length_held (stream : Nat) : (ofStream stream w.held).length ≤ 1 := by
  cases hheld : ofStream stream w.held with
  | nil => exact Nat.zero_le 1
  | cons m rest =>
    have hm := List.mem_filter.mp (hheld ▸ List.mem_cons_self : m ∈ ofStream stream w.held)
    have halone := hf.alone m.1 m.2 hm.1
    rw [of_decide_eq_true hm.2, hheld] at halone
    rw [halone]
    exact Nat.le_refl 1

/-- A stream delivers in the order in which the requests were sent. -/
theorem delivered_sublist (stream : Nat) :
    ((ofStream stream (told deliveredBy h)).map Prod.snd).Sublist (told sentBy h) := by
  have hmarked : (ofStream stream (told deliveredBy h)).Sublist
      (ofStream stream (told markedBy h)) := (told_deliveredBy_sublist h).filter _
  have hpopped : (ofStream stream (told markedBy h)).Sublist (told poppedBy h) := by
    have hprefix := List.sublist_append_left (ofStream stream (told markedBy h))
      (ofStream stream w.held)
    rw [← hf.inTurn] at hprefix
    exact hprefix.trans List.filter_sublist
  rw [hf.order]
  exact ((hmarked.trans hpopped).map Prod.snd).trans (List.sublist_append_left ..)

end Flows

theorem Accesses.flows (hrun : Accesses {} h w) : Flows h w := by
  induction hrun with
  | start => exact .start
  | next _ haccess ih => exact ih.next haccess

/-! ## Streams that were cancelled -/

/-- A stream that was cancelled is at the channel for the last time, or not at all. -/
theorem Access.stopped (haccess : Access w e w') (hstopped : stream ∈ w.stopped) :
    stream ∈ w'.stopped ∧ (ofStream stream e.poppedBy).length +
      (if w'.polling = some stream then 1 else 0) ≤ if w.polling = some stream then 1 else 0 := by
  cases haccess with
  | stop other => exact ⟨List.mem_cons_of_mem _ hstopped, Nat.le_of_eq (Nat.zero_add _)⟩
  | poll hnot hnone _ =>
    refine ⟨hstopped, ?_⟩
    rw [if_neg]
    · exact Nat.zero_le _
    · rintro heq
      cases heq
      exact hnot hstopped
  | wait _ => exact ⟨hstopped, by simp [poppedBy]⟩
  | @pop other r _ hpolling _ =>
    refine ⟨hstopped, ?_⟩
    rw [hpolling]
    by_cases heq : other = stream <;> simp [poppedBy, heq]
  | _ => exact ⟨hstopped, Nat.le_of_eq (Nat.zero_add _)⟩

theorem Accesses.stopped (hrun : Accesses w h w') (hstopped : stream ∈ w.stopped) :
    stream ∈ w'.stopped ∧ (ofStream stream (told poppedBy h)).length +
      (if w'.polling = some stream then 1 else 0) ≤ if w.polling = some stream then 1 else 0 := by
  induction hrun with
  | start => exact ⟨hstopped, Nat.le_of_eq (Nat.zero_add _)⟩
  | next _ haccess ih =>
    obtain ⟨hbefore, hlast⟩ := ih
    obtain ⟨hafter, hstep⟩ := haccess.stopped hbefore
    refine ⟨hafter, ?_⟩
    rw [told, ofStream_append, List.length_append]
    omega

end SharedQueue

end WorkflowEngine
