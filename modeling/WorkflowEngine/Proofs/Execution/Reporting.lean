import WorkflowEngine.Proofs.Execution.EngineRuns
import WorkflowEngine.Proofs.Execution.Fate

/-!
# Requests are reported

Every request that a worker takes is reported once, and its status says what came of it: a result is
a completion, a failure is a cancellation if the token of the request was cancelled by the time the
report looked, and a failure otherwise. Who cancelled the token is read off the history; an executor
never does.
-/

namespace WorkflowEngine

namespace WorkerWorld

variable {O : Orchestrator} {w w' : WorkerWorld O} {h h' : WorkerHistory} {e : WorkerEvent}
  {k : Nat} {id : String} {r : ExecutionRequest} {result : ExecutionResult}

/-! ## What a history tells -/

/-- The workers that handed a request to their orchestrator. -/
def handedBy (id : String) (h : WorkerHistory) : List Nat :=
  h.filterMap fun
    | .handed k r => if r.id = id then some k else none
    | _ => none

/-- The results that a request has had. -/
def results (id : String) (h : WorkerHistory) : List ExecutionResult :=
  h.filterMap fun
    | .resulted _ r result _ => if r.id = id then some result else none
    | _ => none

/-- What the queue answered to reports of a request. -/
def replies (id : String) (h : WorkerHistory) : List QueueReply :=
  h.filterMap fun
    | .reported _ r reply => if r.id = id then some reply else none
    | _ => none

def CanceledIn (h : WorkerHistory) (id : String) : Prop := ∃ e ∈ h, e.Cancels id

/-- The token of the request was cancelled when the report of its failure looked. -/
def CanceledAtReport (h : WorkerHistory) (r : ExecutionRequest) : Prop :=
  ∃ k canceled before, .looked k r canceled :: before <:+ h ∧ CanceledIn before r.id

/-- How many moves a worker made on the way of its requests to their reports. -/
def movesOf (k : Nat) (h : WorkerHistory) : Nat := h.countP fun e => e.mover? = some k

theorem filterMap_story {β : Type} {f : WorkerEvent → Option β}
    (hf : ∀ e, e.about ≠ some id → f e = none) :
    (story id h).filterMap f = h.filterMap f := by
  rw [story, List.filterMap_filter]
  congr 1
  funext e
  by_cases habout : e.about = some id
  · simp [habout]
  · simp [habout, hf e habout]

theorem handedBy_story : handedBy id (story id h) = handedBy id h := by
  refine filterMap_story fun e habout => ?_
  cases e with
  | handed k r => exact if_neg fun hid => habout (congrArg some hid)
  | _ => rfl

theorem results_story : results id (story id h) = results id h := by
  refine filterMap_story fun e habout => ?_
  cases e with
  | resulted k r result interrupted => exact if_neg fun hid => habout (congrArg some hid)
  | _ => rfl

theorem replies_story : replies id (story id h) = replies id h := by
  refine filterMap_story fun e habout => ?_
  cases e with
  | reported k r reply => exact if_neg fun hid => habout (congrArg some hid)
  | _ => rfl

/-! ## Whose story it is -/

theorem Held.eq_of_took {S : Type} {state : WorkerState S} {k₀ : Nat} {r₀ : ExecutionRequest}
    (hheld : Held k₀ r₀ state h) (htook : .took k r ∈ h) : k = k₀ ∧ r = r₀ := by
  cases hheld <;> simpa using htook

theorem Held.took_mem {S : Type} {state : WorkerState S} (hheld : Held k r state h) :
    .took k r ∈ h := by
  cases hheld <;> simp

theorem Finished.eq_of_took {status : ExecutionStatus} {reason : Option String} {k₀ : Nat}
    {r₀ : ExecutionRequest} (hfinished : Finished k₀ r₀ status reason h) (htook : .took k r ∈ h) :
    k = k₀ ∧ r = r₀ := by
  cases hfinished <;> simpa using htook

theorem Fate.of_took (hfate : Fate h w r.id) (htook : .took k r ∈ h) :
    (w.status? r.id = some .dequeued ∧ Held k r (w.workers k) (story r.id h)) ∨
      (w.workers k).request? ≠ some r ∧ ∃ record, w.record? r.id = some record ∧
        Finished k r record.status record.failure (story r.id h) := by
  have hmem := mem_story htook rfl
  cases hfate with
  | untaken hstory _ =>
    rw [hstory] at hmem
    cases hmem
  | held k₀ r₀ hid hstatus hheld _ =>
    obtain ⟨rfl, rfl⟩ := hheld.eq_of_took hmem
    exact .inl ⟨hstatus, hheld⟩
  | reported k₀ r₀ record hid hrecord hfinished hnobody =>
    obtain ⟨rfl, rfl⟩ := hfinished.eq_of_took hmem
    exact .inr ⟨fun hhas => hnobody k r hhas rfl, record, hrecord, hfinished⟩

theorem Fate.record_of_took (hfate : Fate h w r.id) (htook : .took k r ∈ h) :
    ∃ record, w.record? r.id = some record := by
  obtain ⟨hstatus, -⟩ | ⟨-, record, hrecord, -⟩ := hfate.of_took htook
  · obtain ⟨record, hrecord, -⟩ := Option.map_eq_some_iff.mp hstatus
    exact ⟨record, hrecord⟩
  · exact ⟨record, hrecord⟩

/-! ## Tokens -/

theorem Step.isCanceled (hstep : Step w e w') {record : ExecutionRecord}
    (hrecord : w.record? id = some record) :
    w'.isCanceled id = true ↔ w.isCanceled id = true ∨ e.Cancels id := by
  obtain ⟨record', hrecord', hleaves⟩ := hstep.leaves hrecord
  rw [isCanceled_eq, isCanceled_eq, hrecord, hrecord']
  exact hleaves.canceled

/-- Who cancels a token cancels that of a request that is known. -/
theorem Step.known_of_cancels (hstep : Step w e w') (hfate : Fate h w id)
    (hcancels : e.Cancels id) : ∃ record, w.record? id = some record := by
  have hhas {k : Nat} {r : ExecutionRequest} (hhas : (w.workers k).request? = some r)
      (hid : r.id = id) : ∃ record, w.record? id = some record := by
    subst hid
    obtain ⟨record, hrecord, -⟩ := Option.map_eq_some_iff.mp (hfate.of_request? hhas).1
    exact ⟨record, hrecord⟩
  cases hstep with
  | @others a _ =>
    exact Option.isSome_iff_exists.mp
      ((QueueWorld.step_perform w.queue a).known_of_cancels hcancels)
  | cancel hk _ => exact hhas (by rw [hk]; rfl) hcancels
  | interrupt hk _ => exact hhas (by rw [hk]; rfl) hcancels.1
  | result _ _ => exact nomatch hcancels.2
  | _ => exact hcancels.elim

/-- The tokens are cancelled that the history says are cancelled, and a report sees it. -/
structure Tokens (h : WorkerHistory) (w : WorkerWorld O) : Prop where
  canceled : ∀ id, CanceledIn h id → w.isCanceled id = true
  taken : ∀ k r, .took k r ∈ h → w.isCanceled r.id = true → CanceledIn h r.id
  looks : ∀ k r canceled before, .looked k r canceled :: before <:+ h →
    (canceled = true ↔ CanceledIn before r.id)

theorem Tokens.canceled_step (ht : Tokens h w) (hfate : ∀ id, Fate h w id) (hstep : Step w e w')
    (hcanceled : CanceledIn (e :: h) id) : w'.isCanceled id = true := by
  obtain ⟨e', hmem, hcancels⟩ := hcanceled
  rcases List.mem_cons.mp hmem with rfl | hmem
  · obtain ⟨record, hrecord⟩ := hstep.known_of_cancels (hfate id) hcancels
    exact (hstep.isCanceled hrecord).mpr (.inr hcancels)
  · have hbefore := ht.canceled id ⟨e', hmem, hcancels⟩
    cases hrecord : w.record? id with
    | none =>
      rw [isCanceled_eq, hrecord] at hbefore
      cases hbefore
    | some record => exact (hstep.isCanceled hrecord).mpr (.inl hbefore)

theorem Tokens.taken_step (ht : Tokens h w) (hfate : ∀ id, Fate h w id) (hstep : Step w e w')
    (htook : .took k r ∈ e :: h) (hcanceled : w'.isCanceled r.id = true) :
    CanceledIn (e :: h) r.id := by
  rcases List.mem_cons.mp htook with rfl | htook
  · -- a request is delivered only if its token is not cancelled
    cases hstep with
    | take _ hreply =>
      have hdelivered := QueueWorld.step_perform w.queue (.take k)
      rw [hreply] at hdelivered
      obtain ⟨record, -, -, hfresh, hrecord⟩ := hdelivered.delivered_record
      rw [isCanceled_eq, record?_put, record?_setQueue, hrecord] at hcanceled
      simp [hfresh] at hcanceled
  · obtain ⟨record, hrecord⟩ := (hfate r.id).record_of_took htook
    rcases (hstep.isCanceled hrecord).mp hcanceled with hbefore | hcancels
    · obtain ⟨e', hmem, hcancels⟩ := ht.taken k r htook hbefore
      exact ⟨e', List.mem_cons_of_mem _ hmem, hcancels⟩
    · exact ⟨e, List.mem_cons_self, hcancels⟩

theorem Tokens.looks_step (ht : Tokens h w) (hfate : ∀ id, Fate h w id) (hstep : Step w e w')
    {canceled : Bool} {before : WorkerHistory}
    (hsuffix : .looked k r canceled :: before <:+ e :: h) :
    canceled = true ↔ CanceledIn before r.id := by
  rcases List.suffix_cons_iff.mp hsuffix with heq | hsuffix
  · cases heq
    cases hstep with
    | look hk =>
      obtain ⟨-, hheld, -⟩ := (hfate r.id).of_request? (k := k) (by rw [hk]; rfl)
      exact ⟨ht.taken k r (mem_of_story hheld.took_mem), ht.canceled r.id⟩
  · exact ht.looks k r canceled before hsuffix

theorem Runs.tokens (hrun : Runs {} h w) : Tokens h w := by
  induction hrun with
  | start =>
    refine ⟨fun id hcanceled => ?_, nofun, fun k r canceled before hsuffix => ?_⟩
    · obtain ⟨_, hmem, -⟩ := hcanceled
      cases hmem
    · cases List.suffix_nil.mp hsuffix
  | next hbefore hstep ih =>
    exact ⟨fun _ => ih.canceled_step hbefore.fate hstep,
      fun _ _ => ih.taken_step hbefore.fate hstep,
      fun _ _ _ _ => ih.looks_step hbefore.fate hstep⟩

/-! ## On the way to the report -/

theorem Moves.progress {S : Type} {state state' : WorkerState S} (hmoves : Moves k state e state')
    (hhas : state.request? = some r) :
    (∃ reply, e = .reported k r reply) ∨ state'.request? = some r ∧
      state'.distance + (if e.mover? = some k then 1 else 0) ≤ state.distance := by
  cases hmoves with
  | stay hother => exact .inr ⟨hhas, by rw [if_neg hother]; exact Nat.le_refl _⟩
  | work hnobody _ => exact .inr ⟨hhas, by rw [if_neg (by simp [hnobody])]; exact Nat.le_refl _⟩
  | hand => exact .inr ⟨hhas, by simp [WorkerEvent.mover?, WorkerState.distance]⟩
  | result => exact .inr ⟨hhas, by simp [WorkerEvent.mover?, WorkerState.distance]⟩
  | look => exact .inr ⟨hhas, by simp [WorkerEvent.mover?, WorkerState.distance]⟩
  | @complete _ reply =>
    cases hhas
    exact .inl ⟨reply, rfl⟩
  | @fail _ _ _ reply =>
    cases hhas
    exact .inl ⟨reply, rfl⟩
  | _ => cases hhas

/-- Every move of a worker brings its request nearer to the report, and nobody else takes it
back. -/
theorem Runs.progress (hlater : Runs w h' w') (hhas : (w.workers k).request? = some r) :
    (∃ reply, .reported k r reply ∈ h') ∨ (w'.workers k).request? = some r ∧
      (w'.workers k).distance + movesOf k h' ≤ (w.workers k).distance := by
  induction hlater with
  | start => exact .inr ⟨hhas, Nat.le_refl _⟩
  | @next h₁ w₁ w₂ e _ hstep ih =>
    rcases ih with ⟨reply, hmem⟩ | ⟨hhas₁, hle⟩
    · exact .inl ⟨reply, List.mem_cons_of_mem _ hmem⟩
    · rcases (hstep.moves k).progress hhas₁ with ⟨reply, rfl⟩ | ⟨hhas₂, hmove⟩
      · exact .inl ⟨reply, List.mem_cons_self⟩
      · refine .inr ⟨hhas₂, ?_⟩
        rw [movesOf, List.countP_cons]
        rw [movesOf] at hle
        simp only [decide_eq_true_eq]
        omega

theorem distance_pos {S : Type} {state : WorkerState S} (hhas : state.request? = some r) :
    0 < state.distance := by
  cases state with
  | absent => cases hhas
  | idle => cases hhas
  | returned => cases hhas
  | _ => simp [WorkerState.distance]

/-- A worker that has a request can move, once there is a result or a shutdown to wait for no
longer. -/
theorem can_move (hhas : (w.workers k).request? = some r)
    (hready : ∀ s, w.workers k = .running r s →
      k ∈ w.queue.stopped ∨ ∃ result, O.Returns s result) :
    ∃ e w', Step w e w' ∧ e.mover? = some k := by
  cases hk : w.workers k with
  | holding r₁ =>
    obtain ⟨s, hbegins⟩ := O.begins r₁ (w.isCanceled r₁.id)
    exact ⟨_, _, .hand hk hbegins, rfl⟩
  | running r₁ s =>
    rw [hk] at hhas
    cases hhas
    rcases hready s hk with hstopped | ⟨result, hreturns⟩
    · exact ⟨_, _, .interrupt hk hstopped, rfl⟩
    · exact ⟨_, _, .result hk hreturns, rfl⟩
  | reporting r₁ result =>
    cases result with
    | succeeded => exact ⟨_, _, .complete hk, rfl⟩
    | failed reason => exact ⟨_, _, .look hk, rfl⟩
  | failing r₁ reason canceled => exact ⟨_, _, .fail hk, rfl⟩
  | _ =>
    rw [hk] at hhas
    cases hhas

/-! ## What a report comes to -/

/-- How a request stands that was reported. -/
structure Settled (h : WorkerHistory) (w : WorkerWorld O) (r : ExecutionRequest)
    (result : ExecutionResult) : Prop where
  /-- The execution had this result and no other. -/
  one_result : results r.id h = [result]
  /-- It was reported once, and the report was accepted. -/
  one_reply : replies r.id h = [.done]
  completed : w.status? r.id = some .completed ↔ result = .succeeded
  canceled : w.status? r.id = some .canceled ↔ result ≠ .succeeded ∧ CanceledAtReport h r
  failed : w.status? r.id = some .failed ↔ result ≠ .succeeded ∧ ¬CanceledAtReport h r
  reason : w.queue.queue.failure? r.id = result.reason?
  not_dequeued : w.status? r.id ≠ some .dequeued

theorem Tokens.canceledAtReport_iff (ht : Tokens h w) {canceled : Bool}
    (hlooked : .looked k r canceled ∈ h)
    (honly : ∀ k' canceled', .looked k' r canceled' ∈ h → canceled' = canceled) :
    CanceledAtReport h r ↔ canceled = true := by
  constructor
  · rintro ⟨k', canceled', before, hsuffix, hcanceled⟩
    rw [← honly k' canceled' (hsuffix.subset List.mem_cons_self)]
    exact (ht.looks k' r canceled' before hsuffix).mpr hcanceled
  · intro hcanceled
    obtain ⟨later, before, rfl⟩ := List.append_of_mem hlooked
    have hsuffix : .looked k r canceled :: before <:+ later ++ .looked k r canceled :: before :=
      List.suffix_append ..
    exact ⟨k, canceled, before, hsuffix, (ht.looks k r canceled before hsuffix).mp hcanceled⟩

theorem Finished.settled {record : ExecutionRecord} (ht : Tokens h w)
    (hrecord : w.record? r.id = some record)
    (hfinished : Finished k r record.status record.failure (story r.id h)) :
    ∃ result, Settled h w r result := by
  have hstatus : w.status? r.id = some record.status := ExecutionQueue.status?_of_record? hrecord
  have hfailure : w.queue.queue.failure? r.id = record.failure := by
    rw [ExecutionQueue.failure?, show w.queue.queue.record? r.id = some record from hrecord]
    rfl
  have hresults : results r.id h = _ := results_story.symm
  have hreplies : replies r.id h = _ := replies_story.symm
  have hmem {e : WorkerEvent} (habout : e.about = some r.id) : e ∈ h ↔ e ∈ story r.id h :=
    ⟨fun hmem => mem_story hmem habout, mem_of_story⟩
  generalize record.status = status at hfinished hstatus
  generalize record.failure = failure at hfinished hfailure
  generalize story r.id h = told at hfinished hresults hreplies hmem
  cases hfinished with
  | completed =>
    refine ⟨.succeeded, hresults.trans (by simp [results]),
      hreplies.trans (by simp [replies]), ?_, ?_, ?_, hfailure, ?_⟩ <;>
      simp [hstatus]
  | @failed reason canceled interrupted =>
    have hlooked : .looked k r canceled ∈ h := (hmem rfl).mpr (by simp)
    have honly : ∀ k' canceled', .looked k' r canceled' ∈ h → canceled' = canceled := by
      intro k' canceled' hother
      have hother := (hmem rfl).mp hother
      simp at hother
      exact hother.2
    have hlook := ht.canceledAtReport_iff hlooked honly
    refine ⟨.failed reason, hresults.trans (by simp [results]),
      hreplies.trans (by simp [replies]), ?_, ?_, ?_, hfailure, ?_⟩ <;>
      cases canceled <;> simp [hstatus, hlook]

/-- A request that was taken is not reported yet and its worker still has it, or it is settled. -/
theorem Runs.held_or_settled (hrun : Runs {} h w) (htook : .took k r ∈ h) :
    ((w.workers k).request? = some r ∧ w.status? r.id = some .dequeued ∧ replies r.id h = []) ∨
      (w.workers k).request? ≠ some r ∧ ∃ result, Settled h w r result := by
  rcases (hrun.fate r.id).of_took htook with ⟨hstatus, hheld⟩ | ⟨hgone, record, hrecord, hfinished⟩
  · refine .inl ⟨hheld.request?, hstatus, ?_⟩
    rw [← replies_story]
    generalize w.workers k = state at hheld
    generalize story r.id h = told at hheld
    cases hheld <;> simp [replies]
  · exact .inr ⟨hgone, hfinished.settled hrun.tokens hrecord⟩

theorem Runs.handed_once (hrun : Runs {} h w) (htook : .took k r ∈ h) :
    (handedBy r.id h).length ≤ 1 := by
  rw [← handedBy_story]
  rcases (hrun.fate r.id).of_took htook with ⟨-, hheld⟩ | ⟨-, record, -, hfinished⟩
  · generalize w.workers k = state at hheld
    generalize story r.id h = told at hheld
    cases hheld <;> simp [handedBy]
  · generalize record.status = status at hfinished
    generalize record.failure = failure at hfinished
    generalize story r.id h = told at hfinished
    cases hfinished <;> simp [handedBy]

/-- A request is settled once its worker has made the moves that it has to make. -/
theorem Runs.goes_on (hrun : Runs {} h w) (hhas : (w.workers k).request? = some r)
    (hlater : Runs w h' w') (hmoves : (w.workers k).distance ≤ movesOf k h') :
    ∃ result, Settled (h' ++ h) w' r result := by
  have hreported : ∃ reply, .reported k r reply ∈ h' := by
    refine (hlater.progress hhas).resolve_right fun ⟨hstill, hle⟩ => ?_
    have hpos := distance_pos hstill
    omega
  obtain ⟨reply, hreported⟩ := hreported
  obtain ⟨-, hheld, -⟩ := (hrun.fate r.id).of_request? hhas
  have htook : .took k r ∈ h' ++ h :=
    List.mem_append_right _ (mem_of_story hheld.took_mem)
  refine (((hrun.trans hlater).held_or_settled htook).resolve_left fun ⟨_, _, hnone⟩ => ?_).2
  have hreply : reply ∈ replies r.id (h' ++ h) :=
    List.mem_filterMap.mpr ⟨_, List.mem_append_left _ hreported, if_pos rfl⟩
  rw [hnone] at hreply
  cases hreply

/-! ## Executors -/

theorem Runs.resulted {w₀ : WorkerWorld O} (hrun : Runs w₀ h w) {interrupted : Bool}
    (hmem : .resulted k r result interrupted ∈ h) :
    interrupted = true ∨ ∃ s, O.Returns s result := by
  induction hrun with
  | start => cases hmem
  | next _ hstep ih =>
    rcases List.mem_cons.mp hmem with rfl | hmem
    · cases hstep with
      | result _ hreturns => exact .inr ⟨_, hreturns⟩
      | interrupt _ _ => exact .inl rfl
    · exact ih hmem

/-- An orchestrator that cancels no token leaves that to others. -/
theorem Runs.canceled_from_outside {w₀ : WorkerWorld O} (hnever : ∀ s s', ¬O.Cancels s s')
    (hrun : Runs w₀ h w) (hmem : e ∈ h) (hcancels : e.Cancels id) : e.CancelsFromOutside id := by
  induction hrun with
  | start => cases hmem
  | next _ hstep ih =>
    rcases List.mem_cons.mp hmem with rfl | hmem
    · cases hstep with
      | cancel _ hown => exact (hnever _ _ hown).elim
      | _ => exact hcancels
    · exact ih hmem

/-- Someone other than the orchestrator had cancelled the request when the report of its failure
looked. -/
def CanceledByOthers (h : WorkerHistory) (r : ExecutionRequest) : Prop :=
  ∃ k canceled before, .looked k r canceled :: before <:+ h ∧
    ∃ e ∈ before, e.CancelsFromOutside r.id

theorem Runs.canceledAtReport_iff (hrun : Runs {} h w) (hnever : ∀ s s', ¬O.Cancels s s') :
    CanceledAtReport h r ↔ CanceledByOthers h r := by
  constructor
  · rintro ⟨k, canceled, before, hsuffix, e, hmem, hcancels⟩
    have hmem' : e ∈ h := hsuffix.subset (List.mem_cons_of_mem _ hmem)
    exact ⟨k, canceled, before, hsuffix, e, hmem,
      hrun.canceled_from_outside hnever hmem' hcancels⟩
  · rintro ⟨k, canceled, before, hsuffix, e, hmem, hcancels⟩
    refine ⟨k, canceled, before, hsuffix, e, hmem, ?_⟩
    cases e with
    | canceled _ _ => exact hcancels.elim
    | _ => exact hcancels

section Executors

variable {x : Executor} {w : WorkerWorld x.orchestrator}

theorem Settled.canceled_iff (hrun : Runs {} h w) (hsettled : Settled h w r result)
    (hfailed : result ≠ .succeeded) :
    w.status? r.id = some .canceled ↔ CanceledByOthers h r := by
  rw [hsettled.canceled, hrun.canceledAtReport_iff fun _ _ h => h]
  exact and_iff_right hfailed

/-- An error of the executor is recorded as a failure, with its text, unless someone has cancelled
the request. -/
theorem Settled.own_failure (hrun : Runs {} h w) (hsettled : Settled h w r result)
    (hfailed : result ≠ .succeeded) (hnobody : ∀ e ∈ h, ¬e.CancelsFromOutside r.id) :
    w.status? r.id = some .failed ∧ ∃ error : ExecutionError,
      result = .failed error.message ∧ w.queue.queue.failure? r.id = some error.message := by
  have hnever : ¬CanceledAtReport h r := by
    rw [hrun.canceledAtReport_iff fun _ _ h => h]
    rintro ⟨k, canceled, before, hsuffix, e, hmem, hcancels⟩
    exact hnobody e (hsuffix.subset (List.mem_cons_of_mem _ hmem)) hcancels
  refine ⟨hsettled.failed.mpr ⟨hfailed, hnever⟩, ?_⟩
  have hresult : result ∈ results r.id h := by simp [hsettled.one_result]
  obtain ⟨e, hmem, he⟩ := List.mem_filterMap.mp hresult
  cases e with
  | resulted k r' result' interrupted =>
    dsimp only at he
    split at he
    · rename_i hid
      cases he
      rcases hrun.resulted hmem with hinterrupted | ⟨s, hreturns⟩
      · exact (hnobody _ hmem ⟨hid, hinterrupted⟩).elim
      · obtain ⟨error, rfl⟩ := Executor.error_of_result? hreturns hfailed
        exact ⟨error, rfl, hsettled.reason⟩
    · cases he
  | _ => cases he

end Executors

/-- Every request that a worker takes is handed over at most once, and reported once with a status
that says what came of it; until then its worker has it and goes on with it. An executor's failures
cancel nothing, and the engine is such a worker. -/
theorem requests_reported :
    (∀ {O : Orchestrator} {h : WorkerHistory} {w : WorkerWorld O}, Runs {} h w →
      (∀ k r, .took k r ∈ h →
        (handedBy r.id h).length ≤ 1 ∧ (w.isCanceled r.id = true ↔ CanceledIn h r.id) ∧
        ((w.workers k).request? = some r ∧ w.status? r.id = some .dequeued ∧ replies r.id h = [] ∨
          (w.workers k).request? ≠ some r ∧ ∃ result, Settled h w r result)) ∧
      (∀ k r, (w.workers k).request? = some r →
        ((∀ s, w.workers k = .running r s → k ∈ w.queue.stopped ∨ ∃ result, O.Returns s result) →
          ∃ e w', Step w e w' ∧ e.mover? = some k) ∧
        ∀ h' w', Runs w h' w' → (w.workers k).distance ≤ movesOf k h' →
          ∃ result, Settled (h' ++ h) w' r result) ∧
      ∀ k, w.workers k = .returned → ∀ r, .took k r ∈ h → ∃ result, Settled h w r result) ∧
    (∀ {x : Executor} {h : WorkerHistory} {w : WorkerWorld x.orchestrator}, Runs {} h w →
      ∀ r result, Settled h w r result → result ≠ .succeeded →
        (w.status? r.id = some .canceled ↔ CanceledByOthers h r) ∧
        ((∀ e ∈ h, ¬e.CancelsFromOutside r.id) → w.status? r.id = some .failed ∧
          ∃ error : ExecutionError, result = .failed error.message ∧
            w.queue.queue.failure? r.id = some error.message)) ∧
    ∀ {e e' : Engine}, e.IsNew → e.Steps e' →
      ∃ h, ∃ w : WorkerWorld e.executor.orchestrator, Runs {} h w ∧ e'.Shows w := by
  refine ⟨fun hrun => ⟨fun k r htook => ⟨hrun.handed_once htook, ?_, hrun.held_or_settled htook⟩,
    fun k r hhas => ⟨can_move hhas, fun h' w' => hrun.goes_on hhas⟩, fun k hreturned r htook => ?_⟩,
    fun hrun r result hsettled hfailed => ⟨hsettled.canceled_iff hrun hfailed,
      hsettled.own_failure hrun hfailed⟩, Engine.Steps.runs⟩
  · exact ⟨hrun.tokens.taken k r htook, hrun.tokens.canceled r.id⟩
  · refine ((hrun.held_or_settled htook).resolve_left fun ⟨hhas, _⟩ => ?_).2
    rw [hreturned] at hhas
    cases hhas

/-- Its only task fails. -/
def lone : Workflow := { name := "lone", tasks := [{ name := "A" }] }

def loneExecutor : Executor where
  handler _ _ _ := .done (.failure ["boom"])
  functions := {}

def loneRequest : ExecutionRequest := { id := "x", workflow := "lone", user := "u" }

def loneRun : Run := .start lone loneExecutor.functions loneExecutor.handler {} {} false "x" 0

def loneStore : WorkflowStore := { workflows := [("lone", lone)] }

def loneEngine : Engine where
  desk := { processors := 1, store := loneStore }
  executor := loneExecutor

/-- Its workflow is triggered, and the worker is started. -/
def loneEngineLater : Engine :=
  ({ loneEngine with desk := (loneEngine.desk.trigger 0 "lone" "u").2 } : Engine).start 0

/-- The request was submitted, and the worker has taken it. -/
def loneTaken : WorkerWorld loneExecutor.orchestrator :=
  ((({} : WorkerWorld _).put 0 .idle).setQueue
    (QueueWorld.performAll {} [.enqueue loneRequest, .take 0]).2).put 0 (.holding loneRequest)

theorem runs_loneTaken : Runs {}
    [.took 0 loneRequest, .started 0, .others (.enqueue loneRequest) .done] loneTaken :=
  ((Runs.single (.others (a := .enqueue loneRequest) trivial)).next (.start (k := 0) rfl)).next
    (.take (k := 0) rfl rfl)

/-- Its task fails, and after the report the worker is shut down. -/
theorem runs_lone : ∃ w, Runs loneTaken
    [.returned 0, .others (.stop 0) .done, .reported 0 loneRequest .done,
      .looked 0 loneRequest false, .resulted 0 loneRequest (.failed "Task 'A' failed: boom") false,
      .worked 0, .worked 0, .worked 0, .handed 0 loneRequest] w ∧ w.workers 0 = .returned := by
  have hresult : (((loneRun.coordinate 0).advanceTask 0 0 true).coordinate 0).result? =
      some (.failed "Task 'A' failed: boom") := by
    decide +kernel
  have hbegun : Runs loneTaken _ _ :=
    .single (.hand (k := 0) rfl ⟨loneExecutor, loneStore, false, 0, rfl, rfl, rfl⟩)
  have hopened := hbegun.next (.work (k := 0) rfl
    ⟨_, loneRun.coordinate 0, rfl, rfl, .coordinate 0 rfl⟩)
  have hended := hopened.next (.work (k := 0) rfl
    ⟨_, (loneRun.coordinate 0).advanceTask 0 0 true, rfl, rfl,
      .advanceTask 0 0 true (by decide +kernel)⟩)
  have hover := hended.next (.work (k := 0) rfl
    ⟨_, ((loneRun.coordinate 0).advanceTask 0 0 true).coordinate 0, rfl, rfl,
      .coordinate 0 (by decide +kernel)⟩)
  have hreported := ((hover.next (.result (k := 0) rfl hresult)).next (.look (k := 0) rfl)).next
    (.fail (k := 0) rfl)
  have hreturned := (hreported.next (.others (a := .stop 0) trivial)).next (.leave (k := 0) rfl rfl)
  exact ⟨_, hreturned, rfl⟩

/-- A task fails, by which its run cancels its own token: the request is failed and not canceled.
The same comes of it in the engine. -/
theorem requests_reported_lone :
    (∃ h h', ∃ w : WorkerWorld loneExecutor.orchestrator, Runs {} h loneTaken ∧
      .took 0 loneRequest ∈ h ∧ Runs loneTaken h' w ∧
      (loneTaken.workers 0).distance ≤ movesOf 0 h' ∧ w.workers 0 = .returned ∧
      Settled (h' ++ h) w loneRequest (.failed "Task 'A' failed: boom") ∧
      w.status? "x" = some .failed) ∧
    (((loneRun.coordinate 0).advanceTask 0 0 true).coordinate 0).activity.canceled = true ∧
    loneEngineLater.queue.status? "e0" = some .failed ∧
    ∃ h, ∃ w : WorkerWorld loneEngine.executor.orchestrator,
      Runs {} h w ∧ loneEngineLater.Shows w := by
  obtain ⟨hall, hown, hengine⟩ := requests_reported
  refine ⟨?_, by decide +kernel, by decide +kernel, hengine ⟨rfl, rfl, rfl⟩
    (.head (.trigger 0 "lone" "u") (Engine.steps_start _ 0))⟩
  obtain ⟨w, hlater, hreturned⟩ := runs_lone
  obtain ⟨result, hsettled⟩ :=
    ((hall runs_loneTaken).2.1 0 loneRequest rfl).2 _ _ hlater (by decide)
  have hresult : [ExecutionResult.failed "Task 'A' failed: boom"] = [result] := hsettled.one_result
  cases hresult
  refine ⟨_, _, w, runs_loneTaken, by simp, hlater, by decide, hreturned, hsettled, ?_⟩
  refine ((hown (runs_loneTaken.trans hlater) loneRequest _ hsettled nofun).2 ?_).1
  simp [WorkerEvent.CancelsFromOutside, QueueReply.Cancels]

end WorkerWorld

end WorkflowEngine
