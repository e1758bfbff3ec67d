import WorkflowEngine.Proofs.Execution.Worker

/-!
# What becomes of a request that a worker takes

The events that deal with one request (`story`) come in one order: it is taken, handed over, has a
result and is reported, before which a failure is looked into. `Fate` ties how far that has come to
the state of the worker that has the request, and to the record of the request when nobody has it
any more. No event about other requests changes it (`Fate.frame`), and each one about the request
itself is the next of its story (`Fate.step`).
-/

namespace WorkflowEngine

namespace WorkerWorld

variable {O : Orchestrator} {w w' : WorkerWorld O} {h h' : WorkerHistory} {e : WorkerEvent}
  {k : Nat} {id : String} {r : ExecutionRequest} {record : ExecutionRecord}

/-- The events that deal with a request, the latest first. -/
def story (id : String) (h : WorkerHistory) : WorkerHistory :=
  h.filter fun e => e.about = some id

theorem story_cons (habout : e.about = some id) : story id (e :: h) = e :: story id h :=
  List.filter_cons_of_pos (decide_eq_true habout)

theorem story_cons_of_ne (habout : e.about ≠ some id) : story id (e :: h) = story id h :=
  List.filter_cons_of_neg (by simp [habout])

theorem mem_story (hmem : e ∈ h) (habout : e.about = some id) : e ∈ story id h :=
  List.mem_filter.mpr ⟨hmem, decide_eq_true habout⟩

theorem mem_of_story (hmem : e ∈ story id h) : e ∈ h := (List.mem_filter.mp hmem).1

/-- The story of a request that a worker has. -/
inductive Held {S : Type} (k : Nat) (r : ExecutionRequest) :
    WorkerState S → WorkerHistory → Prop where
  | holding : Held k r (.holding r) [.took k r]
  | running {s : S} : Held k r (.running r s) [.handed k r, .took k r]
  | reporting {result : ExecutionResult} {interrupted : Bool} :
      Held k r (.reporting r result)
        [.resulted k r result interrupted, .handed k r, .took k r]
  | failing {reason : String} {canceled interrupted : Bool} :
      Held k r (.failing r reason canceled)
        [.looked k r canceled, .resulted k r (.failed reason) interrupted, .handed k r, .took k r]

/-- The story of a request that was reported, with the status and the reason that it has then. -/
inductive Finished (k : Nat) (r : ExecutionRequest) :
    ExecutionStatus → Option String → WorkerHistory → Prop where
  | completed {interrupted : Bool} :
      Finished k r .completed none
        [.reported k r .done, .resulted k r .succeeded interrupted, .handed k r, .took k r]
  | failed {reason : String} {canceled interrupted : Bool} :
      Finished k r (if canceled then .canceled else .failed) (some reason)
        [.reported k r .done, .looked k r canceled,
          .resulted k r (.failed reason) interrupted, .handed k r, .took k r]

/-- How far a request has come. -/
inductive Fate (h : WorkerHistory) (w : WorkerWorld O) (id : String) : Prop where
  | untaken : story id h = [] →
      (∀ k r, (w.workers k).request? = some r → r.id ≠ id) → Fate h w id
  | held (k : Nat) (r : ExecutionRequest) : r.id = id → w.status? id = some .dequeued →
      Held k r (w.workers k) (story id h) →
      (∀ k' r', (w.workers k').request? = some r' → r'.id = id → k' = k) → Fate h w id
  | reported (k : Nat) (r : ExecutionRequest) (record : ExecutionRecord) : r.id = id →
      w.record? id = some record → Finished k r record.status record.failure (story id h) →
      (∀ k r, (w.workers k).request? = some r → r.id ≠ id) → Fate h w id

theorem Held.request? {S : Type} {state : WorkerState S} (hheld : Held k r state h) :
    state.request? = some r := by
  cases hheld <;> rfl

theorem Finished.terminal {status : ExecutionStatus} {reason : Option String}
    (hfinished : Finished k r status reason h) : status.isTerminal := by
  cases hfinished with
  | completed => rfl
  | @failed _ canceled => cases canceled <;> rfl

/-! ## Events about other requests -/

section Frame

variable {S : Type} {state state' : WorkerState S}

theorem Moves.held_of_ne (hmoves : Moves k state e state') (habout : e.about ≠ some r.id)
    (hheld : Held k r state h) : Held k r state' h := by
  cases hmoves with
  | stay _ => exact hheld
  | start => cases hheld
  | leave => cases hheld
  | take => cases hheld
  | work _ _ =>
    cases hheld
    exact .running
  | _ =>
    cases hheld
    exact (habout rfl).elim

theorem Moves.request?_of_ne (hmoves : Moves k state e state') (habout : e.about ≠ some r.id)
    (hhas : state'.request? = some r) : state.request? = some r := by
  cases hmoves with
  | stay _ => exact hhas
  | take =>
    cases hhas
    exact (habout rfl).elim
  | start => cases hhas
  | leave => cases hhas
  | complete => cases hhas
  | fail => cases hhas
  | _ => exact hhas

end Frame

theorem Step.request?_of_ne (hstep : Step w e w') (habout : e.about ≠ some id) (k : Nat)
    (r : ExecutionRequest) (hhas : (w'.workers k).request? = some r) (hid : r.id = id) :
    (w.workers k).request? = some r :=
  (hstep.moves k).request?_of_ne (hid ▸ habout) hhas

theorem Fate.frame (hfate : Fate h w id) (hstep : Step w e w') (habout : e.about ≠ some id) :
    Fate (e :: h) w' id := by
  cases hfate with
  | untaken hstory hnobody =>
    refine .untaken ((story_cons_of_ne habout).trans hstory) fun k r hhas hid => ?_
    exact hnobody k r (hstep.request?_of_ne habout k r hhas hid) hid
  | held k r hid hstatus hheld honly =>
    obtain ⟨record, hrecord, hdequeued⟩ := Option.map_eq_some_iff.mp hstatus
    obtain ⟨record', hrecord', hleaves⟩ := hstep.leaves hrecord
    have hsame := (hleaves.status (by simp [hdequeued]) habout).1
    refine .held k r hid ?_ ?_ fun k' r' hhas hid' =>
      honly k' r' (hstep.request?_of_ne habout k' r' hhas hid') hid'
    · rw [status?_eq, hrecord', Option.map_some, hsame, hdequeued]
    · rw [story_cons_of_ne habout]
      exact (hstep.moves k).held_of_ne (hid ▸ habout) hheld
  | reported k r record hid hrecord hfinished hnobody =>
    obtain ⟨record', hrecord', hleaves⟩ := hstep.leaves hrecord
    have hpending : record.status ≠ .pending := by
      intro hpending
      have hterminal := hfinished.terminal
      rw [hpending] at hterminal
      cases hterminal
    obtain ⟨hstatus, hfailure⟩ := hleaves.status hpending habout
    refine .reported k r record' hid hrecord' ?_ fun k' r' hhas hid' =>
      hnobody k' r' (hstep.request?_of_ne habout k' r' hhas hid') hid'
    rw [story_cons_of_ne habout, hstatus, hfailure]
    exact hfinished

/-! ## Events about the request -/

/-- A worker that has a request is the one whose story it is. -/
theorem Fate.of_request? (hfate : Fate h w r.id) (hhas : (w.workers k).request? = some r) :
    w.status? r.id = some .dequeued ∧ Held k r (w.workers k) (story r.id h) ∧
      ∀ k' r', (w.workers k').request? = some r' → r'.id = r.id → k' = k := by
  cases hfate with
  | untaken _ hnobody => exact (hnobody k r hhas rfl).elim
  | held k₀ r₀ hid hstatus hheld honly =>
    cases honly k r hhas rfl
    rw [hheld.request?] at hhas
    cases hhas
    exact ⟨hstatus, hheld, honly⟩
  | reported _ _ _ _ _ _ hnobody => exact (hnobody k r hhas rfl).elim

variable {before after : WorkerState O.State}

/-- The next event of the story of a request that its worker keeps. -/
theorem Fate.go_on (hfate : Fate h w r.id) (queue : QueueWorld) (hk : w.workers k = before)
    (hhas : before.request? = some r) (habout : e.about = some r.id)
    (hqueue : w.status? r.id = some .dequeued → queue.queue.status? r.id = some .dequeued)
    (hheld : ∀ l, Held k r before l → Held k r after (e :: l)) :
    Fate (e :: h) ((w.setQueue queue).put k after) r.id := by
  obtain ⟨hstatus, hbefore, honly⟩ := hfate.of_request? (hk ▸ hhas)
  refine .held k r rfl (hqueue hstatus) ?_ fun k' r' hhas' hid' => ?_
  · rw [workers_put_self, story_cons habout]
    exact hheld _ (hk ▸ hbefore)
  · by_cases hother : k' = k
    · exact hother
    · rw [workers_put_of_ne _ _ hother] at hhas'
      exact honly k' r' hhas' hid'

/-- The last event of the story of a request: its report is not turned down. -/
theorem Fate.finish (hfate : Fate h w r.id) (status : ExecutionStatus) (failure : Option String)
    (hk : w.workers k = before) (hhas : before.request? = some r)
    (hfinished : ∀ l, Held k r before l → Finished k r status failure (.reported k r .done :: l)) :
    Fate (.reported k r (w.queue.conclude (w.queue.queue.finish r.id status failure)).1 :: h)
      ((w.setQueue (w.queue.conclude (w.queue.queue.finish r.id status failure)).2).put k .idle)
      r.id := by
  obtain ⟨hstatus, hbefore, honly⟩ := hfate.of_request? (hk ▸ hhas)
  obtain ⟨record, hrecord, hdequeued⟩ := Option.map_eq_some_iff.mp hstatus
  rw [ExecutionQueue.finish_dequeued hrecord hdequeued]
  refine .reported k r { record with status, failure } rfl
    (QueueWorld.record?_setRecord_self w.queue r.id _) ?_ fun k' r' hhas' hid' => ?_
  · rw [story_cons rfl]
    exact hfinished _ (hk ▸ hbefore)
  · by_cases hother : k' = k
    · subst hother
      rw [workers_put_self] at hhas'
      cases hhas'
    · rw [workers_put_of_ne _ _ hother] at hhas'
      exact hother (honly k' r' hhas' hid')

/-- The first event of the story of a request. -/
theorem Fate.take (hfate : Fate h w r.id)
    (hreply : (w.queue.perform (.take k)).1 = .delivered r) :
    Fate (.took k r :: h) ((w.setQueue (w.queue.perform (.take k)).2).put k (.holding r)) r.id := by
  have hdelivered := QueueWorld.step_perform w.queue (.take k)
  rw [hreply] at hdelivered
  obtain ⟨record, hrecord, hpending, -, hrecord'⟩ := hdelivered.delivered_record
  cases hfate with
  | untaken hstory hnobody =>
    refine .held k r rfl ?_ ?_ fun k' r' hhas hid => ?_
    · exact ExecutionQueue.status?_of_record? hrecord'
    · rw [workers_put_self, story_cons rfl, hstory]
      exact .holding
    · by_cases hk : k' = k
      · exact hk
      · rw [workers_put_of_ne _ _ hk] at hhas
        exact (hnobody k' r' hhas hid).elim
  | held _ _ _ hstatus _ _ =>
    rw [status?, ExecutionQueue.status?_of_record? hrecord, hpending] at hstatus
    cases hstatus
  | reported _ _ record' _ hold hfinished _ =>
    have hterminal := hfinished.terminal
    cases hrecord.symm.trans hold
    rw [hpending] at hterminal
    cases hterminal

theorem Fate.step (hfate : Fate h w id) (hstep : Step w e w') : Fate (e :: h) w' id := by
  by_cases habout : e.about = some id
  · cases hstep with
    | @take k r hk hreply =>
      cases habout
      exact hfate.take hreply
    | @hand k r s hk _ =>
      cases habout
      refine hfate.go_on w.queue hk rfl rfl (fun hstatus => hstatus) ?_
      rintro _ ⟨⟩
      exact .running
    | @result k r s result hk _ =>
      cases habout
      refine hfate.go_on w.queue hk rfl rfl (fun hstatus => hstatus) ?_
      rintro _ ⟨⟩
      exact .reporting
    | @interrupt k r s hk hstopped =>
      cases habout
      refine hfate.go_on _ hk rfl rfl (w.queue.dequeued_cancelToken r.id) ?_
      rintro _ ⟨⟩
      exact .reporting
    | @complete k r hk =>
      cases habout
      refine hfate.finish .completed none hk rfl ?_
      rintro _ ⟨⟩
      exact .completed
    | @look k r reason hk =>
      cases habout
      refine hfate.go_on w.queue hk rfl rfl (fun hstatus => hstatus) ?_
      rintro _ ⟨⟩
      exact .failing
    | @fail k r reason canceled hk =>
      cases habout
      refine hfate.finish _ _ hk rfl ?_
      rintro _ ⟨⟩
      exact .failed
    | _ => cases habout
  · exact hfate.frame hstep habout

theorem Runs.fate (hrun : Runs {} h w) (id : String) : Fate h w id := by
  induction hrun with
  | start => exact .untaken rfl nofun
  | next _ hstep ih => exact ih.step hstep

end WorkerWorld

end WorkflowEngine
