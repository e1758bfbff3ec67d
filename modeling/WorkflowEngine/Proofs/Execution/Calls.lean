import WorkflowEngine.Proofs.Execution.Attempts
import WorkflowEngine.Proofs.Execution.Gate
import WorkflowEngine.Proofs.Execution.Level

/-!
# Calls of the handler

The attempts at a task call the handler for that task and with the context that it was assigned, and
nothing else is added to the calls (`Assignment.Calls`). A turn of a task keeps the outputs as they
are, so the tasks that are active all have the outputs of the run (`Seeing.advanceTask`). The
secrets that can be seen stay those of the provider until a task fails for want of them.
-/

namespace WorkflowEngine

open Expression (Scope)

namespace Assignment

/-- Calls were made for the task and with its context. -/
def Calls (s : Assignment) (before after : List Call) : Prop :=
  ∃ calls, after = before ++ calls ∧ ∀ c ∈ calls, c.task = s.task.name ∧ c.context = s.context

variable {s : Assignment} {before middle after : List Call}

theorem Calls.refl (s : Assignment) (calls : List Call) : s.Calls calls calls :=
  ⟨[], (List.append_nil calls).symm, nofun⟩

theorem Calls.trans (h : s.Calls before middle) (h' : s.Calls middle after) :
    s.Calls before after := by
  obtain ⟨first, rfl, hfirst⟩ := h
  obtain ⟨second, rfl, hsecond⟩ := h'
  refine ⟨first ++ second, List.append_assoc .., fun c hc => ?_⟩
  exact (List.mem_append.mp hc).elim (hfirst c) (hsecond c)

theorem call_calls (s : Assignment) (now : Nat) (a : Activity) :
    s.Calls a.calls (s.call now a).2.calls := by
  refine ⟨_, rfl, fun c hc => ?_⟩
  cases List.mem_singleton.mp hc
  exact ⟨rfl, rfl⟩

theorem Follows.made {now left : Nat} {deadline : Option Nat} {p : Progress} {a : Activity}
    {events : List AttemptEvent} {outcome : Attempts × Activity}
    (h : s.Follows now left deadline p a events outcome) : s.Calls a.calls outcome.2.calls := by
  induction h with
  | goesOn => exact .refl s _
  | ends => exact .refl s _
  | delays => exact .refl s _
  | @retries _ _ _ a _ _ _ _ _ _ _ ih => exact (call_calls s now a.leave).trans ih

theorem attempt_calls (s : Assignment) (now left : Nat) (a : Activity) :
    s.Calls a.calls (s.attempt now left a).2.calls :=
  (call_calls s now a).trans (s.follows ..).made

theorem resume_calls (s : Assignment) (now : Nat) (tokenFirst : Bool) (attempts : Attempts)
    (a : Activity) : s.Calls a.calls (s.resume now tokenFirst attempts a).2.calls := by
  cases attempts with
  | calling progress deadline left =>
    rw [resume]
    exact (s.follows ..).made
  | delaying wake fault left =>
    rw [resume]
    split
    · exact .refl s _
    · split
      · exact attempt_calls ..
      · exact .refl s _
  | ended e => exact .refl s _

end Assignment

/-! ## Phases -/

namespace Desk

variable {d d' : Desk} {looked : List Nat} {i j : Nat} {t t' : TaskRun}

theorem mem_setPhase {phase : TaskPhase} (h : t' ∈ (d.setPhase i phase).level) :
    t' ∈ d.level ∨ ∃ t, d.level[i]? = some t ∧ t' = { t with phase } := by
  obtain ⟨j, hj⟩ := List.mem_iff_getElem?.mp h
  rw [getElem?_setPhase, Option.map_eq_some_iff] at hj
  obtain ⟨t, ht, heq⟩ := hj
  split at heq
  · rename_i hij
    exact .inr ⟨t, hij ▸ ht, heq.symm⟩
  · exact .inl (heq ▸ List.mem_of_getElem? ht)

theorem mem_release (h : t' ∈ d.release.level) : t' ∈ d.level ∨ t'.phase = .granted := by
  rw [release] at h
  split at h
  · exact .inl h
  · rcases mem_setPhase h with h | ⟨t, -, rfl⟩
    · exact .inl h
    · exact .inr rfl

/-- Whoever is active when a task ends was so before. -/
theorem mem_of_mem_finish {e : TaskEnd} {s : Assignment} {attempts : Attempts}
    (h : t' ∈ (d.finish i e).level) (hactive : t'.phase = .active s attempts) : t' ∈ d.level := by
  rcases mem_release (d := d.setPhase i (.ended e)) h with h | hgranted
  · rcases mem_setPhase h with h | ⟨t, -, rfl⟩
    · exact h
    · cases hactive
  · rw [hgranted] at hactive
    cases hactive

theorem getElem?_finish (e : TaskEnd) (hi : i ∉ d.queue) (ht : d.level[i]? = some t) :
    (d.finish i e).level[i]? = some { t with phase := .ended e } :=
  getElem?_release (d := d.setPhase i (.ended e)) hi (by simp [getElem?_setPhase, ht])

/-- What has ended stays as it is. -/
theorem Counted.getElem?_move (hd : d.Counted looked) (h : d.Move i d') {e : TaskEnd}
    (ht : d.level[j]? = some t) (he : t.phase = .ended e) : d'.level[j]? = some t := by
  have hset : ∀ {t' : TaskRun} (phase : TaskPhase), d.level[i]? = some t' → t'.phase ≠ t.phase →
      (d.setPhase i phase).level[j]? = some t := by
    intro t' phase hi hne
    have hij : i ≠ j := by
      rintro rfl
      rw [hi] at ht
      cases ht
      exact hne rfl
    rw [getElem?_setPhase, ht, Option.map_some, if_neg hij]
  have hgo : ∀ {t' : TaskRun}, t'.phase.CanGo → t'.phase ≠ t.phase := by
    intro t' hgo heq
    rw [heq, he] at hgo
    exact hgo
  cases h with
  | nothing => exact ht
  | queued hi => exact hset .waiting hi (by simp [he])
  | went hi hcan => exact hset _ hi (hgo hcan)
  | finished e' hi hcan =>
    refine getElem?_release (d := d.setPhase i (.ended e')) (fun hj => ?_) (hset _ hi (hgo hcan))
    obtain ⟨t', ht', hwaiting⟩ := hd.waiting j hj
    rw [ht] at ht'
    cases ht'
    rw [he] at hwaiting
    cases hwaiting

end Desk

/-! ## Turns of tasks -/

namespace Run

variable {base : Scope} {r r' : Run} {i : Nat} {t : TaskRun} {looked : List Nat}

/-- What the tasks of a run see and do: what they can look up, and the calls so far. -/
def scene (r : Run) : Scope × List Call := (r.scope, r.activity.calls)

@[simp] theorem scene_push (r : Run) (t : Turn) : (r.push t).scene = r.scene := by
  unfold push
  split
  · rfl
  · split <;> rfl

@[simp] theorem scene_pushAll (r : Run) (turns : List Turn) :
    (r.pushAll turns).scene = r.scene := by
  induction turns generalizing r with
  | nil => rfl
  | cons t turns ih => exact (ih (r.push t)).trans (scene_push r t)

@[simp] theorem scene_release (r : Run) : r.release.scene = r.scene := by
  unfold release
  split
  · rfl
  · rw [scene_push]
    rfl

@[simp] theorem scene_finish (r : Run) (i : Nat) (e : TaskEnd) :
    (r.finish i e).scene = r.scene := by
  rw [finish, scene_push]
  exact scene_release (r.setPhase i (.ended e))

@[simp] theorem scene_cancel (r : Run) : r.cancel.scene = r.scene := by
  unfold cancel
  split
  · rfl
  · rw [scene_pushAll]
    rfl

@[simp] theorem scene_record (r : Run) (i : Nat) (task : Assignment)
    (outcome : Attempts × Activity) :
    (r.record i task outcome).scene = (r.scope, outcome.2.calls) := by
  obtain ⟨attempts, activity⟩ := outcome
  have hsettle : ∀ others turns, (if activity.canceled ∧ !r.activity.canceled then
      ({ r with activity, watching := [] } : Run).pushAll turns
      else { r with activity, watching := others }).scene = (r.scope, activity.calls) := by
    intro others turns
    split
    · rw [scene_pushAll]
      rfl
    · rfl
  cases attempts with
  | ended e => rw [record, scene_finish, hsettle]
  | calling progress deadline left =>
    simp only [record]
    split <;> exact hsettle ..
  | delaying wake fault left =>
    simp only [record]
    split <;> exact hsettle ..

/-- Every task that is active was assigned the outputs of the run. -/
structure Seeing (base : Scope) (r : Run) : Prop where
  sees : base.Sees r.context.outputs r.scope
  active : ∀ t ∈ r.level, ∀ s attempts, t.phase = .active s attempts →
    s.task.name = t.task.name ∧ s.context.outputs = r.context.outputs

/-- A task failed, which the coordinator may not have noticed yet. -/
def Broken (r : Run) : Prop := ∃ t ∈ r.level, ∃ fault, t.phase = .ended (.failed fault)

/-- Calls were made for tasks of the level, with the outputs of the run, and these are the same
after it. -/
structure Goes (r r' : Run) : Prop where
  outputs : r'.context.outputs = r.context.outputs
  calls : ∃ calls, r'.activity.calls = r.activity.calls ++ calls ∧
    ∀ c ∈ calls, c.task ∈ (r.level.map (·.task)).map (·.name) ∧
      c.context.outputs = r.context.outputs

theorem Goes.of_same (houtputs : r'.context.outputs = r.context.outputs)
    (hcalls : r'.activity.calls = r.activity.calls) : r.Goes r' :=
  ⟨houtputs, [], hcalls.trans (List.append_nil _).symm, fun _ hc => absurd hc List.not_mem_nil⟩

theorem Seeing.record (hr : Seeing base r) (ht : r.level[i]? = some t) {s : Assignment}
    (hname : s.task.name = t.task.name) (houtputs : s.context.outputs = r.context.outputs)
    {outcome : Attempts × Activity} (hcalls : s.Calls r.activity.calls outcome.2.calls) :
    Seeing base (r.record i s outcome) ∧ r.Goes (r.record i s outcome) := by
  obtain ⟨hscope, hmade⟩ := Prod.mk.inj (scene_record r i s outcome)
  have hsame : (r.record i s outcome).context.outputs = r.context.outputs :=
    congrArg (·.context.outputs) hscope
  refine ⟨⟨?_, fun t' ht' s' attempts' hactive => ?_⟩, hsame, ?_⟩
  · rw [hscope, hsame]
    exact hr.sees
  · rw [hsame]
    obtain ⟨-, ⟨e, hdesk⟩ | ⟨attempts, hdesk⟩⟩ := r.record_cases i s outcome
    · have hmem : t' ∈ (r.desk.finish i e).level := hdesk ▸ ht'
      exact hr.active t' (Desk.mem_of_mem_finish hmem hactive) s' attempts' hactive
    · have hmem : t' ∈ (r.desk.setPhase i (.active s attempts)).level := hdesk ▸ ht'
      rcases Desk.mem_setPhase hmem with hold | ⟨u, hu, rfl⟩
      · exact hr.active t' hold s' attempts' hactive
      · cases hactive
        have hut : u = t := Option.some.inj (hu.symm.trans ht)
        exact ⟨by rw [hname, hut], houtputs⟩
  · obtain ⟨calls, heq, hcalls⟩ := hcalls
    refine ⟨calls, hmade.trans heq, fun c hc => ?_⟩
    obtain ⟨htask, hcontext⟩ := hcalls c hc
    rw [htask, hname, hcontext]
    exact ⟨List.mem_map_of_mem (List.mem_map_of_mem (List.mem_of_getElem? ht)), houtputs⟩

theorem Seeing.launch (hr : Seeing base r) (ht : r.level[i]? = some t) (hqueue : i ∉ r.queue)
    (now : Nat) :
    Broken (r.launch i t.task now) ∨
      Seeing base (r.launch i t.task now) ∧ r.Goes (r.launch i t.task now) := by
  rw [Run.launch]
  split
  · rename_i fault s _
    have hended := Desk.getElem?_finish (d := r.desk)
      (.failed (.placeholders t.task.name fault)) hqueue ht
    have hdesk := desk_finish (r.setScope s) i (.failed (.placeholders t.task.name fault))
    have hi := (congrArg (·.level[i]?) hdesk).trans hended
    exact .inl ⟨_, List.mem_of_getElem? hi, _, rfl⟩
  · rename_i resolved s hreplaced
    -- the placeholders were filled in, and all that changed are the secrets
    have hfunctions := hr.sees.functions_eq
    obtain ⟨c, hscope, hserves⟩ := hr.sees
    rw [hscope] at hreplaced
    obtain ⟨hname, c', rfl, hserves'⟩ := Expression.Scope.replaceTask_ok
      (s := (base.seeing r.context.outputs).withSecrets c) hserves hreplaced
    generalize hσ : ((base.seeing r.context.outputs).withSecrets c).withSecrets c' = σ
    have houtputs : σ.context.outputs = r.context.outputs := by rw [← hσ]; rfl
    have hset : Seeing base (r.setScope σ) := by
      refine ⟨⟨c', ?_, hserves'⟩, fun t ht s attempts hactive => ?_⟩
      · rw [Run.scope, setScope, show r.functions = base.functions from hfunctions, ← hσ]
        rfl
      · obtain ⟨hname, hsame⟩ := hr.active t ht s attempts hactive
        exact ⟨hname, hsame.trans houtputs.symm⟩
    obtain ⟨hseeing, hgoes⟩ := hset.record ht (s := ⟨resolved, σ.context, r.handler⟩) hname rfl
      (Assignment.attempt_calls _ now _ _)
    refine .inr ⟨hseeing, hgoes.outputs.trans houtputs, ?_⟩
    obtain ⟨calls, hcalls, hmade⟩ := hgoes.calls
    exact ⟨calls, hcalls, fun c hc => ⟨(hmade c hc).1, (hmade c hc).2.trans houtputs⟩⟩

theorem Seeing.advanceTask (hr : Seeing base r) (hcounted : r.desk.Counted looked) (i now : Nat)
    (tokenFirst : Bool) : Broken (r.advanceTask i now tokenFirst) ∨
      Seeing base (r.advanceTask i now tokenFirst) ∧ r.Goes (r.advanceTask i now tokenFirst) := by
  rw [Run.advanceTask]
  split
  · rename_i task hi
    have hqueue := (hcounted.not_mem_of_canGo hi trivial).2
    split
    · refine .inr ⟨⟨hr.sees, fun t ht s attempts hactive => ?_⟩, .of_same rfl rfl⟩
      rcases Desk.mem_setPhase (d := r.desk) ht with hold | ⟨u, -, rfl⟩
      · exact hr.active t hold s attempts hactive
      · cases hactive
    · have hless : Seeing base { r with permits := r.permits - 1 } := ⟨hr.sees, hr.active⟩
      rcases hless.launch hi hqueue now with hbroken | ⟨hseeing, hgoes⟩
      · exact .inl hbroken
      · exact .inr ⟨hseeing, hgoes.outputs, hgoes.calls⟩
  · rename_i task hi
    exact hr.launch hi (hcounted.not_mem_of_canGo hi trivial).2 now
  · rename_i _ s attempts hi
    obtain ⟨hname, houtputs⟩ := hr.active _ (List.mem_of_getElem? hi) s attempts rfl
    exact .inr (hr.record hi hname houtputs (s.resume_calls now tokenFirst attempts r.activity))
  · exact .inr ⟨hr, .of_same rfl rfl⟩

end Run

end WorkflowEngine
