import Mathlib.Algebra.BigOperators.Intervals
import WorkflowEngine.Proofs.Graph.Traversal

/-!
# What the searches find

Both searches take enough steps to reach the end of the traversal (`remaining` goes down with each
step and is below the fuel at the start).

* `findMeeting_eq_none_iff`: no edge leads back to the stack exactly when there is no cycle.
* `postorder_perm` and `postorder_ordered`: the postorder lists every node once, and the target of
  an edge comes before the node that the edge leaves, unless it leads back to that node.
-/

namespace WorkflowEngine.Graph

variable {edges : List (List Nat)}

namespace Traversal

/-! ## The number of steps -/

def unvisited (edges : List (List Nat)) (t : Traversal) : Finset Nat :=
  (Finset.range edges.length).filter fun v => t.mark v = .unvisited

/-- How many steps are left: one for each start, and for each node that is not done one for each
edge not yet passed and one for leaving it. -/
def remaining (edges : List (List Nat)) (t : Traversal) : Nat :=
  t.waiting.length + ∑ v ∈ unvisited edges t, (degree edges v + 1) +
    (t.stack.map fun f => degree edges f.node + 1 - f.next).sum

theorem sum_range_degree (edges : List (List Nat)) :
    ∑ v ∈ Finset.range edges.length, (degree edges v + 1) = edges.length + edgeCount edges := by
  induction edges with
  | nil => rfl
  | cons targets edges ih =>
    rw [List.length_cons, Finset.sum_range_succ']
    have : ∀ v, degree (targets :: edges) (v + 1) = degree edges v := fun v => rfl
    simp only [this]
    rw [ih, show degree (targets :: edges) 0 = targets.length from rfl,
      show edgeCount (targets :: edges) = targets.length + edgeCount edges by
        simp [edgeCount]]
    omega

theorem remaining_start (edges : List (List Nat)) :
    remaining edges (start edges) < enoughSteps edges := by
  have : unvisited edges (start edges) = Finset.range edges.length := by
    apply Finset.filter_true_of_mem
    intro v hv
    simp [start, mark, Finset.mem_range.mp hv]
  rw [remaining, this, sum_range_degree]
  simp [start, enoughSteps]
  omega

theorem unvisited_enter {t : Traversal} (h : t.marks.length = edges.length) {v : Nat}
    (hm : t.mark v = .unvisited) :
    v ∈ unvisited edges t ∧ unvisited edges (t.enter v) = (unvisited edges t).erase v := by
  have hv : v < t.marks.length := lt_length_of_mark_ne (by rw [hm]; decide)
  refine ⟨Finset.mem_filter.mpr ⟨Finset.mem_range.mpr (h ▸ hv), hm⟩, ?_⟩
  ext u
  have hmark : (t.enter v).mark u = if u = v then .onStack else t.mark u := mark_set hv
  simp only [unvisited, Finset.mem_filter, Finset.mem_erase, hmark]
  by_cases hu : u = v <;> simp [hu]

theorem remaining_enter {t : Traversal} (h : t.marks.length = edges.length) {v : Nat}
    (hm : t.mark v = .unvisited) : remaining edges (t.enter v) = remaining edges t := by
  obtain ⟨hmem, herase⟩ := unvisited_enter h hm
  have hsum := Finset.add_sum_erase _ (fun v => degree edges v + 1) hmem
  simp only [remaining, herase, ← hsum]
  simp [enter]
  omega

theorem remaining_skip {t : Traversal} {node : Nat} {rest : List Nat}
    (hw : t.waiting = node :: rest) :
    remaining edges { t with waiting := rest } < remaining edges t := by
  have hu : unvisited edges { t with waiting := rest } = unvisited edges t := rfl
  simp only [remaining, hu, hw, List.length_cons]
  omega

theorem remaining_pass {t : Traversal} {f : Frame} {below : List Frame} (hs : t.stack = f :: below)
    {v : Nat} (ht : target? edges f = some v) :
    remaining edges (t.pass f below) < remaining edges t := by
  have := lt_degree_of_target? ht
  have hu : unvisited edges (t.pass f below) = unvisited edges t := rfl
  rw [remaining, remaining, hu, hs]
  simp only [pass, List.map_cons, List.sum_cons]
  omega

theorem remaining_leave {t : Traversal} (h : Sound edges t) {f : Frame} {below : List Frame}
    (hs : t.stack = f :: below) :
    remaining edges (t.leave f below) < remaining edges t := by
  have hle := h.next_le f (by simp [hs])
  have hon : t.mark f.node = .onStack := (h.onStack_iff f.node).mpr (by simp [path, hs])
  have hmark : ∀ u, (t.leave f below).mark u = if u = f.node then .done else t.mark u := fun u =>
    mark_set (h.marks_length ▸ h.node_lt hs)
  have hu : unvisited edges (t.leave f below) = unvisited edges t := by
    apply Finset.filter_congr
    intro u _
    rw [hmark]
    by_cases hu : u = f.node <;> simp [hu, hon]
  simp only [remaining, hu, hs, List.map_cons, List.sum_cons]
  simp only [leave]
  omega

/-! ## Runs -/

theorem Sound.step {t : Traversal} (h : Sound edges t) :
    match t.step edges with
    | .ended => t.stack = [] ∧ t.waiting = []
    | .met v t' => Sound edges t' ∧ remaining edges t' < remaining edges t ∧
        ∃ f below, t.stack = f :: below ∧ target? edges f = some v ∧ t.mark v = .onStack ∧
          t' = t.pass f below
    | .moved t' => Sound edges t' ∧ remaining edges t' < remaining edges t ∧
        ∀ back, Explored edges back t → Explored edges back t' := by
  cases hstep : t.step edges <;> have hcase := hstep ▸ step_spec edges t <;> cases hcase
  case ended hs hw => exact ⟨hs, hw⟩
  case skipped node rest hs hw hm =>
    exact ⟨h.skip hw hm, remaining_skip hw, fun back he =>
      ⟨he.ordered, he.frames, he.innermost⟩⟩
  case started node rest hs hw hm =>
    refine ⟨h.enter hm (by simp [hw]) (by simp +contextual [hw]) (by simp [hs]), ?_,
      fun back he => he.enter node rest⟩
    rw [remaining_enter (t := { t with waiting := rest }) h.marks_length hm]
    exact remaining_skip hw
  case left f below hs ht =>
    exact ⟨h.leave hs, remaining_leave h hs, fun back he => he.leave h hs ht⟩
  case met v f below hs ht hm =>
    exact ⟨h.pass hs ht, remaining_pass hs ht, f, below, hs, ht, hm, rfl⟩
  -- The edge is passed before its target is entered, so the target follows the passed frame.
  case entered f below v hs ht hm =>
    have hpass := h.pass hs ht
    have hm' : (t.pass f below).mark v = .unvisited := hm
    refine ⟨hpass.enter hm' (fun _ => .inr) (fun _ => id) ?_, ?_,
      fun back he => he.pass_enter hs v⟩
    · intro g hg
      cases hg
      exact ⟨f.next, rfl, ht⟩
    · rw [remaining_enter (t := t.pass f below) hpass.marks_length hm']
      exact remaining_pass hs ht
  case passed f below v hs ht hm =>
    refine ⟨h.pass hs ht, remaining_pass hs ht, fun back he => he.pass hs ht fun hv => .inl ?_⟩
    exact (h.finished_iff v).mpr ⟨hv, hm⟩

/-- At the end every node is finished. -/
theorem Sound.all_finished {t : Traversal} (h : Sound edges t) (hs : t.stack = [])
    (hw : t.waiting = []) {v : Nat} (hv : v < edges.length) : v ∈ t.finished := by
  rw [h.finished_iff]
  refine ⟨hv, ?_⟩
  have hon : t.mark v ≠ .onStack := by
    rw [Ne, h.onStack_iff, path, hs]
    simp
  have hun : t.mark v ≠ .unvisited := (h.tried v hv).resolve_left (by simp [hw])
  cases hm : t.mark v with
  | unvisited => exact absurd hm hun
  | onStack => exact absurd hm hon
  | done => rfl

/-- The state in which a traversal ends. -/
structure Complete (edges : List (List Nat)) (back : Nat → Nat → Prop) (t : Traversal) : Prop where
  sound : Sound edges t
  explored : Explored edges back t
  stack : t.stack = []
  waiting : t.waiting = []

theorem finish_complete {fuel : Nat} {t : Traversal} (h : Sound edges t)
    (he : Explored edges (Reaches edges) t) (hf : remaining edges t < fuel) :
    Complete edges (Reaches edges) (finish edges fuel t) := by
  induction fuel generalizing t with
  | zero => omega
  | succ fuel ih =>
    have hstep := h.step
    rw [finish]
    cases hs : t.step edges with
    | ended =>
      rw [hs] at hstep
      exact ⟨h, he, hstep.1, hstep.2⟩
    | met v t' =>
      rw [hs] at hstep
      obtain ⟨hsound, hlt, f, below, hstack, ht, hm, rfl⟩ := hstep
      refine ih hsound (he.pass hstack ht fun _ => .inr ?_) (by omega)
      exact h.reaches_back hstack ht hm
    | moved t' =>
      rw [hs] at hstep
      exact ih hstep.1 (hstep.2.2 _ he) (by omega)

theorem firstMeeting_eq_none {fuel : Nat} {t : Traversal} (h : Sound edges t)
    (he : Explored edges (fun _ _ => False) t) (hf : remaining edges t < fuel)
    (hnone : firstMeeting edges fuel t = none) :
    ∃ t', Complete edges (fun _ _ => False) t' := by
  induction fuel generalizing t with
  | zero => omega
  | succ fuel ih =>
    have hstep := h.step
    rw [firstMeeting] at hnone
    cases hs : t.step edges with
    | ended =>
      rw [hs] at hstep
      exact ⟨t, h, he, hstep.1, hstep.2⟩
    | met v t' =>
      rw [hs] at hnone
      cases hnone
    | moved t' =>
      rw [hs] at hstep hnone
      exact ih hstep.1 (hstep.2.2 _ he) (by omega) hnone

/-- The stack that a search returns is that of a sound traversal, and the edge that its innermost
frame has just passed leads to one of its nodes. -/
theorem firstMeeting_eq_some {fuel : Nat} {t : Traversal} {back : Nat → Nat → Prop}
    (h : Sound edges t) (he : Explored edges back t) {stack : List Frame} {target : Nat}
    (hsome : firstMeeting edges fuel t = some (stack, target)) :
    ∃ t' f below, Sound edges t' ∧ Explored edges back t' ∧ t'.stack = f :: below ∧
      target? edges f = some target ∧ t'.mark target = .onStack ∧
      stack = { f with next := f.next + 1 } :: below := by
  induction fuel generalizing t with
  | zero => cases hsome
  | succ fuel ih =>
    have hstep := h.step
    rw [firstMeeting] at hsome
    cases hs : t.step edges with
    | ended =>
      rw [hs] at hsome
      cases hsome
    | met v t' =>
      rw [hs] at hstep hsome
      obtain ⟨_, _, f, below, hstack, ht, hm, rfl⟩ := hstep
      cases hsome
      exact ⟨t, f, below, h, he, hstack, ht, hm, rfl⟩
    | moved t' =>
      rw [hs] at hstep hsome
      exact ih hstep.1 (hstep.2.2 _ he) hsome

/-! ## Orders -/

theorem Ordered.of_append {back : Nat → Nat → Prop} {above below : List Nat} {u : Nat}
    (h : Ordered edges back (above ++ u :: below)) {v : Nat} (hv : v < edges.length)
    (hadj : Adj edges u v) : v ∈ below ∨ back v u := by
  induction above with
  | nil => exact h.1 v hv hadj
  | cons _ _ ih => exact ih h.2

/-- In a list in which no edge leads back, what a node reaches comes after it. -/
theorem Ordered.mem_of_reaches {finished : List Nat}
    (h : Ordered edges (fun _ _ => False) finished) {u v : Nat} (hr : Reaches edges u v)
    (hv : v < edges.length) {above below : List Nat} (hl : finished = above ++ u :: below) :
    v ∈ below := by
  induction hr using Relation.TransGen.head_induction_on generalizing above below with
  | single hadj =>
    rw [hl] at h
    exact (h.of_append hv hadj).resolve_right id
  | @head u w hadj hrest ih =>
    have hw : w < edges.length := by
      obtain ⟨_, hwx, _⟩ := Relation.TransGen.head'_iff.mp hrest
      exact hwx.lt_length
    have hwb : w ∈ below := by
      rw [hl] at h
      exact (h.of_append hw hadj).resolve_right id
    obtain ⟨below₁, below₂, rfl⟩ := List.append_of_mem hwb
    have := @ih (above ++ u :: below₁) below₂ (by simp [hl])
    simp [this]

end Traversal

/-! ## Results -/

open Traversal

theorem findMeeting_eq_none_iff : findMeeting edges = none ↔ Acyclic edges := by
  constructor
  · intro hnone v hv
    obtain ⟨t, hsound, he, hs, hw⟩ := firstMeeting_eq_none (sound_start edges)
      (Explored.start edges _) (remaining_start edges) hnone
    have hlt : v < edges.length := by
      obtain ⟨_, hadj, _⟩ := Relation.TransGen.head'_iff.mp hv
      exact hadj.lt_length
    obtain ⟨above, below, hl⟩ := List.append_of_mem (hsound.all_finished hs hw hlt)
    have hmem := he.ordered.mem_of_reaches hv hlt hl
    have hnodup := hsound.finished_nodup
    rw [hl] at hnodup
    exact (List.nodup_cons.mp hnodup.of_append_right).1 hmem
  · intro hacyclic
    cases h : findMeeting edges with
    | none => rfl
    | some found =>
      obtain ⟨t, f, below, hsound, -, hs, ht, hm, _⟩ :=
        firstMeeting_eq_some (sound_start edges) (Explored.start edges fun _ _ => False) h
      exact absurd ((hsound.reaches_back hs ht hm).tail (adj_of_target? ht)) (hacyclic _)

theorem postorder_complete (edges : List (List Nat)) :
    ∃ t, Complete edges (Reaches edges) t ∧ postorder edges = t.finished.reverse :=
  ⟨_, finish_complete (sound_start edges) (Explored.start edges _) (remaining_start edges), rfl⟩

theorem postorder_nodup (edges : List (List Nat)) : (postorder edges).Nodup := by
  obtain ⟨t, h, hp⟩ := postorder_complete edges
  rw [hp]
  exact List.nodup_reverse.mpr h.sound.finished_nodup

theorem mem_postorder {v : Nat} : v ∈ postorder edges ↔ v < edges.length := by
  obtain ⟨t, h, hp⟩ := postorder_complete edges
  rw [hp, List.mem_reverse]
  exact ⟨fun hv => ((h.sound.finished_iff v).mp hv).1,
    fun hv => h.sound.all_finished h.stack h.waiting hv⟩

/-- The target of an edge comes before the node that the edge leaves, unless it leads back. -/
theorem postorder_ordered {before after : List Nat} {u v : Nat}
    (hl : postorder edges = before ++ u :: after) (hadj : Adj edges u v) (hv : v < edges.length) :
    v ∈ before ∨ Reaches edges v u := by
  obtain ⟨t, h, hp⟩ := postorder_complete edges
  have hl' : t.finished = after.reverse ++ u :: before.reverse := by
    rw [← List.reverse_reverse t.finished, ← hp, hl]
    simp
  have hordered := h.explored.ordered
  rw [hl'] at hordered
  exact (hordered.of_append hv hadj).imp_left List.mem_reverse.mp

end WorkflowEngine.Graph
