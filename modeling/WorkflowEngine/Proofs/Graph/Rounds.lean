import Mathlib.Data.List.Perm.Subperm
import WorkflowEngine.Proofs.Graph.Levels

/-!
# Rounds of the traversal

A step with a stack is a round of the traversal's inner loop: it looks at one edge of the innermost
node, or leaves that node. `Trace` is a traversal from its start together with all the states before,
and `NextCase` lists what one step can do, edges that lead back being passed over.

* `path_next`: what a step does to the stack, by the edge that it looks at and the node it enters.
* `Trace.mem_entered` and `Trace.mem_examined`: the nodes entered so far are those visited, and the
  edges looked at are those behind the positions on the stack and those of finished nodes. So no
  node is entered twice, and no edge is looked at twice (`Trace.frugal`).
* `searches_end`: both searches come to their end, within as many rounds as there are nodes and
  edges.
-/

namespace WorkflowEngine.Graph

variable {edges : List (List Nat)}

namespace Traversal

variable {past : List Traversal} {t t' : Traversal}

/-! ## Steps -/

/-- A step after which the traversal goes on. -/
inductive Next (edges : List (List Nat)) (t : Traversal) : Traversal → Prop where
  | moved {t' : Traversal} : t.step edges = .moved t' → Next edges t t'
  | met {v : Nat} {t' : Traversal} : t.step edges = .met v t' → Next edges t t'

/-- The edge that the next step looks at, by its node and its position. -/
def examined? (edges : List (List Nat)) (t : Traversal) : Option Frame :=
  t.stack.head?.filter fun f => (target? edges f).isSome

/-- The node that the next step enters. -/
def entered? (edges : List (List Nat)) (t : Traversal) : Option Nat :=
  let node? := match t.stack with
    | [] => t.waiting.head?
    | f :: _ => target? edges f
  node?.filter fun v => t.mark v == .unvisited

def isRound (t : Traversal) : Bool := !t.stack.isEmpty

/-- All that a step can do, by the node that it enters and the edge that it looks at. -/
inductive NextCase (edges : List (List Nat)) (t : Traversal) :
    Option Nat → Option Frame → Traversal → Prop where
  | skipped {node : Nat} {rest : List Nat} : t.stack = [] → t.waiting = node :: rest →
      t.mark node ≠ .unvisited → NextCase edges t none none { t with waiting := rest }
  | started {node : Nat} {rest : List Nat} : t.stack = [] → t.waiting = node :: rest →
      t.mark node = .unvisited →
      NextCase edges t (some node) none ({ t with waiting := rest }.enter node)
  | left {f : Frame} {below : List Frame} : t.stack = f :: below → target? edges f = none →
      NextCase edges t none none (t.leave f below)
  | passed {f : Frame} {below : List Frame} {v : Nat} : t.stack = f :: below →
      target? edges f = some v → t.mark v ≠ .unvisited →
      NextCase edges t none (some f) (t.pass f below)
  | entered {f : Frame} {below : List Frame} {v : Nat} : t.stack = f :: below →
      target? edges f = some v → t.mark v = .unvisited →
      NextCase edges t (some v) (some f) ((t.pass f below).enter v)

theorem next_spec (h : Next edges t t') :
    NextCase edges t (t.entered? edges) (t.examined? edges) t' := by
  have hcase := step_spec edges t
  cases h with
  | moved h =>
    rw [h] at hcase
    cases hcase with
    | skipped hs hw hm =>
      simpa [entered?, examined?, hs, hw, hm, Option.filter_some] using NextCase.skipped hs hw hm
    | started hs hw hm =>
      simpa [entered?, examined?, hs, hw, hm, Option.filter_some] using NextCase.started hs hw hm
    | left hs ht =>
      simpa [entered?, examined?, hs, ht, Option.filter_some] using NextCase.left hs ht
    | entered hs ht hm =>
      simpa [entered?, examined?, hs, ht, hm, Option.filter_some] using NextCase.entered hs ht hm
    | passed hs ht hm =>
      simpa [entered?, examined?, hs, ht, hm, Option.filter_some] using
        NextCase.passed hs ht (by rw [hm]; exact Mark.noConfusion)
  | met h =>
    rw [h] at hcase
    cases hcase with
    | met hs ht hm =>
      simpa [entered?, examined?, hs, ht, hm, Option.filter_some] using
        NextCase.passed hs ht (by rw [hm]; exact Mark.noConfusion)

/-- A step that looks at no edge takes the innermost node off the stack, if there is one; then the
node that is entered comes onto it. -/
theorem path_next (h : Next edges t t') :
    t'.path = (t.entered? edges).toList ++
      if (t.examined? edges).isSome then t.path else t.path.tail := by
  have hcase := next_spec h
  generalize t.entered? edges = node, t.examined? edges = edge at hcase ⊢
  cases hcase with
  | skipped hs _ _ => simp [path, hs]
  | started hs _ _ => simp [path, hs, enter]
  | left hs _ => simp [path, hs, leave]
  | passed hs _ _ => simp [path, hs, pass]
  | entered hs _ _ => simp [path, hs, pass, enter]

theorem Sound.next (hs : Sound edges t) (h : Next edges t t') : Sound edges t' := by
  have hstep := hs.step
  cases h with
  | moved h =>
    rw [h] at hstep
    exact hstep.1
  | met h =>
    rw [h] at hstep
    exact hstep.1

/-- A round leaves a node unless it looks at an edge, and any other step takes a node that waits. -/
theorem count_next (h : Next edges t t') :
    t'.finished.length + (t.examined? edges).toList.length =
        t.finished.length + (if t.isRound then 1 else 0) ∧
      t'.waiting.length + 1 = t.waiting.length + if t.isRound then 1 else 0 := by
  have hcase := next_spec h
  generalize t.entered? edges = node, t.examined? edges = edge at hcase ⊢
  cases hcase with
  | skipped hs hw _ => simp [isRound, hs, hw]
  | started hs hw _ => simp [isRound, hs, hw, enter]
  | left hs _ => simp [isRound, hs, leave]
  | passed hs _ _ => simp [isRound, hs, pass]
  | entered hs _ _ => simp [isRound, hs, pass, enter]

/-! ## What has been visited -/

theorem lt_of_entered? (hs : Sound edges t) {v : Nat} (h : t.entered? edges = some v) :
    v < edges.length ∧ t.mark v = .unvisited := by
  have hm : t.mark v = .unvisited := by
    simpa using (Option.filter_eq_some_iff.mp h).2
  exact ⟨hs.marks_length ▸ lt_length_of_mark_ne (by rw [hm]; exact Mark.noConfusion), hm⟩

theorem visited_enter {v : Nat} (hv : v < t.marks.length) (u : Nat) :
    (t.enter v).mark u ≠ .unvisited ↔ t.mark u ≠ .unvisited ∨ v = u := by
  have hmark : (t.enter v).mark u = if u = v then .onStack else t.mark u := mark_set hv
  rw [hmark]
  by_cases hu : u = v
  · simp [hu]
  · simp [hu, Ne.symm hu]

theorem visited_leave (hs : Sound edges t) {f : Frame} {below : List Frame}
    (hstack : t.stack = f :: below) (u : Nat) :
    (t.leave f below).mark u ≠ .unvisited ↔ t.mark u ≠ .unvisited := by
  have hmark : (t.leave f below).mark u = if u = f.node then .done else t.mark u :=
    mark_set (hs.marks_length ▸ hs.node_lt hstack)
  have hon : t.mark f.node = .onStack := (hs.onStack_iff f.node).mpr (by simp [path, hstack])
  rw [hmark]
  by_cases hu : u = f.node
  · simp [hu, hon]
  · simp [hu]

/-- A node is visited once it has been entered. -/
theorem visited_next (hs : Sound edges t) (h : Next edges t t') (u : Nat) :
    t'.mark u ≠ .unvisited ↔ t.mark u ≠ .unvisited ∨ t.entered? edges = some u := by
  have hcase := next_spec h
  have hlt := @lt_of_entered? edges t hs
  generalize t.entered? edges = node, t.examined? edges = edge at hcase hlt ⊢
  rw [← hs.marks_length] at hlt
  cases hcase with
  | skipped | passed => simp [mark, pass]
  | @started node rest =>
    rw [Option.some_inj]
    exact visited_enter (t := { t with waiting := rest }) (hlt rfl).1 u
  | left hstack => simpa using visited_leave hs hstack u
  | @entered f below v =>
    rw [Option.some_inj]
    exact visited_enter (t := t.pass f below) (hlt rfl).1 u

/-! ## What has been looked at -/

/-- The edge comes before the position of its node in one of the frames. -/
def BehindFrames (stack : List Frame) (e : Frame) : Prop :=
  ∃ g ∈ stack, g.node = e.node ∧ e.next < g.next

/-- The edge is behind a frame of the stack, or leaves a finished node. -/
def Behind (edges : List (List Nat)) (t : Traversal) (e : Frame) : Prop :=
  BehindFrames t.stack e ∨ e.node ∈ t.finished ∧ e.next < degree edges e.node

theorem behindFrames_cons {f e : Frame} {below : List Frame} :
    BehindFrames (f :: below) e ↔ (f.node = e.node ∧ e.next < f.next) ∨ BehindFrames below e := by
  simp [BehindFrames]

theorem behindFrames_start {e : Frame} {node : Nat} {below : List Frame} :
    BehindFrames (⟨node, 0⟩ :: below) e ↔ BehindFrames below e := by
  rw [behindFrames_cons, or_iff_right]
  exact fun h => Nat.not_lt_zero _ h.2

theorem behindFrames_pass {f e : Frame} {below : List Frame} :
    BehindFrames ({ f with next := f.next + 1 } :: below) e ↔
      BehindFrames (f :: below) e ∨ f = e := by
  rw [behindFrames_cons, behindFrames_cons, Nat.lt_succ_iff_lt_or_eq]
  obtain ⟨node, next⟩ := f
  obtain ⟨node', next'⟩ := e
  simp only [Frame.mk.injEq]
  tauto

theorem behind_next (hs : Sound edges t) (h : Next edges t t') (e : Frame) :
    Behind edges t' e ↔ Behind edges t e ∨ t.examined? edges = some e := by
  have hcase := next_spec h
  generalize t.entered? edges = node, t.examined? edges = edge at hcase ⊢
  cases hcase with
  | skipped => simp [Behind]
  | started hstack _ _ =>
    simp only [Behind, enter, hstack, behindFrames_start, reduceCtorEq, or_false]
  | @left f below hstack ht =>
    -- The frame that is taken off the stack stands behind all edges of its node.
    have hnext : f.next = degree edges f.node :=
      Nat.le_antisymm (hs.next_le f (by simp [hstack])) (target?_eq_none.mp ht)
    simp only [Behind, leave, hstack, behindFrames_cons, List.mem_cons, reduceCtorEq, or_false]
    by_cases hnode : f.node = e.node
    · rw [hnext, hnode]
      tauto
    · simp only [hnode, Ne.symm hnode, false_and, false_or]
  | @passed f below v hstack _ _ =>
    simp only [Behind, pass, hstack, behindFrames_pass, Option.some_inj]
    tauto
  | @entered f below v hstack _ _ =>
    simp only [Behind, enter, pass, hstack, behindFrames_start, behindFrames_pass,
      Option.some_inj]
    tauto

/-- The edge that is looked at next has not been looked at before. -/
theorem not_behind_of_examined? (hs : Sound edges t) {e : Frame}
    (he : t.examined? edges = some e) : ¬ Behind edges t e := by
  obtain ⟨hhead, -⟩ := Option.filter_eq_some_iff.mp he
  obtain ⟨below, hstack⟩ := List.head?_eq_some_iff.mp hhead
  rintro (⟨g, hg, hnode, hlt⟩ | ⟨hmem, -⟩)
  · rw [hstack] at hg
    rcases List.mem_cons.mp hg with rfl | hg
    · exact Nat.lt_irrefl _ hlt
    · exact hs.node_notMem hstack (hnode ▸ List.mem_map_of_mem hg)
  · have hon : t.mark e.node = .onStack := (hs.onStack_iff e.node).mpr (by simp [path, hstack])
    rw [((hs.finished_iff e.node).mp hmem).2] at hon
    cases hon

/-! ## Traces -/

/-- A traversal from its start, with the states before each of its steps, the latest first. -/
inductive Trace (edges : List (List Nat)) : List Traversal → Traversal → Prop where
  | start : Trace edges [] (start edges)
  | next {past : List Traversal} {t t' : Traversal} : Trace edges past t → Next edges t t' →
      Trace edges (t :: past) t'

def entered (edges : List (List Nat)) (past : List Traversal) : List Nat :=
  past.filterMap (entered? edges)

def examined (edges : List (List Nat)) (past : List Traversal) : List Frame :=
  past.filterMap (examined? edges)

def rounds (past : List Traversal) : Nat := past.countP isRound

theorem mem_entered_cons {v : Nat} :
    v ∈ entered edges (t :: past) ↔ v ∈ entered edges past ∨ t.entered? edges = some v := by
  simp only [entered, List.mem_filterMap, List.mem_cons, exists_eq_or_imp]
  exact or_comm

theorem mem_examined_cons {e : Frame} :
    e ∈ examined edges (t :: past) ↔ e ∈ examined edges past ∨ t.examined? edges = some e := by
  simp only [examined, List.mem_filterMap, List.mem_cons, exists_eq_or_imp]
  exact or_comm

theorem nodup_filterMap_cons {α β : Type} {f : α → Option β} {a : α} {l : List α}
    (hnew : ∀ b, f a = some b → b ∉ l.filterMap f) (h : (l.filterMap f).Nodup) :
    ((a :: l).filterMap f).Nodup := by
  cases hfa : f a with
  | none => rwa [List.filterMap_cons_none hfa]
  | some b =>
    rw [List.filterMap_cons_some hfa]
    exact List.nodup_cons.mpr ⟨hnew b hfa, h⟩

namespace Trace

theorem sound (h : Trace edges past t) : Sound edges t := by
  induction h with
  | start => exact sound_start edges
  | next _ hnext ih => exact ih.next hnext

/-- The nodes that have been entered are those visited. -/
theorem mem_entered (h : Trace edges past t) {v : Nat} :
    v ∈ entered edges past ↔ v < edges.length ∧ t.mark v ≠ .unvisited := by
  induction h with
  | start =>
    have hmark (hv : v < edges.length) : (Traversal.start edges).mark v = .unvisited := by
      simp [Traversal.start, mark, hv]
    simp only [entered, List.filterMap_nil, List.not_mem_nil, false_iff]
    exact fun hv => hv.2 (hmark hv.1)
  | @next past t t' htrace hnext ih =>
    rw [mem_entered_cons, visited_next htrace.sound hnext, ih]
    have hlt := @lt_of_entered? edges t htrace.sound v
    tauto

theorem entered_nodup (h : Trace edges past t) : (entered edges past).Nodup := by
  induction h with
  | start => exact List.nodup_nil
  | next htrace _ ih =>
    refine nodup_filterMap_cons (fun v hv hmem => ?_) ih
    exact (htrace.mem_entered.mp hmem).2 (lt_of_entered? htrace.sound hv).2

theorem mem_examined (h : Trace edges past t) {e : Frame} :
    e ∈ examined edges past ↔ Behind edges t e := by
  induction h with
  | start => simp [examined, Behind, BehindFrames, Traversal.start]
  | next htrace hnext ih => rw [mem_examined_cons, behind_next htrace.sound hnext, ih]

theorem examined_nodup (h : Trace edges past t) : (examined edges past).Nodup := by
  induction h with
  | start => exact List.nodup_nil
  | next htrace _ ih =>
    refine nodup_filterMap_cons (fun e he hmem => ?_) ih
    exact not_behind_of_examined? htrace.sound he (htrace.mem_examined.mp hmem)

/-- Each round has looked at an edge or left a node, and each other step has taken a node. -/
theorem count (h : Trace edges past t) :
    rounds past = (examined edges past).length + t.finished.length ∧
      past.length + t.waiting.length = rounds past + edges.length := by
  induction h with
  | start => simp [rounds, examined, Traversal.start]
  | @next past t t' _ hnext ih =>
    have hcount := count_next hnext
    have hexamined : (examined edges (t :: past)).length =
        (t.examined? edges).toList.length + (examined edges past).length := by
      rw [examined, List.filterMap_cons, examined]
      cases t.examined? edges <;> simp [Nat.add_comm]
    rw [hexamined, rounds, List.countP_cons, ← rounds, List.length_cons]
    omega

end Trace

/-! ## Bounds -/

/-- All edges of a graph, by their nodes and positions. -/
def allEdges (edges : List (List Nat)) : List Frame :=
  (List.range edges.length).flatMap fun v => (List.range (degree edges v)).map (Frame.mk v)

theorem length_allEdges (edges : List (List Nat)) : (allEdges edges).length = edgeCount edges := by
  have hdegrees : (List.range edges.length).map (degree edges) = edges.map List.length := by
    refine List.ext_getElem (by simp) fun v hv _ => ?_
    simp only [List.length_map, List.length_range] at hv
    simp [degree, hv]
  rw [allEdges, List.length_flatMap, edgeCount, List.length_flatten, ← hdegrees]
  simp

theorem mem_allEdges {f : Frame} (h : (target? edges f).isSome) : f ∈ allEdges edges := by
  obtain ⟨v, hv⟩ := Option.isSome_iff_exists.mp h
  rw [allEdges, List.mem_flatMap]
  refine ⟨f.node, List.mem_range.mpr (adj_of_target? hv).lt_length, ?_⟩
  exact List.mem_map.mpr ⟨f.next, List.mem_range.mpr (lt_degree_of_target? hv), rfl⟩

theorem Trace.length_examined_le (h : Trace edges past t) :
    (examined edges past).length ≤ edgeCount edges := by
  rw [← length_allEdges]
  refine (h.examined_nodup.subperm fun e he => ?_).length_le
  obtain ⟨u, -, hu⟩ := List.mem_filterMap.mp he
  exact mem_allEdges (Option.filter_eq_some_iff.mp hu).2

theorem Sound.length_finished_le (h : Sound edges t) : t.finished.length ≤ edges.length := by
  have hsub : t.finished ⊆ List.range edges.length := fun v hv =>
    List.mem_range.mpr ((h.finished_iff v).mp hv).1
  simpa using (h.finished_nodup.subperm hsub).length_le

/-- What holds of a traversal at all times. -/
structure Frugal (edges : List (List Nat)) (past : List Traversal) (t : Traversal) : Prop where
  entered_nodup : (entered edges past).Nodup
  examined_nodup : (examined edges past).Nodup
  finished_nodup : t.finished.Nodup
  /-- Each round looks at an edge or leaves a node. -/
  rounds_eq : rounds past = (examined edges past).length + t.finished.length
  rounds_le : rounds past ≤ edges.length + edgeCount edges
  /-- Every other step takes a node that waits. -/
  length_le : past.length ≤ edges.length + rounds past
  path_nodup : t.path.Nodup
  onStack_iff : ∀ v, t.mark v = .onStack ↔ v ∈ t.path
  /-- The nodes that are done, and no others, have got their levels. -/
  isSome_level_iff : ∀ v, v < edges.length →
    (((levelsOf edges t.finished.reverse).getD v none).isSome ↔ t.mark v = .done)

theorem isSome_levelsOf {nodes : List Nat} {v : Nat} (hv : v < edges.length) :
    ((levelsOf edges nodes).getD v none).isSome ↔ v ∈ nodes := by
  induction nodes using List.reverseRecOn with
  | nil => simp [levelsOf]
  | append_singleton nodes u ih =>
    have hassign : levelsOf edges (nodes ++ [u]) = assign edges (levelsOf edges nodes) u := by
      rw [levelsOf, List.foldl_concat, ← levelsOf]
    rw [hassign, assign, List.getD_eq_getElem?_getD, List.mem_append, List.mem_singleton]
    by_cases hu : u = v
    · subst hu
      rw [List.getElem?_set_self (by rw [length_levelsOf]; exact hv)]
      simp
    · rw [List.getElem?_set_ne hu, ← List.getD_eq_getElem?_getD, ih]
      simp [Ne.symm hu]

theorem Trace.frugal (h : Trace edges past t) : Frugal edges past t := by
  have hs := h.sound
  obtain ⟨hrounds, hlength⟩ := h.count
  have hexamined := h.length_examined_le
  have hfinished := hs.length_finished_le
  refine ⟨h.entered_nodup, h.examined_nodup, hs.finished_nodup, hrounds, by omega, by omega,
    hs.path_nodup, hs.onStack_iff, fun v hv => ?_⟩
  rw [isSome_levelsOf hv, List.mem_reverse, hs.finished_iff, and_iff_right hv]

/-! ## Searches -/

/-- The edge that the next step looks at leads back to the stack. -/
def Meets (edges : List (List Nat)) (t : Traversal) : Prop := ∃ v t', t.step edges = .met v t'

theorem finish_trace {fuel : Nat} (h : Trace edges past t) (hf : remaining edges t < fuel) :
    ∃ past', Trace edges past' (finish edges fuel t) ∧ (finish edges fuel t).step edges = .ended := by
  induction fuel generalizing past t with
  | zero => omega
  | succ fuel ih =>
    have hstep := h.sound.step
    rw [finish]
    cases hs : t.step edges with
    | ended => exact ⟨past, h, hs⟩
    | met v t' =>
      rw [hs] at hstep
      exact ih (h.next (.met hs)) (by omega)
    | moved t' =>
      rw [hs] at hstep
      exact ih (h.next (.moved hs)) (by omega)

/-- How a search for a way back ends. -/
def EndsWith (edges : List (List Nat)) (t : Traversal) : Option (List Frame × Nat) → Prop
  | none => t.step edges = .ended
  | some (stack, target) => ∃ t', t.step edges = .met target t' ∧ t'.stack = stack

theorem firstMeeting_trace {fuel : Nat} (h : Trace edges past t) (hnone : ∀ u ∈ past, ¬ u.Meets edges)
    (hf : remaining edges t < fuel) :
    ∃ past' t', Trace edges past' t' ∧ (∀ u ∈ past', ¬ u.Meets edges) ∧
      EndsWith edges t' (firstMeeting edges fuel t) := by
  induction fuel generalizing past t with
  | zero => omega
  | succ fuel ih =>
    have hstep := h.sound.step
    rw [firstMeeting]
    cases hs : t.step edges with
    | ended => exact ⟨past, t, h, hnone, hs⟩
    | met v t' => exact ⟨past, t, h, hnone, t', hs, rfl⟩
    | moved t' =>
      rw [hs] at hstep
      refine ih (h.next (.moved hs)) (List.forall_mem_cons.mpr ⟨?_, hnone⟩) (by omega)
      rintro ⟨v, u, hu⟩
      rw [hs] at hu
      cases hu

/-- Each frame of a stack but the innermost has just passed an edge. -/
theorem exists_follows {f g : Frame} {below : List Frame} (h : (f :: below).IsChain (Follows edges))
    (hg : g ∈ below) : ∃ above, Follows edges above g := by
  induction below generalizing f with
  | nil => cases hg
  | cons g' rest ih =>
    obtain ⟨hfollows, hrest⟩ := List.isChain_cons_cons.mp h
    rcases List.mem_cons.mp hg with rfl | hg
    · exact ⟨f, hfollows⟩
    · exact ih hrest hg

/-- Every frame of a stack that an edge leads back to has passed an edge of its node. -/
theorem Sound.passed_of_met (hs : Sound edges t) {v : Nat} (h : t.step edges = .met v t') :
    v ∈ t'.path ∧ ∀ g ∈ t'.stack, g.node < edges.length ∧ 1 ≤ g.next ∧
      g.next ≤ degree edges g.node ∧ ∃ u, (edges.getD g.node [])[g.next - 1]? = some u := by
  have hstep := hs.step
  rw [h] at hstep
  obtain ⟨hs', -, f, below, hstack, ht, hm, rfl⟩ := hstep
  have hchain : (⟨v, 0⟩ :: (t.pass f below).stack).IsChain (Follows edges) :=
    .cons hs'.linked fun g hg => by
      cases hg
      exact ⟨f.next, rfl, ht⟩
  refine ⟨(hs'.onStack_iff v).mp hm, fun g hg => ?_⟩
  obtain ⟨above, k, hnext, htarget⟩ := exists_follows hchain hg
  have hlt : k < degree edges g.node := lt_degree_of_target? htarget
  have hprev : g.next - 1 = k := by omega
  exact ⟨(adj_of_target? htarget).lt_length, by omega, by omega, above.node, hprev ▸ htarget⟩

end Traversal

open Traversal

theorem exists_level {v : Nat} (hv : v < edges.length) :
    ∃ k, (levels edges)[v]? = some (some k) := by
  have hlevel := getD_levels_eq_level hv
  rw [List.getD_eq_getElem?_getD] at hlevel
  cases hget : (levels edges)[v]? with
  | none =>
    rw [hget] at hlevel
    cases hlevel
  | some l =>
    rw [hget] at hlevel
    exact ⟨level edges v, congrArg some hlevel⟩

/-- At all times the traversal of a graph has entered each node at most once and looked at each edge
at most once, so it has made at most as many rounds as there are nodes and edges; the stack holds
different nodes, those marked so, and changes by what the step enters and looks at. The search for a
way back goes on to its end, or to the first edge that leads back to the stack; then every position
on the stack is behind an edge of its node. The search that passes over such edges goes on to its
end, and then every node has a level. -/
theorem searches_end (edges : List (List Nat)) :
    (∀ past t, Trace edges past t → Frugal edges past t ∧ ∀ t', Next edges t t' →
      t'.path = (t.entered? edges).toList ++
        if (t.examined? edges).isSome then t.path else t.path.tail) ∧
    (∃ past t, Trace edges past t ∧ (∀ u ∈ past, ¬ u.Meets edges) ∧
      EndsWith edges t (findMeeting edges)) ∧
    (∀ stack target, findMeeting edges = some (stack, target) → target ∈ stack.map (·.node) ∧
      ∀ f ∈ stack, f.node < edges.length ∧ 1 ≤ f.next ∧ f.next ≤ degree edges f.node ∧
        ∃ v, (edges.getD f.node [])[f.next - 1]? = some v) ∧
    (∃ past t, Trace edges past t ∧ t.step edges = .ended ∧
      postorder edges = t.finished.reverse ∧ levels edges = levelsOf edges t.finished.reverse) ∧
    ∀ v, v < edges.length → ∃ k, (levels edges)[v]? = some (some k) := by
  obtain ⟨past, t, htrace, hnone, hends⟩ :=
    firstMeeting_trace .start (by simp) (remaining_start edges)
  refine ⟨fun past t h => ⟨h.frugal, fun t' => path_next⟩, ⟨past, t, htrace, hnone, hends⟩, ?_, ?_,
    fun v => exists_level⟩
  · intro stack target hfound
    have hmet : EndsWith edges t (some (stack, target)) := hfound ▸ hends
    obtain ⟨t', hstep, rfl⟩ := hmet
    exact htrace.sound.passed_of_met hstep
  · obtain ⟨past, htrace, hended⟩ := finish_trace .start (remaining_start edges)
    exact ⟨past, _, htrace, hended, rfl, rfl⟩

/-- The last node has passed both of its edges when the second one leads back. -/
example : findMeeting [[1], [2], [3, 1], []] = some ([⟨2, 2⟩, ⟨1, 1⟩, ⟨0, 1⟩], 1) := by decide

end WorkflowEngine.Graph
