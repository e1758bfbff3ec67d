import Mathlib.Algebra.BigOperators.Group.Finset.Basic
import Mathlib.Data.List.Chain
import Mathlib.Data.List.GetD
import Mathlib.Logic.Relation
import WorkflowEngine.Graph.Traversal

/-!
# Invariants of the traversal

`StepCase` lists all that one step can do; every invariant below is proved by cases on it.

* `Sound` ties stack, marks and finished nodes to each other: the nodes on the stack are distinct
  and are those marked so, and each frame has just passed the edge to the frame above it.
* `Explored back` says where the passed edges lead: to a node that was finished before, or back
  (in the sense of `back`). A traversal that passes over edges that lead back keeps it for
  "reaches", and one that has met no such edge keeps it for "never".
* `remaining` counts the steps that are left, so the fuel is enough.
-/

namespace WorkflowEngine.Graph

variable {edges : List (List Nat)}

def Adj (edges : List (List Nat)) (u v : Nat) : Prop := v ∈ edges.getD u []

/-- There is a path of at least one edge. -/
def Reaches (edges : List (List Nat)) : Nat → Nat → Prop := Relation.TransGen (Adj edges)

def Acyclic (edges : List (List Nat)) : Prop := ∀ v, ¬ Reaches edges v v

def degree (edges : List (List Nat)) (v : Nat) : Nat := (edges.getD v []).length

theorem Adj.lt_length {u v : Nat} (h : Adj edges u v) : u < edges.length := by
  by_contra hu
  rw [Adj, List.getD_eq_default _ _ (by omega)] at h
  cases h

namespace Traversal

theorem target?_eq_none {f : Frame} : target? edges f = none ↔ degree edges f.node ≤ f.next := by
  simp [target?, degree]

theorem lt_degree_of_target? {f : Frame} {v : Nat} (h : target? edges f = some v) :
    f.next < degree edges f.node := by
  by_contra hlt
  rw [target?_eq_none.mpr (by omega)] at h
  cases h

theorem adj_of_target? {f : Frame} {v : Nat} (h : target? edges f = some v) :
    Adj edges f.node v := List.mem_of_getElem? h

theorem exists_target? {u v : Nat} (h : Adj edges u v) :
    ∃ k, k < degree edges u ∧ target? edges ⟨u, k⟩ = some v := by
  obtain ⟨k, hk, hv⟩ := List.getElem_of_mem h
  exact ⟨k, hk, by rw [target?, List.getElem?_eq_getElem hk, hv]⟩

/-! ## Steps -/

def pass (t : Traversal) (f : Frame) (below : List Frame) : Traversal :=
  { t with stack := { f with next := f.next + 1 } :: below }

def leave (t : Traversal) (f : Frame) (below : List Frame) : Traversal :=
  { t with marks := t.marks.set f.node .done, stack := below, finished := f.node :: t.finished }

/-- All that a step can do. -/
inductive StepCase (edges : List (List Nat)) (t : Traversal) : Move → Prop where
  | ended : t.stack = [] → t.waiting = [] → StepCase edges t .ended
  | skipped {node : Nat} {rest : List Nat} : t.stack = [] → t.waiting = node :: rest →
      t.mark node ≠ .unvisited → StepCase edges t (.moved { t with waiting := rest })
  | started {node : Nat} {rest : List Nat} : t.stack = [] → t.waiting = node :: rest →
      t.mark node = .unvisited →
      StepCase edges t (.moved ({ t with waiting := rest }.enter node))
  | left {f : Frame} {below : List Frame} : t.stack = f :: below → target? edges f = none →
      StepCase edges t (.moved (t.leave f below))
  | met {f : Frame} {below : List Frame} {v : Nat} : t.stack = f :: below →
      target? edges f = some v → t.mark v = .onStack →
      StepCase edges t (.met v (t.pass f below))
  | entered {f : Frame} {below : List Frame} {v : Nat} : t.stack = f :: below →
      target? edges f = some v → t.mark v = .unvisited →
      StepCase edges t (.moved ((t.pass f below).enter v))
  | passed {f : Frame} {below : List Frame} {v : Nat} : t.stack = f :: below →
      target? edges f = some v → t.mark v = .done →
      StepCase edges t (.moved (t.pass f below))

theorem step_spec (edges : List (List Nat)) (t : Traversal) : StepCase edges t (t.step edges) := by
  unfold step
  split
  · rename_i hs
    split
    · rename_i hw
      exact .ended hs hw
    · rename_i node rest hw
      by_cases hm : t.mark node = .unvisited
      · have : Traversal.mark { t with waiting := rest } node = .unvisited := hm
        simp only [this, if_true]
        exact .started hs hw hm
      · have : Traversal.mark { t with waiting := rest } node ≠ .unvisited := hm
        simp only [this, if_false]
        exact .skipped hs hw hm
  · rename_i f below hs
    split
    · rename_i ht
      exact .left hs ht
    · rename_i v ht
      have hm : ∀ stack, Traversal.mark { t with stack } v = t.mark v := fun _ => rfl
      simp only [hm]
      split
      · rename_i h; exact .met hs ht h
      · rename_i h; exact .entered hs ht h
      · rename_i h; exact .passed hs ht h

theorem mark_set {t : Traversal} {u v : Nat} {m : Mark} {stack : List Frame} {finished : List Nat}
    (hv : v < t.marks.length) :
    Traversal.mark { t with marks := t.marks.set v m, stack, finished } u =
      if u = v then m else t.mark u := by
  simp only [mark, List.getD_eq_getElem?_getD, List.getElem?_set]
  by_cases h : v = u
  · subst h; simp [hv]
  · simp [h, Ne.symm h]

theorem lt_length_of_mark_ne {t : Traversal} {v : Nat} (h : t.mark v ≠ .done) :
    v < t.marks.length := by
  by_contra hv
  exact h (List.getD_eq_default _ _ (by omega))

/-- The nodes on the stack, the innermost first. -/
def path (t : Traversal) : List Nat := t.stack.map (·.node)

/-- `below` has just passed the edge that leads to the node of `above`. -/
def Follows (edges : List (List Nat)) (above below : Frame) : Prop :=
  ∃ k, below.next = k + 1 ∧ target? edges ⟨below.node, k⟩ = some above.node

theorem Follows.adj {above below : Frame} (h : Follows edges above below) :
    Adj edges below.node above.node := by
  obtain ⟨k, _, ht⟩ := h
  exact adj_of_target? (f := ⟨below.node, k⟩) ht

theorem reaches_of_linked {f : Frame} {below : List Frame}
    (h : (f :: below).IsChain (Follows edges)) {v : Nat} (hv : v ∈ below.map (·.node)) :
    Reaches edges v f.node := by
  induction below generalizing f with
  | nil => cases hv
  | cons g rest ih =>
    obtain ⟨hfg, hrest⟩ := List.isChain_cons_cons.mp h
    rcases List.mem_cons.mp hv with rfl | hv
    · exact .single hfg.adj
    · exact (ih hrest hv).tail hfg.adj

/-- Stack, marks and finished nodes agree with each other. -/
structure Sound (edges : List (List Nat)) (t : Traversal) : Prop where
  marks_length : t.marks.length = edges.length
  waiting_lt : ∀ v ∈ t.waiting, v < edges.length
  onStack_iff : ∀ v, t.mark v = .onStack ↔ v ∈ t.path
  path_nodup : t.path.Nodup
  finished_iff : ∀ v, v ∈ t.finished ↔ v < edges.length ∧ t.mark v = .done
  finished_nodup : t.finished.Nodup
  linked : t.stack.IsChain (Follows edges)
  next_le : ∀ f ∈ t.stack, f.next ≤ degree edges f.node
  tried : ∀ v, v < edges.length → v ∈ t.waiting ∨ t.mark v ≠ .unvisited

theorem sound_start (edges : List (List Nat)) : Sound edges (start edges) := by
  have hm : ∀ v, (start edges).mark v = if v < edges.length then .unvisited else .done := by
    intro v
    simp only [start, mark, List.getD_eq_getElem?_getD, List.getElem?_replicate]
    split <;> rfl
  refine ⟨by simp [start], by simp [start], ?_, List.nodup_nil, ?_, List.nodup_nil, .nil,
    by simp [start], fun v hv => .inl (by simpa [start] using hv)⟩
  · intro v
    rw [hm]
    split <;> simp [start, path]
  · intro v
    rw [hm]
    by_cases hv : v < edges.length <;> simp [hv, start]

namespace Sound

variable {t : Traversal} {f : Frame} {below : List Frame}

theorem node_lt (h : Sound edges t) (hs : t.stack = f :: below) : f.node < edges.length := by
  rw [← h.marks_length]
  apply lt_length_of_mark_ne
  rw [(h.onStack_iff f.node).mpr (by simp [path, hs])]
  decide

theorem node_notMem (h : Sound edges t) (hs : t.stack = f :: below) :
    f.node ∉ below.map (·.node) := by
  have := h.path_nodup
  rw [path, hs, List.map_cons, List.nodup_cons] at this
  exact this.1

theorem skip (h : Sound edges t) {node : Nat} {rest : List Nat} (hw : t.waiting = node :: rest)
    (hm : t.mark node ≠ .unvisited) : Sound edges { t with waiting := rest } := by
  refine ⟨h.marks_length, ?_, h.onStack_iff, h.path_nodup, h.finished_iff, h.finished_nodup,
    h.linked, h.next_le, ?_⟩
  · intro v hv
    exact h.waiting_lt v (by simp [hw, List.mem_cons_of_mem _ hv])
  · intro v hv
    rcases h.tried v hv with hmem | hne
    · rw [hw, List.mem_cons] at hmem
      rcases hmem with rfl | hmem
      · exact .inr hm
      · exact .inl hmem
    · exact .inr hne

/-- Entering a node whose frame follows the innermost one, if there is one. `rest` is what waits
afterwards. -/
theorem enter (h : Sound edges t) {v : Nat} (hm : t.mark v = .unvisited) {rest : List Nat}
    (hrest : ∀ u ∈ t.waiting, u = v ∨ u ∈ rest) (hsub : ∀ u ∈ rest, u ∈ t.waiting)
    (hlink : ∀ g, t.stack.head? = some g → Follows edges ⟨v, 0⟩ g) :
    Sound edges (Traversal.enter { t with waiting := rest } v) := by
  have hv : v < t.marks.length := lt_length_of_mark_ne (by rw [hm]; decide)
  have hmark : ∀ u, (Traversal.enter { t with waiting := rest } v).mark u =
      if u = v then .onStack else t.mark u := fun u => mark_set (t := { t with waiting := rest }) hv
  have hnew : v ∉ t.path := by
    rw [← h.onStack_iff, hm]; decide
  refine ⟨by simpa [Traversal.enter] using h.marks_length, fun u hu => h.waiting_lt u (hsub u hu),
    ?_, ?_, ?_, h.finished_nodup, ?_, ?_, ?_⟩
  · intro u
    rw [hmark]
    by_cases hu : u = v
    · simp [hu, path, Traversal.enter]
    · simpa [hu, path, Traversal.enter] using h.onStack_iff u
  · simpa [path, Traversal.enter] using ⟨by simpa [path] using hnew, h.path_nodup⟩
  · intro u
    rw [hmark]
    show u ∈ t.finished ↔ _
    rw [h.finished_iff]
    by_cases hu : u = v
    · simp [hu, hm]
    · simp [hu]
  · exact .cons h.linked fun g hg => hlink g (by simpa using hg)
  · intro g hg
    rcases List.mem_cons.mp hg with rfl | hg
    · exact Nat.zero_le _
    · exact h.next_le g hg
  · intro u hu
    rw [hmark]
    by_cases huv : u = v
    · exact .inr (by simp [huv])
    · rcases h.tried u hu with hmem | hne
      · exact .inl ((hrest u hmem).resolve_left huv)
      · exact .inr (by simpa [huv] using hne)

theorem leave (h : Sound edges t) (hs : t.stack = f :: below) :
    Sound edges (t.leave f below) := by
  have hf := h.node_lt hs
  have hmark : ∀ u, (t.leave f below).mark u = if u = f.node then .done else t.mark u := fun u =>
    mark_set (h.marks_length ▸ hf)
  have hon : t.mark f.node = .onStack := (h.onStack_iff f.node).mpr (by simp [path, hs])
  refine ⟨by simpa [Traversal.leave] using h.marks_length, h.waiting_lt, ?_, ?_, ?_, ?_, ?_, ?_, ?_⟩
  · intro u
    rw [hmark]
    by_cases hu : u = f.node
    · simpa [hu, path, Traversal.leave] using h.node_notMem hs
    · have := h.onStack_iff u
      simpa [hu, path, Traversal.leave, hs] using this
  · have := h.path_nodup
    rw [path, hs, List.map_cons, List.nodup_cons] at this
    exact this.2
  · intro u
    rw [hmark]
    show u ∈ f.node :: t.finished ↔ _
    rw [List.mem_cons, h.finished_iff]
    by_cases hu : u = f.node
    · simp [hu, hf]
    · simp [hu]
  · refine List.nodup_cons.mpr ⟨?_, h.finished_nodup⟩
    rw [h.finished_iff, hon]
    simp
  · have := h.linked
    rw [hs] at this
    exact this.tail
  · intro g hg
    exact h.next_le g (by rw [hs]; exact List.mem_cons_of_mem _ hg)
  · intro u hu
    rw [hmark]
    by_cases huf : u = f.node
    · exact .inr (by simp [huf])
    · simpa [huf, Traversal.leave] using h.tried u hu

theorem pass (h : Sound edges t) (hs : t.stack = f :: below) {v : Nat}
    (ht : target? edges f = some v) : Sound edges (t.pass f below) := by
  have hp : (t.pass f below).path = t.path := by simp [Traversal.pass, path, hs]
  refine ⟨h.marks_length, h.waiting_lt, ?_, by rw [hp]; exact h.path_nodup, h.finished_iff,
    h.finished_nodup, ?_, ?_, h.tried⟩
  · intro u
    rw [hp]
    exact h.onStack_iff u
  · have := h.linked
    rw [hs] at this
    show List.IsChain _ (_ :: below)
    cases below with
    | nil => exact .singleton _
    | cons g rest =>
      obtain ⟨hfg, hrest⟩ := List.isChain_cons_cons.mp this
      exact List.isChain_cons_cons.mpr ⟨hfg, hrest⟩
  · intro g hg
    rcases List.mem_cons.mp hg with rfl | hg
    · exact lt_degree_of_target? ht
    · exact h.next_le g (by rw [hs]; exact List.mem_cons_of_mem _ hg)

/-- Every node on the stack below the innermost one leads to it. -/
theorem reaches_innermost (h : Sound edges t) (hs : t.stack = f :: below) {v : Nat}
    (hv : v ∈ below.map (·.node)) : Reaches edges v f.node := by
  have hl := h.linked
  rw [hs] at hl
  exact reaches_of_linked hl hv

/-- An edge from the innermost node back to the stack closes a cycle. -/
theorem reaches_back (h : Sound edges t) (hs : t.stack = f :: below) {v : Nat}
    (ht : target? edges f = some v) (hm : t.mark v = .onStack) : Reaches edges v f.node := by
  have hv : v ∈ (f :: below).map (·.node) := by
    rw [← hs]
    exact (h.onStack_iff v).mp hm
  rcases List.mem_cons.mp hv with rfl | hv
  · exact .single (adj_of_target? ht)
  · exact h.reaches_innermost hs hv

end Sound

/-! ## Where the passed edges lead -/

/-- Of the edges of every node, each leads to a node that comes later in the list, or back. -/
def Ordered (edges : List (List Nat)) (back : Nat → Nat → Prop) : List Nat → Prop
  | [] => True
  | u :: below =>
    (∀ v, v < edges.length → Adj edges u v → v ∈ below ∨ back v u) ∧ Ordered edges back below

/-- The edges that a frame has passed before position `k` lead to finished nodes, or back. -/
def PassedTo (edges : List (List Nat)) (back : Nat → Nat → Prop) (finished : List Nat)
    (f : Frame) (k : Nat) : Prop :=
  ∀ i, i < k → ∀ v, target? edges ⟨f.node, i⟩ = some v → v < edges.length →
    v ∈ finished ∨ back v f.node

theorem PassedTo.mono {back : Nat → Nat → Prop} {finished more : List Nat} {f : Frame} {k l : Nat}
    (h : PassedTo edges back finished f k) (hsub : ∀ v ∈ finished, v ∈ more) (hle : l ≤ k) :
    PassedTo edges back more f l := by
  intro i hi v hv hlt
  exact (h i (by omega) v hv hlt).imp_left (hsub v)

/-- All passed edges lead to finished nodes or back, the last one of a frame that is not the
innermost apart: that one leads to the frame above it. -/
structure Explored (edges : List (List Nat)) (back : Nat → Nat → Prop) (t : Traversal) : Prop where
  ordered : Ordered edges back t.finished
  frames : ∀ f ∈ t.stack, PassedTo edges back t.finished f (f.next - 1)
  innermost : ∀ f, t.stack.head? = some f → PassedTo edges back t.finished f f.next

namespace Explored

variable {back : Nat → Nat → Prop} {t : Traversal} {f : Frame} {below : List Frame}

theorem start (edges : List (List Nat)) (back : Nat → Nat → Prop) :
    Explored edges back (start edges) :=
  ⟨trivial, by simp [Traversal.start], by simp [Traversal.start]⟩

theorem enter (h : Explored edges back t) (v : Nat) (waiting : List Nat) :
    Explored edges back (Traversal.enter { t with waiting } v) := by
  refine ⟨h.ordered, ?_, ?_⟩
  · intro g hg
    rcases List.mem_cons.mp hg with rfl | hg
    · intro i hi
      exact absurd hi (Nat.not_lt_zero i)
    · exact h.frames g hg
  · intro g hg i hi
    cases hg
    exact absurd hi (Nat.not_lt_zero i)

/-- All edges of a node that is left have been passed. -/
theorem leave (h : Explored edges back t) (hsound : Sound edges t) (hs : t.stack = f :: below)
    (ht : target? edges f = none) : Explored edges back (t.leave f below) := by
  have hdone := h.innermost f (by simp [hs])
  refine ⟨⟨?_, h.ordered⟩, ?_, ?_⟩
  · intro v hv hadj
    obtain ⟨k, hk, hk'⟩ := exists_target? hadj
    have := target?_eq_none.mp ht
    exact hdone k (by omega) v hk' hv
  · intro g hg
    refine (h.frames g ?_).mono (fun v hv => List.mem_cons_of_mem _ hv) le_rfl
    rw [hs]
    exact List.mem_cons_of_mem _ hg
  · intro g hg i hi v hv hlt
    have hg' : g ∈ below := List.mem_of_mem_head? hg
    have hfollow : Follows edges f g := by
      have := hsound.linked
      rw [hs] at this
      exact this.rel_head? hg
    obtain ⟨k, hk, hnode⟩ := hfollow
    by_cases hik : i = k
    · subst hik
      rw [hv] at hnode
      cases hnode
      exact .inl (List.mem_cons_self ..)
    · have hprev := h.frames g (by rw [hs]; exact List.mem_cons_of_mem _ hg')
      exact (hprev i (by omega) v hv hlt).imp_left (List.mem_cons_of_mem _)

/-- An edge that leads to a finished node, or back, may be passed. -/
theorem pass (h : Explored edges back t) (hs : t.stack = f :: below) {v : Nat}
    (ht : target? edges f = some v) (hv : v < edges.length → v ∈ t.finished ∨ back v f.node) :
    Explored edges back (t.pass f below) := by
  have hf := h.innermost f (by simp [hs])
  refine ⟨h.ordered, ?_, ?_⟩
  · intro g hg
    rcases List.mem_cons.mp hg with rfl | hg
    · exact hf
    · exact h.frames g (by rw [hs]; exact List.mem_cons_of_mem _ hg)
  · intro g hg i hi u hu hlt
    cases hg
    rcases Nat.lt_succ_iff_lt_or_eq.mp hi with hi | rfl
    · exact hf i hi u hu hlt
    · have : target? edges f = some u := hu
      rw [ht] at this
      cases this
      exact hv hlt

/-- Passing an edge and entering the node that it leads to. -/
theorem pass_enter (h : Explored edges back t) (hs : t.stack = f :: below) (v : Nat) :
    Explored edges back ((t.pass f below).enter v) := by
  refine ⟨h.ordered, ?_, ?_⟩
  · intro g hg
    rcases List.mem_cons.mp hg with rfl | hg
    · intro i hi
      exact absurd hi (Nat.not_lt_zero i)
    rcases List.mem_cons.mp hg with rfl | hg
    · exact h.innermost f (by simp [hs])
    · exact h.frames g (by rw [hs]; exact List.mem_cons_of_mem _ hg)
  · intro g hg i hi
    cases hg
    exact absurd hi (Nat.not_lt_zero i)

end Explored

end Traversal

end WorkflowEngine.Graph
