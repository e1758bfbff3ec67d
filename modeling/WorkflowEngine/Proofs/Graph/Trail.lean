import WorkflowEngine.Proofs.Graph.Levels

/-!
# Traversals without positions

A stack keeps for each of its nodes the position of the edge that comes next. The edges before it
lead to nodes that the traversal is done with, so the next node to enter is the first one in the
whole list that it is not done with, whatever the position. `Trail` is a traversal without the
positions; a trail goes on in one stride from one node to the next, while the traversal passes over
edges in between (`step_trail`).

* `Search.unique`: a search along a trail has one end.
* `finish_search` and `firstMeeting_search`: both searches of a graph are searches along the trail.
* `findMeeting_stack`: the positions in the stack that a search returns follow from its nodes.
-/

namespace WorkflowEngine.Graph

/-- A traversal without the positions in the lists of edges; `path` has the nodes on the stack. -/
structure Trail where
  waiting : List Nat
  marks : List Mark
  path : List Nat
  finished : List Nat

inductive Stride where
  | went (t : Trail)
  /-- An edge of the innermost node leads to a node on the path. -/
  | met (target : Nat)
  | ended

namespace Trail

def mark (t : Trail) (node : Nat) : Mark := t.marks.getD node .done

def enter (t : Trail) (node : Nat) : Trail :=
  { t with marks := t.marks.set node .onStack, path := node :: t.path }

def leave (t : Trail) (node : Nat) (below : List Nat) : Trail :=
  { t with marks := t.marks.set node .done, path := below, finished := node :: t.finished }

/-- The next node of the whole list at which a traversal stops, by its mark. -/
def next? (edges : List (List Nat)) (stops : Mark → Bool) (t : Trail) (node : Nat) : Option Nat :=
  (edges.getD node []).find? fun v => stops (t.mark v)

def step (edges : List (List Nat)) (stops : Mark → Bool) (t : Trail) : Stride :=
  match t.path with
  | [] =>
    match t.waiting with
    | [] => .ended
    | node :: rest =>
      if t.mark node = .unvisited then .went ({ t with waiting := rest }.enter node)
      else .went { t with waiting := rest }
  | node :: below =>
    match t.next? edges stops node with
    | none => .went (t.leave node below)
    | some v => if t.mark v = .onStack then .met v else .went (t.enter v)

/-- The trail leads to another one, where it meets a node on its path or ends. -/
inductive Search (edges : List (List Nat)) (stops : Mark → Bool) :
    Trail → Trail → Option Nat → Prop where
  | ended {t : Trail} : t.step edges stops = .ended → Search edges stops t t none
  | met {t : Trail} {v : Nat} : t.step edges stops = .met v → Search edges stops t t (some v)
  | went {t t' u : Trail} {o : Option Nat} : t.step edges stops = .went t' →
      Search edges stops t' u o → Search edges stops t u o

variable {edges edges' : List (List Nat)} {stops : Mark → Bool}

theorem Search.unique {t u u' : Trail} {o o' : Option Nat} (h : Search edges stops t u o)
    (h' : Search edges stops t u' o') : u = u' ∧ o = o' := by
  induction h with
  | ended hs =>
    cases h' with
    | ended hs' => exact ⟨rfl, rfl⟩
    | met hs' => rw [hs] at hs'; cases hs'
    | went hs' _ => rw [hs] at hs'; cases hs'
  | met hs =>
    cases h' with
    | ended hs' => rw [hs] at hs'; cases hs'
    | met hs' => rw [hs] at hs'; cases hs'; exact ⟨rfl, rfl⟩
    | went hs' _ => rw [hs] at hs'; cases hs'
  | went hs _ ih =>
    cases h' with
    | ended hs' => rw [hs] at hs'; cases hs'
    | met hs' => rw [hs] at hs'; cases hs'
    | went hs' h' => rw [hs] at hs'; cases hs'; exact ih h'

end Trail

namespace Traversal

variable {edges : List (List Nat)} {stops : Mark → Bool} {t : Traversal}

def trail (t : Traversal) : Trail := ⟨t.waiting, t.marks, t.path, t.finished⟩

@[simp] theorem mark_trail (v : Nat) : t.trail.mark v = t.mark v := rfl

theorem path_of_stack {f : Frame} {below : List Frame} (hs : t.stack = f :: below) :
    t.trail.path = f.node :: below.map (·.node) := by
  show t.stack.map (·.node) = _
  rw [hs, List.map_cons]

theorem trail_pass {f : Frame} {below : List Frame} (hs : t.stack = f :: below) :
    (t.pass f below).trail = t.trail := by
  simp [trail, pass, path, hs]

/-- The traversal does not stop at any target that its innermost node has passed. -/
def PassesBy (edges : List (List Nat)) (stops : Mark → Bool) (t : Traversal) : Prop :=
  ∀ f, t.stack.head? = some f → ∀ i, i < f.next → ∀ v, target? edges ⟨f.node, i⟩ = some v →
    stops (t.mark v) = false

theorem PassesBy.next?_eq_none (h : PassesBy edges stops t) {f : Frame} {below : List Frame}
    (hs : t.stack = f :: below) (ht : target? edges f = none) :
    t.trail.next? edges stops f.node = none := by
  rw [Trail.next?, List.find?_eq_none]
  intro v hv
  obtain ⟨k, hk, hkv⟩ := exists_target? hv
  have hle := target?_eq_none.mp ht
  rw [mark_trail, h f (by rw [hs]; rfl) k (by omega) v hkv]
  exact Bool.false_ne_true

theorem PassesBy.next?_eq_some (h : PassesBy edges stops t) {f : Frame} {below : List Frame}
    (hs : t.stack = f :: below) {v : Nat} (ht : target? edges f = some v)
    (hv : stops (t.mark v) = true) : t.trail.next? edges stops f.node = some v := by
  rw [Trail.next?, List.find?_eq_some_iff_getElem]
  obtain ⟨hlt, hget⟩ := List.getElem?_eq_some_iff.mp ht
  refine ⟨hv, f.next, hlt, hget, fun i hi => ?_⟩
  rw [mark_trail, h f (by rw [hs]; rfl) i hi _ (List.getElem?_eq_getElem (hi.trans hlt))]
  rfl

/-- A step of the traversal is a stride of its trail, or does not show in the trail. -/
theorem step_trail (h : PassesBy edges stops t) (hunvisited : stops .unvisited = true) :
    match t.step edges with
    | .ended => t.trail.step edges stops = .ended
    | .met v t' => t'.trail = t.trail ∧
        (stops .onStack = true → t.trail.step edges stops = .met v)
    | .moved t' => t'.trail = t.trail ∨ t.trail.step edges stops = .went t'.trail := by
  cases hstep : t.step edges <;> have hcase := hstep ▸ step_spec edges t <;> cases hcase
  case ended hs hw => simp [Trail.step, trail, path, hs, hw]
  case skipped node rest hs hw hm =>
    have hm' : t.trail.mark node ≠ .unvisited := hm
    right
    simp only [Trail.step, trail, path, hs, hw, List.map_nil] at hm' ⊢
    rw [if_neg hm']
  case started node rest hs hw hm =>
    have hm' : t.trail.mark node = .unvisited := hm
    right
    simp only [Trail.step, trail, path, hs, hw, List.map_nil] at hm' ⊢
    rw [if_pos hm']
    simp [Trail.enter, enter]
  case left f below hs ht =>
    right
    rw [Trail.step, path_of_stack hs]
    simp only [h.next?_eq_none hs ht]
    rfl
  case met v f below hs ht hm =>
    refine ⟨trail_pass hs, fun hon => ?_⟩
    rw [Trail.step, path_of_stack hs]
    simp only [h.next?_eq_some hs ht (by rw [hm]; exact hon), mark_trail, hm, if_true]
  case entered f below v hs ht hm =>
    right
    rw [Trail.step, path_of_stack hs]
    simp only [h.next?_eq_some hs ht (by rw [hm]; exact hunvisited), mark_trail, hm, reduceCtorEq,
      if_false]
    rw [← trail_pass hs]
    rfl
  case passed f below v hs ht hm => exact .inl (trail_pass hs)

/-! ## The order in which nodes are left -/

/-- All edges that have been passed lead to nodes that have been visited. -/
def Visited (edges : List (List Nat)) (t : Traversal) : Prop :=
  ∀ f ∈ t.stack, ∀ i, i < f.next → ∀ v, target? edges ⟨f.node, i⟩ = some v →
    t.mark v ≠ .unvisited

theorem visited_start (edges : List (List Nat)) : Visited edges (start edges) := by
  intro f hf
  cases hf

/-- No node becomes unvisited. -/
theorem mark_set_ne {m : Mark} (hm : m ≠ .unvisited) {u v : Nat} (h : t.mark u ≠ .unvisited) :
    (t.marks.set v m).getD u .done ≠ .unvisited := by
  rw [mark, List.getD_eq_getElem?_getD] at h
  rw [List.getD_eq_getElem?_getD, List.getElem?_set]
  split
  · split
    · exact hm
    · exact Mark.noConfusion
  · exact h

namespace Visited

variable {f : Frame} {below : List Frame}

theorem enter (h : Visited edges t) (v : Nat) (waiting : List Nat) :
    Visited edges (Traversal.enter { t with waiting } v) := by
  intro g hg i hi u hu
  rcases List.mem_cons.mp hg with rfl | hg
  · exact absurd hi (Nat.not_lt_zero i)
  · exact mark_set_ne Mark.noConfusion (h g hg i hi u hu)

theorem leave (h : Visited edges t) (hs : t.stack = f :: below) :
    Visited edges (t.leave f below) := by
  intro g hg i hi u hu
  exact mark_set_ne Mark.noConfusion
    (h g (by rw [hs]; exact List.mem_cons_of_mem _ hg) i hi u hu)

theorem pass (h : Visited edges t) (hs : t.stack = f :: below) {v : Nat}
    (ht : target? edges f = some v) (hv : t.mark v ≠ .unvisited) :
    Visited edges (t.pass f below) := by
  intro g hg i hi u hu
  rcases List.mem_cons.mp hg with rfl | hg
  · rcases Nat.lt_succ_iff_lt_or_eq.mp hi with hi | rfl
    · exact h f (by simp [hs]) i hi u hu
    · have : target? edges f = some u := hu
      rw [ht] at this
      cases this
      exact hv
  · exact h g (by rw [hs]; exact List.mem_cons_of_mem _ hg) i hi u hu

theorem pass_enter (h : Visited edges t) (hs : t.stack = f :: below) {v : Nat}
    (ht : target? edges f = some v) (hv : t.mark v = .unvisited) :
    Visited edges ((t.pass f below).enter v) := by
  have hlt : v < t.marks.length := lt_length_of_mark_ne (by rw [hv]; decide)
  have hmark : ∀ u, ((t.pass f below).enter v).mark u = if u = v then .onStack else t.mark u :=
    fun u => mark_set hlt
  have hold : ∀ g ∈ t.stack, ∀ i, i < g.next → ∀ u, target? edges ⟨g.node, i⟩ = some u →
      ((t.pass f below).enter v).mark u ≠ .unvisited := by
    intro g hg i hi u hu
    exact mark_set_ne Mark.noConfusion (h g hg i hi u hu)
  intro g hg i hi u hu
  rcases List.mem_cons.mp hg with rfl | hg
  · exact absurd hi (Nat.not_lt_zero i)
  rcases List.mem_cons.mp hg with rfl | hg
  · rcases Nat.lt_succ_iff_lt_or_eq.mp hi with hi | rfl
    · exact hold f (by simp [hs]) i hi u hu
    -- The edge just passed leads to the node that is entered.
    · have : target? edges f = some u := hu
      rw [ht] at this
      cases this
      rw [hmark, if_pos rfl]
      exact Mark.noConfusion
  · exact hold g (by rw [hs]; exact List.mem_cons_of_mem _ hg) i hi u hu

theorem step (h : Visited edges t) :
    match t.step edges with
    | .ended => True
    | .met _ t' => Visited edges t'
    | .moved t' => Visited edges t' := by
  cases hstep : t.step edges <;> have hcase := hstep ▸ step_spec edges t <;> cases hcase
  case ended => trivial
  case skipped => exact h
  case started node rest hs hw hm => exact h.enter node rest
  case left f below hs ht => exact h.leave hs
  case met v f below hs ht hm => exact h.pass hs ht (by rw [hm]; exact Mark.noConfusion)
  case entered f below v hs ht hm => exact h.pass_enter hs ht hm
  case passed f below v hs ht hm => exact h.pass hs ht (by rw [hm]; exact Mark.noConfusion)

theorem passesBy (h : Visited edges t) : PassesBy edges (· == .unvisited) t := by
  intro f hf i hi v hv
  rw [beq_eq_false_iff_ne]
  exact h f (List.mem_of_mem_head? hf) i hi v hv

end Visited

theorem finish_search {fuel : Nat} {t : Traversal} (h : Sound edges t) (hv : Visited edges t)
    (hf : remaining edges t < fuel) :
    Trail.Search edges (· == .unvisited) t.trail (finish edges fuel t).trail none := by
  induction fuel generalizing t with
  | zero => omega
  | succ fuel ih =>
    have hstep := h.step
    have hvisited := hv.step
    have htrail := step_trail hv.passesBy rfl
    rw [finish]
    cases hs : t.step edges with
    | ended =>
      rw [hs] at htrail
      exact .ended htrail
    | met v t' =>
      rw [hs] at hstep hvisited htrail
      rw [← htrail.1]
      exact ih hstep.1 hvisited (by omega)
    | moved t' =>
      rw [hs] at hstep hvisited htrail
      have hrest := ih hstep.1 hvisited (by omega)
      rcases htrail with heq | hstride
      · rwa [← heq]
      · exact .went hstride hrest

/-! ## The first edge that leads back -/

/-- A traversal that has met no edge back is done with all that its innermost node has passed. -/
theorem Explored.passesBy (h : Explored edges (fun _ _ => False) t) (hsound : Sound edges t) :
    PassesBy edges (· != .done) t := by
  intro f hf i hi v hv
  rw [bne_eq_false_iff_eq]
  by_cases hlt : v < edges.length
  · exact ((hsound.finished_iff v).mp ((h.innermost f hf i hi v hv hlt).resolve_right id)).2
  · exact List.getD_eq_default _ _ (by rw [hsound.marks_length]; omega)

/-- The nodes on a stack, and the target of the edge that leads back to it. -/
def meeting (found : List Frame × Nat) : List Nat × Nat := (found.1.map (·.node), found.2)

theorem firstMeeting_search {fuel : Nat} {t : Traversal} (h : Sound edges t)
    (he : Explored edges (fun _ _ => False) t) (hf : remaining edges t < fuel) :
    ∃ u o, Trail.Search edges (· != .done) t.trail u o ∧
      (firstMeeting edges fuel t).map meeting = o.map fun v => (u.path, v) := by
  induction fuel generalizing t with
  | zero => omega
  | succ fuel ih =>
    have hstep := h.step
    have htrail := step_trail (he.passesBy h) rfl
    rw [firstMeeting]
    cases hs : t.step edges with
    | ended =>
      rw [hs] at htrail
      exact ⟨t.trail, none, .ended htrail, rfl⟩
    | met v t' =>
      rw [hs] at htrail
      refine ⟨t.trail, some v, .met (htrail.2 rfl), ?_⟩
      rw [← htrail.1]
      rfl
    | moved t' =>
      rw [hs] at hstep htrail
      obtain ⟨u, o, hsearch, hfound⟩ := ih hstep.1 (hstep.2.2 _ he) (by omega)
      rcases htrail with heq | hstride
      · exact ⟨u, o, by rwa [← heq], hfound⟩
      · exact ⟨u, o, .went hstride hsearch, hfound⟩

end Traversal

end WorkflowEngine.Graph
