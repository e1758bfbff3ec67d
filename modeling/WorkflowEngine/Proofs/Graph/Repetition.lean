import WorkflowEngine.Proofs.Graph.Trail

/-!
# Repeated edges

Of several edges from one node to another only the first one counts. So two graphs whose lists of
targets are the same but for repetitions (`SameTargets`) are traversed alike: a search leaves their
nodes in the same order, finds the same first way back, and gives the nodes the same levels
(`postorder_congr`, `meeting_congr`, `levels_congr`). The stacks that it finds may differ in their
positions, but `findMeeting_stack` tells these from the nodes.
-/

namespace WorkflowEngine.Graph

/-! ## Lists that differ in repetitions -/

section Lists

variable {α β : Type} {l l' : List α}

/-- The same things in the same order, but for repetitions: whatever is looked for, the first one
found is the same. -/
def SameFirsts (l l' : List α) : Prop := ∀ p : α → Bool, l.find? p = l'.find? p

theorem SameFirsts.refl (l : List α) : SameFirsts l l := fun _ => rfl

theorem SameFirsts.mem_iff [DecidableEq α] (h : SameFirsts l l') {a : α} : a ∈ l ↔ a ∈ l' := by
  have hfound : ∀ l : List α, a ∈ l ↔ (l.find? (· == a)).isSome := by
    intro l
    simp [List.find?_isSome]
  rw [hfound, hfound, h]

theorem SameFirsts.map (h : SameFirsts l l') (f : α → β) : SameFirsts (l.map f) (l'.map f) := by
  intro p
  rw [List.find?_map, List.find?_map, h]

theorem SameFirsts.filterMap (h : SameFirsts l l') (f : α → Option β) :
    SameFirsts (l.filterMap f) (l'.filterMap f) := by
  intro p
  rw [List.find?_filterMap, List.find?_filterMap, h]

theorem SameFirsts.append_right (h : SameFirsts l l') (rest : List α) :
    SameFirsts (l ++ rest) (l' ++ rest) := by
  intro p
  rw [List.find?_append, List.find?_append, h]

end Lists

/-- Graphs of the same nodes, each with the same targets but for repetitions. -/
structure SameTargets (edges edges' : List (List Nat)) : Prop where
  length_eq : edges.length = edges'.length
  targets : ∀ v, SameFirsts (edges.getD v []) (edges'.getD v [])

variable {edges edges' : List (List Nat)}

/-! ## Trails -/

namespace Trail

variable {stops : Mark → Bool} {t u : Trail} {o : Option Nat}

theorem step_congr (h : SameTargets edges edges') : t.step edges stops = t.step edges' stops := by
  have hnext : ∀ v, t.next? edges stops v = t.next? edges' stops v := fun v => h.targets v _
  simp only [step, hnext]

theorem Search.congr (h : SameTargets edges edges') (hs : Search edges stops t u o) :
    Search edges' stops t u o := by
  induction hs with
  | ended hs => exact .ended (step_congr h ▸ hs)
  | met hs => exact .met (step_congr h ▸ hs)
  | went hs _ ih => exact .went (step_congr h ▸ hs) ih

end Trail

open Traversal

theorem trail_start_congr (h : SameTargets edges edges') :
    (start edges).trail = (start edges').trail := by
  rw [trail, trail, start, start, h.length_eq]

theorem postorder_congr (h : SameTargets edges edges') : postorder edges = postorder edges' := by
  have hsearch := finish_search (sound_start edges) (visited_start edges) (remaining_start edges)
  have hsearch' :=
    finish_search (sound_start edges') (visited_start edges') (remaining_start edges')
  have hsame := hsearch.congr h
  rw [trail_start_congr h] at hsame
  exact congrArg (fun t : Trail => t.finished.reverse) (hsame.unique hsearch').1

theorem meeting_congr (h : SameTargets edges edges') :
    (findMeeting edges).map meeting = (findMeeting edges').map meeting := by
  obtain ⟨u, o, hsearch, hfound⟩ := firstMeeting_search (sound_start edges)
    (Explored.start edges _) (remaining_start edges)
  obtain ⟨u', o', hsearch', hfound'⟩ := firstMeeting_search (sound_start edges')
    (Explored.start edges' _) (remaining_start edges')
  have hsame := hsearch.congr h
  rw [trail_start_congr h] at hsame
  obtain ⟨rfl, rfl⟩ := hsame.unique hsearch'
  exact hfound.trans hfound'.symm

/-! ## Levels -/

theorem highest_congr {ms ns : List Nat} (h : ∀ n, n ∈ ms ↔ n ∈ ns) : highest ms = highest ns := by
  apply Nat.le_antisymm
  · rcases highest_mem ms with hzero | hmem
    · omega
    · exact le_highest ((h _).mp hmem)
  · rcases highest_mem ns with hzero | hmem
    · omega
    · exact le_highest ((h _).mpr hmem)

theorem levelAfter_congr (levels : List (Option Nat)) {targets targets' : List Nat}
    (h : SameFirsts targets targets') : levelAfter levels targets = levelAfter levels targets' :=
  highest_congr fun _ => (h.filterMap _).mem_iff

theorem levels_congr (h : SameTargets edges edges') : levels edges = levels edges' := by
  have hassign : assign edges = assign edges' := by
    funext levels node
    rw [assign, assign, levelAfter_congr levels (h.targets node)]
  rw [levels_eq, levels_eq, levelsOf, levelsOf, hassign, h.length_eq, postorder_congr h]

/-! ## The stack of a meeting -/

/-- The frame of a node that has just passed its first edge to the target. -/
def frameTo (edges : List (List Nat)) (node target : Nat) : Frame :=
  ⟨node, (edges.getD node []).idxOf target + 1⟩

section Stack

variable {finished : List Nat}

/-- An edge to a node that is not finished is the first one to it if all edges before it lead to
finished nodes. -/
theorem frameTo_eq {f : Frame} {k v : Nat} (hk : target? edges ⟨f.node, k⟩ = some v)
    (hpassed : PassedTo edges (fun _ _ => False) finished f k) (hlt : v < edges.length)
    (hv : v ∉ finished) : frameTo edges f.node v = ⟨f.node, k + 1⟩ := by
  have hmem : v ∈ edges.getD f.node [] := List.mem_of_getElem? hk
  have hfirst := List.getElem?_idxOf hmem
  rw [frameTo]
  rcases Nat.lt_trichotomy ((edges.getD f.node []).idxOf v) k with hbefore | heq | hafter
  · exact absurd ((hpassed _ hbefore v hfirst hlt).resolve_right id) hv
  · rw [heq]
  · obtain ⟨hlen, hget⟩ := List.getElem?_eq_some_iff.mp hk
    exact absurd (beq_iff_eq.mpr hget) (Bool.eq_false_iff.mp (List.not_of_lt_findIdx hafter))

/-- Each frame below another one has just passed its first edge to the node of that one. -/
theorem below_eq_zipWith {f : Frame} {below : List Frame}
    (hlinked : (f :: below).IsChain (Follows edges))
    (hpassed : ∀ g ∈ below, PassedTo edges (fun _ _ => False) finished g (g.next - 1))
    (hopen : ∀ g ∈ f :: below, g.node < edges.length ∧ g.node ∉ finished) :
    below = List.zipWith (frameTo edges) (below.map (·.node)) ((f :: below).map (·.node)) := by
  induction below generalizing f with
  | nil => rfl
  | cons g rest ih =>
    obtain ⟨⟨k, hnext, htarget⟩, hrest⟩ := List.isChain_cons_cons.mp hlinked
    have hf := hopen f List.mem_cons_self
    have hk : PassedTo edges (fun _ _ => False) finished g k := by
      have := hpassed g List.mem_cons_self
      rwa [hnext, Nat.add_sub_cancel] at this
    have hg : frameTo edges g.node f.node = g := by
      rw [frameTo_eq htarget hk hf.1 hf.2, ← hnext]
    have hbelow := ih hrest (fun h hh => hpassed h (List.mem_cons_of_mem _ hh))
      fun h hh => hopen h (List.mem_cons_of_mem _ hh)
    rw [List.map_cons, List.map_cons, List.zipWith_cons_cons, hg, ← hbelow]

end Stack

/-- The positions in a stack that is found follow from its nodes: each node has just passed its
first edge to the node above it, and the innermost one its first edge to the target. -/
theorem findMeeting_stack {stack : List Frame} {target : Nat}
    (h : findMeeting edges = some (stack, target)) :
    stack = List.zipWith (frameTo edges) (stack.map (·.node))
      (target :: stack.map (·.node)) := by
  obtain ⟨t, f, below, hsound, he, hs, ht, hm, rfl⟩ :=
    firstMeeting_eq_some (sound_start edges) (Explored.start edges fun _ _ => False) h
  have hopen : ∀ v, t.mark v = .onStack → v < edges.length ∧ v ∉ t.finished := by
    intro v hv
    refine ⟨?_, fun hmem => ?_⟩
    · rw [← hsound.marks_length]
      exact lt_length_of_mark_ne (by rw [hv]; exact Mark.noConfusion)
    · rw [((hsound.finished_iff v).mp hmem).2] at hv
      cases hv
  have htarget := hopen target hm
  have hlinked := hsound.linked
  rw [hs] at hlinked
  have hbelow := below_eq_zipWith hlinked
    (fun g hg => he.frames g (by rw [hs]; exact List.mem_cons_of_mem _ hg)) fun g hg =>
      hopen g.node ((hsound.onStack_iff g.node).mpr (by
        rw [path, hs]
        exact List.mem_map_of_mem hg))
  have hinnermost : frameTo edges f.node target = { f with next := f.next + 1 } :=
    frameTo_eq ht (he.innermost f (by rw [hs]; rfl)) htarget.1 htarget.2
  rw [List.map_cons, List.zipWith_cons_cons, hinnermost]
  exact congrArg _ hbelow

end WorkflowEngine.Graph
