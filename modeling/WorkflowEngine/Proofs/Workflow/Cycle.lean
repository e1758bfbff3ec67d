import Mathlib.Data.List.TakeWhile
import WorkflowEngine.Proofs.Workflow.Validation

/-!
# The cycle that is reported

The traversal stops at the first edge that leads back to its stack. From the frame of that edge's
target on, each frame has just passed the edge to the next one, and the innermost frame the edge
back (`findMeeting_loop`). So what validation tells of a cycle is a walk along references of the
workflow (`Walk`), and no task is passed twice on it.
-/

namespace WorkflowEngine

namespace Graph

variable {edges : List (List Nat)} {stack : List Frame} {target : Nat}

open Traversal

/-- A stack that is found, the outermost frame first, from the frame of the target on. -/
theorem findMeeting_loop (h : findMeeting edges = some (stack, target)) :
    ∃ first rest, (stack.reverse.dropWhile fun f => f.node != target) = first :: rest ∧
      first.node = target ∧ ((first :: rest).map (·.node)).Nodup ∧
      ((first :: rest) ++ [(⟨target, 0⟩ : Frame)]).IsChain
        fun below above => Follows edges above below := by
  obtain ⟨t, f, below, hsound, -, hs, ht, hm, rfl⟩ :=
    firstMeeting_eq_some (sound_start edges) (Explored.start edges fun _ _ => False) h
  have hpassed := hsound.pass hs ht
  generalize hstack : { f with next := f.next + 1 } :: below = stack at *
  have hpass : (t.pass f below).stack = stack := hstack
  have hchain : (⟨target, 0⟩ :: stack).IsChain (Follows edges) := by
    rw [← hpass]
    refine .cons hpassed.linked fun g hg => ?_
    rw [hpass, ← hstack] at hg
    cases hg
    exact ⟨f.next, rfl, ht⟩
  have hreversed : (stack.reverse ++ [(⟨target, 0⟩ : Frame)]).IsChain
      fun below above => Follows edges above below := by
    rw [← List.reverse_cons, List.isChain_reverse]
    exact hchain
  have hnodup : (stack.reverse.map (·.node)).Nodup := by
    rw [List.map_reverse, List.nodup_reverse]
    have := hpassed.path_nodup
    rwa [path, hpass] at this
  have hmem : ∃ g ∈ stack, g.node = target := by
    have htarget : target ∈ (t.pass f below).path := (hpassed.onStack_iff target).mp hm
    rwa [path, hpass, List.mem_map] at htarget
  have hsplit :=
    List.takeWhile_append_dropWhile (p := fun f => f.node != target) (l := stack.reverse)
  cases hdrop : stack.reverse.dropWhile fun f => f.node != target with
  | nil =>
    obtain ⟨g, hg, hnode⟩ := hmem
    have := List.dropWhile_eq_nil_iff.mp hdrop g (List.mem_reverse.mpr hg)
    simp [hnode] at this
  | cons first rest =>
    rw [hdrop] at hsplit
    rw [← hsplit] at hreversed hnodup
    refine ⟨first, rest, rfl, ?_, ?_, ?_⟩
    · have hfirst := List.head?_dropWhile_not (fun f : Frame => f.node != target) stack.reverse
      simpa [hdrop] using hfirst
    · rw [List.map_append] at hnodup
      exact hnodup.of_append_right
    · rw [List.append_assoc] at hreversed
      exact hreversed.right_of_append

end Graph

/-- The task depends on the name, or has a branch to it. -/
def Task.Refers (t : Task) : EdgeKind → String → Prop
  | .dependency, name => name ∈ t.dependencies
  | .branch, name => ∃ b ∈ t.branches, b.target = name

theorem Task.refers_of_mem {t : Task} {r : Reference} (h : r ∈ t.references) :
    t.Refers r.kind r.target := by
  rw [references, List.mem_append] at h
  rcases h with h | h
  · obtain ⟨name, hname, rfl⟩ := List.mem_map.mp h
    exact hname
  · obtain ⟨name, hname, rfl⟩ := List.mem_map.mp h
    exact List.mem_map.mp hname

namespace Workflow

/-- `Walk w a names c text`: from task to task by references, from `a` past the `names` to `c`, and
`text` tells it. -/
inductive Walk (w : Workflow) : String → List String → String → String → Prop where
  | here (a : String) : Walk w a [] a a
  | onward {t : Task} {kind : EdgeKind} {names : List String} {b c text : String} : t ∈ w.tasks →
      t.Refers kind b → Walk w b names c text →
      Walk w t.name (t.name :: names) c (t.name ++ " -[" ++ kind.label ++ "]-> " ++ text)

variable {w : Workflow}

open Graph.Traversal (Follows target?)

/-- In a resolved workflow the edges of a task stand at the positions of its references. -/
theorem target?_referenceEdges (hr : w.Resolved) {f : Graph.Frame} {v : Nat}
    (h : target? w.referenceEdges f = some v) :
    ∃ t r, w.tasks[f.node]? = some t ∧ t.references[f.next]? = some r ∧
      lastIndex? r.target w.taskNames = some v := by
  rw [target?, List.getD_eq_getElem?_getD, referenceEdges, List.getElem?_map] at h
  cases ht : w.tasks[f.node]? with
  | none => simp [ht] at h
  | some t =>
    have hall : ∀ r ∈ t.references, lastIndex? r.target w.taskNames =
        some ((lastIndex? r.target w.taskNames).getD 0) := by
      intro r hr'
      have hmem := resolved_iff.mp hr t (List.mem_of_getElem? ht) r hr'
      obtain ⟨i, hi⟩ := Option.isSome_iff_exists.mp (isSome_lastIndex?.mpr hmem)
      simp [hi]
    simp only [ht, Option.map_some, Option.getD_some] at h
    rw [List.filterMap_eq_map_iff_forall_eq_some.mpr hall, List.getElem?_map] at h
    obtain ⟨r, hget, hv⟩ := Option.map_eq_some_iff.mp h
    refine ⟨t, r, rfl, hget, ?_⟩
    rw [hall r (List.mem_of_getElem? hget), hv]

theorem cycleStep?_of_follows (hr : w.Resolved) {below above : Graph.Frame}
    (h : Follows w.referenceEdges above below) :
    ∃ t ∈ w.tasks, ∃ kind b, w.cycleStep? below = some ⟨t.name, kind⟩ ∧
      w.taskNames[below.node]? = some t.name ∧ w.taskNames[above.node]? = some b ∧
      t.Refers kind b := by
  obtain ⟨k, hnext, htarget⟩ := h
  obtain ⟨t, r, ht, hget, hv⟩ := target?_referenceEdges hr htarget
  dsimp only at ht hget
  refine ⟨t, List.mem_of_getElem? ht, r.kind, r.target, ?_, getElem?_taskNames.mpr ⟨t, ht, rfl⟩,
    getElem?_of_lastIndex? hv, Task.refers_of_mem (List.mem_of_getElem? hget)⟩
  simp [cycleStep?, ht, hnext, hget]

/-- Frames of which each has just passed the edge to the next one tell a walk. -/
theorem walk_of_isChain (hr : w.Resolved) {frames : List Graph.Frame} {last : Graph.Frame}
    {c : String} (hc : w.taskNames[last.node]? = some c)
    (h : (frames ++ [last]).IsChain fun below above => Follows w.referenceEdges above below) :
    ∃ a names, ((frames ++ [last]).head?.bind fun f => w.taskNames[f.node]?) = some a ∧
      (frames.map fun f => w.taskNames[f.node]?) = names.map some ∧
      w.Walk a names c (String.join ((frames.filterMap w.cycleStep?).map fun s =>
        s.task ++ " -[" ++ s.kind.label ++ "]-> ") ++ c) := by
  induction frames with
  | nil => exact ⟨c, [], hc, rfl, by simpa using Walk.here c⟩
  | cons f rest ih =>
    rw [List.cons_append] at h
    obtain ⟨b, names, hb, hnames, hwalk⟩ := ih h.tail
    cases hrest : rest ++ [last] with
    | nil => simp at hrest
    | cons g more =>
      rw [hrest] at h hb
      obtain ⟨t, ht, kind, b', hstep, hf, hg, hrefers⟩ :=
        cycleStep?_of_follows hr (List.isChain_cons_cons.mp h).1
      have hb' : w.taskNames[g.node]? = some b := hb
      rw [hg] at hb'
      cases hb'
      refine ⟨t.name, t.name :: names, hf, ?_, ?_⟩
      · rw [List.map_cons, List.map_cons, hf, hnames]
      · rw [List.filterMap_cons_some hstep, List.map_cons, String.join_cons, String.append_assoc]
        exact .onward ht hrefers hwalk

/-- The tasks that a walk passes are tasks of the workflow. -/
theorem Walk.mem_taskNames {a c text : String} {names : List String}
    (h : w.Walk a names c text) : ∀ n ∈ names, n ∈ w.taskNames := by
  induction h with
  | here a => nofun
  | onward ht _ _ ih =>
    intro n hn
    rcases List.mem_cons.mp hn with rfl | hn
    · exact List.mem_map_of_mem ht
    · exact ih n hn

/-- Where names differ, so do the names of different positions. -/
theorem nodup_names (hn : w.UniqueNames) {nodes : List Nat} {names : List String}
    (hnodup : nodes.Nodup) (hnames : (nodes.map fun i => w.taskNames[i]?) = names.map some) :
    names.Nodup := by
  refine List.Nodup.of_map some ?_
  rw [← hnames]
  refine List.Nodup.map_on ?_ hnodup
  intro i hi j _ hij
  have hmem : w.taskNames[i]? ∈ names.map some := by
    rw [← hnames]
    exact List.mem_map_of_mem hi
  obtain ⟨n, -, hname⟩ := List.mem_map.mp hmem
  exact (List.getElem?_inj (List.getElem?_eq_some_iff.mp hname.symm).1 hn).mp hij

theorem firstCycle?_walk (hn : w.UniqueNames) (hr : w.Resolved) {steps : List CycleStep}
    (h : w.firstCycle? = some steps) :
    ∃ a names, names ≠ [] ∧ names.Nodup ∧ w.Walk a names a (cycleText steps) := by
  rw [firstCycle?, Option.map_eq_some_iff] at h
  obtain ⟨⟨stack, target⟩, hfound, hsteps⟩ := h
  obtain ⟨first, rest, hloop, hfirst, hnodup, hchain⟩ := Graph.findMeeting_loop hfound
  dsimp only at hsteps
  rw [hloop] at hsteps
  -- The first frame is at the target, and has a step of its own since it leads on to another one.
  obtain ⟨next, hnext⟩ : ∃ next, Follows w.referenceEdges next first := by
    cases hrest : rest ++ [(⟨target, 0⟩ : Graph.Frame)] with
    | nil => simp at hrest
    | cons next more =>
      rw [List.cons_append, hrest] at hchain
      exact ⟨next, (List.isChain_cons_cons.mp hchain).1⟩
  obtain ⟨t, -, kind, -, hstep, ht, -, -⟩ := cycleStep?_of_follows hr hnext
  have htarget : w.taskNames[target]? = some t.name := by rw [← hfirst, ht]
  obtain ⟨a, names, ha, hnames, hwalk⟩ := walk_of_isChain hr htarget hchain
  have hsame : a = t.name := by
    rw [List.cons_append, List.head?_cons, Option.bind_some, ht] at ha
    exact (Option.some.inj ha).symm
  subst hsame
  rw [hsteps] at hwalk
  refine ⟨t.name, names, ?_, ?_, ?_⟩
  · rintro rfl
    cases hnames
  · refine nodup_names hn hnodup ?_
    rw [List.map_map]
    exact hnames
  · have hhead : (steps.head?.map (·.task)).getD "" = t.name := by
      rw [← hsteps, List.filterMap_cons_some hstep]
      rfl
    rw [cycleText, hhead]
    exact hwalk

/-- When names differ and all references lead to tasks, a cycle among the references makes
validation fail with the text of a walk: from a task back to itself, past tasks of the workflow
that are all different, and from each to the next by a reference of the kind that is told. -/
theorem reported_cycle_walks (hn : w.UniqueNames) (hr : w.Resolved) (hl : ¬ w.Unlooped) :
    ∃ steps a names, w.validate = .error (.cycle w.name steps) ∧
      (ValidationError.cycle w.name steps).message =
        "Workflow '" ++ w.name ++ "' has cyclic dependencies: " ++ cycleText steps ∧
      w.Walk a names a (cycleText steps) ∧ names ≠ [] ∧ names.Nodup ∧
      ∀ n ∈ names, n ∈ w.taskNames := by
  have hcycle : w.firstCycle? ≠ none := fun hnone => hl ((firstCycle?_eq_none hn).mp hnone)
  obtain ⟨steps, hsteps⟩ := Option.ne_none_iff_exists'.mp hcycle
  obtain ⟨a, names, hne, hnodup, hwalk⟩ := firstCycle?_walk hn hr hsteps
  refine ⟨steps, a, names, ?_, rfl, hwalk, hne, hnodup, hwalk.mem_taskNames⟩
  have hrepeated : firstRepeated? [] w.taskNames = none :=
    firstRepeated?_eq_none.mpr ⟨hn, fun _ _ => List.not_mem_nil⟩
  rw [validate, hrepeated, firstDangling?_eq_none.mpr hr, hsteps]

/-- `A` leads to `B` by a dependency and by a branch, and `B` back to `A` by a branch. -/
def crossroads : Workflow where
  name := "w"
  tasks := [{ name := "S", dependencies := ["A"] },
    { name := "A", dependencies := ["D", "B"], branches := [⟨"$[true]", "B"⟩] },
    { name := "B", branches := [⟨"$[true]", "A"⟩] }, { name := "D" }]

/-- The search starts at `S`, which is not on the cycle, and comes to `D` before `B`. -/
theorem reported_cycle_walks_crossroads :
    crossroads.UniqueNames ∧ crossroads.Resolved ∧ ¬ crossroads.Unlooped ∧
      crossroads.validate = .error (.cycle "w" [⟨"A", .dependency⟩, ⟨"B", .branch⟩]) ∧
      ∃ a names, crossroads.Walk a names a "A -[dependency]-> B -[branch]-> A" ∧ names ≠ [] ∧
        names.Nodup ∧ ∀ n ∈ names, n ∈ crossroads.taskNames := by
  have hn : crossroads.UniqueNames := by
    rw [UniqueNames]
    decide
  have hr : crossroads.Resolved := firstDangling?_eq_none.mp (by decide)
  have hl : ¬ crossroads.Unlooped := by
    intro hunlooped
    have hnone := (firstCycle?_eq_none hn).mpr hunlooped
    revert hnone
    decide
  have hvalidate : crossroads.validate =
      .error (.cycle "w" [⟨"A", .dependency⟩, ⟨"B", .branch⟩]) := by decide
  obtain ⟨steps, a, names, herror, -, hwalk, hrest⟩ := reported_cycle_walks hn hr hl
  rw [hvalidate] at herror
  cases herror
  exact ⟨hn, hr, hl, hvalidate, a, names, hwalk, hrest⟩

end Workflow

end WorkflowEngine
