import WorkflowEngine.Proofs.Graph.Levels
import WorkflowEngine.Proofs.Workflow.Names

/-!
# Levels by dependencies

Levels are made for every workflow, also for one that validation rejects: with two tasks of one
name, with dependencies that name no task, with tasks that wait for each other. `Depends` is the
relation between positions that dependencies make, whatever the names. `Layered` says what the
levels are worth then, and `levels_layered` that they always are: only a dependency on a cycle can
be out of order, and without any the level of a task is the length of the longest chain of
dependencies from it.
-/

namespace WorkflowEngine

namespace Workflow

/-- The name is that of the task at the position, and of no later task. -/
def Means (w : Workflow) (name : String) (i : Nat) : Prop :=
  w.taskNames[i]? = some name ∧ ∀ k, i < k → w.taskNames[k]? ≠ some name

/-- The task at the first position has a dependency that means the task at the second one. -/
def Depends (w : Workflow) (i j : Nat) : Prop :=
  ∃ t, w.tasks[i]? = some t ∧ ∃ name ∈ t.dependencies, w.Means name j

/-- The level of the task at a position. -/
def dependencyLevel (w : Workflow) (i : Nat) : Nat :=
  Graph.level (w.predecessorEdges (·.dependencies)) i

/-- The names of the tasks on a level, in the order in which the tasks are declared. -/
def namesOnLevel (w : Workflow) (k : Nat) : List String :=
  (w.taskNames.zipIdx.filter fun p => w.dependencyLevel p.2 == k).map Prod.fst

/-- What the levels of a workflow are worth. -/
structure Layered (w : Workflow) : Prop where
  /-- Every task stands in the levels as often as it is declared. -/
  once : w.levels.flatten.Perm w.taskNames
  placed : ∀ i, i < w.tasks.length → w.dependencyLevel i < w.levels.length
  ordered : ∀ k names, w.levels[k]? = some names → names = w.namesOnLevel k
  filled : ∀ names ∈ w.levels, names ≠ []
  /-- A task is no higher than its dependencies make it. -/
  supported : ∀ i k, i < w.tasks.length → w.dependencyLevel i = k + 1 →
    ∃ j, w.Depends i j ∧ w.dependencyLevel j = k
  above : ∀ i j, w.Depends i j → ¬ Relation.TransGen w.Depends j i →
    w.dependencyLevel j < w.dependencyLevel i
  longest : (∀ i, ¬ Relation.TransGen w.Depends i i) → ∀ i, i < w.tasks.length →
    IsGreatest {n | ∃ chain, chain.length = n ∧ (i :: chain).IsChain w.Depends}
      (w.dependencyLevel i)
  /-- The width is that of the largest level, and zero without a task. -/
  width : w.tasks ≠ [] →
    IsGreatest {n | ∃ names ∈ w.levels, names.length = n} (maxWidth w.levels)
  width_empty : w.tasks = [] → maxWidth w.levels = 0

variable {w : Workflow}

theorem depends_eq_adj : w.Depends = Graph.Adj (w.predecessorEdges (·.dependencies)) := by
  funext i j
  simp only [Depends, Means, adj_predecessorEdges, lastIndex?_eq_some]

theorem levels_eq_nil (h : w.tasks = []) : w.levels = [] := by
  simp [levels, levelsBy, taskNames, h, Graph.groupByLevel, Graph.highest]

theorem isGreatest_maxWidth {levels : List (List String)} (h : levels ≠ []) :
    IsGreatest {n | ∃ names ∈ levels, names.length = n} (maxWidth levels) := by
  have hne : levels.map List.length ≠ [] := by simpa using h
  simpa only [maxWidth, List.mem_map] using Graph.isGreatest_highest hne

/-- Each task of a workflow is in one level, the levels have no gap, and a task is above those that
it depends on, unless they depend on it as well. Without a cycle among the dependencies its level is
the length of the longest chain of them. -/
theorem levels_layered (w : Workflow) : w.Layered := by
  have hlen : (w.predecessorEdges (·.dependencies)).length = w.taskNames.length :=
    length_predecessorEdges
  have htasks : w.taskNames.length = w.tasks.length := List.length_map ..
  have hlt : ∀ i, i < w.tasks.length → i < (w.predecessorEdges (·.dependencies)).length := by
    intro i hi
    omega
  have hadj := w.depends_eq_adj
  refine
    { once := Graph.perm_flatten_groupByLevel hlen
      placed := fun i hi => Graph.level_lt_length hlen (hlt i hi)
      ordered := fun k names h => Graph.getElem?_groupByLevel hlen h
      filled := fun names h => Graph.ne_nil_of_mem_groupByLevel h
      supported := ?_
      above := ?_
      longest := ?_
      width := ?_
      width_empty := ?_ }
  · intro i k hi hk
    obtain ⟨j, hij, -, hjk⟩ := Graph.exists_adj_level (hlt i hi) hk
    exact ⟨j, hadj ▸ hij, hjk⟩
  · intro i j hij hback
    rw [hadj] at hij hback
    exact Graph.level_lt_of_adj hij (lt_of_adj hij) hback
  · intro hacyclic i hi
    rw [hadj] at hacyclic ⊢
    exact Graph.isGreatest_level hacyclic (fun u v => lt_of_adj) (hlt i hi)
  · intro hne
    have hpos : 0 < w.tasks.length := List.length_pos_iff.mpr hne
    have hplaced := Graph.level_lt_length hlen (hlt 0 hpos)
    refine isGreatest_maxWidth fun hnil => ?_
    have : (Graph.groupByLevel (Graph.levels (w.predecessorEdges (·.dependencies)))
      w.taskNames).length = 0 := congrArg List.length hnil
    omega
  · intro hnil
    rw [levels_eq_nil hnil]
    rfl

/-- Two tasks wait for each other and one for itself, two have the same name, and a dependency is
not there. -/
def tangled : Workflow where
  tasks := [{ name := "A", dependencies := ["B", "ghost"] }, { name := "B", dependencies := ["A"] },
    { name := "C", dependencies := ["C"] }, { name := "D", dependencies := ["D"] },
    { name := "C", dependencies := ["A"] }]

/-- The first task that is called C depends on the second one. -/
example : tangled.levels = [["B", "D"], ["A"], ["C"], ["C"]] := by decide

end Workflow

end WorkflowEngine
