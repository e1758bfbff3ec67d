import WorkflowEngine.Graph.Levels
import WorkflowEngine.Workflow.Basic

/-!
# Order among tasks

Tasks refer to each other by name; of tasks with the same name the last one is meant. The levels of
a workflow place a task after the tasks that it depends on.
-/

namespace WorkflowEngine

/-- Position of the last occurrence. -/
def lastIndex? (name : String) : List String → Option Nat
  | [] => none
  | n :: rest =>
    match lastIndex? name rest with
    | some i => some (i + 1)
    | none => if n = name then some 0 else none

namespace Workflow

/-- For each task the positions of the tasks that it comes after; unknown names do not count. -/
def predecessorEdges (w : Workflow) (predecessors : Task → List String) : List (List Nat) :=
  w.tasks.map fun t => (predecessors t).filterMap fun name => lastIndex? name w.taskNames

/-- The tasks by levels, each level in the order of declaration. -/
def levelsBy (w : Workflow) (predecessors : Task → List String) : List (List String) :=
  Graph.groupByLevel (Graph.levels (w.predecessorEdges predecessors)) w.taskNames

/-- Levels by dependencies alone. -/
def levels (w : Workflow) : List (List String) := w.levelsBy (·.dependencies)

/-- The tasks with a branch to the given one, as often as they have one. -/
def branchSources (w : Workflow) (name : String) : List String :=
  w.tasks.flatMap fun t => (t.branchTargets.filter (· == name)).map fun _ => t.name

/-- What must be done before a task: its dependencies and the tasks that branch to it. -/
def precedingNames (w : Workflow) (t : Task) : List String :=
  t.dependencies ++ w.branchSources t.name

/-- The levels in which a workflow is executed. -/
def executionLevels (w : Workflow) : List (List String) := w.levelsBy w.precedingNames

end Workflow

/-- The size of the largest level. -/
def maxWidth (levels : List (List String)) : Nat := Graph.highest (levels.map List.length)

end WorkflowEngine
