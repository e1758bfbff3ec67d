import WorkflowEngine.Execution.Attempts
import WorkflowEngine.Expression.Eval
import WorkflowEngine.Workflow.Precedence

/-!
# Which tasks run

Tasks run level by level. A task is skipped when a dependency was skipped, or when tasks branch to
it and none of their conditions held. When the tasks of a level are done their outputs can be
seen, and then their branches decide.
-/

namespace WorkflowEngine

open Expression (Context Fault Registry Scope)
open Json (Value)

structure Ledger where
  /-- Targets of branches whose conditions held. -/
  activated : List String := []
  /-- In the order in which they were skipped. -/
  skipped : List String := []
  /-- By levels, and within a level as declared. -/
  completed : List String := []
  deriving DecidableEq

namespace Ledger

def excludes (l : Ledger) (w : Workflow) (t : Task) : Bool :=
  t.dependencies.any (l.skipped.contains ·) ||
    (!(w.branchSources t.name).isEmpty && !l.activated.contains t.name)

/-- Decides for the names of a level which tasks run; the others are skipped. -/
def openLevel (w : Workflow) : List String → Ledger → List Task × Ledger
  | [], l => ([], l)
  | name :: rest, l =>
    match w.task? name with
    | none => openLevel w rest l
    | some t =>
      if l.excludes w t then openLevel w rest { l with skipped := l.skipped ++ [name] }
      else
        let (runnable, l) := openLevel w rest l
        (t :: runnable, l)

/-- Enters the results of a level: its tasks are completed, and their outputs can be seen. -/
def enter : List Task → Fields Value → Context → Ledger → Context × Ledger
  | [], _, c, l => (c, l)
  | t :: rest, results, c, l =>
    match results.find? t.name with
    | none => enter rest results c l
    | some v =>
      enter rest (results.erase t.name) (c.setOutput t.name v)
        { l with completed := l.completed ++ [t.name] }

def decide : List Branch → Scope → Ledger → Except Fault Ledger × Scope
  | [], s, l => (.ok l, s)
  | b :: rest, s, l =>
    match s.condition b.expression with
    | (.error fault, s) => (.error fault, s)
    | (.ok true, s) => decide rest s { l with activated := l.activated ++ [b.target] }
    | (.ok false, s) => decide rest s l

/-- Evaluates the branches of tasks that are done. A fault comes with the task's name. -/
def decideAll : List Task → Scope → Ledger → Except (String × Fault) Ledger × Scope
  | [], s, l => (.ok l, s)
  | t :: rest, s, l =>
    match decide t.branches s l with
    | (.error fault, s) => (.error (t.name, fault), s)
    | (.ok l, s) => decideAll rest s l

end Ledger

end WorkflowEngine
