import WorkflowEngine.Settings
import WorkflowEngine.Workflow.Precedence

/-!
# Optimization of workflows

What a workflow leaves open is filled in: how many tasks may run at once, from the width of its
levels, and the time limits. Dependencies that are named twice are named once. What is set stays.
-/

namespace WorkflowEngine

inductive Change where
  | parallelism (degree width : Nat)
  | workflowTimeout (milliseconds : Nat)
  | taskTimeout (milliseconds : Nat) (task : String)
  | dependencies (task : String)
  deriving DecidableEq

def Change.message : Change → String
  | .parallelism degree width =>
    s!"Set degree of parallelism to {degree} based on maximum DAG width {width}."
  | .workflowTimeout ms => s!"Applied default workflow timeout of {ms} ms."
  | .taskTimeout ms task => s!"Applied default timeout of {ms} ms to task '" ++ task ++ "'."
  | .dependencies task => "Removed duplicate dependencies from task '" ++ task ++ "'."

structure Optimized where
  workflow : Workflow
  changes : List Change

namespace Optimized

def changed (o : Optimized) : Bool := !o.changes.isEmpty

def explanation (o : Optimized) : String :=
  if o.changes.isEmpty then "No changes required; workflow already optimized."
  else String.intercalate "\n" (o.changes.map Change.message)

end Optimized

/-- The names without those that occurred before. -/
def distinct (seen : List String) : List String → List String
  | [] => []
  | n :: rest => if seen.contains n then distinct seen rest else n :: distinct (n :: seen) rest

/-- Words of the machine hold numbers below this bound. -/
def wordLimit : Nat := Nat.pow 2 64

def clamp (n low high : Nat) : Nat := if n < low then low else if high < n then high else n

/-- How many tasks may run at once: the width, but not more than the processors allow and never
less than the least. The product of the processors' shares is a word. -/
def Settings.parallelismFor (s : Settings) (processors width : Nat) : Nat :=
  let upper := max (processors * s.parallelismPerCpu % wordLimit) s.minParallelism
  clamp width s.minParallelism upper

def Workflow.chosenParallelism (w : Workflow) (s : Settings) (processors : Nat) :
    Nat × List Change :=
  match w.configuration.parallelism with
  | some n => (n, [])
  | none =>
    let width := maxWidth w.levels
    let degree := s.parallelismFor processors width
    (degree, [.parallelism degree width])

def Workflow.chosenTimeout (w : Workflow) (s : Settings) : Nat × List Change :=
  match w.configuration.timeout with
  | some ms => (ms, [])
  | none => (s.workflowTimeout, [.workflowTimeout s.workflowTimeout])

/-- A task with its time limit and its dependencies named once. -/
def Task.optimize (t : Task) (s : Settings) : Task × List Change :=
  let dependencies := distinct [] t.dependencies
  let timeoutChange : List Change :=
    if t.timeout.isSome then [] else [.taskTimeout s.taskTimeout t.name]
  let dependencyChange : List Change :=
    if dependencies.length = t.dependencies.length then [] else [.dependencies t.name]
  ({ t with timeout := some (t.timeout.getD s.taskTimeout), dependencies },
    timeoutChange ++ dependencyChange)

def Workflow.optimize (w : Workflow) (s : Settings) (processors : Nat) : Optimized :=
  let (parallelism, parallelismChange) := w.chosenParallelism s processors
  let (timeout, timeoutChange) := w.chosenTimeout s
  let tasks := w.tasks.map (·.optimize s)
  { workflow :=
      { w with
        configuration := ⟨some parallelism, some timeout⟩
        tasks := tasks.map Prod.fst }
    changes := parallelismChange ++ timeoutChange ++ (tasks.map Prod.snd).flatten }

end WorkflowEngine
