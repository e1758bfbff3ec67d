import WorkflowEngine.Expression.Template
import WorkflowEngine.Workflow.Precedence

/-!
# Validation of workflows

A workflow is sound when its task names differ, every name that is referred to is that of a task,
no chain of dependencies and branches leads back to its start, and no retry setting is negative.
The conditions are checked in this order. Faults in the syntax of expressions are only warned of.
-/

namespace WorkflowEngine

inductive EdgeKind where
  | dependency
  | branch
  deriving DecidableEq

def EdgeKind.label : EdgeKind → String
  | .dependency => "dependency"
  | .branch => "branch"

/-- A reference from a task to a name. -/
structure Reference where
  kind : EdgeKind
  target : String
  deriving DecidableEq

/-- An edge of a cycle: the task it leaves, and how. -/
structure CycleStep where
  task : String
  kind : EdgeKind
  deriving DecidableEq

inductive SettingFault where
  | negativeRetries (n : Int)
  | negativeDelay (n : Int)
  deriving DecidableEq

inductive ValidationError where
  | duplicateTask (workflow task : String)
  | missingReference (workflow task : String) (kind : EdgeKind) (target : String)
  /-- The steps lead from task to task and the last one back to the first task. -/
  | cycle (workflow : String) (steps : List CycleStep)
  | invalidSettings (task : String) (fault : SettingFault)
  deriving DecidableEq

structure SyntaxWarning where
  workflow : String
  task : String
  field : String
  fault : Expression.Fault

def SettingFault.message : SettingFault → String
  | .negativeRetries n => s!"maxRetries must not be negative (got {n})"
  | .negativeDelay n => s!"retry delayMilliseconds must not be negative (got {n})"

/-- A cycle on one line, with its first task repeated at the end. -/
def cycleText (steps : List CycleStep) : String :=
  String.join (steps.map fun s => s.task ++ " -[" ++ s.kind.label ++ "]-> ") ++
    (steps.head?.map (·.task)).getD ""

def ValidationError.message : ValidationError → String
  | .duplicateTask workflow task =>
    "Workflow '" ++ workflow ++ "' declares task '" ++ task ++ "' more than once"
  | .missingReference workflow task kind target =>
    "Workflow '" ++ workflow ++ "' has missing dependencies: task '" ++ task ++
      "' references unknown " ++ kind.label ++ " target '" ++ target ++ "'"
  | .cycle workflow steps =>
    "Workflow '" ++ workflow ++ "' has cyclic dependencies: " ++ cycleText steps
  | .invalidSettings task fault =>
    "Invalid configuration for task '" ++ task ++ "': " ++ fault.message

/-- The references of a task: dependencies first, then branches. -/
def Task.references (t : Task) : List Reference :=
  t.dependencies.map (⟨.dependency, ·⟩) ++ t.branchTargets.map (⟨.branch, ·⟩)

/-- The first name that occurs before in the list. -/
def firstRepeated? (seen : List String) : List String → Option String
  | [] => none
  | n :: rest => if seen.contains n then some n else firstRepeated? (n :: seen) rest

namespace Workflow

/-- The first reference that leads to no task, and the task that makes it. -/
def firstDangling? (w : Workflow) : Option (Task × Reference) :=
  w.tasks.findSome? fun t =>
    (t.references.find? fun r => (lastIndex? r.target w.taskNames).isNone).map fun r => (t, r)

/-- For each task the positions of the tasks it refers to, in the order of its references. -/
def referenceEdges (w : Workflow) : List (List Nat) :=
  w.tasks.map fun t => t.references.filterMap fun r => lastIndex? r.target w.taskNames

/-- The step that a frame of a traversal has just taken. -/
def cycleStep? (w : Workflow) (f : Graph.Frame) : Option CycleStep :=
  match w.tasks[f.node]? with
  | none => none
  | some t => t.references[f.next - 1]?.map fun r => ⟨t.name, r.kind⟩

/-- The first cycle that a depth-first traversal closes. All references must lead to tasks. -/
def firstCycle? (w : Workflow) : Option (List CycleStep) :=
  (Graph.findMeeting w.referenceEdges).map fun (stack, target) =>
    (stack.reverse.dropWhile fun f => f.node != target).filterMap w.cycleStep?

/-- What is wrong with the settings of a task, retries before the delay. -/
def settingFault? (t : Task) : Option SettingFault :=
  if t.retry.maxRetries < 0 then some (.negativeRetries t.retry.maxRetries)
  else
    match t.retry.delay with
    | some d => if d < 0 then some (.negativeDelay d) else none
    | none => none

def validate (w : Workflow) : Except ValidationError Unit :=
  match firstRepeated? [] w.taskNames with
  | some task => .error (.duplicateTask w.name task)
  | none =>
    match w.firstDangling? with
    | some (t, r) => .error (.missingReference w.name t.name r.kind r.target)
    | none =>
      match w.firstCycle? with
      | some steps => .error (.cycle w.name steps)
      | none =>
        match w.tasks.findSome? fun t => (settingFault? t).map fun fault => (t.name, fault) with
        | some (task, fault) => .error (.invalidSettings task fault)
        | none => .ok ()

end Workflow

mutual

/-- The texts in a value, in the order of its items and keys. -/
def valueTexts : Json.Value → List String
  | .str s => [s]
  | .arr items => itemTexts items
  | .obj fields => fieldTexts fields
  | _ => []

def itemTexts : List Json.Value → List String
  | [] => []
  | v :: rest => valueTexts v ++ itemTexts rest

def fieldTexts : List (String × Json.Value) → List String
  | [] => []
  | (_, v) :: rest => valueTexts v ++ fieldTexts rest

end

/-- The texts of a task that hold expressions, each with the name of its field. -/
def Task.expressionTexts (t : Task) : List (String × String) :=
  t.branches.map (fun b => ("conditionalBranches", b.expression)) ++
    t.description.toList.map (fun d => ("description", d)) ++
    (fieldTexts t.parameters).map fun p => ("parameters", p)

/-- The syntax faults in the texts of a workflow, task by task. -/
def Workflow.warnings (w : Workflow) : List SyntaxWarning :=
  w.tasks.flatMap fun t => t.expressionTexts.filterMap fun (field, text) =>
    match Expression.parseTemplate text with
    | .ok _ => none
    | .error fault => some ⟨w.name, t.name, field, fault⟩

end WorkflowEngine
