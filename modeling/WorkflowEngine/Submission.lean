import WorkflowEngine.Execution.Executor
import WorkflowEngine.Execution.Intake
import WorkflowEngine.Workflow.Optimization
import WorkflowEngine.Workflow.Validation

/-!
# Submitting workflows

A workflow is validated, optimized and stored, in this order, and then its execution can be
requested. A workflow that is not valid is neither stored nor executed.
-/

namespace WorkflowEngine

structure SubmissionDesk where
  settings : Settings := {}
  processors : Nat
  store : WorkflowStore := {}
  intake : Intake := {}

inductive SubmissionError where
  | validation (error : ValidationError)
  | storage (reasons : Reasons)
  | unknownWorkflow (id : String)
  | enqueue (error : IntakeError)

def SubmissionError.message : SubmissionError → String
  | validation error => error.message
  | storage reasons => "Failed to store workflow definition: " ++ reasons.text
  | unknownWorkflow id => "Workflow '" ++ id ++ "' is not registered"
  | enqueue error => "Failed to enqueue workflow execution: " ++ error.message

structure Registration where
  id : String
  workflow : Workflow
  /-- What the optimization changed, in words. -/
  explanation : String

namespace SubmissionDesk

def freshId (d : SubmissionDesk) : String := "w" ++ toString d.store.size

def register (d : SubmissionDesk) (w : Workflow) :
    Except SubmissionError Registration × SubmissionDesk :=
  match w.validate with
  | .error e => (.error (.validation e), d)
  | .ok _ =>
    let optimized := w.optimize d.settings d.processors
    match d.store.save d.freshId optimized.workflow with
    | .error reasons => (.error (.storage reasons), d)
    | .ok store =>
      (.ok
        { id := d.freshId
          workflow := optimized.workflow
          explanation := optimized.explanation },
        { d with store })

/-- Requests an execution of a workflow, whether it is stored or not; returns the request's id. -/
def request (d : SubmissionDesk) (now : Nat) (workflow user : String) :
    Except SubmissionError String × SubmissionDesk :=
  match d.intake.submit now workflow user with
  | (.error e, intake) => (.error (.enqueue e), { d with intake })
  | (.ok id, intake) => (.ok id, { d with intake })

/-- Registers a workflow and requests an execution of it. When the request is refused the workflow
stays stored. -/
def submit (d : SubmissionDesk) (now : Nat) (w : Workflow) (user : String) :
    Except SubmissionError (Registration × String) × SubmissionDesk :=
  match d.register w with
  | (.error e, d) => (.error e, d)
  | (.ok registration, d) =>
    match d.request now registration.id user with
    | (.error e, d) => (.error e, d)
    | (.ok id, d) => (.ok (registration, id), d)

/-- Requests an execution of a workflow that is stored. -/
def trigger (d : SubmissionDesk) (now : Nat) (workflow user : String) :
    Except SubmissionError String × SubmissionDesk :=
  match d.store.get workflow with
  | .error reasons => (.error (.storage reasons), d)
  | .ok none => (.error (.unknownWorkflow workflow), d)
  | .ok (some _) => d.request now workflow user

end SubmissionDesk

end WorkflowEngine
