import WorkflowEngine.Document.Decode
import WorkflowEngine.Json.Reader
import WorkflowEngine.Text.Blank
import WorkflowEngine.Workflow.Decode

/-!
# Workflows from goals

A provider is asked for a workflow that reaches a goal. Its answer may stand between code fences.
An answer that is not a workflow gives an empty one; a name and a plan are always there.
-/

namespace WorkflowEngine

open Json (Value)

def fallbackPlan : String := "Proposed workflow generated from intent."

def fallbackName : String := "auto-generated-workflow"

def isTagChar (c : Char) : Bool := c.isAlphanum || c == '_' || c == '-'

def fence : List Char := ['\x60', '\x60', '\x60']

def trimEndChars (cs : List Char) : List Char := (Text.trimStartChars cs.reverse).reverse

/-- What stands between an opening fence with an optional tag and a fence at the end. -/
def fencedBody? (cs : List Char) : Option (List Char) :=
  match Text.trimStartChars cs with
  | a :: b :: c :: rest =>
    if [a, b, c] = fence then
      let body := trimEndChars (Text.trimStartChars (rest.dropWhile isTagChar))
      if fence.isSuffixOf body then some (trimEndChars (body.take (body.length - 3))) else none
    else none
  | _ => none

/-- The text of an answer without its fences, or without the blanks around it. -/
def stripFences (raw : String) : String :=
  let cs := raw.toList
  String.ofList ((fencedBody? cs).getD (Text.trimChars cs))

def textField? (name : String) : Value → Option String
  | .obj fields =>
    match Fields.find? name fields with
    | some (.str s) => some s
    | _ => none
  | _ => none

structure Synthesis where
  workflow : Workflow
  answer : String
  plan : String

inductive SynthesisError where
  | emptyGoal
  | providerFailed (reason : String)
  | canceled
  deriving DecidableEq

def SynthesisError.message : SynthesisError → String
  | .emptyGoal => "Goal must not be empty"
  | .providerFailed reason => s!"AI provider failed to generate workflow: {reason}"
  | .canceled => "Workflow synthesis canceled"

/-- What a provider comes to, if it is not waited for in vain. -/
inductive ProviderReply where
  | answer (text : String)
  | failure (reason : String)
  /-- The wait for the provider was canceled. -/
  | canceled

/-- The workflow that an answer holds, and the plan that stands beside it. -/
def readAnswer (answer : String) : Workflow × Option String :=
  match (Json.readText (stripFences answer)).bind (Document.value? 127) with
  | none => ({}, none)
  | some v => ((Workflow.decode? 128 (Document.ofValue v)).getD {}, textField? "plan" v)

def Synthesis.ofAnswer (answer : String) : Synthesis :=
  let (w, plan) := readAnswer answer
  let shown (s : String) : Bool := !Text.allBlank s
  let plan :=
    match plan.filter shown with
    | some p => p
    | none => if shown w.description then w.description else fallbackPlan
  { workflow := if shown w.name then w else { w with name := fallbackName }
    answer
    plan }

/-- A provider is asked only when the goal is not blank. -/
def asksProvider (goal : String) : Bool := !Text.allBlank goal

def synthesize (goal : String) (reply : ProviderReply) : Except SynthesisError Synthesis :=
  if !asksProvider goal then .error .emptyGoal
  else
    match reply with
    | .answer text => .ok (.ofAnswer text)
    | .failure reason => .error (.providerFailed reason)
    | .canceled => .error .canceled

end WorkflowEngine
