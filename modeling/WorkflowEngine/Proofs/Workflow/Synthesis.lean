import WorkflowEngine.Proofs.Workflow.Decode
import WorkflowEngine.Workflow.Synthesis

/-!
# What becomes of an answer

An answer that is JSON text has a value, and the workflow and the plan are taken from that value,
each on its own. So a plan may come from an answer that is no workflow (`plan_without_workflow`).
-/

namespace WorkflowEngine

open Json (Value)

namespace Answer

/-- The value of an answer that is JSON text between its fences. -/
def value? (text : String) : Option Value :=
  (Json.readText (stripFences text)).bind (Document.value? 127)

def workflow? (text : String) : Option Workflow :=
  (value? text).bind fun v => Workflow.decode? 128 (.ofValue v)

/-- The text under the key of the plan. -/
def plan? (text : String) : Option String := (value? text).bind (textField? "plan")

theorem readAnswer_eq (text : String) :
    readAnswer text = ((workflow? text).getD {}, plan? text) := by
  rw [readAnswer, workflow?, plan?, value?]
  split
  · rename_i hvalue
    rw [hvalue]
    rfl
  · rename_i v hvalue
    rw [hvalue]
    rfl

end Answer

/-- A workflow always has a name. -/
def Workflow.named (w : Workflow) : Workflow :=
  if Text.allBlank w.name then { w with name := fallbackName } else w

def firstShown? (texts : List String) : Option String := texts.find? fun s => !Text.allBlank s

theorem firstShown?_cons (text : String) (texts : List String) :
    firstShown? (text :: texts) = if Text.allBlank text then firstShown? texts else some text := by
  rw [firstShown?, List.find?_cons]
  cases Text.allBlank text <;> rfl

theorem firstShown?_fallback (description : String) :
    firstShown? [description, fallbackPlan] =
      some (if Text.allBlank description then fallbackPlan else description) := by
  have hfallback : Text.allBlank fallbackPlan = false := by decide
  rw [firstShown?_cons, firstShown?_cons, hfallback]
  split <;> rfl

theorem ofAnswer_eq (text : String) :
    (Synthesis.ofAnswer text).workflow = ((Answer.workflow? text).getD {}).named ∧
      (Synthesis.ofAnswer text).answer = text ∧
      firstShown? ((Answer.plan? text).toList ++
        [((Answer.workflow? text).getD {}).description, fallbackPlan]) =
        some (Synthesis.ofAnswer text).plan := by
  rw [Synthesis.ofAnswer, Answer.readAnswer_eq]
  generalize (Answer.workflow? text).getD {} = w
  dsimp only
  refine ⟨?_, rfl, ?_⟩
  · rw [Workflow.named]
    by_cases hname : Text.allBlank w.name = true
    · simp [hname]
    · simp [hname]
  · have hlast := firstShown?_fallback w.description
    cases Answer.plan? text with
    | none =>
      rw [Option.toList_none, List.nil_append, hlast]
      by_cases hdescription : Text.allBlank w.description = true
      · simp [hdescription]
      · simp [hdescription]
    | some plan =>
      rw [Option.toList_some, List.singleton_append, firstShown?_cons, hlast]
      by_cases hplan : Text.allBlank plan = true
      · have hnone : (some plan).filter (fun s => !Text.allBlank s) = none := by
          simp [Option.filter, hplan]
        rw [if_pos hplan, hnone]
        by_cases hdescription : Text.allBlank w.description = true
        · simp [hdescription]
        · simp [hdescription]
      · have hsome : (some plan).filter (fun s => !Text.allBlank s) = some plan := by
          simp [Option.filter, hplan]
        rw [if_neg hplan, hsome]

/-- Every answer to a goal that is not blank comes to a result. When a workflow can be decoded from
the value of the answer, it is that workflow with a name, and a plan that is shown, where the
description may stand in for the plan. When none can, the workflow is empty but for its name, and
the plan is still that of the answer if it has one. A workflow that can be loaded from an answer
that has a value is the one that is decoded. -/
theorem synthesize_answer {goal : String} (hgoal : Text.allBlank goal = false) (text : String) :
    ∃ r, synthesize goal (.answer text) = .ok r ∧ r.answer = text ∧
      (∀ w, Answer.workflow? text = some w → r.workflow = w.named ∧
        firstShown? ((Answer.plan? text).toList ++ [w.description, fallbackPlan]) = some r.plan) ∧
      (Answer.workflow? text = none → r.workflow = { name := fallbackName } ∧
        firstShown? ((Answer.plan? text).toList ++ [fallbackPlan]) = some r.plan) ∧
      ∀ w, Workflow.ofText .json (stripFences text) = .ok w → (Answer.value? text).isSome →
        Answer.workflow? text = some w := by
  obtain ⟨hworkflow, hanswer, hplan⟩ := ofAnswer_eq text
  refine ⟨.ofAnswer text, ?_, hanswer, ?_, ?_, ?_⟩
  · simp [synthesize, asksProvider, hgoal]
  · intro w hw
    rw [hw] at hworkflow hplan
    exact ⟨hworkflow, hplan⟩
  · intro hnone
    rw [hnone] at hworkflow hplan
    refine ⟨hworkflow, ?_⟩
    have hempty : firstShown? ["", fallbackPlan] = firstShown? [fallbackPlan] := by decide
    rw [firstShown?, List.find?_append] at hplan ⊢
    -- The description of an empty workflow is not shown.
    rw [← hplan]
    exact congrArg _ hempty.symm
  · intro w hw hvalue
    obtain ⟨v, hv⟩ := Option.isSome_iff_exists.mp hvalue
    rw [Answer.workflow?, hv, Option.bind_some]
    exact Workflow.decode?_of_ofText hw hv (by decide)

/-- An answer between fences, with a blank name and a blank plan. -/
theorem synthesize_answer_fenced :
    let text := "```json\n\x7b\"name\": \" \", \"description\": \"Ship\", \"plan\": \"\"\x7d\n```"
    Text.allBlank "goal" = false ∧ Answer.plan? text = some "" ∧
      ∃ w r, Answer.workflow? text = some w ∧ w.description = "Ship" ∧
        synthesize "goal" (.answer text) = .ok r ∧ r.workflow = { w with name := fallbackName } ∧
        firstShown? ["", w.description, fallbackPlan] = some r.plan := by
  intro text
  have hgoal : Text.allBlank "goal" = false := by decide
  have hplan : Answer.plan? text = some "" := by decide +kernel
  have hread : (Answer.workflow? text).map (fun w => (w.name, w.description)) =
      some (" ", "Ship") := by decide +kernel
  obtain ⟨w, hw, hfields⟩ := Option.map_eq_some_iff.mp hread
  obtain ⟨hname, hdescription⟩ := Prod.mk.inj hfields
  obtain ⟨r, hr, -, hworkflow, -, -⟩ := synthesize_answer hgoal text
  obtain ⟨hnamed, hfirst⟩ := hworkflow w hw
  refine ⟨hgoal, hplan, w, r, hw, hdescription, hr, ?_, ?_⟩
  · rw [hnamed, Workflow.named, hname]
    rfl
  · rw [hplan] at hfirst
    exact hfirst

/-- The plan of an answer that is no workflow is kept. -/
theorem plan_without_workflow :
    let text := "\x7b\"plan\": \"Ship it\", \"tasks\": 5\x7d"
    (Answer.workflow? text).isNone ∧ (Workflow.ofText .json (stripFences text)).toOption.isNone ∧
      ∃ r, synthesize "g" (.answer text) = .ok r ∧ r.plan ≠ fallbackPlan := by
  intro text
  exact ⟨by decide +kernel, by decide +kernel, .ofAnswer text, rfl, by decide +kernel⟩

end WorkflowEngine
