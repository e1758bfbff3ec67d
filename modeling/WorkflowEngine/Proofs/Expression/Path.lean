import WorkflowEngine.Expression.Eval
import WorkflowEngine.Proofs.Document.Decode
import WorkflowEngine.Proofs.Json.Reader
import WorkflowEngine.Proofs.Text.Case

/-!
# Paths into JSON text

The compact text of an array or object, with blanks in front of it or not, is read as the value it
was written for (`embeddedValue?_text`). The first step of a path enters the text like that value,
and from there on the two paths are one.
-/

namespace WorkflowEngine

/-- An array or an object. -/
inductive Json.Value.Compound : Json.Value → Prop where
  | arr (items : List Json.Value) : Compound (.arr items)
  | obj (fields : List (String × Json.Value)) : Compound (.obj fields)

namespace Expression

open Json (Value)

/-- What a step of a path asks of a value. -/
inductive Key where
  | property (name : String)
  | item (index : Nat)

/-- What is under a key, if there is something. -/
def Key.find? (v : Value) : Key → Option Value
  | .property name => property? name v
  | .item index => item? index v

/-- What is at the end of a path, if it leads somewhere. -/
def follow? : List Key → Value → Option Value
  | [], v => some v
  | k :: rest, v => (k.find? v).bind (follow? rest)

variable {v : Value} {text blanks : String}

/-! ## Entering a text -/

theorem embeddedValue?_of_bracket {cs : List Char}
    (h : Text.trimStartChars text.toList = '[' :: cs) :
    embeddedValue? text = (Json.readText (String.ofList ('[' :: cs))).bind (Document.value? 127) := by
  rw [embeddedValue?, h]
  rfl

theorem embeddedValue?_of_brace {cs : List Char}
    (h : Text.trimStartChars text.toList = '\x7b' :: cs) :
    embeddedValue? text =
      (Json.readText (String.ofList ('\x7b' :: cs))).bind (Document.value? 127) := by
  rw [embeddedValue?, h]
  rfl

theorem embeddedValue?_text (hv : v.Compound) (hintegral : v.Integral) (hordered : v.Ordered)
    (hdepth : v.depth ≤ 127) (hblanks : Text.allBlank blanks = true) :
    embeddedValue? (blanks ++ v.text) = some v := by
  have hread : (Json.readText (String.ofList v.chars)).bind (Document.value? 127) = some v := by
    rw [← Value.text, Json.readText_text hintegral, Option.bind_some]
    exact Document.value?_ofValue hordered hdepth
  have hchars : Text.trimStartChars (blanks ++ v.text).toList = Text.trimStartChars v.chars := by
    rw [String.toList_append, Value.text, String.toList_ofList]
    exact Text.trimStartChars_append (Text.allBlank_iff.mp hblanks) v.chars
  cases hv with
  | arr items => exact (embeddedValue?_of_bracket hchars).trans hread
  | obj fields => exact (embeddedValue?_of_brace hchars).trans hread

/-! ## The first step -/

theorem property?_text (hv : v.Compound) (h : embeddedValue? text = some v) (name : String) :
    property? name (.str text) = property? name v := by
  rw [property?, h, Option.bind_some]
  cases hv <;> rfl

theorem item?_text (hv : v.Compound) (h : embeddedValue? text = some v) (index : Nat) :
    item? index (.str text) = item? index v := by
  rw [item?, h, Option.bind_some]
  cases hv <;> rfl

theorem find?_text (hv : v.Compound) (h : embeddedValue? text = some v) (k : Key) :
    k.find? (.str text) = k.find? v := by
  cases k with
  | property name => exact property?_text hv h name
  | item index => exact item?_text hv h index

theorem takeStep_text (hv : v.Compound) (h : embeddedValue? text = some v) (step : Step) :
    takeStep (.str text) step = takeStep v step := by
  cases step with
  | property name => rw [takeStep, takeStep, property?_text hv h]
  | index e =>
    rw [takeStep, takeStep]
    split
    · rw [item?_text hv h]
    · rfl

/-! ## Whole paths -/

theorem follow?_text (hv : v.Compound) (h : embeddedValue? text = some v) {keys : List Key}
    (hkeys : keys ≠ []) : follow? keys (.str text) = follow? keys v := by
  cases keys with
  | nil => exact absurd rfl hkeys
  | cons k rest => rw [follow?, follow?, find?_text hv h]

theorem foldl_takeStep_text (hv : v.Compound) (h : embeddedValue? text = some v)
    {steps : List Step} (hsteps : steps ≠ []) :
    steps.foldl takeStep (.str text) = steps.foldl takeStep v := by
  cases steps with
  | nil => exact absurd rfl hsteps
  | cons step rest => rw [List.foldl_cons, List.foldl_cons, takeStep_text hv h]

/-- It makes no difference to a path whether it starts at an array or object or at a text that holds
it: it leads to the same value or nowhere, and an expression that goes on along it has the same
value. -/
theorem path_into_text (hv : v.Compound) (hintegral : v.Integral) (hordered : v.Ordered)
    (hdepth : v.depth ≤ 127) (hblanks : Text.allBlank blanks = true) :
    (∀ keys : List Key, keys ≠ [] →
      follow? keys (.str (blanks ++ v.text)) = follow? keys v) ∧
    ∀ steps : List Step, steps ≠ [] →
      steps.foldl takeStep (.str (blanks ++ v.text)) = steps.foldl takeStep v ∧
      ∀ (s s' : Scope) (span span' : String) (target target' : Expr),
        s.eval span target = .ok (.str (blanks ++ v.text)) → s'.eval span' target' = .ok v →
        s.eval span (.path target steps) = s'.eval span' (.path target' steps) := by
  have hheld := embeddedValue?_text hv hintegral hordered hdepth hblanks
  refine ⟨fun keys hkeys => follow?_text hv hheld hkeys, fun steps hsteps => ?_⟩
  have hsame := foldl_takeStep_text hv hheld hsteps
  refine ⟨hsame, fun s s' span span' target target' htext hvalue => ?_⟩
  rw [Scope.eval, Scope.eval, htext, hvalue]
  exact congrArg Except.ok hsame

/-- The property `id` is a list, and `Id` is a number. The list holds a text that holds a list. -/
def heldList : Value := .obj [("Id", .ofInt (-1)), ("id", .arr [.null, .str " [5]"])]

/-- Blanks that JSON text itself does not allow, an exact and an inexact name, a list in a text in
the text, and an item that is not there. -/
theorem path_into_text_heldList :
    heldList.Compound ∧ heldList.Integral ∧ heldList.Ordered ∧ heldList.depth ≤ 127 ∧
      Text.allBlank "\u00a0\n" = true ∧
      let found (keys : List Key) : Option String :=
        (follow? keys (.str ("\u00a0\n" ++ heldList.text))).map Value.text
      found [.property "id", .item 1, .item 0] = some "5" ∧ found [.property "ID"] = some "-1" ∧
        found [.property "id", .item 2] = none ∧
        found [.property "id", .property "Count"] = some "2" := by
  have hcompound : heldList.Compound := .obj _
  have hintegral : heldList.Integral := by
    refine .obj fun e he => ?_
    simp only [List.mem_cons, List.not_mem_nil, or_false] at he
    rcases he with rfl | rfl
    · exact .int (by decide)
    · refine .arr fun v hv => ?_
      simp only [List.mem_cons, List.not_mem_nil, or_false] at hv
      rcases hv with rfl | rfl
      · exact .null
      · exact .str _
  have hordered : heldList.Ordered := by
    refine .obj (List.pairwise_pair.mpr (by decide)) fun e he => ?_
    simp only [List.mem_cons, List.not_mem_nil, or_false] at he
    rcases he with rfl | rfl
    · exact .num _
    · refine .arr fun v hv => ?_
      simp only [List.mem_cons, List.not_mem_nil, or_false] at hv
      rcases hv with rfl | rfl
      · exact .null
      · exact .str _
  have hdepth : heldList.depth ≤ 127 := by decide
  have hblanks : Text.allBlank "\u00a0\n" = true := by decide
  obtain ⟨hfollow, -⟩ := path_into_text hcompound hintegral hordered hdepth hblanks
  have hfound (keys : List Key) (hkeys : keys ≠ []) :
      (follow? keys (.str ("\u00a0\n" ++ heldList.text))).map Value.text =
        (follow? keys heldList).map Value.text := congrArg _ (hfollow keys hkeys)
  refine ⟨hcompound, hintegral, hordered, hdepth, hblanks, ?_, ?_, ?_, ?_⟩
  · exact (hfound [.property "id", .item 1, .item 0] nofun).trans (by decide +kernel)
  · exact (hfound [.property "ID"] nofun).trans (by decide +kernel)
  · exact (hfound [.property "id", .item 2] nofun).trans (by decide +kernel)
  · exact (hfound [.property "id", .property "Count"] nofun).trans (by decide +kernel)

end Expression

end WorkflowEngine
