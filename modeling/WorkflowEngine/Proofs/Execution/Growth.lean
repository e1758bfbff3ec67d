import WorkflowEngine.Proofs.Execution.Report
import WorkflowEngine.Proofs.Expression.Growth

/-!
# Outputs are only added

A task leaves its output when its level is closed, and names differ, so no output takes the place
of another one (`Run.Undone`). The scope of a run therefore grows (`Expression.Scope.Within`), and
what it gives once it gives from then on (`results_stay`).
-/

namespace WorkflowEngine

open Expression (Context Registry Scope SecretCache)
open Json (Value)

/-! ## Ledgers -/

namespace Ledger

theorem map_name_openLevel_sublist (w : Workflow) (names : List String) (l : Ledger) :
    ((openLevel w names l).1.map (·.name)).Sublist names := by
  induction names generalizing l with
  | nil => exact .slnil
  | cons name rest ih =>
    rw [openLevel]
    split
    · exact (ih l).cons name
    · rename_i t ht
      split
      · exact (ih _).cons name
      · rw [List.map_cons, (Workflow.task?_eq_some ht).2]
        exact (ih l).cons_cons name

theorem find?_outputs_enter {tasks : List Task} {name : String}
    (hname : name ∉ tasks.map (·.name)) (results : Fields Value) (c : Context) (l : Ledger) :
    (enter tasks results c l).1.outputs.find? name = c.outputs.find? name := by
  induction tasks generalizing results c l with
  | nil => rfl
  | cons t rest ih =>
    rw [List.map_cons, List.mem_cons, not_or] at hname
    rw [enter]
    split
    · exact ih hname.2 ..
    · rw [ih hname.2, Context.setOutput, Fields.find?_insert, if_neg (Ne.symm hname.1)]

theorem enter_outputs (tasks : List Task) (results : Fields Value) (c : Context) (l : Ledger) :
    ∃ outputs, (enter tasks results c l).1 = { c with outputs } := by
  induction tasks generalizing results c l with
  | nil => exact ⟨c.outputs, rfl⟩
  | cons t rest ih =>
    rw [enter]
    split
    · exact ih ..
    · rename_i v _
      obtain ⟨outputs, houtputs⟩ := ih (results.erase t.name) (c.setOutput t.name v) _
      exact ⟨outputs, houtputs⟩

/-- Branches look things up, and may load secrets. -/
theorem decide_snd (branches : List Branch) (s : Scope) (l : Ledger) :
    ∃ c, (decide branches s l).2 = s.withSecrets c ∧ s.context.secrets.Within c := by
  induction branches generalizing s l with
  | nil => exact ⟨s.context.secrets, rfl, .refl _⟩
  | cons b rest ih =>
    obtain ⟨c, hsnd, hc⟩ := (Scope.asks_condition b.expression).snd_within s
    rw [decide]
    split
    · rename_i hcondition
      rw [hcondition] at hsnd
      exact ⟨c, hsnd, hc⟩
    all_goals
      rename_i hcondition
      rw [hcondition] at hsnd
      dsimp only at hsnd
      subst hsnd
      obtain ⟨c', hrest, hc'⟩ := ih (s.withSecrets c) _
      exact ⟨c', hrest, hc.trans hc'⟩

theorem decideAll_snd (tasks : List Task) (s : Scope) (l : Ledger) :
    ∃ c, (decideAll tasks s l).2 = s.withSecrets c ∧ s.context.secrets.Within c := by
  induction tasks generalizing s l with
  | nil => exact ⟨s.context.secrets, rfl, .refl _⟩
  | cons t rest ih =>
    obtain ⟨c, hsnd, hc⟩ := decide_snd t.branches s l
    rw [decideAll]
    split
    · rename_i hdecide
      rw [hdecide] at hsnd
      exact ⟨c, hsnd, hc⟩
    · rename_i l' s' hdecide
      rw [hdecide] at hsnd
      dsimp only at hsnd
      subst hsnd
      obtain ⟨c', hrest, hc'⟩ := ih (s.withSecrets c) l'
      exact ⟨c', hrest, hc.trans hc'⟩

end Ledger

/-! ## Turns -/

namespace Run

variable {r r' : Run}

/-- The tasks that may still leave an output: those of the current level, and those ahead. -/
def openNames (r : Run) : List String := (r.level.map (·.task)).map (·.name) ++ r.ahead.flatten

/-- These tasks have different names, and there is no output under any of them. -/
structure Undone (r : Run) : Prop where
  nodup : r.openNames.Nodup
  outputs : ∀ name ∈ r.openNames, r.context.outputs.find? name = none

theorem Undone.sublist (hr : r.Undone) (hnames : r'.openNames.Sublist r.openNames)
    (houtputs : r'.context.outputs = r.context.outputs) : r'.Undone := by
  refine ⟨hnames.nodup hr.nodup, ?_⟩
  intro name hname
  rw [houtputs]
  exact hr.outputs name (hnames.subset hname)

/-- The run looks up what it did before, or more, and no output is there before its time. -/
structure Grown (r r' : Run) : Prop where
  scope : r.scope.Within r'.scope
  undone : r'.Undone

theorem Grown.trans {r'' : Run} (h : r.Grown r') (h' : r'.Grown r'') : r.Grown r'' :=
  ⟨h.scope.trans h'.scope, h'.undone⟩

theorem Undone.grown (hr : r.Undone) (hnames : r'.openNames.Sublist r.openNames) {c : SecretCache}
    (hscope : r'.scope = r.scope.withSecrets c) (hc : r.context.secrets.Within c) :
    r.Grown r' := by
  refine ⟨hscope ▸ Scope.within_withSecrets hc, hr.sublist hnames ?_⟩
  exact congrArg (·.context.outputs) hscope

theorem Undone.grown_of_scope (hr : r.Undone) (hnames : r'.openNames.Sublist r.openNames)
    (hscope : r'.scope = r.scope) : r.Grown r' :=
  hr.grown hnames hscope (.refl r.context.secrets)

theorem openNames_of_outline (h : r'.outline = r.outline) : r'.openNames = r.openNames := by
  have htasks : r'.level.map (·.task) = r.level.map (·.task) := congrArg Outline.tasks h
  have hahead : r'.ahead = r.ahead := congrArg Outline.ahead h
  rw [openNames, openNames, htasks, hahead]

theorem scope_of_scene {s : Scope} {calls : List Call} (h : r.scene = (s, calls)) : r.scope = s :=
  congrArg Prod.fst h

theorem launch_scope (r : Run) (i : Nat) (task : Task) (now : Nat) :
    ∃ c, (r.launch i task now).scope = r.scope.withSecrets c ∧ r.context.secrets.Within c := by
  obtain ⟨c, hsnd, hc⟩ := (Scope.asks_replaceTask task).snd_within r.scope
  refine ⟨c, ?_, hc⟩
  rw [launch]
  split
  · rename_i hreplaced
    rw [hreplaced] at hsnd
    dsimp only at hsnd
    subst hsnd
    exact scope_of_scene (scene_finish ..)
  · rename_i resolved s hreplaced
    rw [hreplaced] at hsnd
    dsimp only at hsnd
    subst hsnd
    exact scope_of_scene (scene_record ..)

theorem advanceTask_scope (r : Run) (i now : Nat) (tokenFirst : Bool) :
    ∃ c, (r.advanceTask i now tokenFirst).scope = r.scope.withSecrets c ∧
      r.context.secrets.Within c := by
  rw [advanceTask]
  split
  · split
    · exact ⟨r.context.secrets, rfl, .refl _⟩
    · exact launch_scope ..
  · exact launch_scope ..
  · exact ⟨r.context.secrets, scope_of_scene (scene_record ..), .refl _⟩
  · exact ⟨r.context.secrets, rfl, .refl _⟩

/-! ## Levels -/

/-- Opening levels adds no output, and what is not opened is still ahead. -/
theorem openNext_scope (now : Nat) {ahead : List (List String)} (r : Run) (hlevel : r.level = [])
    (hahead : ahead.flatten.Sublist r.ahead.flatten) :
    (openNext now ahead r).scope = r.scope ∧
      (openNext now ahead r).openNames.Sublist r.openNames := by
  induction ahead generalizing r with
  | nil => exact ⟨rfl, List.nil_sublist _⟩
  | cons names ahead ih =>
    rw [List.flatten_cons] at hahead
    rw [openNext]
    split
    · exact ⟨rfl, List.Sublist.refl _⟩
    · dsimp only
      split
      · exact ih _ hlevel ((List.sublist_append_right ..).trans hahead)
      · refine ⟨scope_of_scene (scene_pushAll ..), ?_⟩
        rw [openNames_of_outline (outline_pushAll ..)]
        have hopened := Ledger.map_name_openLevel_sublist r.workflow names r.ledger
        simp only [openNames, hlevel, List.map_map, Function.comp_def, List.map_nil,
          List.nil_append]
        exact (hopened.append_right ahead.flatten).trans hahead

/-- The outputs of a level are entered under the names of its tasks, where there were none. -/
theorem Undone.entered (hr : r.Undone) {outputs : Fields Value}
    (houtputs : ∀ name ∉ (r.level.map (·.task)).map (·.name),
      outputs.find? name = r.context.outputs.find? name)
    {c : SecretCache} (hc : r.context.secrets.Within c) (ledger : Ledger) :
    r.Grown { r with
      context := { r.context with outputs, secrets := c }
      ledger
      level := [] } := by
  obtain ⟨-, hahead, hapart⟩ := List.nodup_append.mp hr.nodup
  refine ⟨⟨rfl, ?_, fun _ _ hv => hv, hc⟩, hahead, ?_⟩
  · intro name v hv
    have hname : name ∉ (r.level.map (·.task)).map (·.name) := by
      intro hlevel
      have hnone : r.scope.context.outputs.find? name = none :=
        hr.outputs name (List.mem_append_left _ hlevel)
      rw [hnone] at hv
      cases hv
    exact (houtputs name hname).trans hv
  · intro name hname
    have hnone := hr.outputs name (List.mem_append_right _ hname)
    exact (houtputs name fun hlevel => hapart name hlevel name hname rfl).trans hnone

theorem Grown.openNext (hr : r.Grown r') (hlevel : r'.level = []) (now : Nat) :
    r.Grown (openNext now r'.ahead r') := by
  obtain ⟨hscope, hnames⟩ := openNext_scope now r' hlevel (List.Sublist.refl _)
  exact hr.trans (hr.undone.grown_of_scope hnames hscope)

theorem Undone.closeLevel (hr : r.Undone) (now : Nat) : r.Grown (r.closeLevel now) := by
  have hfind : ∀ name ∉ (r.level.map (·.task)).map (·.name),
      (Ledger.enter (r.level.map (·.task)) r.results r.context r.ledger).1.outputs.find? name =
        r.context.outputs.find? name :=
    fun name hname => Ledger.find?_outputs_enter hname ..
  obtain ⟨outputs, hcontext⟩ :=
    Ledger.enter_outputs (r.level.map (·.task)) r.results r.context r.ledger
  rw [Run.closeLevel]
  generalize Ledger.enter (r.level.map (·.task)) r.results r.context r.ledger = entered at *
  obtain ⟨context, ledger⟩ := entered
  dsimp only at hcontext hfind ⊢
  subst hcontext
  obtain ⟨c, hdecided, hc⟩ := Ledger.decideAll_snd (r.level.map (·.task))
    { r.scope with context := { r.context with outputs } } ledger
  split
  · rename_i name fault s hdecide
    obtain rfl : s = _ := (congrArg Prod.snd hdecide).symm.trans hdecided
    have hentered := hr.entered hfind hc r.ledger
    exact hentered.trans (hentered.undone.grown_of_scope (List.Sublist.refl _) rfl)
  · rename_i ledger' s hdecide
    obtain rfl : s = _ := (congrArg Prod.snd hdecide).symm.trans hdecided
    exact (hr.entered hfind hc ledger').openNext rfl now

theorem Undone.coordinate (hr : r.Undone) (now : Nat) : r.Grown (r.coordinate now) := by
  have hsame := look_sameLevel now r.ended { r with ended := [] }
  have hscene := scene_look now r.ended { r with ended := [] }
  rw [Run.coordinate]
  generalize look now r.ended { r with ended := [] } = s at *
  have hlooked : r.Grown s := by
    have hlevel : s.level = r.level := congrArg Desk.level hsame.desk
    have hahead : s.ahead = r.ahead := hsame.ahead
    refine hr.grown_of_scope ?_ (scope_of_scene hscene)
    rw [openNames, openNames, hlevel, hahead]
  have hclosed : r.Grown (if s.isGoing ∧ s.seen = s.level.length then s.closeLevel now else s) := by
    split
    · exact hlooked.trans (hlooked.undone.closeLevel now)
    · exact hlooked
  generalize (if s.isGoing ∧ s.seen = s.level.length then s.closeLevel now else s) = u at hclosed ⊢
  split
  · exact hclosed.trans (hclosed.undone.grown_of_scope (List.Sublist.refl _) rfl)
  · exact hclosed

/-! ## Runs -/

theorem Undone.step (hr : r.Undone) (h : Step r r') : r.Grown r' := by
  cases h with
  | coordinate now _ => exact hr.coordinate now
  | advanceTask i now tokenFirst _ =>
    obtain ⟨c, hscope, hc⟩ := r.advanceTask_scope i now tokenFirst
    have hnames := openNames_of_outline (r.advanceTask_cases i now tokenFirst).1
    exact hr.grown (hnames ▸ List.Sublist.refl _) hscope hc
  | cancel =>
    have hnames := openNames_of_outline (outline_cancel r)
    exact hr.grown_of_scope (hnames ▸ List.Sublist.refl _) (scope_of_scene (scene_cancel r))
  | schedule turns => exact hr.grown_of_scope (List.Sublist.refl _) rfl

theorem Undone.steps (hr : r.Undone) (h : Steps r r') : r.Grown r' := by
  induction h with
  | refl => exact ⟨.refl _, hr⟩
  | tail _ hstep ih => exact ih.trans (ih.undone.step hstep)

theorem undone_start {w : Workflow} (hw : w.UniqueNames) (functions : Registry) (handler : Handler)
    (secrets : SecretCache) (activity : Activity) (yields : Bool) (id : String) (now : Nat) :
    (start w functions handler secrets activity yields id now).Undone := by
  have hperm : w.executionLevels.flatten.Perm w.taskNames :=
    Graph.perm_flatten_groupByLevel Workflow.length_predecessorEdges
  exact ⟨hperm.nodup_iff.mpr hw, fun _ _ => rfl⟩

end Run

/-- A scope in which more can be looked up gives what the other one gives. In a run whose tasks
have different names, outputs are only added: whatever has a result while it is going on has that
result at any time after. -/
theorem results_stay :
    (∀ s s' : Scope, s.Within s' → s.Confirms s') ∧
      ∀ w : Workflow, w.UniqueNames → ∀ functions handler secrets activity yields id now r r',
        Run.Steps (Run.start w functions handler secrets activity yields id now) r →
        Run.Steps r r' → r.scope.Confirms r'.scope := by
  refine ⟨fun s s' h => h.confirms, ?_⟩
  intro w hw functions handler secrets activity yields id now r r' hbefore hafter
  have hstart := Run.undone_start hw functions handler secrets activity yields id now
  have hundone := (hstart.steps hbefore).undone
  exact (hundone.steps hafter).scope.confirms

theorem exists_ok_of_stringify {r : Except Expression.Fault Value} {text : String}
    (h : r.toOption.map Expression.stringify = some text) :
    ∃ v, r = .ok v ∧ Expression.stringify v = text := by
  cases r with
  | error fault => cases h
  | ok v => exact ⟨v, rfl, Option.some.inj h⟩

/-- One text is parsed where secrets are still to be loaded, and where there are more outputs and
variables and the secrets were loaded. Another one is parsed when the first task of `gate` is done,
and when all are: the output that it would look up on its right side is there by then. -/
theorem results_stay_gate :
    let secrets : SecretCache := { provider := Expression.vault }
    let scope : Scope :=
      { context := { traceId := "t", outputs := [("a", .str "x")], secrets }, functions := {} }
    let wider : Scope :=
      { context := { traceId := "u", outputs := [("a", .str "x"), ("b", .null)],
                     «variables» := [("c", .null)],
                     secrets := secrets.holding [⟨"Key", "x"⟩, ⟨"KEY", "y"⟩] }
        functions := {} }
    let early := Run.steps 0 3 (.start .gate gateExecutor.functions gateExecutor.handler {} {} true
      "x" 0)
    let late := Run.steps 0 17 early
    (scope.Within wider ∧ ∃ v, (scope.parse "$[Outputs('a')]-$[Secrets('key')]").1 = .ok v ∧
      Expression.stringify v = "x-x" ∧
      (wider.parse "$[Outputs('a')]-$[Secrets('key')]").1 = .ok v) ∧
    early.context.outputs.keys = ["A"] ∧ late.context.outputs.keys = ["A", "B", "D"] ∧
      ∃ v, (early.scope.parse "$[Outputs('A') != null && Outputs('B')]").1 = .ok v ∧
        Expression.stringify v = "false" ∧
        (late.scope.parse "$[Outputs('A') != null && Outputs('B')]").1 = .ok v := by
  intro secrets scope wider early late
  obtain ⟨hscopes, hruns⟩ := results_stay
  have hwithin : scope.Within wider := by
    have halike : secrets.Alike wider.context.secrets :=
      SecretCache.alike_holding rfl (fun _ => rfl) nofun
    refine ⟨rfl, ?_, nofun, halike.within⟩
    intro key v hv
    simp only [scope, Fields.find?] at hv
    split at hv
    · rename_i hkey
      simpa [wider, Fields.find?, hkey] using hv
    · cases hv
  have hsecret : (scope.parse "$[Outputs('a')]-$[Secrets('key')]").1.toOption.map
      Expression.stringify = some "x-x" := by decide +kernel
  obtain ⟨v, hv, htext⟩ := exists_ok_of_stringify hsecret
  obtain ⟨hunique, -, -, -⟩ :=
    Workflow.validate_eq_ok.mp (by decide : Workflow.gate.validate = .ok ())
  have hstays := hruns .gate hunique _ _ _ _ _ _ _ early late (Run.steps_steps 0 3 _)
    (Run.steps_steps 0 17 early)
  have hparsed : (early.scope.parse "$[Outputs('A') != null && Outputs('B')]").1.toOption.map
      Expression.stringify = some "false" := by decide +kernel
  obtain ⟨u, hu, hfalse⟩ := exists_ok_of_stringify hparsed
  exact ⟨⟨hwithin, v, hv, htext, (hscopes scope wider hwithin).parse _ v hv⟩, by decide +kernel,
    by decide +kernel, u, hu, hfalse, hstays.parse _ u hu⟩

end WorkflowEngine
