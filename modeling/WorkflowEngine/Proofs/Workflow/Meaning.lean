import WorkflowEngine.Proofs.Graph.Repetition
import WorkflowEngine.Proofs.Workflow.Optimization
import WorkflowEngine.Proofs.Workflow.Validation

/-!
# What an optimized workflow means

Optimization drops repeated dependencies, so the graphs of a workflow lose repeated edges, and the
positions of references change. Nothing that is made of the graphs shows it: both workflows pass
validation or have the same error, down to the steps of a cycle, and they have the same levels, by
dependencies and for execution (`optimize_same_meaning`). A cycle that validation reports is read
off the nodes on the stack alone (`firstCycle?_eq`), since each of them has just passed its first
reference to the next one.
-/

namespace WorkflowEngine

open WorkflowEngine.Graph (SameFirsts SameTargets frameTo)

/-! ## References -/

theorem find?_distinct {names seen : List String} {p : String → Bool}
    (h : ∀ n ∈ seen, p n = false) : (distinct seen names).find? p = names.find? p := by
  induction names generalizing seen with
  | nil => rfl
  | cons n rest ih =>
    rw [distinct]
    split
    · rename_i hn
      rw [ih h, List.find?_cons, h n (List.contains_iff_mem.mp hn)]
    · rw [List.find?_cons, List.find?_cons]
      cases hp : p n with
      | true => rfl
      | false =>
        refine ih fun m hm => ?_
        rcases List.mem_cons.mp hm with rfl | hm
        · exact hp
        · exact h m hm

namespace Task

variable {t : Task} {s : Settings}

theorem sameFirsts_dependencies : SameFirsts (t.optimize s).1.dependencies t.dependencies :=
  fun _ => find?_distinct fun _ hn => absurd hn List.not_mem_nil

theorem sameFirsts_references : SameFirsts (t.optimize s).1.references t.references :=
  (sameFirsts_dependencies.map _).append_right _

end Task

namespace Workflow

/-! ## Cycles -/

/-- The step from a task to the task at a position by the first reference that leads there. -/
def stepBetween? (w : Workflow) (node target : Nat) : Option CycleStep :=
  match w.tasks[node]? with
  | none => none
  | some t =>
    (t.references.find? fun r => lastIndex? r.target w.taskNames == some target).map fun r =>
      ⟨t.name, r.kind⟩

/-- The steps along the nodes of a stack, the innermost first, and on to the target. -/
def cycleAlong (w : Workflow) (nodes : List Nat) (target : Nat) : List CycleStep :=
  ((nodes.zip (target :: nodes)).reverse.dropWhile fun e => e.1 != target).filterMap fun e =>
    w.stepBetween? e.1 e.2

variable {w w' : Workflow}

theorem getElem?_idxOf_filterMap {α : Type} (f : α → Option Nat) (v : Nat) {l : List α}
    (h : ∀ a ∈ l, (f a).isSome) :
    l[(l.filterMap f).idxOf v]? = l.find? fun a => f a == some v := by
  induction l with
  | nil => rfl
  | cons a rest ih =>
    obtain ⟨u, hu⟩ := Option.isSome_iff_exists.mp (h a List.mem_cons_self)
    have hrest := ih fun b hb => h b (List.mem_cons_of_mem _ hb)
    rw [List.filterMap_cons_some hu, List.idxOf_cons, List.find?_cons, hu, Option.some_beq_some]
    cases huv : u == v with
    | true => rfl
    | false => exact hrest

theorem cycleStep?_frameTo (h : w.Resolved) (node target : Nat) :
    w.cycleStep? (frameTo w.referenceEdges node target) = w.stepBetween? node target := by
  rw [cycleStep?, stepBetween?, frameTo]
  cases ht : w.tasks[node]? with
  | none => rfl
  | some t =>
    have hedges : w.referenceEdges.getD node [] =
        t.references.filterMap fun r => lastIndex? r.target w.taskNames := by
      rw [List.getD_eq_getElem?_getD, referenceEdges, List.getElem?_map, ht]
      rfl
    have hall : ∀ r ∈ t.references, (lastIndex? r.target w.taskNames).isSome := fun r hr =>
      isSome_lastIndex?.mpr (resolved_iff.mp h t (List.mem_of_getElem? ht) r hr)
    simp only [hedges, Nat.add_sub_cancel, getElem?_idxOf_filterMap _ _ hall]

/-- The cycle is read off the nodes on the stack. -/
theorem firstCycle?_eq (h : w.Resolved) :
    w.firstCycle? =
      ((Graph.findMeeting w.referenceEdges).map Graph.Traversal.meeting).map fun found =>
        w.cycleAlong found.1 found.2 := by
  rw [firstCycle?, Option.map_map]
  cases hfound : Graph.findMeeting w.referenceEdges with
  | none => rfl
  | some found =>
    obtain ⟨stack, target⟩ := found
    have hstack := Graph.findMeeting_stack hfound
    have hmap : stack = ((stack.map (·.node)).zip (target :: stack.map (·.node))).map fun e =>
        frameTo w.referenceEdges e.1 e.2 := by
      rw [List.zip_eq_zipWith, List.map_zipWith]
      exact hstack
    simp only [Option.map_some, Function.comp_apply, Graph.Traversal.meeting, cycleAlong]
    conv_lhs => rw [hmap]
    rw [← List.map_reverse, List.dropWhile_map, List.filterMap_map]
    simp only [Function.comp_def, cycleStep?_frameTo h]
    rfl

/-! ## Graphs of workflows -/

section Rewritten

variable {rewrite : Task → Task} (htasks : w'.tasks = w.tasks.map rewrite)
  (hnames : w'.taskNames = w.taskNames)
include htasks hnames

/-- Rewriting the tasks keeps a graph if the targets of each task stay the same but for
repetitions. -/
theorem sameTargets_predecessorEdges {targets targets' : Task → List String}
    (h : ∀ t, SameFirsts (targets' (rewrite t)) (targets t)) :
    SameTargets (w'.predecessorEdges targets') (w.predecessorEdges targets) := by
  refine ⟨by rw [length_predecessorEdges, length_predecessorEdges, hnames], fun v => ?_⟩
  rw [List.getD_eq_getElem?_getD, List.getD_eq_getElem?_getD, predecessorEdges, predecessorEdges,
    htasks, hnames, List.map_map, List.getElem?_map, List.getElem?_map]
  cases w.tasks[v]? with
  | none => exact .refl _
  | some t => exact (h t).filterMap _

theorem levelsBy_congr {targets targets' : Task → List String}
    (h : ∀ t, SameFirsts (targets' (rewrite t)) (targets t)) :
    w'.levelsBy targets' = w.levelsBy targets := by
  rw [levelsBy, levelsBy, Graph.levels_congr (sameTargets_predecessorEdges htasks hnames h), hnames]

theorem stepBetween?_congr (hname : ∀ t, (rewrite t).name = t.name)
    (h : ∀ t, SameFirsts (rewrite t).references t.references) (node target : Nat) :
    w'.stepBetween? node target = w.stepBetween? node target := by
  rw [stepBetween?, stepBetween?, htasks, hnames, List.getElem?_map]
  cases w.tasks[node]? with
  | none => rfl
  | some t =>
    simp only [Option.map_some]
    rw [h t, hname t]

theorem firstCycle?_congr (hname : ∀ t, (rewrite t).name = t.name)
    (h : ∀ t, SameFirsts (rewrite t).references t.references) (hw : w.Resolved)
    (hw' : w'.Resolved) : w'.firstCycle? = w.firstCycle? := by
  have hedges : SameTargets w'.referenceEdges w.referenceEdges := by
    rw [referenceEdges_eq, referenceEdges_eq]
    exact sameTargets_predecessorEdges htasks hnames fun t => (h t).map _
  have hsteps : w'.stepBetween? = w.stepBetween? := by
    funext node target
    exact stepBetween?_congr htasks hnames hname h node target
  rw [firstCycle?_eq hw, firstCycle?_eq hw', Graph.meeting_congr hedges]
  simp only [cycleAlong, hsteps]

theorem firstDangling?_congr (h : ∀ t, SameFirsts (rewrite t).references t.references) :
    w'.firstDangling? = w.firstDangling?.map fun found => (rewrite found.1, found.2) := by
  rw [firstDangling?, firstDangling?, htasks, hnames, List.findSome?_map, List.map_findSome?]
  refine congrArg (fun f => List.findSome? f w.tasks) (funext fun t => ?_)
  simp only [Function.comp_apply, Option.map_map]
  rw [h t]
  rfl

end Rewritten

/-! ## Optimized workflows -/

variable (w) (s : Settings) (processors : Nat)

theorem levels_optimize : (w.optimize s processors).workflow.levels = w.levels :=
  levelsBy_congr tasks_optimize taskNames_optimize fun _ => Task.sameFirsts_dependencies

theorem branchSources_optimize :
    (w.optimize s processors).workflow.branchSources = w.branchSources := by
  funext name
  simp only [branchSources, tasks_optimize, List.flatMap_map, Task.branchTargets_optimize,
    Task.name_optimize]

theorem executionLevels_optimize :
    (w.optimize s processors).workflow.executionLevels = w.executionLevels := by
  refine levelsBy_congr tasks_optimize taskNames_optimize fun t => ?_
  rw [precedingNames, precedingNames, branchSources_optimize, Task.name_optimize]
  exact Task.sameFirsts_dependencies.append_right _

theorem warnings_optimize : (w.optimize s processors).workflow.warnings = w.warnings := by
  rw [warnings, warnings, tasks_optimize, List.flatMap_map]
  rfl

theorem firstDangling?_optimize :
    (w.optimize s processors).workflow.firstDangling? =
      w.firstDangling?.map fun found => ((found.1.optimize s).1, found.2) :=
  firstDangling?_congr tasks_optimize taskNames_optimize fun _ => Task.sameFirsts_references

theorem firstCycle?_optimize {w : Workflow} (h : w.firstDangling? = none) :
    (w.optimize s processors).workflow.firstCycle? = w.firstCycle? := by
  have h' : (w.optimize s processors).workflow.firstDangling? = none := by
    rw [firstDangling?_optimize, h]
    rfl
  exact firstCycle?_congr tasks_optimize taskNames_optimize (fun _ => Task.name_optimize)
    (fun _ => Task.sameFirsts_references) (firstDangling?_eq_none.mp h)
    (firstDangling?_eq_none.mp h')

theorem settingFaults_optimize :
    ((w.optimize s processors).workflow.tasks.findSome? fun t =>
        (settingFault? t).map fun fault => (t.name, fault)) =
      w.tasks.findSome? fun t => (settingFault? t).map fun fault => (t.name, fault) := by
  rw [tasks_optimize, List.findSome?_map]
  rfl

theorem validate_optimize_eq : (w.optimize s processors).workflow.validate = w.validate := by
  rw [validate, validate, taskNames_optimize, firstDangling?_optimize]
  cases firstRepeated? [] w.taskNames with
  | some n => rfl
  | none =>
    cases h : w.firstDangling? with
    | some found => rfl
    | none =>
      rw [firstCycle?_optimize s processors h, settingFaults_optimize]
      rfl

/-- Validation accepts an optimized workflow exactly if it accepts the workflow. -/
theorem validate_optimize {w : Workflow} {s : Settings} {processors : Nat} :
    (w.optimize s processors).workflow.validate = .ok () ↔ w.validate = .ok () := by
  rw [validate_optimize_eq]

/-- Whatever the settings and the number of processors, an optimized workflow and the one that it
was made of pass validation alike: both are accepted or both have the same error, with the same
cycle in it, and they have the same warnings. Their tasks are on the same levels, by dependencies
and in the plan for execution. -/
theorem optimize_same_meaning :
    (w.optimize s processors).workflow.validate = w.validate ∧
    (w.optimize s processors).workflow.warnings = w.warnings ∧
    (w.optimize s processors).workflow.levels = w.levels ∧
    (w.optimize s processors).workflow.executionLevels = w.executionLevels :=
  ⟨validate_optimize_eq w s processors, warnings_optimize w s processors,
    levels_optimize w s processors, executionLevels_optimize w s processors⟩

end Workflow

end WorkflowEngine
