import Mathlib.Data.List.Forall2
import WorkflowEngine.Workflow.Optimization

/-!
# What optimization changes

Optimization sets the limits that are not set and names every dependency once; `Completes` says that
all else stays. It tells what it did (`explanation_eq_iff`): there is something to tell exactly if
the workflow has changed (`changes_optimize_eq_nil`). There is nothing left to fill in afterwards:
optimizing again changes nothing, whatever the settings (`optimize_optimize`).
-/

namespace WorkflowEngine

/-! ## Names without repetitions -/

theorem mem_distinct {names seen : List String} {n : String} :
    n ∈ distinct seen names ↔ n ∈ names ∧ n ∉ seen := by
  induction names generalizing seen with
  | nil => simp [distinct]
  | cons m rest ih =>
    rw [distinct]
    by_cases hm : m ∈ seen
    · simp only [List.contains_iff_mem, hm, if_true, ih, List.mem_cons]
      constructor
      · exact fun ⟨hn, hseen⟩ => ⟨.inr hn, hseen⟩
      · rintro ⟨rfl | hn, hseen⟩
        · exact absurd hm hseen
        · exact ⟨hn, hseen⟩
    · simp only [List.contains_iff_mem, hm, if_false, ih, List.mem_cons, not_or]
      by_cases hn : n = m
      · simp [hn, hm]
      · simp [hn]

theorem nodup_distinct (seen names : List String) : (distinct seen names).Nodup := by
  induction names generalizing seen with
  | nil => exact List.nodup_nil
  | cons m rest ih =>
    rw [distinct]
    split
    · exact ih seen
    · refine List.nodup_cons.mpr ⟨fun hm => ?_, ih (m :: seen)⟩
      exact (mem_distinct.mp hm).2 (List.mem_cons_self ..)

/-- Names that differ stay as they are. -/
theorem distinct_eq_self {names seen : List String} (hnodup : names.Nodup)
    (hseen : ∀ n ∈ names, n ∉ seen) : distinct seen names = names := by
  induction names generalizing seen with
  | nil => rfl
  | cons m rest ih =>
    obtain ⟨hm, hrest⟩ := List.nodup_cons.mp hnodup
    have hnot : ¬ seen.contains m := by simpa using hseen m (List.mem_cons_self ..)
    rw [distinct, if_neg hnot, ih hrest fun n hn => ?_]
    rw [List.mem_cons, not_or]
    exact ⟨fun heq => hm (heq ▸ hn), hseen n (List.mem_cons_of_mem _ hn)⟩

@[simp] theorem distinct_distinct (names : List String) :
    distinct [] (distinct [] names) = distinct [] names :=
  distinct_eq_self (nodup_distinct [] names) fun _ _ => List.not_mem_nil

theorem distinct_sublist (seen names : List String) : (distinct seen names).Sublist names := by
  induction names generalizing seen with
  | nil => exact .slnil
  | cons m rest ih =>
    rw [distinct]
    split
    · exact (ih seen).cons m
    · exact (ih (m :: seen)).cons_cons m

theorem length_distinct_eq {names : List String} :
    (distinct [] names).length = names.length ↔ distinct [] names = names :=
  ⟨(distinct_sublist [] names).eq_of_length, congrArg List.length⟩

/-- The names that are kept are those of the list, each once and in the order in which they come
first. -/
structure FirstSeen (names kept : List String) : Prop where
  mem_iff : ∀ n, n ∈ kept ↔ n ∈ names
  ordered : kept.Pairwise fun m n => names.idxOf m < names.idxOf n

theorem pairwise_distinct (seen names : List String) :
    (distinct seen names).Pairwise fun m n => names.idxOf m < names.idxOf n := by
  induction names generalizing seen with
  | nil => exact .nil
  | cons k rest ih =>
    -- Behind the first name all places are one further on, but for that name itself.
    have hlater : ∀ seen : List String, k ∈ seen → (distinct seen rest).Pairwise fun m n =>
        (k :: rest).idxOf m < (k :: rest).idxOf n := by
      intro seen hk
      refine (ih seen).imp_of_mem fun {m n} hm hn hlt => ?_
      have hne : ∀ n ∈ distinct seen rest, n ≠ k := by
        rintro n hn rfl
        exact (mem_distinct.mp hn).2 hk
      rw [List.idxOf_cons_ne _ (hne m hm).symm, List.idxOf_cons_ne _ (hne n hn).symm]
      exact Nat.succ_lt_succ hlt
    rw [distinct]
    split
    · rename_i hk
      exact hlater seen (List.contains_iff_mem.mp hk)
    · refine List.pairwise_cons.mpr ⟨fun n hn => ?_, hlater (k :: seen) List.mem_cons_self⟩
      have hne : n ≠ k := by
        rintro rfl
        exact (mem_distinct.mp hn).2 List.mem_cons_self
      rw [List.idxOf_cons_self, List.idxOf_cons_ne _ hne.symm]
      exact Nat.succ_pos _

theorem firstSeen_distinct (names : List String) : FirstSeen names (distinct [] names) :=
  ⟨fun _ => by simp [mem_distinct], pairwise_distinct [] names⟩

/-! ## What is told of the changes -/

theorem head?_append {s t : String} {c : Char} (h : s.toList.head? = some c) :
    (s ++ t).toList.head? = some c := by
  rw [String.toList_append, List.head?_append, h]
  rfl

theorem head?_intercalate {sep t : String} {rest : List String} {c : Char}
    (h : t.toList.head? = some c) : (sep.intercalate (t :: rest)).toList.head? = some c := by
  cases rest with
  | nil => rwa [String.intercalate_singleton]
  | cons u rest =>
    rw [String.intercalate_cons_cons]
    exact head?_append (head?_append h)

/-- No change is told in words that begin as those for none do. -/
theorem head?_message (c : Change) :
    ∃ first, c.message.toList.head? = some first ∧ first ≠ 'N' := by
  cases c with
  | parallelism degree width =>
    exact ⟨'S', head?_append (head?_append (head?_append (head?_append (by decide)))), by decide⟩
  | workflowTimeout ms => exact ⟨'A', head?_append (head?_append (by decide)), by decide⟩
  | taskTimeout ms task =>
    exact ⟨'A', head?_append (head?_append (head?_append (head?_append (by decide)))), by decide⟩
  | dependencies task => exact ⟨'R', head?_append (head?_append (by decide)), by decide⟩

namespace Optimized

variable {o : Optimized}

theorem changed_eq_false : o.changed = false ↔ o.changes = [] := by
  rw [changed, Bool.not_eq_false', List.isEmpty_iff]

theorem explanation_eq_iff :
    o.explanation = "No changes required; workflow already optimized." ↔ o.changes = [] := by
  rw [explanation]
  cases o.changes with
  | nil => simp
  | cons c rest =>
    obtain ⟨first, hfirst, hne⟩ := head?_message c
    have hhead : ("\n".intercalate (c.message :: rest.map Change.message)).toList.head? =
        some first := head?_intercalate hfirst
    simp only [List.isEmpty_cons, Bool.false_eq_true, if_false, List.map_cons, reduceCtorEq,
      iff_false]
    intro heq
    rw [heq] at hhead
    exact hne (Option.some.inj hhead).symm

end Optimized

/-! ## Tasks -/

namespace Task

variable {t : Task} {s s' : Settings}

@[simp] theorem name_optimize : (t.optimize s).1.name = t.name := rfl

@[simp] theorem branchTargets_optimize : (t.optimize s).1.branchTargets = t.branchTargets := rfl

/-- A task whose time limit is set and whose dependencies differ stays as it is. -/
theorem optimize_optimize : (t.optimize s).1.optimize s' = ((t.optimize s).1, []) := by
  simp [optimize]

/-- The second task is the first one with its time limit set and each dependency named once. -/
structure Completes (t t' : Task) : Prop where
  limited : t'.timeout.isSome
  timeout : ∀ ms, t.timeout = some ms → t'.timeout = some ms
  dependencies : FirstSeen t.dependencies t'.dependencies
  rest : t' = { t with timeout := t'.timeout, dependencies := t'.dependencies }

theorem completes_optimize (t : Task) (s : Settings) : t.Completes (t.optimize s).1 := by
  refine ⟨rfl, fun ms h => ?_, firstSeen_distinct t.dependencies, rfl⟩
  rw [optimize, h, Option.getD_some]

/-- A task has changed exactly if a change is told of it. -/
theorem changes_optimize_eq_nil : (t.optimize s).2 = [] ↔ (t.optimize s).1 = t := by
  obtain ⟨name, description, dependencies, branches, timeout, parameters, retry⟩ := t
  cases timeout <;> simp [optimize, length_distinct_eq]

end Task

namespace Workflow

variable {w : Workflow} {s s' : Settings} {processors processors' : Nat}

theorem tasks_optimize :
    (w.optimize s processors).workflow.tasks = w.tasks.map fun t => (t.optimize s).1 := by
  simp [optimize]

theorem configuration_optimize : (w.optimize s processors).workflow.configuration =
    ⟨some (w.chosenParallelism s processors).1, some (w.chosenTimeout s).1⟩ := rfl

theorem taskNames_optimize : (w.optimize s processors).workflow.taskNames = w.taskNames := by
  simp [taskNames, tasks_optimize]

/-- Optimizing again changes nothing. -/
theorem optimize_optimize :
    (w.optimize s processors).workflow.optimize s' processors' =
      { workflow := (w.optimize s processors).workflow, changes := [] } := by
  simp [optimize, chosenParallelism, chosenTimeout, Task.optimize_optimize, Function.comp_def]

/-- The second workflow is the first one with its limits set and its tasks completed. -/
structure Completes (w w' : Workflow) : Prop where
  limited : w'.configuration.parallelism.isSome ∧ w'.configuration.timeout.isSome
  parallelism : ∀ n, w.configuration.parallelism = some n → w'.configuration.parallelism = some n
  timeout : ∀ ms, w.configuration.timeout = some ms → w'.configuration.timeout = some ms
  tasks : List.Forall₂ Task.Completes w.tasks w'.tasks
  rest : w' = { w with configuration := w'.configuration, tasks := w'.tasks }

theorem completes_optimize (w : Workflow) (s : Settings) (processors : Nat) :
    w.Completes (w.optimize s processors).workflow := by
  refine ⟨⟨rfl, rfl⟩, fun n h => ?_, fun ms h => ?_, ?_, rfl⟩
  · simp [optimize, chosenParallelism, h]
  · simp [optimize, chosenTimeout, h]
  · rw [tasks_optimize, List.forall₂_map_right_iff]
    exact List.forall₂_same.mpr fun t _ => t.completes_optimize s

theorem changes_chosenParallelism_eq_nil :
    (w.chosenParallelism s processors).2 = [] ↔
      w.configuration.parallelism = some (w.chosenParallelism s processors).1 := by
  rw [chosenParallelism]
  cases w.configuration.parallelism <;> simp

theorem changes_chosenTimeout_eq_nil :
    (w.chosenTimeout s).2 = [] ↔ w.configuration.timeout = some (w.chosenTimeout s).1 := by
  rw [chosenTimeout]
  cases w.configuration.timeout <;> simp

theorem tasks_optimize_eq_iff :
    (w.optimize s processors).workflow.tasks = w.tasks ↔ ∀ t ∈ w.tasks, (t.optimize s).2 = [] := by
  have hsame := List.map_inj_left (f := fun t : Task => (t.optimize s).1) (g := id) (l := w.tasks)
  rw [List.map_id] at hsame
  rw [tasks_optimize, hsame]
  exact forall₂_congr fun t _ => Task.changes_optimize_eq_nil.symm

/-- A workflow has changed exactly if a change is told of it. -/
theorem changes_optimize_eq_nil :
    (w.optimize s processors).changes = [] ↔ (w.optimize s processors).workflow = w := by
  have hchanges : (w.optimize s processors).changes = [] ↔
      w.configuration.parallelism = some (w.chosenParallelism s processors).1 ∧
      w.configuration.timeout = some (w.chosenTimeout s).1 ∧
      (w.optimize s processors).workflow.tasks = w.tasks := by
    rw [← changes_chosenParallelism_eq_nil, ← changes_chosenTimeout_eq_nil, tasks_optimize_eq_iff]
    simp [optimize, List.flatten_eq_nil_iff]
  rw [hchanges]
  constructor
  · rintro ⟨hparallelism, htimeout, htasks⟩
    have hconfiguration : (w.optimize s processors).workflow.configuration = w.configuration := by
      rw [configuration_optimize, ← hparallelism, ← htimeout]
    rw [(w.completes_optimize s processors).rest, hconfiguration, htasks]
  · intro hsame
    have hconfiguration : (w.optimize s processors).workflow.configuration = w.configuration :=
      congrArg Workflow.configuration hsame
    exact ⟨(congrArg Configuration.parallelism hconfiguration).symm,
      (congrArg Configuration.timeout hconfiguration).symm, congrArg Workflow.tasks hsame⟩

/-- Optimization sets what is not set and names each dependency once, and nothing else. It reports a
change exactly if there is one, and after it there is none to be made, with whatever settings and
processors. -/
theorem optimize_completes (w : Workflow) (s : Settings) (processors : Nat) :
    w.Completes (w.optimize s processors).workflow ∧
    ((w.optimize s processors).changed = false ↔ (w.optimize s processors).workflow = w) ∧
    ((w.optimize s processors).changed = false ↔
      (w.optimize s processors).explanation =
        "No changes required; workflow already optimized.") ∧
    ∀ s' processors',
      let again := (w.optimize s processors).workflow.optimize s' processors'
      again.workflow = (w.optimize s processors).workflow ∧ again.changed = false ∧
        again.explanation = "No changes required; workflow already optimized." := by
  refine ⟨w.completes_optimize s processors, ?_, ?_, fun s' processors' => ?_⟩
  · rw [Optimized.changed_eq_false, changes_optimize_eq_nil]
  · rw [Optimized.changed_eq_false, Optimized.explanation_eq_iff]
  · rw [optimize_optimize]
    exact ⟨rfl, rfl, rfl⟩

end Workflow

end WorkflowEngine
