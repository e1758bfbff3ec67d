import WorkflowEngine.Execution.Ledger
import WorkflowEngine.Proofs.Fields
import WorkflowEngine.Proofs.Workflow.Names

/-!
# What becomes of a ledger

Opening a level adds to the skipped tasks, entering its results adds to the completed ones, and the
branches add to the activated ones; nothing is ever taken back.
-/

namespace WorkflowEngine

open Expression (Context Fault Scope)
open Json (Value)

namespace Ledger

variable {w : Workflow} {l : Ledger}

/-- What opening a level does: every task of it is skipped or can run, and none can run that has a
dependency that was skipped before. -/
structure Opening (w : Workflow) (names : List String) (l : Ledger) (runnable : List Task)
    (l' : Ledger) : Prop where
  completed : l'.completed = l.completed
  activated : l'.activated = l.activated
  skipped : ∀ name ∈ l.skipped, name ∈ l'.skipped
  skipped_cases : ∀ name ∈ l'.skipped, name ∈ l.skipped ∨ name ∈ names
  task : ∀ t ∈ runnable, w.task? t.name = some t ∧ t.name ∈ names
  allowed : ∀ t ∈ runnable, ∀ name ∈ t.dependencies, name ∉ l.skipped
  decided : ∀ name ∈ names, ∀ t, w.task? name = some t → name ∈ l'.skipped ∨ t ∈ runnable

theorem not_mem_skipped_of_excludes {t : Task} (h : ¬ l.excludes w t) :
    ∀ name ∈ t.dependencies, name ∉ l.skipped := by
  intro name hname hskipped
  refine h ?_
  simp only [excludes, Bool.or_eq_true, List.any_eq_true]
  exact .inl ⟨name, hname, by simpa using hskipped⟩

theorem opening (w : Workflow) (names : List String) (l : Ledger) :
    Opening w names l (openLevel w names l).1 (openLevel w names l).2 := by
  induction names generalizing l with
  | nil => exact ⟨rfl, rfl, fun _ h => h, fun _ h => .inl h, by simp [openLevel],
      by simp [openLevel], by simp⟩
  | cons name rest ih =>
    rw [openLevel]
    split
    · rename_i hnone
      have h := ih l
      refine ⟨h.completed, h.activated, h.skipped, fun n hn => ?_, fun t ht => ?_, h.allowed,
        fun n hn t ht => ?_⟩
      · exact (h.skipped_cases n hn).imp_right (List.mem_cons_of_mem name)
      · exact ⟨(h.task t ht).1, List.mem_cons_of_mem name (h.task t ht).2⟩
      · rcases List.mem_cons.mp hn with rfl | hn
        · rw [hnone] at ht
          cases ht
        · exact h.decided n hn t ht
    · rename_i t hsome
      split
      · have h := ih { l with skipped := l.skipped ++ [name] }
        refine ⟨h.completed, h.activated, fun n hn => h.skipped n (List.mem_append_left _ hn),
          fun n hn => ?_, fun u hu => ?_, fun u hu n hn hskipped => ?_, fun n hn u hu => ?_⟩
        · rcases h.skipped_cases n hn with hn | hn
          · rcases List.mem_append.mp hn with hn | hn
            · exact .inl hn
            · exact .inr (by simp [List.mem_singleton.mp hn])
          · exact .inr (List.mem_cons_of_mem name hn)
        · exact ⟨(h.task u hu).1, List.mem_cons_of_mem name (h.task u hu).2⟩
        · exact h.allowed u hu n hn (List.mem_append_left _ hskipped)
        · rcases List.mem_cons.mp hn with rfl | hn
          · exact .inl (h.skipped _ (by simp))
          · exact h.decided n hn u hu
      · rename_i hallowed
        have h := ih l
        refine ⟨h.completed, h.activated, h.skipped, fun n hn => ?_, fun u hu => ?_, fun u hu => ?_,
          fun n hn u hu => ?_⟩
        · exact (h.skipped_cases n hn).imp_right (List.mem_cons_of_mem name)
        · rcases List.mem_cons.mp hu with rfl | hu
          · have hname := (Workflow.task?_eq_some hsome).2
            exact ⟨by rw [hname, hsome], by simp [hname]⟩
          · exact ⟨(h.task u hu).1, List.mem_cons_of_mem name (h.task u hu).2⟩
        · rcases List.mem_cons.mp hu with rfl | hu
          · exact not_mem_skipped_of_excludes hallowed
          · exact h.allowed u hu
        · rcases List.mem_cons.mp hn with rfl | hn
          · rw [hsome] at hu
            cases hu
            exact .inr (List.mem_cons_self ..)
          · exact (h.decided n hn u hu).imp_right (List.mem_cons_of_mem _)

/-! ## Results -/

@[simp] theorem skipped_enter (tasks : List Task) (results : Fields Value) (c : Context)
    (l : Ledger) : (enter tasks results c l).2.skipped = l.skipped := by
  induction tasks generalizing results c l with
  | nil => rfl
  | cons t rest ih =>
    rw [enter]
    split
    · exact ih ..
    · exact ih ..

/-- Every task that has a result is completed. -/
theorem mem_completed_enter (tasks : List Task) (results : Fields Value) (c : Context) (l : Ledger)
    {name : String} (h : name ∈ l.completed ∨ results.has name ∧ ∃ t ∈ tasks, t.name = name) :
    name ∈ (enter tasks results c l).2.completed := by
  induction tasks generalizing results c l with
  | nil => simpa [enter] using h
  | cons t rest ih =>
    rw [enter]
    split
    · rename_i hnone
      refine ih _ _ _ (h.imp_right fun ⟨hhas, u, hu, hname⟩ => ⟨hhas, u, ?_, hname⟩)
      rcases List.mem_cons.mp hu with rfl | hu
      · simp [Fields.has, ← hname, hnone] at hhas
      · exact hu
    · apply ih
      rcases h with h | ⟨hhas, u, hu, hname⟩
      · exact .inl (List.mem_append_left _ h)
      · by_cases ht : t.name = name
        · exact .inl (by simp [ht])
        · refine .inr ⟨?_, u, ?_, hname⟩
          · rwa [Fields.has, Fields.find?_erase, if_neg ht]
          · rcases List.mem_cons.mp hu with rfl | hu
            · exact absurd hname ht
            · exact hu

/-- Nothing else is completed. -/
theorem mem_of_mem_completed_enter (tasks : List Task) (results : Fields Value) (c : Context)
    (l : Ledger) {name : String} (h : name ∈ (enter tasks results c l).2.completed) :
    name ∈ l.completed ∨ ∃ t ∈ tasks, t.name = name := by
  induction tasks generalizing results c l with
  | nil => exact .inl (by simpa [enter] using h)
  | cons t rest ih =>
    rw [enter] at h
    split at h
    · exact (ih _ _ _ h).imp_right fun ⟨u, hu, hname⟩ => ⟨u, List.mem_cons_of_mem _ hu, hname⟩
    · rcases ih _ _ _ h with h | ⟨u, hu, hname⟩
      · rcases List.mem_append.mp h with h | h
        · exact .inl h
        · exact .inr ⟨t, List.mem_cons_self .., (List.mem_singleton.mp h).symm⟩
      · exact .inr ⟨u, List.mem_cons_of_mem _ hu, hname⟩

/-! ## Branches -/

/-- Branches change nothing but what is activated. -/
theorem decide_ok {branches : List Branch} {s s' : Scope} {l l' : Ledger}
    (h : decide branches s l = (.ok l', s')) :
    l'.skipped = l.skipped ∧ l'.completed = l.completed := by
  induction branches generalizing s l with
  | nil =>
    cases h
    exact ⟨rfl, rfl⟩
  | cons b rest ih =>
    rw [decide] at h
    split at h
    · cases h
    · obtain ⟨hskipped, hcompleted⟩ := ih h
      exact ⟨hskipped, hcompleted⟩
    · exact ih h

theorem decideAll_ok {tasks : List Task} {s s' : Scope} {l l' : Ledger}
    (h : decideAll tasks s l = (.ok l', s')) :
    l'.skipped = l.skipped ∧ l'.completed = l.completed := by
  induction tasks generalizing s l with
  | nil =>
    cases h
    exact ⟨rfl, rfl⟩
  | cons t rest ih =>
    rw [decideAll] at h
    split at h
    · cases h
    · rename_i hdecide
      obtain ⟨hskipped, hcompleted⟩ := decide_ok hdecide
      obtain ⟨hskipped', hcompleted'⟩ := ih h
      exact ⟨hskipped'.trans hskipped, hcompleted'.trans hcompleted⟩

end Ledger

end WorkflowEngine
