import WorkflowEngine.Execution.Run
import WorkflowEngine.Proofs.Expression.Provider
import WorkflowEngine.Proofs.Fields

/-!
# What a workflow comes to

`course` runs a workflow without turns, permits and time: level by level, and every task of a level
with what could be seen when the level was opened. What a handler answers is given by a function of
the task and of what the task can see (`Handler.Answers`). Secrets may be loaded sooner or later;
with a provider that always gives the same answer that does not show (`course_alike`).
-/

namespace WorkflowEngine

open Expression (Context Scope SecretCache)
open Json (Value)

/-! ## Answers of a handler -/

/-- Work that leaves the token alone and ends like this, sooner or later; none if it never ends. -/
inductive Work.Gives : Work → Option Outcome → Prop where
  | done (o : Outcome) : Gives (.done o) (some o)
  | sleep (milliseconds : Nat) {next : Work} {o : Option Outcome} : Gives next o →
      Gives (.sleep milliseconds next) o
  | hang : Gives .hang none

inductive Progress.Gives : Progress → Option Outcome → Prop where
  | ended (o : Outcome) : Gives (.ended o) (some o)
  | sleeping (wake : Nat) {next : Work} {o : Option Outcome} : next.Gives o →
      Gives (.sleeping wake next) o
  | hung : Gives .hung none

theorem Work.Gives.settle {work : Work} {o : Option Outcome} (h : work.Gives o) (now : Nat)
    (canceled : Bool) :
    (work.settle now canceled).1.Gives o ∧ (work.settle now canceled).2 = canceled := by
  induction h with
  | done o => exact ⟨.ended o, rfl⟩
  | sleep ms h ih =>
    cases ms with
    | zero => exact ih
    | succ ms => exact ⟨.sleeping _ h, rfl⟩
  | hang => exact ⟨.hung, rfl⟩

theorem Progress.Gives.resume {p : Progress} {o : Option Outcome} (h : p.Gives o) (now : Nat)
    (canceled : Bool) :
    (p.resume now canceled).1.Gives o ∧ (p.resume now canceled).2 = canceled := by
  cases h with
  | ended o => exact ⟨.ended o, rfl⟩
  | sleeping wake h =>
    rw [Progress.resume]
    split
    · exact h.settle now canceled
    · exact ⟨.sleeping wake h, rfl⟩
  | hung => exact ⟨.hung, rfl⟩

/-- What can be seen of a context, whether its secrets were loaded or not. -/
def Expression.Context.snapshot (c : Context) : Context :=
  { c with secrets := { provider := c.secrets.provider } }

/-- How the work for a task ends, given the task and what it can see. -/
abbrev Answers := Task → Context → Option Outcome

def Handler.Answers (h : Handler) (answer : Answers) : Prop :=
  ∀ task context n, (h task context n).Gives (answer task context.snapshot)

/-! ## The course of a workflow -/

def TaskEnd.ofOutcome : Outcome → TaskEnd
  | .value v => .done v
  | .failure reasons => .failed (.handler reasons)
  | .panic _ => .panicked

variable (answer : Answers)

/-- How a task ends that begins with this scope. -/
def endOf? (s : Scope) (t : Task) : Option TaskEnd :=
  match (s.replaceTask t).1 with
  | .error fault => some (.failed (.placeholders t.name fault))
  | .ok resolved => (answer resolved s.context.snapshot).map .ofOutcome

/-- What the tasks of a level return, if all of them are done. -/
def resultsOf? (s : Scope) : List Task → Option (Fields Value)
  | [] => some []
  | t :: rest =>
    match endOf? answer s t, resultsOf? s rest with
    | some (.done v), some results => some (results.insert t.name v)
    | _, _ => none

/-- Runs the tasks of a level, and goes on when all are done and their branches have decided. -/
def afterLevel (next : Scope → Ledger → Option (Fields Value × Ledger)) (tasks : List Task)
    (s : Scope) (l : Ledger) : Option (Fields Value × Ledger) :=
  match resultsOf? answer s tasks with
  | none => none
  | some results =>
    let (context, l) := Ledger.enter tasks results s.context l
    match Ledger.decideAll tasks { s with context } l with
    | (.error _, _) => none
    | (.ok l, s) => next s l

/-- The outputs and the ledger that levels lead to; none if they do not succeed. -/
def course (w : Workflow) : List (List String) → Scope → Ledger → Option (Fields Value × Ledger)
  | [], s, l => some (s.context.outputs, l)
  | names :: ahead, s, l =>
    let (tasks, l) := Ledger.openLevel w names l
    afterLevel answer (fun s l => course w ahead s l) tasks s l

variable {answer} {s : Scope} {l : Ledger} {tasks : List Task} {t : Task}
  {next : Scope → Ledger → Option (Fields Value × Ledger)}

theorem resultsOf?_eq_none (ht : t ∈ tasks) (hnot : ∀ v, endOf? answer s t ≠ some (.done v)) :
    resultsOf? answer s tasks = none := by
  induction tasks with
  | nil => simp at ht
  | cons u rest ih =>
    rw [resultsOf?]
    rcases List.mem_cons.mp ht with rfl | hrest
    · split
      · rename_i v results hdone _
        exact absurd hdone (hnot v)
      · rfl
    · rw [ih hrest]
      split
      · rename_i hnone
        cases hnone
      · rfl

/-- When all tasks are done there are results, and a result is that of a task of the name. -/
theorem exists_resultsOf? (h : ∀ t ∈ tasks, ∃ v, endOf? answer s t = some (.done v)) :
    ∃ results, resultsOf? answer s tasks = some results ∧
      (∀ t ∈ tasks, results.has t.name) ∧
      ∀ name v, results.find? name = some v →
        ∃ t ∈ tasks, t.name = name ∧ endOf? answer s t = some (.done v) := by
  induction tasks with
  | nil => exact ⟨[], rfl, by simp, by simp [Fields.find?]⟩
  | cons u rest ih =>
    obtain ⟨v, hv⟩ := h u List.mem_cons_self
    obtain ⟨results, hresults, hhas, hfind⟩ :=
      ih fun t ht => h t (List.mem_cons_of_mem u ht)
    refine ⟨results.insert u.name v, by rw [resultsOf?, hv, hresults], ?_, ?_⟩
    · intro t ht
      rcases List.mem_cons.mp ht with rfl | ht
      · exact Fields.has_insert_self ..
      · exact Fields.has_insert_of_has v (hhas t ht)
    · intro name v' hname
      rw [Fields.find?_insert] at hname
      split at hname
      · rename_i hsame
        cases hname
        exact ⟨u, List.mem_cons_self, hsame, hv⟩
      · obtain ⟨t, ht, htask⟩ := hfind name v' hname
        exact ⟨t, List.mem_cons_of_mem u ht, htask⟩

theorem afterLevel_eq_none (ht : t ∈ tasks) (hnot : ∀ v, endOf? answer s t ≠ some (.done v)) :
    afterLevel answer next tasks s l = none := by
  rw [afterLevel, resultsOf?_eq_none ht hnot]

theorem afterLevel_nil : afterLevel answer next [] s l = next s l := rfl

/-! ## Results -/

/-- Only the results of the tasks themselves are entered. -/
theorem enter_congr {results results' : Fields Value} {c : Context}
    (h : ∀ t ∈ tasks, results.find? t.name = results'.find? t.name) :
    Ledger.enter tasks results c l = Ledger.enter tasks results' c l := by
  induction tasks generalizing results results' c l with
  | nil => rfl
  | cons u rest ih =>
    rw [Ledger.enter, Ledger.enter, ← h u List.mem_cons_self]
    split
    · exact ih fun t ht => h t (List.mem_cons_of_mem u ht)
    · apply ih
      intro t ht
      rw [Fields.find?_erase, Fields.find?_erase, h t (List.mem_cons_of_mem u ht)]

def Expression.Context.withSecrets (context : Context) (c : SecretCache) : Context :=
  { context with secrets := c }

theorem enter_withSecrets (tasks : List Task) (results : Fields Value) (context : Context)
    (l : Ledger) (c : SecretCache) :
    Ledger.enter tasks results (context.withSecrets c) l =
      ((Ledger.enter tasks results context l).1.withSecrets c,
        (Ledger.enter tasks results context l).2) := by
  induction tasks generalizing results context l with
  | nil => rfl
  | cons t rest ih =>
    rw [Ledger.enter, Ledger.enter]
    split
    · exact ih ..
    · rename_i v _
      exact ih _ (context.setOutput t.name v) _

/-! ## Secrets -/

section Alike

variable {c c' : SecretCache}

theorem endOf?_alike (s : Scope) (t : Task) (h : c.Alike c') :
    endOf? answer (s.withSecrets c) t = endOf? answer (s.withSecrets c') t := by
  have hsnapshot : (s.withSecrets c).context.snapshot = (s.withSecrets c').context.snapshot := by
    simp [Expression.Scope.withSecrets, Expression.Context.snapshot, h.provider]
  rw [endOf?, endOf?, (Expression.Scope.asks_replaceTask t).fst_alike s h, hsnapshot]

theorem resultsOf?_alike (s : Scope) (tasks : List Task) (h : c.Alike c') :
    resultsOf? answer (s.withSecrets c) tasks = resultsOf? answer (s.withSecrets c') tasks := by
  induction tasks with
  | nil => rfl
  | cons t rest ih => rw [resultsOf?, resultsOf?, endOf?_alike s t h, ih]

theorem decide_alike (branches : List Branch) (s : Scope) (l : Ledger) (h : c.Alike c') :
    (Ledger.decide branches (s.withSecrets c) l).1 =
        (Ledger.decide branches (s.withSecrets c') l).1 ∧
      ∃ c₁ c₁', (Ledger.decide branches (s.withSecrets c) l).2 = s.withSecrets c₁ ∧
        (Ledger.decide branches (s.withSecrets c') l).2 = s.withSecrets c₁' ∧ c₁.Alike c₁' := by
  induction branches generalizing c c' l with
  | nil => exact ⟨rfl, c, c', rfl, rfl, h⟩
  | cons b rest ih =>
    have hasks := Expression.Scope.asks_condition b.expression
    have hsame := hasks.fst_alike s h
    obtain ⟨c₁, hleft, hc₁⟩ := hasks.alike s h.left
    obtain ⟨c₁', hright, hc₁'⟩ := hasks.alike s h.right
    have halike : c₁.Alike c₁' := hc₁.symm.trans (h.trans hc₁')
    rw [Ledger.decide, Ledger.decide]
    generalize (s.withSecrets c).condition b.expression = left at *
    generalize (s.withSecrets c').condition b.expression = right at *
    obtain ⟨v, s₁⟩ := left
    obtain ⟨v', s₁'⟩ := right
    dsimp only at hsame hleft hright
    subst hsame hleft hright
    cases v with
    | error fault => exact ⟨rfl, c₁, c₁', rfl, rfl, halike⟩
    | ok taken => cases taken <;> exact ih _ halike

theorem decideAll_alike (tasks : List Task) (s : Scope) (l : Ledger) (h : c.Alike c') :
    (Ledger.decideAll tasks (s.withSecrets c) l).1 =
        (Ledger.decideAll tasks (s.withSecrets c') l).1 ∧
      ∃ c₁ c₁', (Ledger.decideAll tasks (s.withSecrets c) l).2 = s.withSecrets c₁ ∧
        (Ledger.decideAll tasks (s.withSecrets c') l).2 = s.withSecrets c₁' ∧ c₁.Alike c₁' := by
  induction tasks generalizing c c' l with
  | nil => exact ⟨rfl, c, c', rfl, rfl, h⟩
  | cons t rest ih =>
    obtain ⟨hsame, c₁, c₁', hleft, hright, halike⟩ := decide_alike t.branches s l h
    rw [Ledger.decideAll, Ledger.decideAll]
    generalize Ledger.decide t.branches (s.withSecrets c) l = left at *
    generalize Ledger.decide t.branches (s.withSecrets c') l = right at *
    obtain ⟨v, s₁⟩ := left
    obtain ⟨v', s₁'⟩ := right
    dsimp only at hsame hleft hright
    subst hsame hleft hright
    cases v with
    | error fault => exact ⟨rfl, c₁, c₁', rfl, rfl, halike⟩
    | ok l => exact ih l halike

theorem afterLevel_alike (s : Scope) (tasks : List Task) (l : Ledger) (h : c.Alike c')
    (hnext : ∀ (s : Scope) (l : Ledger) {c c' : SecretCache}, c.Alike c' →
      next (s.withSecrets c) l = next (s.withSecrets c') l) :
    afterLevel answer next tasks (s.withSecrets c) l =
      afterLevel answer next tasks (s.withSecrets c') l := by
  rw [afterLevel, afterLevel, resultsOf?_alike s tasks h]
  split
  · rfl
  · rename_i results _
    have hcontext : ∀ c, (s.withSecrets c).context = s.context.withSecrets c := fun _ => rfl
    rw [hcontext, hcontext, enter_withSecrets, enter_withSecrets]
    generalize Ledger.enter tasks results s.context l = entered
    obtain ⟨context, l⟩ := entered
    obtain ⟨hsame, c₁, c₁', hleft, hright, halike⟩ :=
      decideAll_alike tasks { s with context } l h
    dsimp only at hsame hleft hright ⊢
    have hscope : ∀ c, ({ s.withSecrets c with context := context.withSecrets c } : Scope) =
        ({ s with context } : Scope).withSecrets c := fun _ => rfl
    rw [hscope, hscope]
    generalize Ledger.decideAll tasks (({ s with context } : Scope).withSecrets c) l = left at *
    generalize Ledger.decideAll tasks (({ s with context } : Scope).withSecrets c') l = right at *
    obtain ⟨v, s₁⟩ := left
    obtain ⟨v', s₁'⟩ := right
    dsimp only at hsame hleft hright
    subst hsame hleft hright
    cases v with
    | error fault => rfl
    | ok l => exact hnext _ l halike

/-- Whether secrets were loaded makes no difference. -/
theorem course_alike (w : Workflow) (ahead : List (List String)) (s : Scope) (l : Ledger)
    {c c' : SecretCache} (h : c.Alike c') :
    course answer w ahead (s.withSecrets c) l = course answer w ahead (s.withSecrets c') l := by
  induction ahead generalizing s l c c' with
  | nil => rfl
  | cons names ahead ih =>
    rw [course, course]
    exact afterLevel_alike s _ _ h ih

end Alike

end WorkflowEngine
