import WorkflowEngine.Proofs.Execution.Ledger
import WorkflowEngine.Proofs.Expression.Secrets
import WorkflowEngine.Proofs.Workflow.Precedence

/-!
# Which tasks run

What a ledger holds once the first levels are done, said without the order in which anything
happened: a task is skipped if a dependency was skipped, or if tasks branch to it and the condition
of none of these branches held, seen from the level of the task that has the branch.
`Gated` is that for a ledger whose last level was opened; it is kept by opening the next level
(`Gated.opened`) and by closing one (`Gated.closed`). Both rest on the order of the plan: what
decides about a task lies on the levels before its own, so later levels do not change it.
-/

namespace WorkflowEngine

open Expression (Context Fault Scope SecretCache)
open Json (Value)

/-! ## The plan -/

namespace Workflow

variable {w : Workflow} {name : String} {names : List String} {i j k : Nat}

/-- A workflow whose levels are in order. -/
structure WellPlanned (w : Workflow) : Prop where
  unique : w.UniqueNames
  resolved : w.Resolved
  lt_of_precedes : ∀ a b i j, w.Precedes a b → w.PlacedAt a i → w.PlacedAt b j → i < j

theorem wellPlanned_of_acyclic (hunique : w.UniqueNames) (hresolved : w.Resolved)
    (hacyclic : ∀ a, ¬ Relation.TransGen w.Precedes a a) : w.WellPlanned :=
  ⟨hunique, hresolved, (all_in_order_iff hunique hresolved).mpr hacyclic⟩

theorem WellPlanned.placedAt_inj (hw : w.WellPlanned) (hi : w.PlacedAt name i)
    (hj : w.PlacedAt name j) : i = j :=
  (exists_unique_placedAt hw.unique (mem_taskNames_of_placedAt hi)).unique hi hj

theorem WellPlanned.exists_placedAt (hw : w.WellPlanned) (h : name ∈ w.taskNames) :
    ∃ i, w.PlacedAt name i :=
  (exists_unique_placedAt hw.unique h).exists

/-- The names in the first levels, in the order of the plan. -/
def firstNames (w : Workflow) (k : Nat) : List String := (w.executionLevels.take k).flatten

theorem mem_firstNames : name ∈ w.firstNames k ↔ ∃ i < k, w.PlacedAt name i := by
  simp only [firstNames, List.mem_flatten, List.mem_take_iff_getElem, PlacedAt]
  constructor
  · rintro ⟨level, ⟨i, hi, rfl⟩, hname⟩
    exact ⟨i, by omega, _, List.getElem?_eq_getElem (by omega), hname⟩
  · rintro ⟨i, hi, level, hlevel, hname⟩
    obtain ⟨hlt, rfl⟩ := List.getElem?_eq_some_iff.mp hlevel
    exact ⟨_, ⟨i, by omega, rfl⟩, hname⟩

theorem WellPlanned.mem_firstNames_iff (hw : w.WellPlanned) (hat : w.PlacedAt name j) :
    name ∈ w.firstNames k ↔ j < k := by
  refine mem_firstNames.trans ⟨fun ⟨i, hi, hat'⟩ => ?_, fun hj => ⟨j, hj, hat⟩⟩
  rwa [hw.placedAt_inj hat hat']

theorem firstNames_succ (h : w.executionLevels[k]? = some names) :
    w.firstNames (k + 1) = w.firstNames k ++ names := by
  rw [firstNames, firstNames, List.take_add_one, h, List.flatten_append]
  simp

/-- Within a level the names are as declared. -/
theorem level_sublist {level : List String} (h : level ∈ w.executionLevels) :
    level.Sublist w.taskNames := by
  rw [executionLevels, levelsBy, Graph.groupByLevel] at h
  obtain ⟨k, -, rfl⟩ := List.mem_map.mp (List.mem_filter.mp h).1
  have hlen := w.length_levels_precedence
  refine (List.filter_sublist.map Prod.fst).trans ?_
  rw [List.map_fst_zip (by simp [hlen])]

theorem WellPlanned.nodup_firstNames (hw : w.WellPlanned) (k : Nat) :
    (w.firstNames k).Nodup := by
  induction k with
  | zero => simp [firstNames]
  | succ k ih =>
    cases hnames : w.executionLevels[k]? with
    | none =>
      rwa [firstNames, List.take_add_one, hnames, Option.toList_none, List.append_nil]
    | some names =>
      rw [firstNames_succ hnames]
      have hlevel := (level_sublist (List.mem_of_getElem? hnames)).nodup hw.unique
      refine List.nodup_append.mpr ⟨ih, hlevel, fun a ha b hb heq => ?_⟩
      exact lt_irrefl k ((hw.mem_firstNames_iff ⟨names, hnames, heq ▸ hb⟩).mp ha)

/-- What comes before a task of the first levels is in the levels before. -/
theorem WellPlanned.mem_firstNames_of_precedes (hw : w.WellPlanned) {a b : String}
    (hab : w.Precedes a b) (hb : w.PlacedAt b k) : a ∈ w.firstNames k := by
  obtain ⟨i, hi⟩ := hw.exists_placedAt (hab.mem_taskNames hw.resolved).1
  exact mem_firstNames.mpr ⟨i, hw.lt_of_precedes a b i k hab hi hb, hi⟩

theorem WellPlanned.mem_firstNames_of_dependency (hw : w.WellPlanned) {t : Task} {d : String}
    (ht : t ∈ w.tasks) (hname : t.name ∈ w.firstNames (k + 1)) (hd : d ∈ t.dependencies) :
    d ∈ w.firstNames k := by
  obtain ⟨i, hi, hat⟩ := mem_firstNames.mp hname
  obtain ⟨j, hj, hat'⟩ :=
    mem_firstNames.mp (hw.mem_firstNames_of_precedes ⟨t, ht, rfl, .inl hd⟩ hat)
  exact mem_firstNames.mpr ⟨j, by omega, hat'⟩

/-- The tasks with these names, in the order of the names. -/
def tasksOf (w : Workflow) (names : List String) : List Task := names.filterMap w.task?

theorem map_name_tasksOf_sublist (w : Workflow) (names : List String) :
    ((w.tasksOf names).map (·.name)).Sublist names := by
  induction names with
  | nil => exact .slnil
  | cons name rest ih =>
    cases hfound : w.task? name with
    | none =>
      rw [tasksOf, List.filterMap_cons_none hfound]
      exact ih.cons name
    | some t =>
      rw [tasksOf, List.filterMap_cons_some hfound, List.map_cons, (task?_eq_some hfound).2]
      exact ih.cons_cons name

theorem WellPlanned.mem_tasksOf (hw : w.WellPlanned) {t : Task} :
    t ∈ w.tasksOf names ↔ t ∈ w.tasks ∧ t.name ∈ names := by
  rw [tasksOf, List.mem_filterMap]
  constructor
  · rintro ⟨name, hname, hfound⟩
    obtain ⟨ht, rfl⟩ := task?_eq_some hfound
    exact ⟨ht, hname⟩
  · rintro ⟨ht, hname⟩
    exact ⟨t.name, hname, task?_of_mem hw.unique ht⟩

theorem WellPlanned.eq_of_name (hw : w.WellPlanned) {t u : Task} (ht : t ∈ w.tasks)
    (hu : u ∈ w.tasks) (h : t.name = u.name) : t = u :=
  List.inj_on_of_nodup_map hw.unique ht hu h

end Workflow

/-! ## Opening a level -/

namespace Ledger

variable {w : Workflow} {l l' : Ledger} {names : List String}

/-- Only what was activated and which dependencies were skipped matters. -/
theorem excludes_congr {t : Task} (hactivated : l'.activated = l.activated)
    (hskipped : ∀ d ∈ t.dependencies, d ∈ l'.skipped ↔ d ∈ l.skipped) :
    l'.excludes w t = l.excludes w t := by
  have hany : t.dependencies.any (l'.skipped.contains ·) =
      t.dependencies.any (l.skipped.contains ·) := by
    rw [Bool.eq_iff_iff, List.any_eq_true, List.any_eq_true]
    simp only [List.contains_iff_mem]
    exact exists_congr fun d => and_congr_right (hskipped d)
  rw [excludes, excludes, hany, hactivated]

theorem excludes_iff {t : Task} :
    l.excludes w t ↔ (∃ d ∈ t.dependencies, d ∈ l.skipped) ∨
      (∃ s ∈ w.tasks, t.name ∈ s.branchTargets) ∧ t.name ∉ l.activated := by
  have hsources : (!(w.branchSources t.name).isEmpty) = true ↔
      ∃ s ∈ w.tasks, t.name ∈ s.branchTargets := by
    rw [Bool.not_eq_true', List.isEmpty_eq_false_iff_exists_mem]
    simp only [Workflow.mem_branchSources]
    constructor
    · rintro ⟨-, s, hs, -, ht⟩
      exact ⟨s, hs, ht⟩
    · rintro ⟨s, hs, ht⟩
      exact ⟨s.name, s, hs, rfl, ht⟩
  simp only [excludes, Bool.or_eq_true, Bool.and_eq_true, hsources, List.any_eq_true,
    List.contains_iff_mem, Bool.not_eq_true', ← Bool.not_eq_true]

/-- No task of a level depends on another one of it, so whether a task is skipped does not hang on
what was decided for the level before. -/
theorem openLevel_eq (w : Workflow) (names : List String) (l : Ledger)
    (hapart : ∀ t ∈ w.tasksOf names, ∀ d ∈ t.dependencies, d ∉ names) :
    openLevel w names l = ((w.tasksOf names).filter fun t => !l.excludes w t,
      { l with skipped :=
          l.skipped ++ ((w.tasksOf names).filter (l.excludes w ·)).map (·.name) }) := by
  induction names generalizing l with
  | nil => simp [openLevel, Workflow.tasksOf]
  | cons name rest ih =>
    rw [openLevel]
    split
    · rename_i hnone
      have htasks : w.tasksOf (name :: rest) = w.tasksOf rest := List.filterMap_cons_none hnone
      rw [htasks] at hapart ⊢
      exact ih l fun t ht d hd hrest => hapart t ht d hd (List.mem_cons_of_mem name hrest)
    · rename_i t hsome
      have htasks : w.tasksOf (name :: rest) = t :: w.tasksOf rest :=
        List.filterMap_cons_some hsome
      have hname : t.name = name := (Workflow.task?_eq_some hsome).2
      rw [htasks] at hapart ⊢
      have hrest : ∀ u ∈ w.tasksOf rest, ∀ d ∈ u.dependencies, d ∉ rest :=
        fun u hu d hd hmem =>
          hapart u (List.mem_cons_of_mem t hu) d hd (List.mem_cons_of_mem name hmem)
      split
      · rename_i hexcluded
        have hsame : ∀ u ∈ w.tasksOf rest,
            ({ l with skipped := l.skipped ++ [name] } : Ledger).excludes w u = l.excludes w u :=
          fun u hu => excludes_congr rfl fun d hd => by
            have hne : d ≠ name := fun h =>
              hapart u (List.mem_cons_of_mem t hu) d hd (h ▸ List.mem_cons_self)
            simp [hne]
        rw [ih _ hrest, List.filter_cons_of_neg (by simp [hexcluded]),
          List.filter_cons_of_pos hexcluded, List.map_cons, hname]
        rw [List.filter_congr fun u hu => congrArg (! ·) (hsame u hu), List.filter_congr hsame,
          List.append_assoc]
        rfl
      · rename_i hallowed
        rw [ih l hrest, List.filter_cons_of_pos (by simp [hallowed]),
          List.filter_cons_of_neg hallowed]

theorem openLevel_spec (hw : w.WellPlanned) (l : Ledger)
    (hapart : ∀ t ∈ w.tasks, t.name ∈ names → ∀ d ∈ t.dependencies, d ∉ names) :
    ∃ runnable skipped, openLevel w names l = (runnable, { l with skipped }) ∧
      (∀ t, t ∈ runnable ↔ t ∈ w.tasks ∧ t.name ∈ names ∧ ¬ l.excludes w t) ∧
      (∀ name, name ∈ skipped ↔ name ∈ l.skipped ∨
        ∃ t ∈ w.tasks, t.name = name ∧ name ∈ names ∧ l.excludes w t) ∧
      (runnable.map (·.name)).Sublist names := by
  refine ⟨_, _, openLevel_eq w names l fun t ht => ?_, fun t => ?_, fun name => ?_, ?_⟩
  · exact hapart t (hw.mem_tasksOf.mp ht).1 (hw.mem_tasksOf.mp ht).2
  · rw [List.mem_filter, hw.mem_tasksOf, and_assoc, Bool.not_eq_true', Bool.not_eq_true]
  · simp only [List.mem_append, List.mem_map, List.mem_filter, hw.mem_tasksOf]
    refine or_congr_right (exists_congr fun t => ?_)
    constructor
    · rintro ⟨⟨⟨ht, hname⟩, hexcludes⟩, rfl⟩
      exact ⟨ht, rfl, hname, hexcludes⟩
    · rintro ⟨ht, rfl, hname, hexcludes⟩
      exact ⟨⟨⟨ht, hname⟩, hexcludes⟩, rfl⟩
  · exact (List.filter_sublist.map _).trans (w.map_name_tasksOf_sublist names)

/-! ## Closing a level -/

/-- When all tasks of a level left a result, all are completed, and their outputs can be seen. -/
theorem enter_eq (tasks : List Task) (results : Fields Value) (c : Context) (l : Ledger)
    (hresults : ∀ t ∈ tasks, results.has t.name) (hunique : (tasks.map (·.name)).Nodup) :
    ∃ outputs, enter tasks results c l =
        ({ c with outputs }, { l with completed := l.completed ++ tasks.map (·.name) }) ∧
      (∀ name, outputs.has name ↔ c.outputs.has name ∨ name ∈ tasks.map (·.name)) ∧
      ∀ p : String → Bool, (∀ t ∈ tasks, p t.name = false) →
        outputs.filter (p ·.1) = c.outputs.filter (p ·.1) := by
  induction tasks generalizing results c l with
  | nil => exact ⟨c.outputs, by simp [enter], by simp, fun _ _ => rfl⟩
  | cons t rest ih =>
    obtain ⟨v, hv⟩ := Option.isSome_iff_exists.mp (hresults t List.mem_cons_self)
    rw [List.map_cons, List.nodup_cons] at hunique
    have hrest : ∀ u ∈ rest, (results.erase t.name).has u.name := fun u hu => by
      have hne : t.name ≠ u.name := fun h => hunique.1 (h ▸ List.mem_map_of_mem hu)
      rw [Fields.has, Fields.find?_erase, if_neg hne]
      exact hresults u (List.mem_cons_of_mem t hu)
    obtain ⟨outputs, henter, hkeys, hfilter⟩ := ih (results.erase t.name) (c.setOutput t.name v)
      { l with completed := l.completed ++ [t.name] } hrest hunique.2
    refine ⟨outputs, ?_, fun name => ?_, fun p hp => ?_⟩
    · rw [enter, hv]
      simp only [henter, List.map_cons, List.append_assoc, List.singleton_append]
      rfl
    · rw [hkeys, Context.setOutput, Fields.has_insert, List.map_cons, List.mem_cons, or_assoc,
        or_left_comm, @eq_comm _ name]
    · rw [hfilter p fun u hu => hp u (List.mem_cons_of_mem t hu)]
      exact Fields.filter_insert v _ (hp t List.mem_cons_self)

end Ledger

/-! ## Conditions -/

namespace Expression.Scope

variable {base s s' : Scope} {outputs : Fields Value}

/-- The same scope with other outputs. -/
def seeing (s : Scope) (outputs : Fields Value) : Scope :=
  { s with context := { s.context with outputs } }

/-- The second scope is the first one with these outputs, and with its secrets loaded or not. -/
def Sees (base : Scope) (outputs : Fields Value) (s : Scope) : Prop :=
  ∃ c, s = (base.seeing outputs).withSecrets c ∧ base.context.secrets.Serves c

theorem Sees.outputs_eq (hs : base.Sees outputs s) : s.context.outputs = outputs := by
  obtain ⟨c, rfl, -⟩ := hs
  rfl

theorem Sees.functions_eq (hs : base.Sees outputs s) : s.functions = base.functions := by
  obtain ⟨c, rfl, -⟩ := hs
  rfl

theorem Sees.seeing (hs : base.Sees outputs s) (outputs' : Fields Value) :
    base.Sees outputs' (s.seeing outputs') := by
  obtain ⟨c, rfl, hserves⟩ := hs
  exact ⟨c, rfl, hserves⟩

theorem Sees.condition_fst (hs : base.Sees outputs s) (input : String) :
    (s.condition input).1 = ((base.seeing outputs).condition input).1 := by
  obtain ⟨c, rfl, hserves⟩ := hs
  exact condition_of_serves (s := (base.seeing outputs).withSecrets c) hserves input

theorem Sees.condition {input : String} {v : Bool} (hs : base.Sees outputs s)
    (h : s.condition input = (.ok v, s')) : base.Sees outputs s' := by
  obtain ⟨c, rfl, hserves⟩ := hs
  obtain ⟨c', rfl, hserves'⟩ :=
    condition_ok (s := (base.seeing outputs).withSecrets c) hserves h
  exact ⟨c', rfl, hserves'⟩

end Expression.Scope

namespace Workflow

/-- The outputs that can be seen when a level is closed: those of the tasks up to it. -/
def outputsUpTo (w : Workflow) (outputs : Fields Value) (k : Nat) : Fields Value :=
  outputs.filter fun e => e.1 ∈ w.firstNames (k + 1)

/-- The condition of a task's branch holds, seen from the level of the task. -/
def Held (w : Workflow) (base : Scope) (outputs : Fields Value) (t : Task) (b : Branch) : Prop :=
  ∃ k, w.PlacedAt t.name k ∧
    ((base.seeing (w.outputsUpTo outputs k)).condition b.expression).1 = .ok true

/-- A completed task has a branch there whose condition held. -/
def Routed (w : Workflow) (base : Scope) (outputs : Fields Value) (completed : List String)
    (name : String) : Prop :=
  ∃ t ∈ w.tasks, t.name ∈ completed ∧ ∃ b ∈ t.branches, b.target = name ∧
    w.Held base outputs t b

end Workflow

namespace Ledger

variable {w : Workflow} {base s s' : Scope} {l l' : Ledger} {outputs : Fields Value}

theorem mem_activated_decide {branches : List Branch} (hs : base.Sees outputs s)
    (h : decide branches s l = (.ok l', s')) :
    base.Sees outputs s' ∧ ∀ name, name ∈ l'.activated ↔ name ∈ l.activated ∨
      ∃ b ∈ branches, b.target = name ∧
        ((base.seeing outputs).condition b.expression).1 = .ok true := by
  induction branches generalizing s l with
  | nil =>
    cases h
    exact ⟨hs, by simp⟩
  | cons b rest ih =>
    rw [decide] at h
    split at h
    · cases h
    · rename_i s₁ hcondition
      have htrue := hs.condition_fst b.expression
      rw [hcondition] at htrue
      obtain ⟨hs', hactivated⟩ := ih (hs.condition hcondition) h
      refine ⟨hs', fun name => ?_⟩
      rw [hactivated]
      simp [← htrue, or_assoc, @eq_comm _ name]
    · rename_i s₁ hcondition
      have hfalse := hs.condition_fst b.expression
      rw [hcondition] at hfalse
      obtain ⟨hs', hactivated⟩ := ih (hs.condition hcondition) h
      refine ⟨hs', fun name => ?_⟩
      rw [hactivated]
      simp [← hfalse]

theorem mem_activated_decideAll {tasks : List Task} (hs : base.Sees outputs s)
    (h : decideAll tasks s l = (.ok l', s')) :
    base.Sees outputs s' ∧ ∀ name, name ∈ l'.activated ↔ name ∈ l.activated ∨
      ∃ t ∈ tasks, ∃ b ∈ t.branches, b.target = name ∧
        ((base.seeing outputs).condition b.expression).1 = .ok true := by
  induction tasks generalizing s l with
  | nil =>
    cases h
    exact ⟨hs, by simp⟩
  | cons t rest ih =>
    rw [decideAll] at h
    split at h
    · cases h
    · rename_i l₁ s₁ hdecide
      obtain ⟨hs₁, hfirst⟩ := mem_activated_decide hs hdecide
      obtain ⟨hs', hrest⟩ := ih hs₁ h
      refine ⟨hs', fun name => ?_⟩
      rw [hrest, hfirst, or_assoc]
      simp only [List.mem_cons, exists_eq_or_imp]

end Ledger

/-! ## Level by level -/

/-- What is known when the first `k` levels were opened: `tasks` are those of the last one that may
run, if it was not closed yet. -/
structure Gated (w : Workflow) (base : Scope) (k : Nat) (outputs : Fields Value) (l : Ledger)
    (tasks : List Task) : Prop where
  split : ∀ name ∈ w.firstNames k,
    (name ∈ l.completed ∨ name ∈ tasks.map (·.name)) ↔ name ∉ l.skipped
  skipped : ∀ name ∈ l.skipped, name ∈ w.firstNames k
  order : (l.completed ++ tasks.map (·.name)).Sublist (w.firstNames k)
  keys : ∀ name, outputs.has name ↔ name ∈ l.completed
  /-- What decided about a task would decide the same again. -/
  gate : ∀ t ∈ w.tasks, t.name ∈ w.firstNames k → (t.name ∈ l.skipped ↔ l.excludes w t)
  routed : ∀ name, name ∈ l.activated ↔ w.Routed base outputs l.completed name
  /-- The last level is the one before `k`, and what has completed is on the levels before that. -/
  current : ∀ t ∈ tasks, t ∈ w.tasks ∧ ∃ j, k = j + 1 ∧ w.PlacedAt t.name j ∧
    ∀ name ∈ l.completed, name ∈ w.firstNames j
  ready : ∀ t ∈ tasks, ∀ d ∈ t.dependencies, d ∈ l.completed

namespace Gated

variable {w : Workflow} {base s s' : Scope} {k : Nat} {outputs : Fields Value} {l l' : Ledger}
  {tasks : List Task} {names : List String}

theorem start (w : Workflow) (base : Scope) : Gated w base 0 [] {} [] where
  split name hname := by simp [Workflow.firstNames] at hname
  skipped := nofun
  order := .slnil
  keys name := by simp [Fields.has, Fields.find?]
  gate t _ hname := by simp [Workflow.firstNames] at hname
  routed name := by simp [Workflow.Routed]
  current := nofun
  ready := nofun

/-- Opening the next level. -/
theorem opened (hw : w.WellPlanned) (hl : Gated w base k outputs l [])
    (hnames : w.executionLevels[k]? = some names) :
    Gated w base (k + 1) outputs (Ledger.openLevel w names l).2
      (Ledger.openLevel w names l).1 := by
  have hplaced : ∀ name ∈ names, w.PlacedAt name k := fun name h => ⟨names, hnames, h⟩
  have hfresh : ∀ name ∈ names, name ∉ w.firstNames k := fun name hname hfirst =>
    lt_irrefl k ((hw.mem_firstNames_iff (hplaced name hname)).mp hfirst)
  have hsucc := Workflow.firstNames_succ hnames
  have hbefore : ∀ t ∈ w.tasks, t.name ∈ w.firstNames (k + 1) →
      ∀ d ∈ t.dependencies, d ∈ w.firstNames k := fun t ht hname d hd =>
    hw.mem_firstNames_of_dependency ht hname hd
  have hcompleted : ∀ name ∈ l.completed, name ∈ w.firstNames k := fun name h =>
    hl.order.subset (List.mem_append_left _ h)
  obtain ⟨runnable, skipped, hopen, hrunnable, hskipped, hsublist⟩ :=
    Ledger.openLevel_spec hw l fun t ht hname d hd hmem =>
      hfresh d hmem (hbefore t ht (hsucc ▸ List.mem_append_right _ hname) d hd)
  rw [hopen]
  -- of the tasks of the levels before none is decided again
  have hold : ∀ name ∈ w.firstNames k, (name ∈ skipped ↔ name ∈ l.skipped) := fun name hname => by
    rw [hskipped]
    exact or_iff_left fun ⟨_, _, _, hnew, _⟩ => hfresh name hnew hname
  have hgate : ∀ t ∈ w.tasks, t.name ∈ w.firstNames (k + 1) →
      ({ l with skipped } : Ledger).excludes w t = l.excludes w t := fun t ht hname =>
    Ledger.excludes_congr rfl fun d hd => hold d (hbefore t ht hname d hd)
  have hnew : ∀ t ∈ w.tasks, t.name ∈ names → (t.name ∈ skipped ↔ l.excludes w t) :=
    fun t ht hname => by
      rw [hskipped]
      constructor
      · rintro (h | ⟨u, hu, heq, -, hexcludes⟩)
        · exact absurd (hl.skipped _ h) (hfresh _ hname)
        · rwa [hw.eq_of_name ht hu heq.symm]
      · exact fun hexcludes => .inr ⟨t, ht, rfl, hname, hexcludes⟩
  refine ⟨fun name hname => ?_, fun name hname => ?_, ?_, hl.keys, fun t ht hname => ?_, hl.routed,
    fun t ht => ?_, fun t ht d hd => ?_⟩
  · rw [hsucc, List.mem_append] at hname
    rcases hname with hname | hname
    · have hnot : name ∉ runnable.map (·.name) :=
        fun h => hfresh name (hsublist.subset h) hname
      rw [hold name hname, ← hl.split name hname]
      exact or_congr_right (iff_of_false hnot List.not_mem_nil)
    · obtain ⟨t, ht, rfl⟩ :=
        List.mem_map.mp (Workflow.mem_taskNames_of_placedAt (hplaced name hname))
      have hnot : t.name ∉ l.completed := fun h => hfresh _ hname (hcompleted _ h)
      rw [hnew t ht hname, or_iff_right hnot, List.mem_map]
      constructor
      · rintro ⟨u, hu, heq⟩
        obtain ⟨hu', -, hallowed⟩ := (hrunnable u).mp hu
        rwa [hw.eq_of_name ht hu' heq.symm]
      · exact fun hallowed => ⟨t, (hrunnable t).mpr ⟨ht, hname, hallowed⟩, rfl⟩
  · rw [hsucc, List.mem_append]
    rcases (hskipped name).mp hname with h | ⟨-, -, -, h, -⟩
    · exact .inl (hl.skipped name h)
    · exact .inr h
  · rw [hsucc]
    have horder := hl.order
    rw [List.map_nil, List.append_nil] at horder
    exact horder.append hsublist
  · rw [hgate t ht hname]
    rw [hsucc, List.mem_append] at hname
    rcases hname with hname | hname
    · exact (hold _ hname).trans (hl.gate t ht hname)
    · exact hnew t ht hname
  · obtain ⟨ht', hname, -⟩ := (hrunnable t).mp ht
    exact ⟨ht', k, rfl, hplaced _ hname, hcompleted⟩
  · obtain ⟨ht', hname, hallowed⟩ := (hrunnable t).mp ht
    have hd' := hbefore t ht' (hsucc ▸ List.mem_append_right _ hname) d hd
    have hgo := (hl.split d hd').mpr (Ledger.not_mem_skipped_of_excludes hallowed d hd)
    exact hgo.resolve_right List.not_mem_nil

/-- What was seen from a level that was closed before does not change. -/
theorem held_congr (hw : w.WellPlanned) (hl : Gated w base k outputs l tasks)
    {outputs' : Fields Value}
    (hfilter : ∀ p : String → Bool, (∀ t ∈ tasks, p t.name = false) →
      outputs'.filter (p ·.1) = outputs.filter (p ·.1))
    {t : Task} (ht : t.name ∈ l.completed) (b : Branch) :
    w.Held base outputs' t b ↔ w.Held base outputs t b := by
  refine exists_congr fun i => and_congr_right fun hi => ?_
  have hsame : w.outputsUpTo outputs' i = w.outputsUpTo outputs i := by
    refine hfilter (fun name => decide (name ∈ w.firstNames (i + 1))) fun u hu => ?_
    obtain ⟨-, j, -, hat, hcompleted⟩ := hl.current u hu
    have hlt := (hw.mem_firstNames_iff hi).mp (hcompleted _ ht)
    rw [decide_eq_false_iff_not, hw.mem_firstNames_iff hat]
    omega
  rw [hsame]

/-- What is seen from the last level are all outputs. -/
theorem held_current (hw : w.WellPlanned) (hl : Gated w base k outputs l tasks)
    {outputs' : Fields Value}
    (hkeys : ∀ name, outputs'.has name ↔ outputs.has name ∨ name ∈ tasks.map (·.name))
    {t : Task} (ht : t ∈ tasks) (b : Branch) :
    w.Held base outputs' t b ↔
      ((base.seeing outputs').condition b.expression).1 = .ok true := by
  obtain ⟨-, j, rfl, hat, -⟩ := hl.current t ht
  have hall : w.outputsUpTo outputs' j = outputs' := by
    refine List.filter_eq_self.mpr fun e he => decide_eq_true (hl.order.subset ?_)
    rw [List.mem_append, ← hl.keys]
    exact (hkeys e.1).mp (Fields.has_of_mem he)
  constructor
  · rintro ⟨i, hi, hcondition⟩
    rwa [hw.placedAt_inj hi hat, hall] at hcondition
  · exact fun hcondition => ⟨j, hat, by rwa [hall]⟩

/-- No branch of a task of the last level leads to the levels that were opened. -/
theorem not_mem_firstNames (hw : w.WellPlanned) (hl : Gated w base k outputs l tasks) {t u : Task}
    (hu : u ∈ tasks) (ht : t ∈ w.tasks) {b : Branch} (hb : b ∈ u.branches)
    (htarget : b.target = t.name) : t.name ∉ w.firstNames k := fun hname => by
  obtain ⟨hu', j, rfl, hat, -⟩ := hl.current u hu
  have hprecedes : w.Precedes u.name t.name :=
    ⟨t, ht, rfl, .inr ⟨u, hu', rfl, htarget ▸ List.mem_map_of_mem hb⟩⟩
  obtain ⟨i, hi, hat'⟩ := Workflow.mem_firstNames.mp hname
  have := hw.lt_of_precedes _ _ _ _ hprecedes hat hat'
  omega

/-- Where branches lead once the tasks of the last level have completed as well. -/
theorem routed_append (hw : w.WellPlanned) (hl : Gated w base k outputs l tasks)
    {outputs' : Fields Value}
    (hkeys : ∀ name, outputs'.has name ↔ outputs.has name ∨ name ∈ tasks.map (·.name))
    (hfilter : ∀ p : String → Bool, (∀ t ∈ tasks, p t.name = false) →
      outputs'.filter (p ·.1) = outputs.filter (p ·.1)) (name : String) :
    w.Routed base outputs' (l.completed ++ tasks.map (·.name)) name ↔
      w.Routed base outputs l.completed name ∨ ∃ t ∈ tasks, ∃ b ∈ t.branches, b.target = name ∧
        ((base.seeing outputs').condition b.expression).1 = .ok true := by
  simp only [Workflow.Routed, List.mem_append, or_and_right, and_or_left, exists_or]
  refine or_congr (exists_congr fun t => and_congr_right fun _ => and_congr_right fun hold => ?_)
    ⟨?_, ?_⟩
  · exact exists_congr fun b => and_congr_right fun _ => and_congr_right fun _ =>
      hl.held_congr hw hfilter hold b
  · rintro ⟨t, ht, hname, b, hb, htarget, hheld⟩
    obtain ⟨u, hu, heq⟩ := List.mem_map.mp hname
    obtain rfl := hw.eq_of_name (hl.current u hu).1 ht heq
    exact ⟨u, hu, b, hb, htarget, (hl.held_current hw hkeys hu b).mp hheld⟩
  · rintro ⟨t, ht, b, hb, htarget, hcondition⟩
    exact ⟨t, (hl.current t ht).1, List.mem_map_of_mem ht, b, hb, htarget,
      (hl.held_current hw hkeys ht b).mpr hcondition⟩

/-- Closing the level that was opened last. -/
theorem closed (hw : w.WellPlanned) (hl : Gated w base k outputs l tasks)
    {results : Fields Value} (hresults : ∀ t ∈ tasks, results.has t.name)
    (hs : base.Sees outputs s)
    (h : Ledger.decideAll tasks
      { s with context := (Ledger.enter tasks results s.context l).1 }
      (Ledger.enter tasks results s.context l).2 = (.ok l', s')) :
    Gated w base k s'.context.outputs l' [] ∧ base.Sees s'.context.outputs s' ∧
      l'.completed = l.completed ++ tasks.map (·.name) := by
  have hnodup : (tasks.map (·.name)).Nodup :=
    (List.nodup_append.mp (hl.order.nodup (hw.nodup_firstNames k))).2.1
  obtain ⟨outputs', henter, hkeys, hfilter⟩ :=
    Ledger.enter_eq tasks results s.context l hresults hnodup
  rw [henter] at h
  rw [hs.outputs_eq] at hkeys hfilter
  obtain ⟨hskipped, hcompleted⟩ := Ledger.decideAll_ok h
  obtain ⟨hs', hactivated⟩ := Ledger.mem_activated_decideAll (hs.seeing outputs') h
  dsimp only at hskipped hcompleted hactivated
  have hkept : ∀ t ∈ w.tasks, t.name ∈ w.firstNames k →
      (t.name ∈ l'.activated ↔ t.name ∈ l.activated) := fun t ht hname => by
    rw [hactivated]
    exact or_iff_left fun ⟨u, hu, b, hb, htarget, _⟩ =>
      hl.not_mem_firstNames hw hu ht hb htarget hname
  rw [hs'.outputs_eq]
  refine ⟨⟨fun name hname => ?_, fun name hname => ?_, ?_, fun name => ?_, fun t ht hname => ?_,
    fun name => ?_, nofun, nofun⟩, hs', hcompleted⟩
  · rw [hcompleted, hskipped, List.mem_append, ← hl.split name hname]
    exact or_iff_left List.not_mem_nil
  · exact hl.skipped name (hskipped ▸ hname)
  · rw [hcompleted, List.map_nil, List.append_nil]
    exact hl.order
  · rw [hkeys, hl.keys, hcompleted, List.mem_append]
  · rw [hskipped, hl.gate t ht hname, Ledger.excludes_iff, Ledger.excludes_iff, hskipped,
      hkept t ht hname]
  · rw [hactivated, hl.routed, hcompleted, hl.routed_append hw hkeys hfilter]

end Gated

end WorkflowEngine
