import WorkflowEngine.Proofs.Graph.Levels
import WorkflowEngine.Proofs.Workflow.Validation

/-!
# The order of the levels

`Precedes` is what the levels are made for: a dependency comes before the task that has it, and a
task comes before those that it branches to. Validation asks for something else, that no chain of
references leads back: there a task refers to its dependencies and to the targets of its branches,
so the two kinds of edges point in opposite directions in time.

* `placedAt_iff`: the level of a task is that of its position.
* `lt_of_precedes`: a pair that does not lie on a cycle of `Precedes` is in order.
* `crossing`: a workflow that passes validation, with a pair out of order.
-/

namespace WorkflowEngine

namespace Workflow

variable {w : Workflow}

/-- The first task has to be done before the second one: it is a dependency of it, or branches
to it. -/
def Precedes (w : Workflow) (a b : String) : Prop :=
  ∃ t ∈ w.tasks, t.name = b ∧ (a ∈ t.dependencies ∨ ∃ s ∈ w.tasks, s.name = a ∧ b ∈ s.branchTargets)

/-- The name is in the level at that place of the plan. -/
def PlacedAt (w : Workflow) (name : String) (k : Nat) : Prop :=
  ∃ level, w.executionLevels[k]? = some level ∧ name ∈ level

theorem mem_branchSources {a b : String} :
    a ∈ w.branchSources b ↔ ∃ s ∈ w.tasks, s.name = a ∧ b ∈ s.branchTargets := by
  simp only [branchSources, List.mem_flatMap, List.mem_map, List.mem_filter, beq_iff_eq]
  constructor
  · rintro ⟨s, hs, c, ⟨hc, rfl⟩, rfl⟩
    exact ⟨s, hs, rfl, hc⟩
  · rintro ⟨s, hs, rfl, hb⟩
    exact ⟨s, hs, b, ⟨hb, rfl⟩, rfl⟩

theorem leads_precedingNames {a b : String} :
    w.Leads w.precedingNames b a ↔ w.Precedes a b := by
  simp only [Leads, Precedes, precedingNames, List.mem_append, mem_branchSources]
  constructor
  · rintro ⟨t, ht, rfl, h⟩
    exact ⟨t, ht, rfl, h⟩
  · rintro ⟨t, ht, rfl, h⟩
    exact ⟨t, ht, rfl, h⟩

theorem transGen_leads_precedingNames {a b : String} :
    Relation.TransGen (w.Leads w.precedingNames) b a ↔ Relation.TransGen w.Precedes a b := by
  have : w.Leads w.precedingNames = Function.swap w.Precedes := by
    funext b a
    exact propext leads_precedingNames
  rw [this, Relation.transGen_swap]

abbrev precedence (w : Workflow) : List (List Nat) := w.predecessorEdges w.precedingNames

theorem length_levels_precedence (w : Workflow) :
    (Graph.levels w.precedence).length = w.taskNames.length := by
  rw [Graph.levels_eq, Graph.length_levelsOf, length_predecessorEdges]

theorem placedAt_iff {name : String} {k : Nat} :
    w.PlacedAt name k ↔
      ∃ i : Nat, w.taskNames[i]? = some name ∧ Graph.level w.precedence i = k := by
  have hlen := w.length_levels_precedence
  rw [PlacedAt, executionLevels, levelsBy,
    Graph.mem_groupByLevel hlen (Graph.gapless_levels w.precedence)]
  refine exists_congr fun i => and_congr_right fun hi => ?_
  have hlt : i < (Graph.levels w.precedence).length := by
    rw [hlen]
    exact (List.getElem?_eq_some_iff.mp hi).1
  simp [Graph.level, List.getD_eq_getElem?_getD, hlt]

theorem mem_taskNames_of_placedAt {name : String} {k : Nat} (h : w.PlacedAt name k) :
    name ∈ w.taskNames := by
  obtain ⟨i, hi, -⟩ := placedAt_iff.mp h
  exact List.mem_of_getElem? hi

theorem exists_unique_placedAt (hunique : w.UniqueNames) {name : String}
    (h : name ∈ w.taskNames) : ∃! k, w.PlacedAt name k := by
  obtain ⟨i, hi⟩ := List.mem_iff_getElem?.mp h
  refine ⟨_, placedAt_iff.mpr ⟨i, hi, rfl⟩, fun k hk => ?_⟩
  obtain ⟨j, hj, rfl⟩ := placedAt_iff.mp hk
  have hlt : i < w.taskNames.length := (List.getElem?_eq_some_iff.mp hi).1
  rw [(List.getElem?_inj hlt hunique).mp (hi.trans hj.symm)]

theorem lt_of_precedes (hunique : w.UniqueNames) {a b : String} {i j : Nat}
    (hab : w.Precedes a b) (hback : ¬ Relation.TransGen w.Precedes b a) (ha : w.PlacedAt a i)
    (hb : w.PlacedAt b j) : i < j := by
  obtain ⟨u, hu, rfl⟩ := placedAt_iff.mp ha
  obtain ⟨v, hv, rfl⟩ := placedAt_iff.mp hb
  have hadj := adj_of_leads hunique hv hu (leads_precedingNames.mpr hab)
  refine Graph.level_lt_of_adj hadj (lt_of_adj hadj) fun hreach => hback ?_
  exact transGen_leads_precedingNames.mp ((reaches_iff hunique hu hv).mp hreach)

theorem Precedes.mem_taskNames (hresolved : w.Resolved) {a b : String} (h : w.Precedes a b) :
    a ∈ w.taskNames ∧ b ∈ w.taskNames := by
  obtain ⟨t, ht, rfl, h⟩ := h
  refine ⟨?_, List.mem_map_of_mem ht⟩
  rcases h with h | ⟨s, hs, rfl, -⟩
  · exact hresolved t.name a ⟨t, ht, rfl, .inl h⟩
  · exact List.mem_map_of_mem hs

/-- All pairs can be in order only if there is no cycle. -/
theorem lt_of_transGen_precedes (hunique : w.UniqueNames) (hresolved : w.Resolved)
    (h : ∀ a b i j, w.Precedes a b → w.PlacedAt a i → w.PlacedAt b j → i < j) {a b : String}
    {i j : Nat} (hab : Relation.TransGen w.Precedes a b) (ha : w.PlacedAt a i)
    (hb : w.PlacedAt b j) : i < j := by
  induction hab generalizing j with
  | single hab => exact h _ _ _ _ hab ha hb
  | tail _ hbc ih =>
    obtain ⟨k, hk, -⟩ := exists_unique_placedAt hunique (hbc.mem_taskNames hresolved).1
    exact (ih hk).trans (h _ _ _ _ hbc hk hb)

theorem all_in_order_iff (hunique : w.UniqueNames) (hresolved : w.Resolved) :
    (∀ a b i j, w.Precedes a b → w.PlacedAt a i → w.PlacedAt b j → i < j) ↔
      ∀ a, ¬ Relation.TransGen w.Precedes a a := by
  constructor
  · intro h a ha
    obtain ⟨b, hab, -⟩ := Relation.TransGen.head'_iff.mp ha
    obtain ⟨k, hk, -⟩ := exists_unique_placedAt hunique (hab.mem_taskNames hresolved).1
    exact absurd (lt_of_transGen_precedes hunique hresolved h ha hk hk) (lt_irrefl k)
  · intro h a b i j hab ha hb
    exact lt_of_precedes hunique hab (fun hba => h a (.head hab hba)) ha hb

/-- A task depends on another one and also branches to it, which validation takes for two references
in the same direction. -/
def crossing : Workflow where
  name := "crossing"
  tasks := [{ name := "A", dependencies := ["B"], branches := [⟨"$[true]", "B"⟩] }, { name := "B" }]

theorem crossing_out_of_order :
    crossing.validate = .ok () ∧ crossing.Precedes "A" "B" ∧ crossing.PlacedAt "A" 1 ∧
      crossing.PlacedAt "B" 0 := by
  have hlevels : crossing.executionLevels = [["B"], ["A"]] := by decide
  refine ⟨by decide, ?_, ?_, ?_⟩
  · simp [Precedes, crossing, Task.branchTargets]
  · simp [PlacedAt, hlevels]
  · simp [PlacedAt, hlevels]

end Workflow

end WorkflowEngine
