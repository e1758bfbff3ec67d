import Mathlib.Data.List.Nodup
import WorkflowEngine.Proofs.Graph.Traversal
import WorkflowEngine.Workflow.Precedence

/-!
# Tasks by name and by position

The graphs of a workflow are graphs of positions, while its references are names. `Leads targets`
is the relation on names that a function of targets makes, and with distinct names the graph of
positions has a path exactly where the names have one (`reaches_iff`).
-/

namespace WorkflowEngine

variable {name : String} {names : List String}

theorem getElem?_of_lastIndex? {i : Nat} (h : lastIndex? name names = some i) :
    names[i]? = some name := by
  induction names generalizing i with
  | nil => cases h
  | cons n rest ih =>
    rw [lastIndex?] at h
    cases hr : lastIndex? name rest with
    | some j =>
      rw [hr] at h
      cases h
      exact ih hr
    | none =>
      rw [hr] at h
      by_cases hn : n = name
      · simp only [hn, if_true] at h
        cases h
        simp [hn]
      · simp [hn] at h

theorem lastIndex?_eq_none : lastIndex? name names = none ↔ name ∉ names := by
  induction names with
  | nil => simp [lastIndex?]
  | cons n rest ih =>
    rw [lastIndex?]
    cases hr : lastIndex? name rest with
    | some j =>
      have hmem : name ∈ rest := List.mem_of_getElem? (getElem?_of_lastIndex? hr)
      simp [hmem]
    | none =>
      have hrest := ih.mp hr
      by_cases hn : n = name
      · simp [hn]
      · simp [hn, Ne.symm hn, hrest]

theorem isSome_lastIndex? : (lastIndex? name names).isSome ↔ name ∈ names := by
  rw [Option.isSome_iff_ne_none, Ne, lastIndex?_eq_none, not_not]

theorem getElem?_ne_of_lastIndex? {i k : Nat} (h : lastIndex? name names = some i) (hk : i < k) :
    names[k]? ≠ some name := by
  induction names generalizing i k with
  | nil => cases h
  | cons n rest ih =>
    obtain ⟨k, rfl⟩ : ∃ l, k = l + 1 := ⟨k - 1, by omega⟩
    rw [lastIndex?] at h
    rw [List.getElem?_cons_succ]
    split at h
    · rename_i j hj
      cases h
      exact ih hj (by omega)
    · rename_i hnone
      exact fun hmem => lastIndex?_eq_none.mp hnone (List.mem_of_getElem? hmem)

theorem lastIndex?_eq_some {i : Nat} :
    lastIndex? name names = some i ↔
      names[i]? = some name ∧ ∀ k, i < k → names[k]? ≠ some name := by
  refine ⟨fun h => ⟨getElem?_of_lastIndex? h, fun k => getElem?_ne_of_lastIndex? h⟩, ?_⟩
  rintro ⟨hi, hlast⟩
  cases hl : lastIndex? name names with
  | none => exact absurd (List.mem_of_getElem? hi) (lastIndex?_eq_none.mp hl)
  | some j =>
    rcases Nat.lt_trichotomy i j with hij | rfl | hji
    · exact absurd (getElem?_of_lastIndex? hl) (hlast j hij)
    · rfl
    · exact absurd hi (getElem?_ne_of_lastIndex? hl hji)

theorem lastIndex?_eq_some_iff (h : names.Nodup) {i : Nat} :
    lastIndex? name names = some i ↔ names[i]? = some name := by
  refine ⟨getElem?_of_lastIndex?, fun hi => ?_⟩
  cases hl : lastIndex? name names with
  | none => exact absurd (List.mem_of_getElem? hi) (lastIndex?_eq_none.mp hl)
  | some j =>
    have hj := getElem?_of_lastIndex? hl
    have hlt : i < names.length := (List.getElem?_eq_some_iff.mp hi).1
    rw [(List.getElem?_inj hlt h).mp (hi.trans hj.symm)]

namespace Workflow

variable {w : Workflow} {targets : Task → List String}

theorem task?_eq_some {t : Task} (h : w.task? name = some t) : t ∈ w.tasks ∧ t.name = name :=
  ⟨List.mem_of_find?_eq_some h, by simpa using List.find?_some h⟩

theorem task?_of_mem (hnodup : w.taskNames.Nodup) {t : Task} (ht : t ∈ w.tasks) :
    w.task? t.name = some t := by
  cases hfound : w.task? t.name with
  | none =>
    rw [task?, List.find?_eq_none] at hfound
    exact absurd (beq_self_eq_true t.name) (hfound t ht)
  | some u =>
    obtain ⟨hu, hname⟩ := task?_eq_some hfound
    rw [List.inj_on_of_nodup_map hnodup hu ht hname]

/-- The task of the first name has the second one among its targets. -/
def Leads (w : Workflow) (targets : Task → List String) (a b : String) : Prop :=
  ∃ t ∈ w.tasks, t.name = a ∧ b ∈ targets t

theorem Leads.mem_taskNames {a b : String} (h : w.Leads targets a b) : a ∈ w.taskNames := by
  obtain ⟨t, ht, rfl, _⟩ := h
  exact List.mem_map_of_mem ht

theorem getElem?_taskNames {i : Nat} {a : String} :
    w.taskNames[i]? = some a ↔ ∃ t, w.tasks[i]? = some t ∧ t.name = a := by
  simp [taskNames, List.getElem?_map]

theorem length_predecessorEdges : (w.predecessorEdges targets).length = w.taskNames.length := by
  simp [predecessorEdges, taskNames]

theorem adj_predecessorEdges {i j : Nat} :
    Graph.Adj (w.predecessorEdges targets) i j ↔
      ∃ t, w.tasks[i]? = some t ∧ ∃ b ∈ targets t, lastIndex? b w.taskNames = some j := by
  rw [Graph.Adj, List.getD_eq_getElem?_getD, predecessorEdges, List.getElem?_map]
  cases w.tasks[i]? with
  | none => simp
  | some t => simp [List.mem_filterMap]

theorem lt_of_adj {i j : Nat} (h : Graph.Adj (w.predecessorEdges targets) i j) :
    j < (w.predecessorEdges targets).length := by
  obtain ⟨t, -, b, -, hj⟩ := adj_predecessorEdges.mp h
  rw [length_predecessorEdges]
  exact (List.getElem?_eq_some_iff.mp (getElem?_of_lastIndex? hj)).1

theorem leads_of_adj {i j : Nat} (h : Graph.Adj (w.predecessorEdges targets) i j) :
    ∃ a b, w.taskNames[i]? = some a ∧ w.taskNames[j]? = some b ∧ w.Leads targets a b := by
  obtain ⟨t, ht, b, hb, hj⟩ := adj_predecessorEdges.mp h
  exact ⟨t.name, b, getElem?_taskNames.mpr ⟨t, ht, rfl⟩, getElem?_of_lastIndex? hj, t,
    List.mem_of_getElem? ht, rfl, hb⟩

theorem adj_of_leads (hnodup : w.taskNames.Nodup) {i j : Nat} {a b : String}
    (hi : w.taskNames[i]? = some a) (hj : w.taskNames[j]? = some b) (h : w.Leads targets a b) :
    Graph.Adj (w.predecessorEdges targets) i j := by
  obtain ⟨t, ht, rfl, hb⟩ := h
  obtain ⟨k, hk⟩ := List.mem_iff_getElem?.mp ht
  have hk' : w.taskNames[k]? = some t.name := getElem?_taskNames.mpr ⟨t, hk, rfl⟩
  have hlt : k < w.taskNames.length := (List.getElem?_eq_some_iff.mp hk').1
  obtain rfl : k = i := (List.getElem?_inj hlt hnodup).mp (hk'.trans hi.symm)
  exact adj_predecessorEdges.mpr ⟨t, hk, b, hb, (lastIndex?_eq_some_iff hnodup).mpr hj⟩

/-- Paths between positions are paths between names. -/
theorem reaches_iff (hnodup : w.taskNames.Nodup) {i j : Nat} {a b : String}
    (hi : w.taskNames[i]? = some a) (hj : w.taskNames[j]? = some b) :
    Graph.Reaches (w.predecessorEdges targets) i j ↔ Relation.TransGen (w.Leads targets) a b := by
  constructor
  · intro h
    induction h generalizing b with
    | single h =>
      obtain ⟨a', b', ha', hb', hl⟩ := leads_of_adj h
      rw [hi] at ha'
      rw [hj] at hb'
      cases ha'
      cases hb'
      exact .single hl
    | tail _ h ih =>
      obtain ⟨a', b', ha', hb', hl⟩ := leads_of_adj h
      rw [hj] at hb'
      cases hb'
      exact (ih ha').tail hl
  · intro h
    induction h generalizing j with
    | single h => exact .single (adj_of_leads hnodup hi hj h)
    | tail _ h ih =>
      obtain ⟨k, hk⟩ := List.mem_iff_getElem?.mp h.mem_taskNames
      exact (ih hk).tail (adj_of_leads hnodup hk hj h)

theorem acyclic_predecessorEdges (hnodup : w.taskNames.Nodup) :
    Graph.Acyclic (w.predecessorEdges targets) ↔
      ∀ a, ¬ Relation.TransGen (w.Leads targets) a a := by
  constructor
  · intro h a ha
    obtain ⟨b, hab, -⟩ := Relation.TransGen.head'_iff.mp ha
    obtain ⟨i, hi⟩ := List.mem_iff_getElem?.mp hab.mem_taskNames
    exact h i ((reaches_iff hnodup hi hi).mpr ha)
  · intro h i hi
    obtain ⟨j, hij, -⟩ := Relation.TransGen.head'_iff.mp hi
    obtain ⟨a, -, ha, -⟩ := leads_of_adj hij
    exact h a ((reaches_iff hnodup ha ha).mp hi)

end Workflow

end WorkflowEngine
