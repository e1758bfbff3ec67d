import Mathlib.Order.Bounds.Basic
import WorkflowEngine.Graph.Levels
import WorkflowEngine.Proofs.Graph.Search

/-!
# Levels of the nodes

* `level_lt_of_adj`: a node is above the target of an edge that does not lead back to it.
* `exists_adj_level`: a node above level zero has an edge to a node one level below.
* `isGreatest_level`: without a cycle a node's level is the length of the longest chain from it.
* `mem_groupByLevel`: without a gap between the levels, the position of a group is its level.
* `perm_flatten_groupByLevel`: each thing is in one group.
-/

namespace WorkflowEngine.Graph

variable {edges : List (List Nat)}

/-! ## The highest of some numbers -/

theorem le_foldl_max {m n : Nat} {ns : List Nat} (h : n ≤ m ∨ n ∈ ns) : n ≤ ns.foldl max m := by
  induction ns generalizing m with
  | nil => simpa using h
  | cons k ns ih =>
    apply ih
    rcases h with h | h
    · exact .inl (le_max_of_le_left h)
    · rcases List.mem_cons.mp h with rfl | h
      · exact .inl (le_max_right _ _)
      · exact .inr h

theorem le_highest {n : Nat} {ns : List Nat} (h : n ∈ ns) : n ≤ highest ns := le_foldl_max (.inr h)

theorem foldl_max_mem (m : Nat) (ns : List Nat) : ns.foldl max m = m ∨ ns.foldl max m ∈ ns := by
  induction ns generalizing m with
  | nil => exact .inl rfl
  | cons k ns ih =>
    rw [List.foldl_cons]
    rcases ih (max m k) with h | h
    · rw [h]
      rcases max_choice m k with hm | hk
      · exact .inl hm
      · exact .inr (by simp [hk])
    · exact .inr (List.mem_cons_of_mem _ h)

theorem highest_mem (ns : List Nat) : highest ns = 0 ∨ highest ns ∈ ns := foldl_max_mem 0 ns

theorem isGreatest_highest {ns : List Nat} (h : ns ≠ []) :
    IsGreatest {n | n ∈ ns} (highest ns) := by
  refine ⟨?_, fun n hn => le_highest hn⟩
  rcases highest_mem ns with hzero | hmem
  · obtain ⟨n, hn⟩ := List.exists_mem_of_ne_nil ns h
    have hle := le_highest hn
    have : n = highest ns := by omega
    exact this ▸ hn
  · exact hmem

/-! ## One node after the other -/

def assign (edges : List (List Nat)) (levels : List (Option Nat)) (node : Nat) :
    List (Option Nat) :=
  levels.set node (some (levelAfter levels (edges.getD node [])))

/-- The levels when only the nodes of a list have got theirs. -/
def levelsOf (edges : List (List Nat)) (nodes : List Nat) : List (Option Nat) :=
  nodes.foldl (assign edges) (List.replicate edges.length none)

theorem levels_eq (edges : List (List Nat)) : levels edges = levelsOf edges (postorder edges) := rfl

theorem length_foldl_assign (nodes : List Nat) (L : List (Option Nat)) :
    (nodes.foldl (assign edges) L).length = L.length := by
  induction nodes generalizing L with
  | nil => rfl
  | cons u nodes ih => rw [List.foldl_cons, ih, assign, List.length_set]

theorem length_levelsOf (nodes : List Nat) : (levelsOf edges nodes).length = edges.length := by
  rw [levelsOf, length_foldl_assign, List.length_replicate]

theorem getD_foldl_assign {nodes : List Nat} {v : Nat} (h : v ∉ nodes) (L : List (Option Nat)) :
    (nodes.foldl (assign edges) L).getD v none = L.getD v none := by
  induction nodes generalizing L with
  | nil => rfl
  | cons u nodes ih =>
    rw [List.mem_cons, not_or] at h
    rw [List.foldl_cons, ih h.2, assign, List.getD_eq_getElem?_getD,
      List.getElem?_set_ne (Ne.symm h.1), ← List.getD_eq_getElem?_getD]

theorem getD_levelsOf_of_notMem {nodes : List Nat} {v : Nat} (h : v ∉ nodes) :
    (levelsOf edges nodes).getD v none = none := by
  rw [levelsOf, getD_foldl_assign h, List.getD_eq_getElem?_getD, List.getElem?_replicate]
  split <;> rfl

section Position

variable {before after : List Nat} {u : Nat}

theorem getD_levels_of_mem (hl : postorder edges = before ++ after) {v : Nat} (hv : v ∈ before) :
    (levels edges).getD v none = (levelsOf edges before).getD v none := by
  have hnodup := postorder_nodup edges
  rw [hl] at hnodup
  have hv' : v ∉ after := fun h => (List.disjoint_of_nodup_append hnodup) hv h
  rw [levels_eq, hl, levelsOf, List.foldl_append, getD_foldl_assign hv']
  rfl

theorem getD_levels (hl : postorder edges = before ++ u :: after) :
    (levels edges).getD u none =
      some (levelAfter (levelsOf edges before) (edges.getD u [])) := by
  have hu : u < edges.length := mem_postorder.mp (by rw [hl]; simp)
  have hl' : postorder edges = (before ++ [u]) ++ after := by simp [hl]
  rw [getD_levels_of_mem hl' (by simp), levelsOf, List.foldl_append, List.foldl_cons,
    List.foldl_nil, assign, List.getD_eq_getElem?_getD, List.getElem?_set_self]
  · rfl
  · rw [length_foldl_assign, List.length_replicate]
    exact hu

end Position

def level (edges : List (List Nat)) (v : Nat) : Nat := ((levels edges).getD v none).getD 0

theorem getD_levels_eq_level {v : Nat} (hv : v < edges.length) :
    (levels edges).getD v none = some (level edges v) := by
  obtain ⟨before, after, hl⟩ := List.append_of_mem (mem_postorder.mpr hv)
  rw [level, getD_levels hl]
  rfl

theorem mem_levelAfter {before after : List Nat} {u k : Nat}
    (hl : postorder edges = before ++ u :: after) :
    k ∈ ((edges.getD u []).filterMap fun v =>
        ((levelsOf edges before).getD v none).map (· + 1)) ↔
      ∃ v, Adj edges u v ∧ v ∈ before ∧ k = level edges v + 1 := by
  rw [List.mem_filterMap]
  constructor
  · rintro ⟨v, hadj, hk⟩
    have hv : v ∈ before := by
      by_contra hv
      rw [getD_levelsOf_of_notMem hv] at hk
      cases hk
    have hlt : v < edges.length := mem_postorder.mp (by rw [hl]; simp [hv])
    rw [← getD_levels_of_mem hl hv, getD_levels_eq_level hlt] at hk
    exact ⟨v, hadj, hv, (Option.some.inj hk).symm⟩
  · rintro ⟨v, hadj, hv, rfl⟩
    have hlt : v < edges.length := mem_postorder.mp (by rw [hl]; simp [hv])
    exact ⟨v, hadj, by rw [← getD_levels_of_mem hl hv, getD_levels_eq_level hlt]; rfl⟩

theorem level_eq_highest {before after : List Nat} {u : Nat}
    (hl : postorder edges = before ++ u :: after) :
    level edges u = highest ((edges.getD u []).filterMap fun v =>
      ((levelsOf edges before).getD v none).map (· + 1)) := by
  rw [level, getD_levels hl]
  rfl

/-- A node is above the target of each of its edges that does not lead back to it. -/
theorem level_lt_of_adj {u v : Nat} (hadj : Adj edges u v) (hv : v < edges.length)
    (hback : ¬ Reaches edges v u) : level edges v < level edges u := by
  obtain ⟨before, after, hl⟩ := List.append_of_mem (mem_postorder.mpr hadj.lt_length)
  have hmem := (postorder_ordered hl hadj hv).resolve_right hback
  rw [level_eq_highest hl]
  exact le_highest ((mem_levelAfter hl).mpr ⟨v, hadj, hmem, rfl⟩)

/-- A node above level zero has an edge to a node one level below. -/
theorem exists_adj_level {u k : Nat} (hu : u < edges.length) (hk : level edges u = k + 1) :
    ∃ v, Adj edges u v ∧ v < edges.length ∧ level edges v = k := by
  obtain ⟨before, after, hl⟩ := List.append_of_mem (mem_postorder.mpr hu)
  rw [level_eq_highest hl] at hk
  rcases highest_mem _ with h | h <;> rw [hk] at h
  · cases h
  · obtain ⟨v, hadj, hv, hkv⟩ := (mem_levelAfter hl).mp h
    exact ⟨v, hadj, mem_postorder.mp (by rw [hl]; simp [hv]), by omega⟩

/-! ## Chains -/

/-- From a node there is a chain of edges as long as its level is high. -/
theorem exists_chain_level {u : Nat} (hu : u < edges.length) :
    ∃ chain, chain.length = level edges u ∧ (u :: chain).IsChain (Adj edges) := by
  generalize hk : level edges u = k
  induction k generalizing u with
  | zero => exact ⟨[], rfl, .singleton u⟩
  | succ k ih =>
    obtain ⟨v, hadj, hv, hvk⟩ := exists_adj_level hu hk
    obtain ⟨chain, hlength, hchain⟩ := ih hv hvk
    exact ⟨v :: chain, by rw [List.length_cons, hlength], hchain.cons_cons hadj⟩

/-- Without a cycle the level goes down along every edge, so no chain is longer. -/
theorem length_chain_le (hacyclic : Acyclic edges)
    (hlt : ∀ u v, Adj edges u v → v < edges.length) {u : Nat} {chain : List Nat}
    (hchain : (u :: chain).IsChain (Adj edges)) : chain.length ≤ level edges u := by
  induction chain generalizing u with
  | nil => exact Nat.zero_le _
  | cons v chain ih =>
    obtain ⟨hadj, hrest⟩ := List.isChain_cons_cons.mp hchain
    have hdown : level edges v < level edges u :=
      level_lt_of_adj hadj (hlt u v hadj) fun hback => hacyclic u (.head hadj hback)
    have := ih hrest
    rw [List.length_cons]
    omega

theorem isGreatest_level (hacyclic : Acyclic edges)
    (hlt : ∀ u v, Adj edges u v → v < edges.length) {u : Nat} (hu : u < edges.length) :
    IsGreatest {n | ∃ chain, chain.length = n ∧ (u :: chain).IsChain (Adj edges)}
      (level edges u) := by
  refine ⟨exists_chain_level hu, ?_⟩
  rintro n ⟨chain, rfl, hchain⟩
  exact length_chain_le hacyclic hlt hchain

/-! ## Groups -/

/-- Below each number of the list there is no gap. -/
def Gapless (ns : List Nat) : Prop := ∀ k, k + 1 ∈ ns → k ∈ ns

theorem Gapless.mem_of_le {ns : List Nat} (h : Gapless ns) {m n : Nat} (hn : n ∈ ns) (hle : m ≤ n) :
    m ∈ ns := by
  induction n with
  | zero => rwa [Nat.le_zero.mp hle]
  | succ n ih =>
    rcases Nat.lt_succ_iff_lt_or_eq.mp (Nat.lt_succ_of_le hle) with hlt | rfl
    · exact ih (h n hn) (Nat.le_of_lt_succ hlt)
    · exact hn

theorem gapless_levels (edges : List (List Nat)) :
    Gapless ((levels edges).map (·.getD 0)) := by
  have hlen : (levels edges).length = edges.length := by rw [levels_eq, length_levelsOf]
  have hmem : ∀ k, k ∈ (levels edges).map (·.getD 0) ↔
      ∃ v, v < edges.length ∧ level edges v = k := by
    intro k
    rw [List.mem_map]
    constructor
    · rintro ⟨l, hl, rfl⟩
      obtain ⟨v, hv, rfl⟩ := List.getElem_of_mem hl
      exact ⟨v, by omega, by simp [level, List.getD_eq_getElem?_getD, hv]⟩
    · rintro ⟨v, hv, rfl⟩
      refine ⟨(levels edges).getD v none, ?_, rfl⟩
      rw [List.getD_eq_getElem _ _ (by omega)]
      exact List.getElem_mem _
  intro k hk
  obtain ⟨u, hu, huk⟩ := (hmem _).mp hk
  obtain ⟨v, -, hv, hvk⟩ := exists_adj_level hu huk
  exact (hmem k).mpr ⟨v, hv, hvk⟩

theorem level_le_highest {v : Nat} (hv : v < edges.length) :
    level edges v ≤ highest ((levels edges).map (·.getD 0)) := by
  have hv' : v < (levels edges).length := by rwa [levels_eq, length_levelsOf]
  apply le_highest
  rw [level, List.getD_eq_getElem _ _ hv']
  exact List.mem_map_of_mem (List.getElem_mem hv')

section Groups

variable {α : Type} {ls : List (Option Nat)} {things : List α}

def group (ls : List (Option Nat)) (things : List α) (k : Nat) : List α :=
  ((things.zip (ls.map (·.getD 0))).filter fun p => p.2 == k).map Prod.fst

theorem mem_group {x : α} {k : Nat} :
    x ∈ group ls things k ↔
      ∃ i : Nat, things[i]? = some x ∧ (ls.map (·.getD 0))[i]? = some k := by
  simp only [group, List.mem_map, List.mem_filter, beq_iff_eq, Prod.exists]
  constructor
  · rintro ⟨y, l, ⟨hmem, rfl⟩, rfl⟩
    obtain ⟨i, hi⟩ := List.mem_iff_getElem?.mp hmem
    exact ⟨i, List.getElem?_zip_eq_some.mp hi⟩
  · rintro ⟨i, hx, hk⟩
    exact ⟨x, k, ⟨List.mem_iff_getElem?.mpr ⟨i, List.getElem?_zip_eq_some.mpr ⟨hx, hk⟩⟩, rfl⟩, rfl⟩

/-- Without a gap between the levels no group but that of an empty list is empty. -/
theorem groupByLevel_eq (hlen : ls.length = things.length) (hgap : Gapless (ls.map (·.getD 0)))
    (hne : things ≠ []) :
    groupByLevel ls things =
      (List.range (highest (ls.map (·.getD 0)) + 1)).map (group ls things) := by
  have hsnd : (things.zip (ls.map (·.getD 0))).map Prod.snd = ls.map (·.getD 0) :=
    List.map_snd_zip (by simp [hlen])
  show List.filter _ (List.map (group ls things) _) = _
  rw [hsnd]
  apply List.filter_eq_self.mpr
  intro g hg
  obtain ⟨k, hk, rfl⟩ := List.mem_map.mp hg
  have hle : k ≤ highest (ls.map (·.getD 0)) := by
    have := List.mem_range.mp hk
    omega
  have hmem : k ∈ ls.map (·.getD 0) := by
    rcases highest_mem (ls.map (·.getD 0)) with h | h
    · obtain ⟨n, hn⟩ : ∃ n, n ∈ ls.map (·.getD 0) := by
        apply List.exists_mem_of_ne_nil
        intro h
        have := congrArg List.length h
        simp only [List.length_map, hlen, List.length_nil] at this
        exact hne (List.length_eq_zero_iff.mp this)
      exact hgap.mem_of_le hn (by omega)
    · exact hgap.mem_of_le h hle
  obtain ⟨i, hi⟩ := List.mem_iff_getElem?.mp hmem
  have hlt : i < things.length := by
    have := (List.getElem?_eq_some_iff.mp hi).1
    simpa [hlen] using this
  have : things[i] ∈ group ls things k :=
    mem_group.mpr ⟨i, List.getElem?_eq_getElem hlt, hi⟩
  simpa using List.ne_nil_of_mem this

/-- Without a gap between the levels, the position of a group is its level. -/
theorem mem_groupByLevel (hlen : ls.length = things.length)
    (hgap : Gapless (ls.map (·.getD 0))) {x : α} {k : Nat} :
    (∃ g, (groupByLevel ls things)[k]? = some g ∧ x ∈ g) ↔
      ∃ i : Nat, things[i]? = some x ∧ (ls.map (·.getD 0))[i]? = some k := by
  rcases eq_or_ne things [] with rfl | hne
  · have : groupByLevel ls ([] : List α) = [] := by simp [groupByLevel, highest]
    simp [this]
  rw [groupByLevel_eq hlen hgap hne, ← mem_group]
  simp only [List.getElem?_map, Option.map_eq_some_iff]
  constructor
  · rintro ⟨g, ⟨l, hl, rfl⟩, hx⟩
    obtain ⟨_, rfl⟩ := List.getElem?_eq_some_iff.mp hl
    simpa using hx
  · intro hx
    obtain ⟨i, hi, hk⟩ := mem_group.mp hx
    have hle := le_highest (List.mem_of_getElem? hk)
    exact ⟨_, ⟨k, by rw [List.getElem?_range (by omega)], rfl⟩, hx⟩

theorem ne_nil_of_mem_groupByLevel {g : List α} (h : g ∈ groupByLevel ls things) : g ≠ [] := by
  simpa using (List.mem_filter.mp h).2

/-- Below the bound each thing is in the group of its own number. -/
theorem perm_flatten_filter (f : α → Nat) (things : List α) (n : Nat) :
    ((List.range n).map fun k => things.filter (f · == k)).flatten.Perm
      (things.filter (f · < n)) := by
  induction n with
  | zero => simp
  | succ n ih =>
    have hlow : (things.filter (f · < n + 1)).filter (f · < n) = things.filter (f · < n) := by
      rw [List.filter_filter]
      refine List.filter_congr fun x _ => ?_
      rw [← Bool.decide_and, decide_eq_decide]
      omega
    have hlast : (things.filter (f · < n + 1)).filter (fun x => !decide (f x < n)) =
        things.filter (f · == n) := by
      rw [List.filter_filter]
      refine List.filter_congr fun x _ => ?_
      rw [Bool.eq_iff_iff]
      simp
      omega
    have hsplit := List.filter_append_perm (f · < n) (things.filter (f · < n + 1))
    rw [hlow, hlast] at hsplit
    rw [List.range_succ, List.map_append, List.flatten_append, List.map_singleton,
      List.flatten_singleton]
    exact (ih.append_right _).trans hsplit

/-- The things whose positions are on a level, in their order. -/
def onLevel (edges : List (List Nat)) (things : List α) (k : Nat) : List α :=
  (things.zipIdx.filter fun p => level edges p.2 == k).map Prod.fst

theorem group_levels (hlen : edges.length = things.length) (k : Nat) :
    group (levels edges) things k = onLevel edges things k := by
  have hplaced : things.zip ((levels edges).map (·.getD 0)) =
      things.zipIdx.map fun p => (p.1, level edges p.2) := by
    apply List.ext_getElem?
    intro i
    have hlen' : (levels edges).length = things.length := by
      rw [levels_eq, length_levelsOf, hlen]
    simp only [List.getElem?_map, List.getElem?_zipIdx, List.zip_eq_zipWith, List.getElem?_zipWith]
    by_cases hi : i < things.length
    · simp [level, hi, hlen', List.getD_eq_getElem?_getD]
    · simp [List.getElem?_eq_none (Nat.le_of_not_lt hi)]
  rw [group, hplaced, List.filter_map, List.map_map]
  rfl

variable (hlen : edges.length = things.length)
include hlen

theorem groupByLevel_levels (hne : things ≠ []) :
    groupByLevel (levels edges) things =
      (List.range (highest ((levels edges).map (·.getD 0)) + 1)).map (onLevel edges things) := by
  have hlen' : (levels edges).length = things.length := by rw [levels_eq, length_levelsOf, hlen]
  rw [groupByLevel_eq hlen' (gapless_levels edges) hne]
  exact List.map_congr_left fun k _ => group_levels hlen k

theorem level_lt_length {v : Nat} (hv : v < edges.length) :
    level edges v < (groupByLevel (levels edges) things).length := by
  have hne : things ≠ [] := by
    rintro rfl
    rw [hlen] at hv
    exact Nat.not_lt_zero v hv
  have := level_le_highest hv
  rw [groupByLevel_levels hlen hne, List.length_map, List.length_range]
  omega

theorem getElem?_groupByLevel {k : Nat} {g : List α}
    (h : (groupByLevel (levels edges) things)[k]? = some g) : g = onLevel edges things k := by
  rcases eq_or_ne things [] with rfl | hne
  · exact absurd h (by simp [groupByLevel, highest])
  · rw [groupByLevel_levels hlen hne, List.getElem?_map, Option.map_eq_some_iff] at h
    obtain ⟨l, hl, rfl⟩ := h
    obtain ⟨_, rfl⟩ := List.getElem?_eq_some_iff.mp hl
    rw [List.getElem_range]

theorem perm_flatten_groupByLevel :
    (groupByLevel (levels edges) things).flatten.Perm things := by
  rcases eq_or_ne things [] with rfl | hne
  · simp [groupByLevel, highest]
  · have hall : ∀ p ∈ things.zipIdx,
        level edges p.2 < highest ((levels edges).map (·.getD 0)) + 1 := by
      intro p hp
      have hlt := List.snd_lt_of_mem_zipIdx hp
      exact Nat.lt_succ_of_le (level_le_highest (by omega))
    have hperm := perm_flatten_filter (fun p : α × Nat => level edges p.2) things.zipIdx
      (highest ((levels edges).map (·.getD 0)) + 1)
    rw [List.filter_eq_self.mpr fun p hp => decide_eq_true (hall p hp)] at hperm
    have hfst := hperm.map Prod.fst
    rw [List.map_flatten, List.map_map, List.zipIdx_map_fst] at hfst
    rw [groupByLevel_levels hlen hne]
    exact hfst

end Groups

end WorkflowEngine.Graph
