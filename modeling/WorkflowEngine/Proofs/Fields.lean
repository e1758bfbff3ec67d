import WorkflowEngine.Fields

/-!
# Looking up what was stored

Storing and removing an entry show under its own key only, in whatever order the entries are.
Entries that are stored one after the other end up in key order, in whatever order they come.
-/

namespace WorkflowEngine

namespace Fields

variable {α : Type}

theorem find?_insert (key key' : String) (value : α) (fields : Fields α) :
    (fields.insert key value).find? key' =
      if key = key' then some value else fields.find? key' := by
  induction fields with
  | nil => rfl
  | cons entry rest ih =>
    obtain ⟨k, v⟩ := entry
    rw [insert]
    split
    · rfl
    · split
      · rename_i hkey
        rw [find?, find?, hkey]
        split <;> rfl
      · rename_i hkey
        rw [find?, find?, ih]
        by_cases hk : k = key'
        · rw [if_pos hk, if_pos hk, if_neg fun h => hkey (h.trans hk.symm)]
        · rw [if_neg hk, if_neg hk]

theorem find?_append (key : String) (fields rest : Fields α) :
    find? key (fields ++ rest) = (fields.find? key).or (rest.find? key) := by
  induction fields with
  | nil => rfl
  | cons entry fields ih =>
    obtain ⟨k, v⟩ := entry
    rw [List.cons_append, find?, find?, ih]
    split <;> rfl

theorem find?_erase (key key' : String) (fields : Fields α) :
    (fields.erase key).find? key' = if key = key' then none else fields.find? key' := by
  induction fields with
  | nil => simp [erase, find?]
  | cons entry rest ih =>
    obtain ⟨k, v⟩ := entry
    rw [erase] at ih ⊢
    by_cases hk : k = key
    · simp only [List.filter_cons, hk, bne_self_eq_false, Bool.false_eq_true, if_false, ih, find?]
      split <;> rfl
    · simp only [List.filter_cons, bne_iff_ne.mpr hk, if_true, find?, ih]
      by_cases h : key = key'
      · rw [if_pos h, if_neg fun hk' => hk (hk'.trans h.symm), if_pos h]
      · rw [if_neg h, if_neg h]

theorem has_insert_self (key : String) (value : α) (fields : Fields α) :
    (fields.insert key value).has key := by
  simp [has, find?_insert]

theorem has_insert_of_has {key key' : String} (value : α) {fields : Fields α}
    (h : fields.has key') : (fields.insert key value).has key' := by
  rw [has, find?_insert]
  split
  · rfl
  · exact h

theorem has_insert (key key' : String) (value : α) (fields : Fields α) :
    (fields.insert key value).has key' ↔ key = key' ∨ fields.has key' := by
  rw [has, find?_insert]
  by_cases h : key = key'
  · simp [h]
  · simp [h, has]

theorem has_iff_mem_keys {key : String} {fields : Fields α} :
    fields.has key ↔ key ∈ fields.keys := by
  induction fields with
  | nil => simp [has, find?, keys]
  | cons entry rest ih =>
    obtain ⟨k, v⟩ := entry
    rw [keys, List.map_cons, List.mem_cons, ← keys, ← ih, has, find?]
    by_cases hk : k = key
    · simp [hk]
    · simp [hk, has, Ne.symm hk]

theorem has_of_mem {e : String × α} {fields : Fields α} (h : e ∈ fields) : fields.has e.1 :=
  has_iff_mem_keys.mpr (List.mem_map_of_mem h)

theorem mem_of_find? {key : String} {value : α} {fields : Fields α}
    (h : fields.find? key = some value) : (key, value) ∈ fields := by
  induction fields with
  | nil => cases h
  | cons entry rest ih =>
    obtain ⟨k, v⟩ := entry
    rw [find?] at h
    split at h
    · rename_i hkey
      cases h
      rw [hkey]
      exact List.mem_cons_self
    · exact List.mem_cons_of_mem _ (ih h)

theorem mem_insert {key : String} {value : α} {fields : Fields α} {e : String × α}
    (h : e ∈ fields.insert key value) : e = (key, value) ∨ e ∈ fields := by
  induction fields with
  | nil => exact .inl (List.mem_singleton.mp h)
  | cons entry rest ih =>
    obtain ⟨k, v⟩ := entry
    rw [insert] at h
    split at h
    · exact List.mem_cons.mp h
    · split at h
      · exact (List.mem_cons.mp h).imp_right (List.mem_cons_of_mem _)
      · rcases List.mem_cons.mp h with rfl | h
        · exact .inr (List.mem_cons_self ..)
        · exact (ih h).imp_right (List.mem_cons_of_mem _)

/-- Under a new key an entry is added to those that are there. -/
theorem perm_insert {key : String} (value : α) {fields : Fields α} (h : ¬ fields.has key) :
    (fields.insert key value).Perm ((key, value) :: fields) := by
  induction fields with
  | nil => exact .refl _
  | cons entry rest ih =>
    obtain ⟨k, v⟩ := entry
    rw [has_iff_mem_keys, keys, List.map_cons, List.mem_cons, not_or, ← keys,
      ← has_iff_mem_keys] at h
    rw [insert]
    split
    · exact .refl _
    · rw [if_neg h.1]
      exact ((ih h.2).cons _).trans (.swap ..)

/-- An entry that a filter does not let through does not show. -/
theorem filter_insert {p : String → Bool} {key : String} (value : α) (fields : Fields α)
    (h : p key = false) :
    (fields.insert key value).filter (p ·.1) = fields.filter (p ·.1) := by
  induction fields with
  | nil => simp [insert, h]
  | cons entry rest ih =>
    obtain ⟨k, v⟩ := entry
    rw [insert]
    split
    · simp [h]
    · split
      · rename_i hkey
        subst hkey
        simp [h]
      · rw [List.filter_cons, List.filter_cons, ih]

/-! ## Key order -/

theorem sorted_insert (key : String) (value : α) {fields : Fields α} (h : fields.Sorted) :
    (fields.insert key value).Sorted := by
  induction fields with
  | nil => exact List.pairwise_singleton ..
  | cons entry rest ih =>
    obtain ⟨k, v⟩ := entry
    obtain ⟨hfirst, hrest⟩ := List.pairwise_cons.mp h
    rw [insert]
    split
    · rename_i hlt
      refine List.pairwise_cons.mpr ⟨fun e he => ?_, h⟩
      rcases List.mem_cons.mp he with rfl | he
      · exact hlt
      · exact String.lt_trans hlt (hfirst e he)
    · rename_i hle
      split
      · rename_i hkey
        subst hkey
        exact List.pairwise_cons.mpr ⟨hfirst, hrest⟩
      · rename_i hne
        have hlt : k < key := by
          by_cases hlt : k < key
          · exact hlt
          · exact absurd (String.le_antisymm (String.not_lt.mp hlt) (String.not_lt.mp hle)) hne
        refine List.pairwise_cons.mpr ⟨fun e he => ?_, ih hrest⟩
        rcases mem_insert he with rfl | he
        · exact hlt
        · exact hfirst e he

theorem sorted_foldl_insert (entries : List (String × α)) {fields : Fields α} (h : fields.Sorted) :
    Sorted (entries.foldl (fun fields e => fields.insert e.1 e.2) fields) := by
  induction entries generalizing fields with
  | nil => exact h
  | cons e entries ih => exact ih (sorted_insert e.1 e.2 h)

theorem perm_foldl_insert {entries : List (String × α)} {fields : Fields α}
    (h : (entries.map Prod.fst ++ fields.keys).Nodup) :
    (entries.foldl (fun fields e => fields.insert e.1 e.2) fields).Perm (entries ++ fields) := by
  induction entries generalizing fields with
  | nil => exact .refl _
  | cons e entries ih =>
    rw [List.map_cons, List.cons_append, List.nodup_cons, List.mem_append, not_or] at h
    have hnew : ¬ fields.has e.1 := fun hhas => h.1.2 (has_iff_mem_keys.mp hhas)
    have hperm := perm_insert e.2 hnew
    have hnodup : (entries.map Prod.fst ++ (fields.insert e.1 e.2).keys).Nodup := by
      refine (List.Perm.append_left _ (hperm.map Prod.fst)).nodup_iff.mpr ?_
      refine List.perm_middle.nodup_iff.mpr (List.nodup_cons.mpr ⟨?_, h.2⟩)
      exact fun hmem => (List.mem_append.mp hmem).elim h.1.1 h.1.2
    exact (ih hnodup).trans ((hperm.append_left entries).trans List.perm_middle)

theorem Sorted.nodup_keys {fields : Fields α} (h : fields.Sorted) : fields.keys.Nodup := by
  refine List.pairwise_map.mpr (h.imp fun {a b} hlt heq => ?_)
  rw [heq] at hlt
  exact String.lt_irrefl _ hlt

/-- Fields in key order are restored from their entries in any order. -/
theorem ofList_eq_of_perm {entries : List (String × α)} {fields : Fields α} (h : fields.Sorted)
    (hperm : entries.Perm fields) : ofList entries = fields := by
  have hnodup : (entries.map Prod.fst ++ keys ([] : Fields α)).Nodup := by
    rw [keys, List.map_nil, List.append_nil]
    exact (hperm.map Prod.fst).nodup_iff.mpr h.nodup_keys
  have hsame := (perm_foldl_insert hnodup).trans ((List.append_nil entries).symm ▸ hperm)
  exact hsame.eq_of_pairwise (fun a b _ _ hab hba => (String.lt_asymm hab hba).elim)
    (sorted_foldl_insert entries .nil) h

end Fields

end WorkflowEngine
