import WorkflowEngine.Proofs.Expression.Secrets

/-!
# The texts in a value

A value is searched for secrets text by text, in the order in which the texts stand in it
(`searchSecrets_eq`, `searchTask_eq`), and up to the first that uses them (`searchTexts_eq_true`).
Filling it in depends on a cache only as far as its texts do (`fill_agree`).
-/

namespace WorkflowEngine.Expression

open Json (Value)

mutual

/-- The texts in a value, at any depth. -/
def textsIn : Value → List String
  | .str text => [text]
  | .arr items => textsInItems items
  | .obj fields => textsInFields fields
  | _ => []

def textsInItems : List Value → List String
  | [] => []
  | v :: rest => textsIn v ++ textsInItems rest

def textsInFields : List (String × Value) → List String
  | [] => []
  | (_, v) :: rest => textsIn v ++ textsInFields rest

end

/-- The texts of a task that are templates. -/
def textsOfTask (t : Task) : List String := t.description.toList ++ textsInFields t.parameters

/-- The text is a template with a span that uses secrets. -/
def UsesSecrets (text : String) : Prop := ∃ t, parseTemplate text = .ok t ∧ t.usesSecrets = true

/-- Whether some text uses secrets, as far as the first that does. -/
def searchTexts : List String → Except Fault Bool
  | [] => .ok false
  | text :: rest =>
    match parseTemplate text with
    | .error fault => .error fault
    | .ok t => if t.usesSecrets then .ok true else searchTexts rest

theorem searchTexts_append (before after : List String) :
    searchTexts (before ++ after) =
      match searchTexts before with
      | .error fault => .error fault
      | .ok true => .ok true
      | .ok false => searchTexts after := by
  induction before with
  | nil => rfl
  | cons text rest ih =>
    rw [List.cons_append, searchTexts, searchTexts]
    cases parseTemplate text with
    | error fault => rfl
    | ok t =>
      by_cases huses : t.usesSecrets = true
      · simp [huses]
      · simp only [huses]
        exact ih

theorem searchTexts_eq_true {texts : List String} (h : searchTexts texts = .ok true) :
    ∃ text ∈ texts, UsesSecrets text := by
  induction texts with
  | nil => cases h
  | cons text rest ih =>
    rw [searchTexts] at h
    split at h
    · cases h
    · rename_i t ht
      split at h
      · rename_i huses
        exact ⟨text, List.mem_cons_self, t, ht, huses⟩
      · obtain ⟨text', hmem, huses⟩ := ih h
        exact ⟨text', List.mem_cons_of_mem text hmem, huses⟩

theorem searchTexts_eq_false {texts : List String} (h : searchTexts texts = .ok false) :
    ∀ text ∈ texts, ¬ UsesSecrets text := by
  induction texts with
  | nil => simp
  | cons text rest ih =>
    rw [searchTexts] at h
    split at h
    · cases h
    · rename_i t ht
      split at h
      · cases h
      · rename_i hnot
        intro text' hmem
        rcases List.mem_cons.mp hmem with rfl | hmem
        · rintro ⟨t', ht', huses⟩
          rw [ht] at ht'
          cases ht'
          exact hnot huses
        · exact ih h text' hmem

theorem searchTexts_eq_error {texts : List String} {fault : Fault}
    (h : searchTexts texts = .error fault) : ∃ text ∈ texts, parseTemplate text = .error fault := by
  induction texts with
  | nil => cases h
  | cons text rest ih =>
    rw [searchTexts] at h
    split at h
    · rename_i ht
      cases h
      exact ⟨text, List.mem_cons_self, ht⟩
    · split at h
      · cases h
      · obtain ⟨text', hmem, ht⟩ := ih h
        exact ⟨text', List.mem_cons_of_mem text hmem, ht⟩

mutual

theorem searchSecrets_eq (v : Value) : searchSecrets v = searchTexts (textsIn v) := by
  cases v with
  | str text =>
    rw [searchSecrets, textsIn, searchTexts]
    cases parseTemplate text with
    | error fault => rfl
    | ok t => cases huses : t.usesSecrets <;> simp [huses, searchTexts]
  | arr items => rw [searchSecrets, textsIn, searchItems_eq items]
  | obj fields => rw [searchSecrets, textsIn, searchFields_eq fields]
  | null => rfl
  | bool b => rfl
  | num n => rfl

theorem searchItems_eq (items : List Value) :
    searchItems items = searchTexts (textsInItems items) := by
  cases items with
  | nil => rfl
  | cons v rest =>
    rw [searchItems, textsInItems, searchSecrets_eq v, searchItems_eq rest]
    exact (searchTexts_append (textsIn v) (textsInItems rest)).symm

theorem searchFields_eq (fields : List (String × Value)) :
    searchFields fields = searchTexts (textsInFields fields) := by
  cases fields with
  | nil => rfl
  | cons field rest =>
    obtain ⟨k, v⟩ := field
    rw [searchFields, textsInFields, searchSecrets_eq v, searchFields_eq rest]
    exact (searchTexts_append (textsIn v) (textsInFields rest)).symm

end

/-- A description is searched before the parameters. -/
theorem searchTask_eq {t : Task} {description : Option (String × Template)}
    (h : Scope.parseDescription t.description = .ok description) :
    Scope.searchTask description t.parameters = searchTexts (textsOfTask t) := by
  rw [Scope.searchTask, textsOfTask, searchFields_eq]
  cases hd : t.description with
  | none =>
    rw [hd, Scope.parseDescription] at h
    cases h
    rfl
  | some text =>
    rw [hd, Scope.parseDescription] at h
    split at h
    · cases h
    · rename_i t' ht
      cases h
      rw [Option.toList_some, List.singleton_append, searchTexts, ht]
      simp

/-! ## Filling in -/

namespace Scope

variable {c c' : SecretCache}

theorem fillText_agree (s : Scope) {text : String} (h : UsesSecrets text → c.Agrees c') :
    (s.withSecrets c).fillText text = (s.withSecrets c').fillText text := by
  rw [fillText, fillText]
  split
  · rfl
  · rename_i t ht
    exact render_agree s text fun huses => h ⟨t, ht, huses⟩

mutual

theorem fill_agree (s : Scope) {v : Value}
    (h : ∀ text ∈ textsIn v, UsesSecrets text → c.Agrees c') :
    (s.withSecrets c).fill v = (s.withSecrets c').fill v := by
  cases v with
  | str text =>
    rw [fill, fill]
    exact fillText_agree s (h text (by simp [textsIn]))
  | arr items =>
    rw [textsIn] at h
    rw [fill, fill, fillItems_agree s h]
  | obj fields =>
    rw [textsIn] at h
    rw [fill, fill, fillFields_agree s h]
  | null => rfl
  | bool b => rfl
  | num n => rfl

theorem fillItems_agree (s : Scope) {items : List Value}
    (h : ∀ text ∈ textsInItems items, UsesSecrets text → c.Agrees c') :
    (s.withSecrets c).fillItems items = (s.withSecrets c').fillItems items := by
  cases items with
  | nil => rfl
  | cons v rest =>
    simp only [textsInItems, List.mem_append] at h
    rw [fillItems, fillItems, fill_agree s fun text htext => h text (.inl htext),
      fillItems_agree s fun text htext => h text (.inr htext)]

theorem fillFields_agree (s : Scope) {fields : List (String × Value)}
    (h : ∀ text ∈ textsInFields fields, UsesSecrets text → c.Agrees c') :
    (s.withSecrets c).fillFields fields = (s.withSecrets c').fillFields fields := by
  cases fields with
  | nil => rfl
  | cons field rest =>
    obtain ⟨k, v⟩ := field
    simp only [textsInFields, List.mem_append] at h
    rw [fillFields, fillFields, fill_agree s fun text htext => h text (.inl htext),
      fillFields_agree s fun text htext => h text (.inr htext)]

end

theorem fillTask_agree (s : Scope) {t : Task} {description : Option (String × Template)}
    (hparsed : parseDescription t.description = .ok description)
    (h : ∀ text ∈ textsOfTask t, UsesSecrets text → c.Agrees c') :
    (s.withSecrets c).fillTask t description = (s.withSecrets c').fillTask t description := by
  simp only [textsOfTask, List.mem_append, Option.mem_toList] at h
  have hfields := fillFields_agree s fun text htext => h text (.inr htext)
  rw [fillTask.eq_def, fillTask.eq_def, hfields]
  cases description with
  | none => rfl
  | some d =>
    obtain ⟨text, template⟩ := d
    have hrender : (s.withSecrets c).describe text template =
        (s.withSecrets c').describe text template := by
      cases hd : t.description with
      | none =>
        rw [hd, parseDescription] at hparsed
        cases hparsed
      | some text' =>
        rw [hd, parseDescription] at hparsed
        split at hparsed
        · cases hparsed
        · rename_i template' htemplate
          cases hparsed
          have huses := h text (.inl hd)
          rw [describe, describe, render_agree s text fun h' => huses ⟨template, htemplate, h'⟩]
    dsimp only
    rw [hrender]

end Scope

end WorkflowEngine.Expression
