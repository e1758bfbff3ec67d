import WorkflowEngine.Proofs.Expression.Placeholder

/-!
# Values with a faulty text

A value or a task in which some text is no template cannot be replaced. Whether the provider of
secrets is asked on the way depends on the texts before the first faulty one: the search for secrets
goes through the texts in order and ends at the first that uses them (`Refused`). What stands after
the faulty text makes no difference.
-/

namespace WorkflowEngine.Expression

open Json (Value)

theorem checkSyntax_eq_ok {text : String} :
    checkSyntax text = .ok () ↔ ∃ t, parseTemplate text = .ok t := by
  rw [checkSyntax]
  cases parseTemplate text with
  | error fault => simp
  | ok t => simp

theorem checkSyntax_eq_error {text : String} {fault : Fault} :
    checkSyntax text = .error fault ↔ parseTemplate text = .error fault := by
  rw [checkSyntax]
  cases parseTemplate text with
  | error fault' => simp
  | ok t => simp

theorem SecretCache.calls_lt_load (c : SecretCache) :
    c.calls < c.load.2.calls ↔ c.provider.isSome ∧ c.loaded = none := by
  have hload := c.load_spec
  generalize c.load = l at *
  obtain ⟨r, c'⟩ := l
  cases hload with
  | disabled hprovider =>
    dsimp only at hprovider ⊢
    simp [hprovider]
  | kept _ hloaded =>
    dsimp only at hloaded ⊢
    simp [hloaded]
  | fetched hprovider hloaded _ => simp [hprovider, hloaded]
  | failed hprovider hloaded _ => simp [hprovider, hloaded]

/-! ## The first faulty text -/

variable {texts before : List String} {fault : Fault}

/-- These texts come before the first one that is no template, and `fault` is what is wrong with
that one. -/
def FaultyAfter (before : List String) (fault : Fault) (texts : List String) : Prop :=
  ∃ bad after, texts = before ++ bad :: after ∧ (∀ text ∈ before, checkSyntax text = .ok ()) ∧
    checkSyntax bad = .error fault

theorem exists_faultyAfter (h : ∃ text ∈ texts, checkSyntax text ≠ .ok ()) :
    ∃ before fault, FaultyAfter before fault texts := by
  induction texts with
  | nil => simp at h
  | cons text rest ih =>
    cases htext : checkSyntax text with
    | error fault => exact ⟨[], fault, text, rest, rfl, by simp, htext⟩
    | ok u =>
      have hrest : ∃ text ∈ rest, checkSyntax text ≠ .ok () := by
        obtain ⟨bad, hbad, hfaulty⟩ := h
        rcases List.mem_cons.mp hbad with rfl | hbad
        · exact absurd htext hfaulty
        · exact ⟨bad, hbad, hfaulty⟩
      obtain ⟨before, fault, bad, after, rfl, hbefore, hfault⟩ := ih hrest
      refine ⟨text :: before, fault, bad, after, rfl, ?_, hfault⟩
      intro text' htext'
      rcases List.mem_cons.mp htext' with rfl | htext'
      · exact htext
      · exact hbefore text' htext'

/-- A search among templates has no fault. -/
theorem searchTexts_of_templates (h : ∀ text ∈ texts, checkSyntax text = .ok ()) :
    ∃ needed, searchTexts texts = .ok needed ∧
      (needed = true ↔ ∃ text ∈ texts, UsesSecrets text) := by
  cases hsearch : searchTexts texts with
  | error fault =>
    obtain ⟨text, htext, hfault⟩ := searchTexts_eq_error hsearch
    obtain ⟨t, ht⟩ := checkSyntax_eq_ok.mp (h text htext)
    rw [ht] at hfault
    cases hfault
  | ok needed =>
    refine ⟨needed, rfl, ?_⟩
    cases needed with
    | true => simpa using searchTexts_eq_true hsearch
    | false => simpa using searchTexts_eq_false hsearch

theorem FaultyAfter.searchTexts_eq (h : FaultyAfter before fault texts) :
    (∃ text ∈ before, UsesSecrets text) ∧ searchTexts texts = .ok true ∨
      (¬ ∃ text ∈ before, UsesSecrets text) ∧ searchTexts texts = .error fault := by
  obtain ⟨bad, after, rfl, hbefore, hbad⟩ := h
  obtain ⟨needed, hsearch, huses⟩ := searchTexts_of_templates hbefore
  rw [searchTexts_append, hsearch, ← huses]
  cases needed with
  | true => exact .inl ⟨rfl, rfl⟩
  | false => exact .inr ⟨by simp, by rw [searchTexts, checkSyntax_eq_error.mp hbad]⟩

namespace Scope

variable {α : Type} {s : Scope}

/-- Searches the texts for uses of secrets, loads them if there are any, and goes on. -/
def afterSearch (s : Scope) (texts : List String) (use : Scope → Except Fault α) :
    Except Fault α × Scope :=
  match searchTexts texts with
  | .error fault => (.error fault, s)
  | .ok needed => s.afterSecrets needed use

theorem replaceValue_eq (s : Scope) (v : Value) :
    s.replaceValue v = s.afterSearch (textsIn v) fun s => s.fill v := by
  rw [replaceValue, searchSecrets_eq]
  rfl

/-- A description is parsed before the search; when it is no template the search would end there. -/
theorem replaceTask_eq (s : Scope) (t : Task) :
    ∃ use, s.replaceTask t = s.afterSearch (textsOfTask t) use := by
  rw [replaceTask]
  cases hparsed : parseDescription t.description with
  | ok description =>
    dsimp only
    rw [searchTask_eq hparsed]
    exact ⟨fun s => s.fillTask t description, rfl⟩
  | error fault =>
    refine ⟨fun _ => .error fault, ?_⟩
    rw [afterSearch, textsOfTask]
    cases hd : t.description with
    | none =>
      rw [hd] at hparsed
      cases hparsed
    | some text =>
      rw [hd, parseDescription] at hparsed
      split at hparsed
      · rename_i htext
        cases hparsed
        rw [Option.toList_some, List.singleton_append, searchTexts, htext]
      · cases hparsed

/-- What comes of a request that is refused for a text that is no template, when these texts stand
before it. -/
structure Refused (s : Scope) (before : List String) (fault : Fault)
    (outcome : Except Fault α × Scope) : Prop where
  fails : ∃ e, outcome.1 = .error e
  /-- When none of the texts before uses secrets, nothing is done. -/
  untouched : (¬ ∃ text ∈ before, UsesSecrets text) → outcome = (.error fault, s)
  /-- When one does, the secrets are loaded all the same. -/
  loads : (∃ text ∈ before, UsesSecrets text) →
    outcome.2 = s.withSecrets s.context.secrets.load.2
  asked : s.context.secrets.calls < outcome.2.context.secrets.calls ↔
    s.context.secrets.provider.isSome ∧ s.context.secrets.loaded = none ∧
      ∃ text ∈ before, UsesSecrets text

theorem refused_afterSearch {use : Scope → Except Fault α} (h : FaultyAfter before fault texts)
    (hfails : ∀ r, (s.afterSearch texts use).1 ≠ .ok r) :
    s.Refused before fault (s.afterSearch texts use) := by
  have herror : ∃ e, (s.afterSearch texts use).1 = .error e := by
    cases houtcome : (s.afterSearch texts use).1 with
    | error e => exact ⟨e, rfl⟩
    | ok r => exact absurd houtcome (hfails r)
  rcases h.searchTexts_eq with ⟨huses, hsearch⟩ | ⟨hnone, hsearch⟩
  · have hloads : (s.afterSearch texts use).2 = s.withSecrets s.context.secrets.load.2 := by
      rw [afterSearch, hsearch]
      dsimp only
      rw [afterSecrets_true]
    refine ⟨herror, fun hnone => absurd huses hnone, fun _ => hloads, ?_⟩
    rw [hloads]
    simp only [huses, and_true]
    exact s.context.secrets.calls_lt_load
  · have huntouched : s.afterSearch texts use = (.error fault, s) := by
      rw [afterSearch, hsearch]
    refine ⟨herror, fun _ => huntouched, fun huses => absurd huses hnone, ?_⟩
    rw [huntouched]
    simp [hnone]

/-- The faulty text has no value. -/
theorem not_parsesTo_of_faultyAfter (h : FaultyAfter before fault texts) :
    ¬ ∀ text ∈ texts, ∃ v, s.ParsesTo text v := by
  obtain ⟨bad, after, rfl, -, hbad⟩ := h
  intro hvalues
  obtain ⟨v, hv⟩ := hvalues bad (by simp)
  exact not_parsesTo_of_error (s.parse_fst_of_error (checkSyntax_eq_error.mp hbad)) hv

theorem refused_replaceValue {v : Value} (h : FaultyAfter before fault (textsIn v)) :
    s.Refused before fault (s.replaceValue v) := by
  have hfails : ∀ r, (s.replaceValue v).1 ≠ .ok r := by
    intro r hr
    exact not_parsesTo_of_faultyAfter h ((exists_replaced v).mp ⟨r, replaceValue_eq_ok.mp hr⟩)
  rw [replaceValue_eq] at hfails ⊢
  exact refused_afterSearch h hfails

theorem refused_replaceTask {t : Task} (h : FaultyAfter before fault (textsOfTask t)) :
    s.Refused before fault (s.replaceTask t) := by
  have hfails : ∀ t', (s.replaceTask t).1 ≠ .ok t' := by
    intro t' ht'
    exact not_parsesTo_of_faultyAfter h ((exists_replacedTask t).mp ⟨t', replaceTask_eq_ok.mp ht'⟩)
  obtain ⟨use, heq⟩ := s.replaceTask_eq t
  rw [heq] at hfails ⊢
  exact refused_afterSearch h hfails

end Scope

/-- A value or a task with a text that is no template is refused. The provider of secrets is asked
on the way if a text before the first faulty one uses secrets that are not loaded yet, and only
then. -/
theorem faulty_text_refused (s : Scope) :
    (∀ v, (∃ text ∈ textsIn v, checkSyntax text ≠ .ok ()) →
      ∃ before fault, FaultyAfter before fault (textsIn v) ∧
        s.Refused before fault (s.replaceValue v)) ∧
    ∀ t, (∃ text ∈ textsOfTask t, checkSyntax text ≠ .ok ()) →
      ∃ before fault, FaultyAfter before fault (textsOfTask t) ∧
        s.Refused before fault (s.replaceTask t) := by
  constructor
  · intro v hfaulty
    obtain ⟨before, fault, hfirst⟩ := exists_faultyAfter hfaulty
    exact ⟨before, fault, hfirst, Scope.refused_replaceValue hfirst⟩
  · intro t hfaulty
    obtain ⟨before, fault, hfirst⟩ := exists_faultyAfter hfaulty
    exact ⟨before, fault, hfirst, Scope.refused_replaceTask hfirst⟩

theorem checkSyntax_unclosed : checkSyntax "$[(" ≠ .ok () := by
  have hnone : (checkSyntax "$[(").toOption = none := by decide +kernel
  intro hok
  rw [hok] at hnone
  cases hnone

/-- Of two parameters one uses secrets and the other is no template. In the order in which the keys
put the first one first the provider is asked, in the other one it is not; a description that is no
template is refused before either. -/
theorem faulty_text_refused_vault :
    let s := plainScope.withSecrets { provider := vault }
    let late : Task := { name := "t", parameters := [("a", .str "$[Secrets('key')]"),
      ("b", .arr [.null, .str "$[("])] }
    let early : Task := { late with parameters := [("a", .str "$[("),
      ("b", .str "$[Secrets('key')]")] }
    let first : Task := { late with description := some "$[(" }
    (∃ e, (s.replaceTask late).1 = .error e) ∧ (∃ e, (s.replaceTask early).1 = .error e) ∧
      (∃ e, (s.replaceTask first).1 = .error e) ∧
      (s.replaceTask late).2.context.secrets.calls = 1 ∧
      (s.replaceTask early).2.context.secrets.calls = 0 ∧
      (s.replaceTask first).2.context.secrets.calls = 0 := by
  intro s late early first
  obtain ⟨-, htasks⟩ := faulty_text_refused s
  have hfails : ∀ t, "$[(" ∈ textsOfTask t → ∃ e, (s.replaceTask t).1 = .error e := by
    intro t hmem
    obtain ⟨_, _, -, hrefused⟩ := htasks t ⟨_, hmem, checkSyntax_unclosed⟩
    exact hrefused.fails
  exact ⟨hfails late (by decide), hfails early (by decide), hfails first (by decide),
    by decide +kernel, by decide +kernel, by decide +kernel⟩

/-- The provider is asked although a text of the list is no template, and the refusal follows. -/
theorem vault_asked_for_faulty_text :
    let s := plainScope.withSecrets { provider := vault }
    let v : Value := .arr [.str "$[Secrets('k')]", .str "$[("]
    (∃ text ∈ textsIn v, checkSyntax text ≠ .ok ()) ∧
      (s.replaceValue v).2.context.secrets.calls ≠ s.context.secrets.calls := by
  intro s v
  exact ⟨⟨"$[(", by decide, checkSyntax_unclosed⟩, by decide +kernel⟩

end WorkflowEngine.Expression
