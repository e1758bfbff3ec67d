import WorkflowEngine.Proofs.Expression.Texts

/-!
# Asking for secrets

Whatever is asked of a scope loads the secrets if some text uses them, and reads the cache only
then (`Scope.Asks`). So with a provider that always gives the same answer the cache does not show:
nothing tells whether the secrets were loaded before (`Scope.Asks.fst_alike`).
-/

namespace WorkflowEngine.Expression

open Json (Value)

namespace SecretCache

/-- All that loading can do. -/
inductive Load (c : SecretCache) : Except String (Option (List Secret)) → SecretCache → Prop where
  | disabled : c.provider = none → Load c (.ok none) c
  | kept {p : Provider} {secrets : List Secret} : c.provider = some p → c.loaded = some secrets →
      Load c (.ok (some secrets)) c
  | fetched {p : Provider} {secrets : List Secret} : c.provider = some p → c.loaded = none →
      p.answer c.calls = .ok secrets →
      Load c (.ok (some secrets)) { c with calls := c.calls + 1, loaded := some secrets }
  | failed {p : Provider} {reason : String} : c.provider = some p → c.loaded = none →
      p.answer c.calls = .error reason → Load c (.error reason) { c with calls := c.calls + 1 }

theorem load_spec (c : SecretCache) : Load c c.load.1 c.load.2 := by
  rw [load]
  split
  · rename_i hprovider
    exact .disabled hprovider
  · rename_i p hprovider
    split
    · rename_i secrets hloaded
      exact .kept hprovider hloaded
    · rename_i hloaded
      split
      · rename_i secrets hanswer
        exact .fetched hprovider hloaded hanswer
      · rename_i reason hanswer
        exact .failed hprovider hloaded hanswer

theorem provider_load (c : SecretCache) : c.load.2.provider = c.provider := by
  have hload := c.load_spec
  generalize c.load = l at *
  obtain ⟨r, c'⟩ := l
  cases hload <;> rfl

theorem load_of_isLoaded {c : SecretCache} {secrets : List Secret}
    (h : c.loaded = some secrets) : c.load.2 = c := by
  have hload := c.load_spec
  generalize c.load = l at *
  obtain ⟨r, c'⟩ := l
  cases hload with
  | disabled _ => rfl
  | kept _ _ => rfl
  | fetched _ hnone _ => simp [hnone] at h
  | failed _ hnone _ => simp [hnone] at h

/-- The provider always gives the same answer, and what was loaded is that answer. -/
def Steady (c : SecretCache) : Prop :=
  ∀ p, c.provider = some p → ∃ answer, (∀ n, p.answer n = answer) ∧
    ∀ secrets, c.loaded = some secrets → answer = .ok secrets

/-- Two caches of one provider that always gives the same answer. -/
structure Alike (c c' : SecretCache) : Prop where
  provider : c.provider = c'.provider
  left : c.Steady
  right : c'.Steady

variable {c c' : SecretCache}

theorem Steady.load (h : c.Steady) : c.load.2.Steady := by
  intro p hp
  rw [provider_load] at hp
  obtain ⟨answer, hanswer, hloaded⟩ := h p hp
  refine ⟨answer, hanswer, ?_⟩
  intro secrets hsecrets
  have hload := c.load_spec
  generalize c.load = l at *
  obtain ⟨r, c'⟩ := l
  cases hload with
  | disabled _ => exact hloaded secrets hsecrets
  | kept _ _ => exact hloaded secrets hsecrets
  | fetched hp' _ hfetched =>
    rw [hp] at hp'
    cases hp'
    cases hsecrets
    rw [← hanswer, hfetched]
  | failed _ hnone _ => simp [hnone] at hsecrets

theorem Alike.refl (h : c.Steady) : c.Alike c := ⟨rfl, h, h⟩

theorem Alike.symm (h : c.Alike c') : c'.Alike c := ⟨h.provider.symm, h.right, h.left⟩

theorem Alike.trans {c'' : SecretCache} (h : c.Alike c') (h' : c'.Alike c'') : c.Alike c'' :=
  ⟨h.provider.trans h'.provider, h.left, h'.right⟩

theorem Alike.load (h : c.Steady) : c.Alike c.load.2 := ⟨c.provider_load.symm, h, h.load⟩

/-- Loading two such caches fails for the same reason, or makes the same secrets available. -/
theorem Alike.load_cases (h : c.Alike c') :
    (∃ reason, c.load.1 = .error reason ∧ c'.load.1 = .error reason) ∨
      ∃ secrets secrets', c.load.1 = .ok secrets ∧ c'.load.1 = .ok secrets' ∧
        c.load.2.Agrees c'.load.2 := by
  have hload := c.load_spec
  have hload' := c'.load_spec
  generalize c.load = l, c'.load = l' at *
  obtain ⟨r, c₁⟩ := l
  obtain ⟨r', c₁'⟩ := l'
  obtain ⟨hprovider, hsteady, hsteady'⟩ := h
  cases hp : c.provider with
  | none =>
    have hp' : c'.provider = none := hprovider ▸ hp
    cases hload <;> simp_all
    cases hload' <;> simp_all [Agrees]
  | some p =>
    have hp' : c'.provider = some p := hprovider ▸ hp
    obtain ⟨answer, hanswer, hloaded⟩ := hsteady p hp
    obtain ⟨answer', hanswer', hloaded'⟩ := hsteady' p hp'
    have hsame : answer' = answer := (hanswer' 0).symm.trans (hanswer 0)
    subst hsame
    cases hload <;> cases hload' <;> simp_all [Agrees]

end SecretCache

namespace Scope

variable {α β : Type} {texts : List String} {ask : Scope → Except Fault α × Scope}
  {c c' : SecretCache}

/-- What is asked about these texts loads the secrets if some text uses them, and depends on the
cache only then. -/
def Asks (texts : List String) (ask : Scope → Except Fault α × Scope) : Prop :=
  ∃ needed use, (needed = true → ∃ text ∈ texts, UsesSecrets text) ∧
    (∀ (s : Scope) (c c' : SecretCache), (needed = true → c.Agrees c') →
      use (s.withSecrets c) = use (s.withSecrets c')) ∧
    ∀ s, ask s = s.afterSecrets needed use

theorem asks_fault (texts : List String) (fault : Fault) :
    Asks texts fun s => ((.error fault : Except Fault α), s) :=
  ⟨false, fun _ => .error fault, by simp, fun _ _ _ _ => rfl, fun _ => rfl⟩

theorem asks_parse (input : String) : Asks [input] fun s => s.parse input := by
  unfold parse
  cases ht : parseTemplate input with
  | error fault => exact asks_fault _ fault
  | ok t =>
    refine ⟨t.usesSecrets, fun s => s.render input t, ?_, ?_, fun s => rfl⟩
    · intro huses
      exact ⟨input, List.mem_singleton_self input, t, ht, huses⟩
    · intro s c c' h
      exact render_agree s input h

theorem Asks.map (h : Asks texts ask) (f : α → β) :
    Asks texts fun s => ((ask s).1.map f, (ask s).2) := by
  obtain ⟨needed, use, hneeded, hreads, heq⟩ := h
  refine ⟨needed, fun s => (use s).map f, hneeded, ?_, ?_⟩
  · intro s c c' hagrees
    simp only [hreads s c c' hagrees]
  · intro s
    simp only [heq, afterSecrets]
    split
    · split <;> rfl
    · rfl

theorem asks_condition (input : String) : Asks [input] fun s => s.condition input := by
  simp only [condition_eq]
  exact (asks_parse input).map isTruthy

theorem asks_replaceValue (v : Value) : Asks (textsIn v) fun s => s.replaceValue v := by
  unfold replaceValue
  cases hsearch : searchSecrets v with
  | error fault => exact asks_fault _ fault
  | ok needed =>
    rw [searchSecrets_eq] at hsearch
    refine ⟨needed, fun s => s.fill v, ?_, ?_, fun s => rfl⟩
    · intro hneeded
      subst hneeded
      exact searchTexts_eq_true hsearch
    · intro s c c' h
      refine fill_agree s fun text htext huses => h ?_
      cases needed with
      | true => rfl
      | false => exact absurd huses (searchTexts_eq_false hsearch text htext)

theorem asks_replaceTask (t : Task) : Asks (textsOfTask t) fun s => s.replaceTask t := by
  unfold replaceTask
  cases hdescription : parseDescription t.description with
  | error fault => exact asks_fault _ fault
  | ok description =>
    dsimp only
    rw [searchTask_eq hdescription]
    cases hsearch : searchTexts (textsOfTask t) with
    | error fault => exact asks_fault _ fault
    | ok needed =>
      refine ⟨needed, fun s => s.fillTask t description, ?_, ?_, fun s => rfl⟩
      · intro hneeded
        subst hneeded
        exact searchTexts_eq_true hsearch
      · intro s c c' h
        refine fillTask_agree s hdescription fun text htext huses => h ?_
        cases needed with
        | true => rfl
        | false => exact absurd huses (searchTexts_eq_false hsearch text htext)

theorem afterSecrets_true (s : Scope) (use : Scope → Except Fault α) :
    s.afterSecrets true use =
      (match s.context.secrets.load.1 with
        | .error reason =>
          let provider := (s.context.secrets.provider.map (·.name)).getD "unknown"
          .error (.secretsUnavailable provider reason)
        | .ok _ => use (s.withSecrets s.context.secrets.load.2),
        s.withSecrets s.context.secrets.load.2) := by
  rw [afterSecrets, if_pos rfl, loadSecrets]
  generalize s.context.secrets.load = l
  obtain ⟨r, c⟩ := l
  cases r <;> rfl

/-- Nothing but the cache changes, and that only when secrets are used. -/
theorem Asks.snd (h : Asks texts ask) (s : Scope) :
    (ask s).2 = s ∨
      (∃ text ∈ texts, UsesSecrets text) ∧ (ask s).2 = s.withSecrets s.context.secrets.load.2 := by
  obtain ⟨needed, use, hneeded, -, heq⟩ := h
  rw [heq]
  cases needed with
  | false => exact .inl rfl
  | true => exact .inr ⟨hneeded rfl, by rw [afterSecrets_true]⟩

theorem Asks.alike (h : Asks texts ask) (s : Scope) (hc : c.Steady) :
    ∃ c₁, (ask (s.withSecrets c)).2 = s.withSecrets c₁ ∧ c.Alike c₁ := by
  rcases h.snd (s.withSecrets c) with heq | ⟨-, heq⟩
  · exact ⟨c, heq, .refl hc⟩
  · exact ⟨c.load.2, heq, .load hc⟩

/-- With a provider that always gives the same answer, what was loaded before does not show. -/
theorem Asks.fst_alike (h : Asks texts ask) (s : Scope) (hc : c.Alike c') :
    (ask (s.withSecrets c)).1 = (ask (s.withSecrets c')).1 := by
  obtain ⟨needed, use, -, hreads, heq⟩ := h
  rw [heq, heq]
  cases needed with
  | false => exact hreads s c c' (by simp)
  | true =>
    rw [afterSecrets_true, afterSecrets_true]
    simp only [withSecrets, hc.provider]
    rcases hc.load_cases with ⟨reason, hc, hc'⟩ | ⟨secrets, secrets', hc, hc', hagrees⟩
    · rw [hc, hc']
    · rw [hc, hc']
      exact hreads s _ _ fun _ => hagrees

end Scope

end WorkflowEngine.Expression
