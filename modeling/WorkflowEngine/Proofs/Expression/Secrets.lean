import WorkflowEngine.Expression.Placeholder

/-!
# Secrets are loaded once

A tree that uses no secrets has the same value whatever is in the cache. One that uses them loads
them first, and a cache that was loaded before gives them as the provider did. So the value of a
condition is that in a fresh cache, whatever was evaluated before it (`condition_of_serves`).
-/

namespace WorkflowEngine.Expression

open Json (Value)

namespace SecretCache

/-- The second cache is the first one, or what became of it when it was loaded. -/
def Serves (fresh c : SecretCache) : Prop := c = fresh ∨ ∃ secrets, fresh.load = (.ok secrets, c)

/-- The same can be looked up in both caches. Without a provider nothing can. -/
def Agrees (c c' : SecretCache) : Prop :=
  c.provider = c'.provider ∧ (c.provider.isSome → c.loaded = c'.loaded)

variable {fresh c c' : SecretCache}

theorem load_of_load {secrets : Option (List Secret)} (h : c.load = (.ok secrets, c')) :
    c'.load = (.ok secrets, c') := by
  rw [load] at h
  split at h
  · rename_i hprovider
    cases h
    rw [load, hprovider]
  · rename_i provider hprovider
    split at h
    · rename_i loaded hloaded
      cases h
      rw [load, hprovider, hloaded]
    · split at h
      · cases h
        rw [load, hprovider]
      · cases h

theorem Serves.refl (c : SecretCache) : Serves c c := .inl rfl

/-- Loading again gives what loading gave. -/
theorem Serves.load_eq (h : fresh.Serves c) {secrets : Option (List Secret)}
    (hload : c.load = (.ok secrets, c')) : fresh.load = (.ok secrets, c') := by
  rcases h with rfl | ⟨loaded, hloaded⟩
  · exact hload
  · rw [load_of_load hloaded] at hload
    cases hload
    exact hloaded

theorem Serves.load (h : fresh.Serves c) {secrets : Option (List Secret)}
    (hload : c.load = (.ok secrets, c')) : fresh.Serves c' :=
  .inr ⟨secrets, h.load_eq hload⟩

end SecretCache

namespace Scope

def withSecrets (s : Scope) (c : SecretCache) : Scope :=
  { s with context := { s.context with secrets := c } }

variable {s s' : Scope} {fresh : SecretCache}

mutual

/-- A value depends on a cache only where the tree looks up a secret. -/
theorem eval_agree (s : Scope) {c c' : SecretCache} (span : String) {e : Expr}
    (h : e.usesSecrets = true → c.Agrees c') :
    (s.withSecrets c).eval span e = (s.withSecrets c').eval span e := by
  cases e with
  | literal v => rfl
  | lookup source key =>
    simp only [Expr.usesSecrets, Bool.or_eq_true] at h
    rw [Scope.eval, Scope.eval, eval_agree s span fun hkey => h (.inr hkey)]
    split
    · rfl
    · cases source with
      | outputs => rfl
      | «variables» => rfl
      | secrets =>
        obtain ⟨hprovider, hloaded⟩ := h (.inl rfl)
        simp only [lookup, withSecrets, SecretCache.lookup, ← hprovider]
        cases hp : c.provider with
        | none => rfl
        | some p => simp only [hloaded (by simp [hp])]
  | call name args =>
    rw [Expr.usesSecrets] at h
    rw [Scope.eval, Scope.eval, evalAll_agree s span h]
    rfl
  | path target steps =>
    simp only [Expr.usesSecrets, Bool.or_eq_true] at h
    rw [Scope.eval, Scope.eval, eval_agree s span fun htarget => h (.inl htarget)]
  | unary op operand =>
    rw [Expr.usesSecrets] at h
    rw [Scope.eval, Scope.eval, eval_agree s span h]
  | binary op lhs rhs =>
    simp only [Expr.usesSecrets, Bool.or_eq_true] at h
    rw [Scope.eval, Scope.eval, eval_agree s span fun hleft => h (.inl hleft),
      eval_agree s span fun hright => h (.inr hright)]
  | ternary condition thenBranch elseBranch =>
    simp only [Expr.usesSecrets, Bool.or_eq_true] at h
    rw [Scope.eval, Scope.eval, eval_agree s span fun hcondition => h (.inl (.inl hcondition)),
      eval_agree s span fun hthen => h (.inl (.inr hthen)),
      eval_agree s span fun helse => h (.inr helse)]

theorem evalAll_agree (s : Scope) {c c' : SecretCache} (span : String) {es : List Expr}
    (h : Expr.anyUsesSecrets es = true → c.Agrees c') :
    (s.withSecrets c).evalAll span es = (s.withSecrets c').evalAll span es := by
  cases es with
  | nil => rfl
  | cons e rest =>
    simp only [Expr.anyUsesSecrets, Bool.or_eq_true] at h
    rw [Scope.evalAll, Scope.evalAll, eval_agree s span fun hfirst => h (.inl hfirst),
      evalAll_agree s span fun hrest => h (.inr hrest)]

end

variable {c c' : SecretCache}

theorem inlineText_agree (s : Scope) {t : Template} (h : t.usesSecrets = true → c.Agrees c') :
    (s.withSecrets c).inlineText t = (s.withSecrets c').inlineText t := by
  induction t with
  | nil => rfl
  | cons segment rest ih =>
    simp only [Template.usesSecrets, List.any_cons, Bool.or_eq_true] at h
    have hrest := ih fun hrest => h (.inr hrest)
    cases segment with
    | text cs => rw [inlineText, inlineText, hrest]
    | span source tree =>
      rw [inlineText, inlineText, eval_agree s _ fun hfirst => h (.inl hfirst), hrest]

theorem span_mem_of_soleSpan? {t : Template} {source : List Char} {tree : Expr}
    (h : t.soleSpan? = some (source, tree)) : Segment.span source tree ∈ t := by
  rw [Template.soleSpan?] at h
  split at h
  · rename_i only hspans
    split at h
    · cases h
      have hmem : (source, tree) ∈ t.filterMap _ := hspans ▸ List.mem_singleton_self _
      obtain ⟨segment, hsegment, heq⟩ := List.mem_filterMap.mp hmem
      cases segment with
      | text cs => cases heq
      | span source' tree' =>
        cases heq
        exact hsegment
    · cases h
  · cases h

theorem render_agree (s : Scope) (input : String) {t : Template}
    (h : t.usesSecrets = true → c.Agrees c') :
    (s.withSecrets c).render input t = (s.withSecrets c').render input t := by
  rw [render, render]
  split
  · rfl
  · split
    · rename_i source tree hsole
      refine eval_agree s _ fun huses => h ?_
      exact List.any_eq_true.mpr ⟨_, span_mem_of_soleSpan? hsole, huses⟩
    · rw [inlineText_agree s h]

theorem render_withSecrets (s : Scope) (c : SecretCache) (input : String) {t : Template}
    (h : t.usesSecrets = false) : (s.withSecrets c).render input t = s.render input t := by
  have hagrees : t.usesSecrets = true → c.Agrees s.context.secrets := by simp [h]
  exact render_agree s input hagrees

theorem loadSecrets_ok (h : s.loadSecrets = (.ok (), s')) :
    ∃ secrets c, s.context.secrets.load = (.ok secrets, c) ∧ s' = s.withSecrets c := by
  rw [loadSecrets] at h
  split at h
  · rename_i secrets c hload
    cases h
    exact ⟨secrets, c, hload, rfl⟩
  · cases h

theorem loadSecrets_of_load {secrets : Option (List Secret)} {c : SecretCache}
    (h : s.context.secrets.load = (.ok secrets, c)) :
    s.loadSecrets = (.ok (), s.withSecrets c) := by
  rw [loadSecrets, h]
  rfl

/-- What needs secrets loads them if that was not done before, and what does not need them goes
without; unless it fails, the cache still serves for the fresh one. -/
theorem afterSecrets_of_serves {α : Type} {needed : Bool} {use : Scope → Except Fault α} {v : α}
    (hserves : fresh.Serves s.context.secrets) (h : s.afterSecrets needed use = (.ok v, s')) :
    use s' = .ok v ∧ ∃ c, s' = s.withSecrets c ∧ fresh.Serves c := by
  rw [afterSecrets] at h
  split at h
  · split at h
    · cases h
    · rename_i loaded hloaded
      obtain ⟨secrets, c, hload, rfl⟩ := loadSecrets_ok hloaded
      obtain ⟨huse, rfl⟩ := Prod.mk.inj h
      exact ⟨huse, c, rfl, hserves.load hload⟩
  · obtain ⟨huse, rfl⟩ := Prod.mk.inj h
    exact ⟨huse, s.context.secrets, rfl, hserves⟩

theorem afterSecrets_fst {α : Type} {needed : Bool} {use : Scope → Except Fault α}
    (hserves : fresh.Serves s.context.secrets)
    (huse : needed = false → ∀ c, use (s.withSecrets c) = use s) :
    (s.afterSecrets needed use).1 = ((s.withSecrets fresh).afterSecrets needed use).1 := by
  cases needed with
  | false => exact (huse rfl fresh).symm
  | true =>
    rcases hserves with hsame | ⟨secrets, hload⟩
    · rw [← hsame]
      rfl
    · have hagain := loadSecrets_of_load (SecretCache.load_of_load hload)
      have hfirst := loadSecrets_of_load (s := s.withSecrets fresh) hload
      rw [afterSecrets, afterSecrets, if_pos rfl, if_pos rfl, hagain, hfirst]
      rfl

theorem condition_eq (s : Scope) (input : String) :
    s.condition input = ((s.parse input).1.map isTruthy, (s.parse input).2) := by
  rw [condition]
  split <;> rename_i h <;> rw [h] <;> rfl

theorem condition_fst (s : Scope) (input : String) :
    (s.condition input).1 = (s.parse input).1.map isTruthy := by
  rw [condition_eq]

/-- The value of a condition is that in a fresh cache. -/
theorem condition_of_serves (hserves : fresh.Serves s.context.secrets) (input : String) :
    (s.condition input).1 = ((s.withSecrets fresh).condition input).1 := by
  rw [condition_fst, condition_fst]
  congr 1
  rw [parse, parse]
  split
  · rfl
  · exact afterSecrets_fst hserves fun hneeded c => render_withSecrets s c input hneeded

theorem condition_ok {v : Bool} {input : String} (hserves : fresh.Serves s.context.secrets)
    (h : s.condition input = (.ok v, s')) : ∃ c, s' = s.withSecrets c ∧ fresh.Serves c := by
  rw [condition] at h
  split at h
  · cases h
  · rename_i value s'' hparse
    cases h
    rw [parse] at hparse
    split at hparse
    · cases hparse
    · exact (afterSecrets_of_serves hserves hparse).2

theorem name_fillTask {task task' : Task} {description : Option (String × Template)}
    (h : s.fillTask task description = .ok task') : task'.name = task.name := by
  rw [fillTask.eq_def] at h
  dsimp only at h
  split at h
  · cases h
  · split at h
    · cases h
    · cases h
      rfl

theorem replaceTask_ok {task task' : Task} (hserves : fresh.Serves s.context.secrets)
    (h : s.replaceTask task = (.ok task', s')) :
    task'.name = task.name ∧ ∃ c, s' = s.withSecrets c ∧ fresh.Serves c := by
  rw [replaceTask] at h
  split at h
  · cases h
  · split at h
    · cases h
    · obtain ⟨hfill, hserves'⟩ := afterSecrets_of_serves hserves h
      exact ⟨name_fillTask hfill, hserves'⟩

end Scope

end WorkflowEngine.Expression
