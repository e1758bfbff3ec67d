import WorkflowEngine.Proofs.Expression.Placeholder

/-!
# More to look up

A scope in which more outputs and variables can be found (`Scope.Within`) gives every tree that has
a value the same value: a key that is missing is a fault wherever it is looked up, so no value can
come from its not being there. With secrets that come to the same when they are loaded
(`SecretCache.SameSecrets`) the same holds of texts, values and tasks.
-/

namespace WorkflowEngine.Expression

open Json (Value)

/-! ## Secrets that can be had -/

namespace SecretCache

/-- The caches are of one provider, and the secrets that the first one can load are those that the
second one loads, or has loaded. -/
structure Within (c c' : SecretCache) : Prop where
  provider : c'.provider = c.provider
  load : ∀ secrets, c.load.1 = .ok secrets → c'.load.1 = .ok secrets

variable {c c' : SecretCache}

theorem Within.refl (c : SecretCache) : c.Within c := ⟨rfl, fun _ h => h⟩

theorem Within.trans {c'' : SecretCache} (h : c.Within c') (h' : c'.Within c'') : c.Within c'' := by
  refine ⟨h'.provider.trans h.provider, ?_⟩
  intro secrets hload
  exact h'.load secrets (h.load secrets hload)

/-- A load that succeeds is kept; one that fails may succeed later. -/
theorem within_load (c : SecretCache) : c.Within c.load.2 := by
  refine ⟨c.provider_load, ?_⟩
  intro secrets hload
  rw [load_of_load (Prod.ext hload rfl)]

/-- With a provider that always gives the same answer it does not matter what was loaded. -/
theorem Steady.load_fst {p : Provider} (h : c.Steady) (hp : c.provider = some p) :
    c.load.1 = (p.answer 0).map some := by
  obtain ⟨answer, hanswer, hloaded⟩ := h p hp
  rw [hanswer, SecretCache.load, hp]
  dsimp only
  cases hl : c.loaded with
  | some secrets =>
    rw [hloaded secrets hl]
    rfl
  | none =>
    dsimp only
    rw [hanswer]
    cases answer <;> rfl

/-- With one list of secrets it makes no difference whether it was loaded already. -/
theorem Alike.within (h : c.Alike c') : c.Within c' := by
  refine ⟨h.provider.symm, ?_⟩
  intro secrets hload
  cases hp : c.provider with
  | none =>
    rw [SecretCache.load, hp] at hload
    rw [SecretCache.load, ← h.provider, hp]
    exact hload
  | some p =>
    rw [h.left.load_fst hp] at hload
    rw [h.right.load_fst (h.provider ▸ hp)]
    exact hload

/-- What loading comes to is what can be looked up afterwards. -/
theorem loaded_of_load {secrets : List Secret} (h : c.load.1 = .ok (some secrets)) :
    c.load.2.loaded = some secrets := by
  have hload := c.load_spec
  generalize c.load = l at *
  obtain ⟨r, c'⟩ := l
  cases hload with
  | disabled _ => cases h
  | kept _ hloaded =>
    cases h
    exact hloaded
  | fetched _ _ _ =>
    cases h
    rfl
  | failed _ _ _ => cases h

theorem provider_of_load (h : c.load.1 = .ok none) : c.provider = none := by
  have hload := c.load_spec
  generalize c.load = l at *
  obtain ⟨r, c'⟩ := l
  cases hload with
  | disabled hnone => exact hnone
  | kept _ _ => cases h
  | fetched _ _ _ => cases h
  | failed _ _ _ => cases h

theorem Within.agrees (h : c.Within c') {secrets : Option (List Secret)}
    (hload : c.load.1 = .ok secrets) : c.load.2.Agrees c'.load.2 := by
  refine ⟨by rw [provider_load, provider_load, h.provider], ?_⟩
  intro hsome
  cases secrets with
  | none =>
    rw [provider_load, provider_of_load hload] at hsome
    cases hsome
  | some secrets => rw [loaded_of_load hload, loaded_of_load (h.load _ hload)]

end SecretCache

/-! ## Values -/

namespace Scope

/-- Whatever can be looked up in the first scope is the same in the second one. There may be more
outputs and variables in that one. -/
structure Within (s s' : Scope) : Prop where
  functions : s'.functions = s.functions
  outputs : ∀ key v, s.context.outputs.find? key = some v → s'.context.outputs.find? key = some v
  «variables» : ∀ key v, s.context.variables.find? key = some v →
    s'.context.variables.find? key = some v
  secrets : s.context.secrets.Within s'.context.secrets

variable {s s' : Scope} {c c' : SecretCache}

theorem Within.refl (s : Scope) : s.Within s :=
  ⟨rfl, fun _ _ h => h, fun _ _ h => h, .refl s.context.secrets⟩

theorem Within.trans {s'' : Scope} (h : s.Within s') (h' : s'.Within s'') : s.Within s'' :=
  ⟨h'.functions.trans h.functions, fun key v hv => h'.outputs key v (h.outputs key v hv),
    fun key v hv => h'.variables key v (h.variables key v hv), h.secrets.trans h'.secrets⟩

theorem lookup_within (h : s.Within s') {span key : String} {source : Source} {v : Value}
    (hv : (s.withSecrets c).lookup span source key = .ok v) :
    (s'.withSecrets c).lookup span source key = .ok v := by
  cases source with
  | outputs =>
    simp only [lookup, withSecrets] at hv ⊢
    split at hv
    · rename_i found
      rw [h.outputs key _ found]
      exact hv
    · cases hv
  | «variables» =>
    simp only [lookup, withSecrets] at hv ⊢
    split at hv
    · rename_i found
      rw [h.variables key _ found]
      exact hv
    · cases hv
  | secrets => exact hv

-- Along the tree: wherever the first scope goes on, it has a value, which the second one has too.
mutual

theorem eval_within (h : s.Within s') {span : String} {e : Expr} {v : Value}
    (hv : (s.withSecrets c).eval span e = .ok v) : (s'.withSecrets c).eval span e = .ok v := by
  cases e with
  | literal value => exact hv
  | lookup source key =>
    rw [Scope.eval] at hv ⊢
    split at hv
    · cases hv
    · rename_i k hkey
      rw [eval_within h hkey]
      exact lookup_within h hv
  | call name args =>
    rw [Scope.eval] at hv ⊢
    have hfunctions : (s'.withSecrets c).functions = (s.withSecrets c).functions := h.functions
    rw [hfunctions]
    split at hv
    · cases hv
    · rename_i f hf
      split at hv
      · cases hv
      · rename_i vs hargs
        rw [evalAll_within h hargs]
        exact hv
  | path target steps =>
    rw [Scope.eval] at hv ⊢
    split at hv
    · cases hv
    · rename_i value htarget
      rw [eval_within h htarget]
      exact hv
  | unary op operand =>
    rw [Scope.eval] at hv ⊢
    split at hv
    · cases hv
    · rename_i value hoperand
      rw [eval_within h hoperand]
      exact hv
  | binary op lhs rhs =>
    rw [Scope.eval] at hv ⊢
    split at hv
    · cases hv
    · rename_i a hleft
      rw [eval_within h hleft]
      dsimp only
      split at hv
      · rename_i hshort
        exact hv
      · rename_i hlong
        split at hv
        · cases hv
        · rename_i b hright
          rw [eval_within h hright]
          exact hv
  | ternary condition thenBranch elseBranch =>
    rw [Scope.eval] at hv ⊢
    split at hv
    · cases hv
    · rename_i value hcondition
      rw [eval_within h hcondition]
      dsimp only
      split at hv
      · rename_i htrue
        rw [if_pos htrue]
        exact eval_within h hv
      · rename_i hfalse
        rw [if_neg hfalse]
        exact eval_within h hv

theorem evalAll_within (h : s.Within s') {span : String} {es : List Expr} {vs : List Value}
    (hvs : (s.withSecrets c).evalAll span es = .ok vs) :
    (s'.withSecrets c).evalAll span es = .ok vs := by
  cases es with
  | nil => exact hvs
  | cons e rest =>
    rw [Scope.evalAll] at hvs ⊢
    split at hvs
    · cases hvs
    · rename_i v hfirst
      rw [eval_within h hfirst]
      dsimp only
      split at hvs
      · cases hvs
      · rename_i vs' hrest
        rw [evalAll_within h hrest]
        exact hvs

end

theorem inlineText_within (h : s.Within s') {t : Template} {cs : List Char}
    (hcs : (s.withSecrets c).inlineText t = .ok cs) : (s'.withSecrets c).inlineText t = .ok cs := by
  induction t generalizing cs with
  | nil => exact hcs
  | cons segment rest ih =>
    cases segment with
    | text before =>
      rw [inlineText] at hcs ⊢
      split at hcs
      · cases hcs
      · rename_i tail htail
        rw [ih htail]
        exact hcs
    | span source tree =>
      rw [inlineText] at hcs ⊢
      split at hcs
      · cases hcs
      · rename_i v hv
        rw [eval_within h hv]
        dsimp only
        split at hcs
        · cases hcs
        · rename_i tail htail
          rw [ih htail]
          exact hcs

theorem render_within (h : s.Within s') {input : String} {t : Template} {v : Value}
    (hv : (s.withSecrets c).render input t = .ok v) :
    (s'.withSecrets c).render input t = .ok v := by
  rw [render] at hv ⊢
  split
  · rename_i hspans
    rw [if_pos hspans] at hv
    exact hv
  · rename_i hspans
    rw [if_neg hspans] at hv
    split at hv
    · exact eval_within h hv
    · split at hv
      · cases hv
      · rename_i cs hcs
        rw [inlineText_within h hcs]
        exact hv

theorem parsesTo_within (h : s.Within s') {text : String} {v : Value} (hv : s.ParsesTo text v) :
    s'.ParsesTo text v := by
  rw [ParsesTo, parse] at hv ⊢
  split at hv
  · cases hv
  · rename_i t ht
    cases huses : t.usesSecrets with
    | false =>
      rw [huses] at hv
      have hrender : (s'.withSecrets s.context.secrets).render text t = .ok v :=
        render_within h hv
      rw [render_withSecrets s' s.context.secrets text huses] at hrender
      exact hrender
    | true =>
      rw [huses, afterSecrets_true] at hv
      rw [afterSecrets_true]
      dsimp only at hv ⊢
      split at hv
      · cases hv
      · rename_i secrets hload
        rw [h.secrets.load secrets hload]
        have hrender := render_within h hv
        rw [render_agree s' text fun _ => h.secrets.agrees hload] at hrender
        exact hrender

end Scope

/-! ## Values and tasks -/

variable {value value' : String → Value → Prop}

mutual

theorem Replaced.mono (hvalue : ∀ text v, value text v → value' text v) {v r : Value}
    (h : Replaced value v r) : Replaced value' v r := by
  cases h with
  | null => exact .null
  | bool b => exact .bool b
  | num n => exact .num n
  | str htext => exact .str (hvalue _ _ htext)
  | arr hitems => exact .arr (hitems.mono hvalue)
  | obj hfields => exact .obj (hfields.mono hvalue)

theorem ReplacedItems.mono (hvalue : ∀ text v, value text v → value' text v)
    {items r : List Value} (h : ReplacedItems value items r) : ReplacedItems value' items r := by
  cases h with
  | nil => exact .nil
  | cons hfirst hrest => exact .cons (hfirst.mono hvalue) (hrest.mono hvalue)

theorem ReplacedFields.mono (hvalue : ∀ text v, value text v → value' text v)
    {fields r : List (String × Value)} (h : ReplacedFields value fields r) :
    ReplacedFields value' fields r := by
  cases h with
  | nil => exact .nil
  | cons hfirst hrest => exact .cons (hfirst.mono hvalue) (hrest.mono hvalue)

end

theorem ReplacedDescription.mono (hvalue : ∀ text v, value text v → value' text v)
    {description r : Option String} (h : ReplacedDescription value description r) :
    ReplacedDescription value' description r := by
  cases h with
  | none => exact .none
  | some htext => exact .some (hvalue _ _ htext)

theorem ReplacedTask.mono (hvalue : ∀ text v, value text v → value' text v) {t r : Task}
    (h : ReplacedTask value t r) : ReplacedTask value' t r :=
  ⟨h.description.mono hvalue, h.parameters.mono hvalue, h.rest⟩

namespace Scope

/-- Whatever is asked of the first scope and has a result there has the same one in the second. -/
structure Confirms (s s' : Scope) : Prop where
  parse : ∀ text v, (s.parse text).1 = .ok v → (s'.parse text).1 = .ok v
  condition : ∀ text b, (s.condition text).1 = .ok b → (s'.condition text).1 = .ok b
  replaceValue : ∀ v r, (s.replaceValue v).1 = .ok r → (s'.replaceValue v).1 = .ok r
  replaceTask : ∀ t r, (s.replaceTask t).1 = .ok r → (s'.replaceTask t).1 = .ok r

theorem Within.confirms {s s' : Scope} (h : s.Within s') : s.Confirms s' := by
  have hparse : ∀ text v, s.ParsesTo text v → s'.ParsesTo text v :=
    fun text v hv => parsesTo_within h hv
  refine ⟨hparse, ?_, ?_, ?_⟩
  · intro text b hb
    rw [condition_fst] at hb ⊢
    cases hv : (s.parse text).1 with
    | error fault =>
      rw [hv] at hb
      cases hb
    | ok v =>
      rw [hparse text v hv, ← hv]
      exact hb
  · intro v r hr
    exact replaceValue_eq_ok.mpr ((replaceValue_eq_ok.mp hr).mono hparse)
  · intro t r hr
    exact replaceTask_eq_ok.mpr ((replaceTask_eq_ok.mp hr).mono hparse)

/-! ## Asking -/

/-- Asking leaves everything that could be looked up. -/
theorem Asks.snd_within {α : Type} {texts : List String} {ask : Scope → Except Fault α × Scope}
    (h : Asks texts ask) (s : Scope) :
    ∃ c, (ask s).2 = s.withSecrets c ∧ s.context.secrets.Within c := by
  rcases h.snd s with heq | ⟨-, heq⟩
  · exact ⟨s.context.secrets, heq, .refl _⟩
  · exact ⟨s.context.secrets.load.2, heq, s.context.secrets.within_load⟩

theorem within_withSecrets {s : Scope} {c : SecretCache} (h : s.context.secrets.Within c) :
    s.Within (s.withSecrets c) :=
  ⟨rfl, fun _ _ hv => hv, fun _ _ hv => hv, h⟩

end Scope

end WorkflowEngine.Expression
