import WorkflowEngine.Proofs.Expression.Provider

/-!
# A context in use

A context and its clones are asked for values and for tasks, one after the other. They share one
cache of secrets, and differ in whatever else they hold. `secrets_fetched_once` says that every
answer is what it would be with the secrets loaded from the start, that the provider is asked only
when a lookup of a secret stands in some tree, and never again once it has answered.
-/

namespace WorkflowEngine.Expression

open Json (Value)

/-! ## Lookups of secrets in a tree -/

/-- A lookup of a secret stands somewhere in the tree, whether or not evaluation gets there. -/
inductive Expr.LooksUpSecret : Expr → Prop where
  | here (key : Expr) : LooksUpSecret (.lookup .secrets key)
  | key {source : Source} {key : Expr} : LooksUpSecret key → LooksUpSecret (.lookup source key)
  | arg {name : String} {args : List Expr} {e : Expr} : e ∈ args → LooksUpSecret e →
      LooksUpSecret (.call name args)
  | target {target : Expr} {steps : List Step} : LooksUpSecret target →
      LooksUpSecret (.path target steps)
  | index {target e : Expr} {steps : List Step} : .index e ∈ steps → LooksUpSecret e →
      LooksUpSecret (.path target steps)
  | operand {op : UnaryOp} {operand : Expr} : LooksUpSecret operand →
      LooksUpSecret (.unary op operand)
  | left {op : BinaryOp} {lhs rhs : Expr} : LooksUpSecret lhs → LooksUpSecret (.binary op lhs rhs)
  | right {op : BinaryOp} {lhs rhs : Expr} : LooksUpSecret rhs → LooksUpSecret (.binary op lhs rhs)
  | condition {c t e : Expr} : LooksUpSecret c → LooksUpSecret (.ternary c t e)
  | thenBranch {c t e : Expr} : LooksUpSecret t → LooksUpSecret (.ternary c t e)
  | elseBranch {c t e : Expr} : LooksUpSecret e → LooksUpSecret (.ternary c t e)

namespace Expr

mutual

theorem looksUpSecret_of_usesSecrets {e : Expr} (h : e.usesSecrets = true) :
    e.LooksUpSecret := by
  cases e with
  | literal v => cases h
  | lookup source key =>
    simp only [usesSecrets, Bool.or_eq_true, beq_iff_eq] at h
    rcases h with rfl | h
    · exact .here key
    · exact .key (looksUpSecret_of_usesSecrets h)
  | call name args =>
    rw [usesSecrets] at h
    obtain ⟨e, he, hlooks⟩ := exists_of_anyUsesSecrets h
    exact .arg he hlooks
  | path target steps =>
    simp only [usesSecrets, Bool.or_eq_true] at h
    rcases h with h | h
    · exact .target (looksUpSecret_of_usesSecrets h)
    · obtain ⟨e, he, hlooks⟩ := exists_index_of_anyUsesSecrets h
      exact .index he hlooks
  | unary op operand =>
    rw [usesSecrets] at h
    exact .operand (looksUpSecret_of_usesSecrets h)
  | binary op lhs rhs =>
    simp only [usesSecrets, Bool.or_eq_true] at h
    rcases h with h | h
    · exact .left (looksUpSecret_of_usesSecrets h)
    · exact .right (looksUpSecret_of_usesSecrets h)
  | ternary c t e =>
    simp only [usesSecrets, Bool.or_eq_true] at h
    rcases h with (h | h) | h
    · exact .condition (looksUpSecret_of_usesSecrets h)
    · exact .thenBranch (looksUpSecret_of_usesSecrets h)
    · exact .elseBranch (looksUpSecret_of_usesSecrets h)

theorem exists_of_anyUsesSecrets {es : List Expr} (h : anyUsesSecrets es = true) :
    ∃ e ∈ es, e.LooksUpSecret := by
  cases es with
  | nil => cases h
  | cons e rest =>
    simp only [anyUsesSecrets, Bool.or_eq_true] at h
    rcases h with h | h
    · exact ⟨e, List.mem_cons_self, looksUpSecret_of_usesSecrets h⟩
    · obtain ⟨e', he', hlooks⟩ := exists_of_anyUsesSecrets h
      exact ⟨e', List.mem_cons_of_mem e he', hlooks⟩

theorem exists_index_of_anyUsesSecrets {steps : List Step} (h : Step.anyUsesSecrets steps = true) :
    ∃ e, .index e ∈ steps ∧ e.LooksUpSecret := by
  cases steps with
  | nil => cases h
  | cons step rest =>
    simp only [Step.anyUsesSecrets, Bool.or_eq_true] at h
    rcases h with h | h
    · cases step with
      | property name => cases h
      | index e => exact ⟨e, List.mem_cons_self, looksUpSecret_of_usesSecrets h⟩
    · obtain ⟨e, he, hlooks⟩ := exists_index_of_anyUsesSecrets h
      exact ⟨e, List.mem_cons_of_mem step he, hlooks⟩

end

theorem anyUsesSecrets_of_mem {e : Expr} {es : List Expr} (he : e ∈ es)
    (h : e.usesSecrets = true) : anyUsesSecrets es = true := by
  induction he with
  | head => simp [anyUsesSecrets, h]
  | tail _ _ ih => simp [anyUsesSecrets, ih]

theorem anyUsesSecrets_of_index_mem {e : Expr} {steps : List Step} (he : .index e ∈ steps)
    (h : e.usesSecrets = true) : Step.anyUsesSecrets steps = true := by
  induction steps with
  | nil => cases he
  | cons step rest ih =>
    rcases List.mem_cons.mp he with rfl | he
    · simp [Step.anyUsesSecrets, Step.usesSecrets, h]
    · simp [Step.anyUsesSecrets, ih he]

theorem usesSecrets_iff {e : Expr} : e.usesSecrets = true ↔ e.LooksUpSecret := by
  refine ⟨looksUpSecret_of_usesSecrets, fun h => ?_⟩
  induction h with
  | here key => simp [usesSecrets]
  | arg he _ ih => simp [usesSecrets, anyUsesSecrets_of_mem he ih]
  | index he _ ih => simp [usesSecrets, anyUsesSecrets_of_index_mem he ih]
  | _ => simp [usesSecrets, *]

end Expr

theorem usesSecrets_template_iff {t : Template} : t.usesSecrets = true ↔
    ∃ source tree, .span source tree ∈ t ∧ tree.LooksUpSecret := by
  rw [Template.usesSecrets, List.any_eq_true]
  constructor
  · rintro ⟨segment, hsegment, huses⟩
    cases segment with
    | text cs => cases huses
    | span source tree => exact ⟨source, tree, hsegment, Expr.usesSecrets_iff.mp huses⟩
  · rintro ⟨source, tree, hsegment, hlooks⟩
    exact ⟨_, hsegment, Expr.usesSecrets_iff.mpr hlooks⟩

/-! ## What can be asked -/

inductive Query where
  | parse (input : String)
  | condition (input : String)
  | replaceValue (v : Value)
  | replaceTask (t : Task)

inductive Answer where
  | value (r : Except Fault Value)
  | truth (r : Except Fault Bool)
  | task (r : Except Fault Task)

namespace Query

/-- The texts that are templates. -/
def texts : Query → List String
  | parse input => [input]
  | condition input => [input]
  | replaceValue v => textsIn v
  | replaceTask t => textsOfTask t

/-- A lookup of a secret stands in the tree of some span. -/
def LooksUpSecret (q : Query) : Prop :=
  ∃ text ∈ q.texts, ∃ t, parseTemplate text = .ok t ∧
    ∃ source tree, .span source tree ∈ t ∧ tree.LooksUpSecret

theorem looksUpSecret_iff {q : Query} : q.LooksUpSecret ↔ ∃ text ∈ q.texts, UsesSecrets text := by
  simp only [LooksUpSecret, UsesSecrets, usesSecrets_template_iff]

end Query

namespace Scope

def ask (s : Scope) : Query → Answer × Scope
  | .parse input => (.value (s.parse input).1, (s.parse input).2)
  | .condition input => (.truth (s.condition input).1, (s.condition input).2)
  | .replaceValue v => (.value (s.replaceValue v).1, (s.replaceValue v).2)
  | .replaceTask t => (.task (s.replaceTask t).1, (s.replaceTask t).2)

variable {c c' : SecretCache}

theorem ask_snd (s : Scope) (q : Query) :
    (s.ask q).2 = s ∨
      q.LooksUpSecret ∧ (s.ask q).2 = s.withSecrets s.context.secrets.load.2 := by
  rw [Query.looksUpSecret_iff]
  cases q with
  | parse input => exact (asks_parse input).snd s
  | condition input => exact (asks_condition input).snd s
  | replaceValue v => exact (asks_replaceValue v).snd s
  | replaceTask t => exact (asks_replaceTask t).snd s

theorem ask_fst_alike (s : Scope) (q : Query) (hc : c.Alike c') :
    ((s.withSecrets c).ask q).1 = ((s.withSecrets c').ask q).1 := by
  cases q with
  | parse input => exact congrArg Answer.value ((asks_parse input).fst_alike s hc)
  | condition input => exact congrArg Answer.truth ((asks_condition input).fst_alike s hc)
  | replaceValue v => exact congrArg Answer.value ((asks_replaceValue v).fst_alike s hc)
  | replaceTask t => exact congrArg Answer.task ((asks_replaceTask t).fst_alike s hc)

end Scope

/-! ## What becomes of the cache -/

namespace SecretCache

variable {c c' c'' : SecretCache}

/-- The second cache is what can become of the first one: what was loaded stays, and there are no
calls after one that succeeded. -/
structure Becomes (c c' : SecretCache) : Prop where
  provider : c'.provider = c.provider
  kept : ∀ secrets, c.loaded = some secrets → c' = c
  calls : c.calls ≤ c'.calls
  success : ∀ p n secrets, c.provider = some p → c.calls ≤ n → n < c'.calls →
    p.answer n = .ok secrets → c'.calls = n + 1 ∧ c'.loaded = some secrets

theorem Becomes.refl (c : SecretCache) : c.Becomes c := by
  refine ⟨rfl, fun _ _ => rfl, Nat.le_refl _, ?_⟩
  intro p n secrets _ hle hlt
  omega

theorem Becomes.load (c : SecretCache) : c.Becomes c.load.2 := by
  refine ⟨c.provider_load, fun secrets => load_of_isLoaded, ?_, ?_⟩
  all_goals
    have hload := c.load_spec
    generalize c.load = l at *
    obtain ⟨r, c'⟩ := l
  · cases hload <;> simp
  · intro p n secrets hp hle hlt hanswer
    cases hload with
    | disabled _ => omega
    | kept _ _ => omega
    | fetched hp' _ hfetched =>
      have hn : n = c.calls := by simp at hlt; omega
      rw [hp] at hp'
      cases hp'
      rw [hn, hfetched] at hanswer
      cases hanswer
      exact ⟨by simp [hn], rfl⟩
    | failed hp' _ hfailed =>
      have hn : n = c.calls := by simp at hlt; omega
      rw [hp] at hp'
      cases hp'
      rw [hn, hfailed] at hanswer
      cases hanswer

theorem Becomes.trans (h : c.Becomes c') (h' : c'.Becomes c'') : c.Becomes c'' := by
  refine ⟨h'.provider.trans h.provider, ?_, Nat.le_trans h.calls h'.calls, ?_⟩
  · intro secrets hloaded
    have heq := h.kept secrets hloaded
    subst heq
    exact h'.kept secrets hloaded
  · intro p n secrets hp hle hlt hanswer
    by_cases hn : n < c'.calls
    · obtain ⟨hcalls, hloaded⟩ := h.success p n secrets hp hle hn hanswer
      rw [h'.kept secrets hloaded]
      exact ⟨hcalls, hloaded⟩
    · exact h'.success p n secrets (h.provider ▸ hp) (by omega) hlt hanswer

/-- One call is enough for a provider that always answers. -/
theorem Becomes.calls_le (h : c.Becomes c') {p : Provider} {secrets : List Secret}
    (hp : c.provider = some p) (hanswer : ∀ n, p.answer n = .ok secrets) :
    c'.calls ≤ c.calls + 1 := by
  by_cases hlt : c.calls < c'.calls
  · have hsuccess := h.success p c.calls secrets hp (Nat.le_refl _) hlt (hanswer _)
    omega
  · omega

end SecretCache

/-! ## Sessions -/

/-- Asks contexts that share a cache, one after the other. Each of them holds what it likes
otherwise. -/
def askAll (c : SecretCache) : List (Scope × Query) → List Answer × SecretCache
  | [] => ([], c)
  | (s, q) :: rest =>
    let (answer, s') := (s.withSecrets c).ask q
    let (answers, c') := askAll s'.context.secrets rest
    (answer :: answers, c')

variable {c : SecretCache}

theorem secrets_ask (s : Scope) (q : Query) (c : SecretCache) :
    ((s.withSecrets c).ask q).2.context.secrets = c ∨
      q.LooksUpSecret ∧ ((s.withSecrets c).ask q).2.context.secrets = c.load.2 := by
  refine ((s.withSecrets c).ask_snd q).imp ?_ (And.imp_right ?_)
  all_goals
    intro heq
    rw [heq]
    rfl

theorem askAll_becomes (c : SecretCache) (queries : List (Scope × Query)) :
    c.Becomes (askAll c queries).2 := by
  induction queries generalizing c with
  | nil => exact .refl c
  | cons e rest ih =>
    obtain ⟨s, q⟩ := e
    refine SecretCache.Becomes.trans ?_ (ih ((s.withSecrets c).ask q).2.context.secrets)
    rcases secrets_ask s q c with heq | ⟨-, heq⟩ <;> rw [heq]
    · exact .refl c
    · exact .load c

theorem askAll_snd {queries : List (Scope × Query)} (h : ∀ e ∈ queries, ¬ e.2.LooksUpSecret) :
    (askAll c queries).2 = c := by
  induction queries with
  | nil => rfl
  | cons e rest ih =>
    obtain ⟨s, q⟩ := e
    have hsame : ((s.withSecrets c).ask q).2.context.secrets = c :=
      (secrets_ask s q c).resolve_right fun hlooks => h _ List.mem_cons_self hlooks.1
    have hrest := ih fun e he => h e (List.mem_cons_of_mem _ he)
    simp only [askAll, hsame, hrest]

theorem askAll_fst {fixed : SecretCache} (queries : List (Scope × Query)) (hc : c.Alike fixed) :
    (askAll c queries).1 = queries.map fun e => ((e.1.withSecrets fixed).ask e.2).1 := by
  induction queries generalizing c with
  | nil => rfl
  | cons e rest ih =>
    obtain ⟨s, q⟩ := e
    have hnext : ((s.withSecrets c).ask q).2.context.secrets.Alike fixed := by
      rcases secrets_ask s q c with heq | ⟨-, heq⟩ <;> rw [heq]
      · exact hc
      · exact (SecretCache.Alike.load hc.left).symm.trans hc
    rw [List.map_cons, ← ih hnext, ← s.ask_fst_alike q hc]
    rfl

/-- The cache with these secrets in it from the start. -/
def SecretCache.holding (c : SecretCache) (secrets : List Secret) : SecretCache :=
  { c with loaded := some secrets }

theorem SecretCache.alike_holding {p : Provider} {secrets : List Secret}
    (hp : c.provider = some p) (hanswer : ∀ n, p.answer n = .ok secrets)
    (hloaded : ∀ secrets', c.loaded = some secrets' → secrets' = secrets) :
    c.Alike (c.holding secrets) := by
  refine ⟨rfl, ?_, ?_⟩
  · intro p' hp'
    rw [hp] at hp'
    cases hp'
    exact ⟨_, hanswer, fun secrets' h => by rw [hloaded secrets' h]⟩
  · intro p' hp'
    have hsame : p = p' := Option.some.inj (hp.symm.trans hp')
    subst hsame
    exact ⟨_, hanswer, fun secrets' h => by cases h; rfl⟩

/-- The value of a secret is that of the first entry under its key, in whatever case its ASCII
letters are. -/
theorem Scope.lookup_secret (s : Scope) (span key : String) {p : Provider} {secrets : List Secret}
    (hp : c.provider = some p) :
    (∀ before secret after, secrets = before ++ secret :: after →
      Text.sameIgnoringAsciiCase secret.key key = true →
      (∀ e ∈ before, Text.sameIgnoringAsciiCase e.key key = false) →
      (s.withSecrets (c.holding secrets)).lookup span .secrets key = .ok (.str secret.value)) ∧
    ((∀ e ∈ secrets, Text.sameIgnoringAsciiCase e.key key = false) →
      (s.withSecrets (c.holding secrets)).lookup span .secrets key =
        .error (.secretNotFound key p.name)) := by
  simp only [lookup, withSecrets, SecretCache.holding, SecretCache.lookup, hp, Option.getD_some]
  constructor
  · rintro before secret after rfl hkey hbefore
    have hnone : before.find? (Text.sameIgnoringAsciiCase ·.key key) = none := by
      rw [List.find?_eq_none]
      intro e he
      simp [hbefore e he]
    simp [List.find?_append, hnone, hkey]
  · intro hall
    have hnone : secrets.find? (Text.sameIgnoringAsciiCase ·.key key) = none := by
      rw [List.find?_eq_none]
      intro e he
      simp [hall e he]
    rw [hnone]

/-- Contexts that share a cache answer as if the secrets had been there from the start, and the
provider is asked once at most. It is not asked before a tree has a lookup of a secret. Whichever
calls of a provider fail, the first that succeeds is the last one, and what it answered stays. -/
theorem secrets_fetched_once (c : SecretCache) (queries : List (Scope × Query)) :
    (∀ p secrets, c.provider = some p → (∀ n, p.answer n = .ok secrets) →
      (∀ secrets', c.loaded = some secrets' → secrets' = secrets) →
      (askAll c queries).1 =
        queries.map (fun e => ((e.1.withSecrets (c.holding secrets)).ask e.2).1) ∧
      (askAll c queries).2.calls ≤ c.calls + 1 ∧
      ∀ (s : Scope) span key,
        (∀ before secret after, secrets = before ++ secret :: after →
          Text.sameIgnoringAsciiCase secret.key key = true →
          (∀ e ∈ before, Text.sameIgnoringAsciiCase e.key key = false) →
          (s.withSecrets (c.holding secrets)).lookup span .secrets key =
            .ok (.str secret.value)) ∧
        ((∀ e ∈ secrets, Text.sameIgnoringAsciiCase e.key key = false) →
          (s.withSecrets (c.holding secrets)).lookup span .secrets key =
            .error (.secretNotFound key p.name))) ∧
    ((∀ e ∈ queries, ¬ e.2.LooksUpSecret) → (askAll c queries).2 = c) ∧
    (∀ secrets, c.loaded = some secrets → (askAll c queries).2 = c) ∧
    ∀ p n secrets, c.provider = some p → c.calls ≤ n → n < (askAll c queries).2.calls →
      p.answer n = .ok secrets →
      (askAll c queries).2.calls = n + 1 ∧ (askAll c queries).2.loaded = some secrets := by
  have hbecomes := askAll_becomes c queries
  refine ⟨?_, askAll_snd, hbecomes.kept, hbecomes.success⟩
  intro p secrets hp hanswer hloaded
  have halike := SecretCache.alike_holding hp hanswer hloaded
  exact ⟨askAll_fst queries halike, hbecomes.calls_le hp hanswer,
    fun s span key => s.lookup_secret span key hp⟩

/-- A provider whose list has two entries under one key. -/
def vault : Provider := { name := "vault", answer := fun _ => .ok [⟨"Key", "x"⟩, ⟨"KEY", "y"⟩] }

def plainScope : Scope := { context := { traceId := "t" }, functions := {} }

/-- What comes before the first lookup of a secret leaves the cache alone, one call is all that
there is, and of the two entries the first one counts. -/
theorem secrets_fetched_once_vault :
    let fresh : SecretCache := { provider := vault }
    let loaded := fresh.holding [⟨"Key", "x"⟩, ⟨"KEY", "y"⟩]
    let before : List (Scope × Query) := [(plainScope, .parse "text")]
    let queries := before ++ [(plainScope, .replaceValue (.arr [.str "-$[Secrets('key')]-"])),
      (plainScope, .parse "$[Secrets('kEY')]")]
    (askAll fresh before).2 = fresh ∧ (askAll fresh queries).2.calls = 1 ∧
      (askAll fresh queries).1 = queries.map (fun e => ((e.1.withSecrets loaded).ask e.2).1) ∧
      (plainScope.withSecrets loaded).lookup "Secrets('kEY')" .secrets "kEY" = .ok (.str "x") := by
  intro fresh loaded before queries
  have hplain : ∀ e ∈ before, ¬ e.2.LooksUpSecret := by
    intro e he
    cases List.mem_singleton.mp he
    rw [Query.looksUpSecret_iff]
    rintro ⟨text, htext, hsecret⟩
    cases List.mem_singleton.mp htext
    have hsearch : (searchTexts ["text"]).toOption = some false := by decide +kernel
    cases h : searchTexts ["text"] with
    | error fault => simp [h, Except.toOption] at hsearch
    | ok needed =>
      rw [h] at hsearch
      cases hsearch
      exact searchTexts_eq_false h "text" (List.mem_singleton_self _) hsecret
  obtain ⟨-, hbefore, -, -⟩ := secrets_fetched_once fresh before
  obtain ⟨hanswers, -, -, -⟩ := secrets_fetched_once fresh queries
  obtain ⟨hfixed, -, hlookup⟩ := hanswers vault _ rfl (fun _ => rfl) nofun
  have hfirst := (hlookup plainScope "Secrets('kEY')" "kEY").1 [] ⟨"Key", "x"⟩ [⟨"KEY", "y"⟩] rfl
    (by decide +kernel) nofun
  exact ⟨hbefore hplain, by decide +kernel, hfixed, hfirst⟩

end WorkflowEngine.Expression
