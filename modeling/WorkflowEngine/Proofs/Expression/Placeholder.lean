import WorkflowEngine.Proofs.Expression.Session

/-!
# Replacing placeholders

Nothing but the texts in a value changes when it is filled in, and each of them becomes what it is
when it is parsed on its own (`Replaced`, `ReplacedTask`). The secrets are loaded once for all the
texts, before any of them is evaluated. If that fails, some text uses them, and parsing that one
fails too; if not, each text finds what it would have found by itself (`afterSecrets_cases`). The
search for secrets may end before the last text, but a fault in a text that it did not get to comes
up again when that text is filled in.
-/

namespace WorkflowEngine.Expression

open Json (Value)

/-! ## A value with its texts replaced -/

mutual

/-- The second value is the first one with each text in it, at any depth, replaced by a value of
that text. -/
inductive Replaced (value : String → Value → Prop) : Value → Value → Prop where
  | null : Replaced value .null .null
  | bool (b : Bool) : Replaced value (.bool b) (.bool b)
  | num (n : Json.Number) : Replaced value (.num n) (.num n)
  | str {text : String} {v : Value} : value text v → Replaced value (.str text) v
  | arr {items items' : List Value} : ReplacedItems value items items' →
      Replaced value (.arr items) (.arr items')
  | obj {fields fields' : List (String × Value)} : ReplacedFields value fields fields' →
      Replaced value (.obj fields) (.obj fields')

/-- Item by item, so that there are as many as before. -/
inductive ReplacedItems (value : String → Value → Prop) : List Value → List Value → Prop where
  | nil : ReplacedItems value [] []
  | cons {v v' : Value} {rest rest' : List Value} : Replaced value v v' →
      ReplacedItems value rest rest' → ReplacedItems value (v :: rest) (v' :: rest')

/-- Field by field, under the same keys. -/
inductive ReplacedFields (value : String → Value → Prop) :
    List (String × Value) → List (String × Value) → Prop where
  | nil : ReplacedFields value [] []
  | cons {k : String} {v v' : Value} {rest rest' : List (String × Value)} : Replaced value v v' →
      ReplacedFields value rest rest' → ReplacedFields value ((k, v) :: rest) ((k, v') :: rest')

end

/-- The value of a description is written as text. -/
inductive ReplacedDescription (value : String → Value → Prop) :
    Option String → Option String → Prop where
  | none : ReplacedDescription value none none
  | some {text : String} {v : Value} : value text v →
      ReplacedDescription value (some text) (some (stringify v))

/-- The second task is the first one with its description and its parameters replaced. -/
structure ReplacedTask (value : String → Value → Prop) (t t' : Task) : Prop where
  description : ReplacedDescription value t.description t'.description
  parameters : ReplacedFields value t.parameters t'.parameters
  rest : t' = { t with description := t'.description, parameters := t'.parameters }

variable {value : String → Value → Prop}

mutual

theorem exists_replaced (v : Value) :
    (∃ r, Replaced value v r) ↔ ∀ text ∈ textsIn v, ∃ x, value text x := by
  cases v with
  | null => exact ⟨fun _ => by simp [textsIn], fun _ => ⟨_, .null⟩⟩
  | bool b => exact ⟨fun _ => by simp [textsIn], fun _ => ⟨_, .bool b⟩⟩
  | num n => exact ⟨fun _ => by simp [textsIn], fun _ => ⟨_, .num n⟩⟩
  | str text =>
    simp only [textsIn, List.mem_singleton, forall_eq]
    constructor
    · rintro ⟨r, hr⟩
      cases hr with
      | str h => exact ⟨r, h⟩
    · rintro ⟨r, h⟩
      exact ⟨r, .str h⟩
  | arr items =>
    rw [textsIn, ← exists_replacedItems items]
    constructor
    · rintro ⟨r, hr⟩
      cases hr with
      | arr h => exact ⟨_, h⟩
    · rintro ⟨items', h⟩
      exact ⟨.arr items', .arr h⟩
  | obj fields =>
    rw [textsIn, ← exists_replacedFields fields]
    constructor
    · rintro ⟨r, hr⟩
      cases hr with
      | obj h => exact ⟨_, h⟩
    · rintro ⟨fields', h⟩
      exact ⟨.obj fields', .obj h⟩

theorem exists_replacedItems (items : List Value) :
    (∃ r, ReplacedItems value items r) ↔ ∀ text ∈ textsInItems items, ∃ x, value text x := by
  cases items with
  | nil => exact ⟨fun _ => by simp [textsInItems], fun _ => ⟨_, .nil⟩⟩
  | cons v rest =>
    simp only [textsInItems, List.forall_mem_append, ← exists_replaced v,
      ← exists_replacedItems rest]
    constructor
    · rintro ⟨r, hr⟩
      cases hr with
      | cons h hrest => exact ⟨⟨_, h⟩, _, hrest⟩
    · rintro ⟨⟨v', h⟩, rest', hrest⟩
      exact ⟨v' :: rest', .cons h hrest⟩

theorem exists_replacedFields (fields : List (String × Value)) :
    (∃ r, ReplacedFields value fields r) ↔ ∀ text ∈ textsInFields fields, ∃ x, value text x := by
  cases fields with
  | nil => exact ⟨fun _ => by simp [textsInFields], fun _ => ⟨_, .nil⟩⟩
  | cons field rest =>
    obtain ⟨k, v⟩ := field
    simp only [textsInFields, List.forall_mem_append, ← exists_replaced v,
      ← exists_replacedFields rest]
    constructor
    · rintro ⟨r, hr⟩
      cases hr with
      | cons h hrest => exact ⟨⟨_, h⟩, _, hrest⟩
    · rintro ⟨⟨v', h⟩, rest', hrest⟩
      exact ⟨(k, v') :: rest', .cons h hrest⟩

end

theorem exists_replacedDescription (description : Option String) :
    (∃ r, ReplacedDescription value description r) ↔
      ∀ text ∈ description.toList, ∃ x, value text x := by
  cases description with
  | none => exact ⟨fun _ => by simp, fun _ => ⟨_, .none⟩⟩
  | some text =>
    simp only [Option.toList_some, List.mem_singleton, forall_eq]
    constructor
    · rintro ⟨r, hr⟩
      cases hr with
      | some h => exact ⟨_, h⟩
    · rintro ⟨v, h⟩
      exact ⟨stringify v, .some h⟩

theorem exists_replacedTask (t : Task) :
    (∃ t', ReplacedTask value t t') ↔ ∀ text ∈ textsOfTask t, ∃ x, value text x := by
  rw [textsOfTask, List.forall_mem_append, ← exists_replacedDescription,
    ← exists_replacedFields t.parameters]
  constructor
  · rintro ⟨t', h⟩
    exact ⟨⟨_, h.description⟩, _, h.parameters⟩
  · rintro ⟨⟨description, hdescription⟩, parameters, hparameters⟩
    exact ⟨{ t with description, parameters }, hdescription, hparameters, rfl⟩

/-! ## Filling in -/

namespace Scope

/-- The value of the text is `v`. -/
def ParsesTo (s : Scope) (text : String) (v : Value) : Prop := (s.parse text).1 = .ok v

-- Along a value of any shape, what its texts are filled to decides what it is filled to.
mutual

theorem fill_eq_ok (s : Scope) {v r : Value}
    (h : ∀ text ∈ textsIn v, ∀ x, s.fillText text = .ok x ↔ value text x) :
    s.fill v = .ok r ↔ Replaced value v r := by
  cases v with
  | null =>
    constructor
    · rintro ⟨⟩
      exact .null
    · rintro ⟨⟩
      rfl
  | bool b =>
    constructor
    · rintro ⟨⟩
      exact .bool b
    · rintro ⟨⟩
      rfl
  | num n =>
    constructor
    · rintro ⟨⟩
      exact .num n
    · rintro ⟨⟩
      rfl
  | str text =>
    rw [fill, h text (by simp [textsIn])]
    constructor
    · exact .str
    · intro hr
      cases hr with
      | str hvalue => exact hvalue
  | arr items =>
    rw [textsIn] at h
    rw [fill]
    constructor
    · intro hr
      split at hr
      · cases hr
      · rename_i items' hitems
        cases hr
        exact .arr ((fillItems_eq_ok s h).mp hitems)
    · intro hr
      cases hr with
      | arr hitems => rw [(fillItems_eq_ok s h).mpr hitems]
  | obj fields =>
    rw [textsIn] at h
    rw [fill]
    constructor
    · intro hr
      split at hr
      · cases hr
      · rename_i fields' hfields
        cases hr
        exact .obj ((fillFields_eq_ok s h).mp hfields)
    · intro hr
      cases hr with
      | obj hfields => rw [(fillFields_eq_ok s h).mpr hfields]

theorem fillItems_eq_ok (s : Scope) {items r : List Value}
    (h : ∀ text ∈ textsInItems items, ∀ x, s.fillText text = .ok x ↔ value text x) :
    s.fillItems items = .ok r ↔ ReplacedItems value items r := by
  cases items with
  | nil =>
    constructor
    · rintro ⟨⟩
      exact .nil
    · rintro ⟨⟩
      rfl
  | cons v rest =>
    rw [textsInItems, List.forall_mem_append] at h
    rw [fillItems]
    constructor
    · intro hr
      split at hr
      · cases hr
      · rename_i v' hv
        split at hr
        · cases hr
        · rename_i rest' hrest
          cases hr
          exact .cons ((fill_eq_ok s h.1).mp hv) ((fillItems_eq_ok s h.2).mp hrest)
    · intro hr
      cases hr with
      | cons hv hrest =>
        rw [(fill_eq_ok s h.1).mpr hv]
        dsimp only
        rw [(fillItems_eq_ok s h.2).mpr hrest]

theorem fillFields_eq_ok (s : Scope) {fields r : List (String × Value)}
    (h : ∀ text ∈ textsInFields fields, ∀ x, s.fillText text = .ok x ↔ value text x) :
    s.fillFields fields = .ok r ↔ ReplacedFields value fields r := by
  cases fields with
  | nil =>
    constructor
    · rintro ⟨⟩
      exact .nil
    · rintro ⟨⟩
      rfl
  | cons field rest =>
    obtain ⟨k, v⟩ := field
    rw [textsInFields, List.forall_mem_append] at h
    rw [fillFields]
    constructor
    · intro hr
      split at hr
      · cases hr
      · rename_i v' hv
        split at hr
        · cases hr
        · rename_i rest' hrest
          cases hr
          exact .cons ((fill_eq_ok s h.1).mp hv) ((fillFields_eq_ok s h.2).mp hrest)
    · intro hr
      cases hr with
      | cons hv hrest =>
        rw [(fill_eq_ok s h.1).mpr hv]
        dsimp only
        rw [(fillFields_eq_ok s h.2).mpr hrest]

end

def fillDescription (s : Scope) : Option String → Except Fault (Option String)
  | none => .ok none
  | some text => (s.fillText text).map fun v => some (stringify v)

theorem fillDescription_eq_ok (s : Scope) {description r : Option String}
    (h : ∀ text ∈ description.toList, ∀ x, s.fillText text = .ok x ↔ value text x) :
    s.fillDescription description = .ok r ↔ ReplacedDescription value description r := by
  cases description with
  | none =>
    constructor
    · rintro ⟨⟩
      exact .none
    · rintro ⟨⟩
      rfl
  | some text =>
    have htext := h text (by simp)
    rw [fillDescription]
    constructor
    · intro hr
      cases hv : s.fillText text with
      | error fault =>
        rw [hv] at hr
        cases hr
      | ok v =>
        rw [hv] at hr
        cases hr
        exact .some ((htext v).mp hv)
    · intro hr
      cases hr with
      | some hv =>
        rw [(htext _).mpr hv]
        rfl

theorem fillTask_eq (s : Scope) {t : Task} {description : Option (String × Template)}
    (hparsed : parseDescription t.description = .ok description) :
    s.fillTask t description =
      match s.fillDescription t.description with
      | .error fault => .error fault
      | .ok description =>
        match s.fillFields t.parameters with
        | .error fault => .error fault
        | .ok parameters => .ok { t with description, parameters } := by
  rw [fillTask.eq_def]
  cases hd : t.description with
  | none =>
    rw [hd] at hparsed
    cases hparsed
    rfl
  | some text =>
    rw [hd, parseDescription] at hparsed
    split at hparsed
    · cases hparsed
    · rename_i template htemplate
      cases hparsed
      dsimp only
      rw [describe, fillDescription, fillText, htemplate]
      dsimp only
      cases s.render text template <;> rfl

theorem fillTask_eq_ok (s : Scope) {t t' : Task} {description : Option (String × Template)}
    (hparsed : parseDescription t.description = .ok description)
    (h : ∀ text ∈ textsOfTask t, ∀ x, s.fillText text = .ok x ↔ value text x) :
    s.fillTask t description = .ok t' ↔ ReplacedTask value t t' := by
  rw [textsOfTask, List.forall_mem_append] at h
  obtain ⟨htext, hfields⟩ := h
  rw [fillTask_eq s hparsed]
  constructor
  · intro ht
    split at ht
    · cases ht
    · rename_i description' hdescription
      split at ht
      · cases ht
      · rename_i parameters hparameters
        cases ht
        exact ⟨(fillDescription_eq_ok s htext).mp hdescription,
          (fillFields_eq_ok s hfields).mp hparameters, rfl⟩
  · intro ht
    rw [(fillDescription_eq_ok s htext).mpr ht.description]
    dsimp only
    rw [(fillFields_eq_ok s hfields).mpr ht.parameters]
    exact congrArg Except.ok ht.rest.symm

/-! ## One text and all texts -/

theorem parse_fst_of_not_usesSecrets (s : Scope) {text : String} (h : ¬ UsesSecrets text) :
    (s.parse text).1 = s.fillText text := by
  rw [parse, fillText]
  cases ht : parseTemplate text with
  | error fault => rfl
  | ok t =>
    have hnot : t.usesSecrets = false := Bool.eq_false_iff.mpr fun huses => h ⟨t, ht, huses⟩
    simp [afterSecrets, hnot]

theorem parse_fst_of_usesSecrets (s : Scope) {text : String} (h : UsesSecrets text) :
    (s.parse text).1 =
      match s.context.secrets.load.1 with
      | .error reason =>
        let provider := (s.context.secrets.provider.map (·.name)).getD "unknown"
        .error (.secretsUnavailable provider reason)
      | .ok _ => (s.withSecrets s.context.secrets.load.2).fillText text := by
  obtain ⟨t, ht, huses⟩ := h
  simp only [parse, fillText, ht, huses]
  exact congrArg Prod.fst (s.afterSecrets_true fun s => s.render text t)

theorem parseDescription_eq_error {description : Option String} {fault : Fault}
    (h : parseDescription description = .error fault) :
    ∃ text ∈ description.toList, parseTemplate text = .error fault := by
  cases description with
  | none => cases h
  | some text =>
    rw [parseDescription] at h
    split at h
    · rename_i ht
      cases h
      exact ⟨text, by simp, ht⟩
    · cases h

/-- Either the secrets are there for what is done with the texts, as they are for each text on its
own, or they cannot be had and some text has no value. -/
theorem afterSecrets_cases {α : Type} (s : Scope) {texts : List String} {needed : Bool}
    (hsearch : searchTexts texts = .ok needed) (use : Scope → Except Fault α) :
    (∃ s', (s.afterSecrets needed use).1 = use s' ∧
      ∀ text ∈ texts, (s.parse text).1 = s'.fillText text) ∨
    ∃ fault, (s.afterSecrets needed use).1 = .error fault ∧
      ∃ text ∈ texts, (s.parse text).1 = .error fault := by
  cases needed with
  | false =>
    refine .inl ⟨s, rfl, ?_⟩
    intro text htext
    exact s.parse_fst_of_not_usesSecrets (searchTexts_eq_false hsearch text htext)
  | true =>
    obtain ⟨text, htext, huses⟩ := searchTexts_eq_true hsearch
    have hparse := s.parse_fst_of_usesSecrets huses
    rw [afterSecrets_true]
    cases hload : s.context.secrets.load.1 with
    | error reason =>
      rw [hload] at hparse
      exact .inr ⟨_, rfl, text, htext, hparse⟩
    | ok secrets =>
      refine .inl ⟨s.withSecrets s.context.secrets.load.2, rfl, ?_⟩
      intro text' htext'
      -- A text that uses no secrets is parsed before they are loaded, and has the same value then.
      by_cases huses' : UsesSecrets text'
      · rw [s.parse_fst_of_usesSecrets huses', hload]
      · rw [s.parse_fst_of_not_usesSecrets huses']
        exact s.fillText_agree (c := s.context.secrets) fun h => absurd h huses'

theorem parse_fst_of_error (s : Scope) {text : String} {fault : Fault}
    (h : parseTemplate text = .error fault) : (s.parse text).1 = .error fault := by
  rw [parse, h]

variable {s : Scope}

theorem not_parsesTo_of_error {text : String} {fault : Fault} {v : Value}
    (h : (s.parse text).1 = .error fault) : ¬ s.ParsesTo text v := by
  rw [ParsesTo, h]
  nofun

/-- What is done with the texts once they are searched gives a result if each text has a value, and
only then. -/
theorem searched_eq_ok {α : Type} {texts : List String} {use : Scope → Except Fault α} {r : α}
    {result : Prop}
    (hfill : ∀ s' : Scope, (∀ text ∈ texts, ∀ x, s'.fillText text = .ok x ↔ s.ParsesTo text x) →
      (use s' = .ok r ↔ result))
    (hvalues : result → ∀ text ∈ texts, ∃ x, s.ParsesTo text x) :
    (match searchTexts texts with
      | .error fault => ((.error fault : Except Fault α), s)
      | .ok needed => s.afterSecrets needed use).1 = .ok r ↔ result := by
  cases hsearch : searchTexts texts with
  | error fault =>
    obtain ⟨text, htext, hparse⟩ := searchTexts_eq_error hsearch
    refine iff_of_false nofun fun hresult => ?_
    obtain ⟨x, hx⟩ := hvalues hresult text htext
    exact not_parsesTo_of_error (s.parse_fst_of_error hparse) hx
  | ok needed =>
    dsimp only
    obtain ⟨s', heq, hparse⟩ | ⟨fault, heq, text, htext, hparse⟩ := s.afterSecrets_cases hsearch use
    · rw [heq]
      refine hfill s' ?_
      intro text htext x
      rw [ParsesTo, hparse text htext]
    · rw [heq]
      refine iff_of_false nofun fun hresult => ?_
      obtain ⟨x, hx⟩ := hvalues hresult text htext
      exact not_parsesTo_of_error hparse hx

theorem replaceValue_eq_ok {v r : Value} :
    (s.replaceValue v).1 = .ok r ↔ Replaced s.ParsesTo v r := by
  rw [replaceValue, searchSecrets_eq]
  exact searched_eq_ok (fun s' h => fill_eq_ok s' h) fun h => (exists_replaced v).mp ⟨r, h⟩

theorem replaceTask_eq_ok {t t' : Task} :
    (s.replaceTask t).1 = .ok t' ↔ ReplacedTask s.ParsesTo t t' := by
  have hvalues : ReplacedTask s.ParsesTo t t' → ∀ text ∈ textsOfTask t, ∃ x, s.ParsesTo text x :=
    fun h => (exists_replacedTask t).mp ⟨t', h⟩
  rw [replaceTask]
  cases hparsed : parseDescription t.description with
  | error fault =>
    obtain ⟨text, htext, hparse⟩ := parseDescription_eq_error hparsed
    refine iff_of_false (by simp) fun h => ?_
    obtain ⟨x, hx⟩ := hvalues h text (List.mem_append_left _ htext)
    exact not_parsesTo_of_error (s.parse_fst_of_error hparse) hx
  | ok description =>
    dsimp only
    rw [searchTask_eq hparsed]
    exact searched_eq_ok (fun s' h => fillTask_eq_ok s' hparsed h) hvalues

theorem parsesTo_alike {c : SecretCache} (h : s.context.secrets.Alike c) :
    s.ParsesTo = (s.withSecrets c).ParsesTo := by
  funext text v
  have hsame := (asks_parse text).fst_alike s h
  exact congrArg (· = Except.ok v) hsame

end Scope

/-- With a provider that always gives the same answer, a value or a task can be replaced if every
text in it can be parsed on its own, whatever was loaded before, and only then; and it is replaced
by what the texts are parsed to. -/
theorem replaced_as_parsed (s : Scope) {c : SecretCache} (h : s.context.secrets.Alike c) :
    (∀ v, ((∃ r, (s.replaceValue v).1 = .ok r) ↔
        ∀ text ∈ textsIn v, ∃ x, (s.withSecrets c).ParsesTo text x) ∧
      ∀ r, (s.replaceValue v).1 = .ok r ↔ Replaced (s.withSecrets c).ParsesTo v r) ∧
    ∀ t, ((∃ t', (s.replaceTask t).1 = .ok t') ↔
        ∀ text ∈ textsOfTask t, ∃ x, (s.withSecrets c).ParsesTo text x) ∧
      ∀ t', (s.replaceTask t).1 = .ok t' ↔ ReplacedTask (s.withSecrets c).ParsesTo t t' := by
  rw [← Scope.parsesTo_alike h]
  refine ⟨fun v => ⟨?_, fun r => Scope.replaceValue_eq_ok⟩,
    fun t => ⟨?_, fun t' => Scope.replaceTask_eq_ok⟩⟩
  · simp only [Scope.replaceValue_eq_ok]
    exact exists_replaced v
  · simp only [Scope.replaceTask_eq_ok]
    exact exists_replacedTask t

/-- The description and a text in a list find the secret that is not loaded yet, as they do where
it is; what is no text stays, and so does the rest of the task. -/
theorem replaced_as_parsed_vault :
    let fresh : SecretCache := { provider := vault }
    let loaded := fresh.holding [⟨"Key", "x"⟩, ⟨"KEY", "y"⟩]
    let t : Task :=
      { name := "t", description := "-$[Secrets('key')]-", dependencies := ["u"],
        parameters := [("a", .arr [.str "$[Secrets('kEY')]", .null])] }
    fresh.Alike loaded ∧
      ∃ t', ((plainScope.withSecrets fresh).replaceTask t).1 = .ok t' ∧
        t'.description = some "-x-" ∧ ReplacedTask (plainScope.withSecrets loaded).ParsesTo t t' := by
  intro fresh loaded t
  have halike : fresh.Alike loaded := SecretCache.alike_holding rfl (fun _ => rfl) nofun
  obtain ⟨-, htasks⟩ := replaced_as_parsed (plainScope.withSecrets fresh) halike
  have hdescription : ((plainScope.withSecrets fresh).replaceTask t).1.toOption.bind
      (·.description) = some "-x-" := by decide +kernel
  cases hreplaced : ((plainScope.withSecrets fresh).replaceTask t).1 with
  | error fault =>
    rw [hreplaced] at hdescription
    cases hdescription
  | ok t' =>
    rw [hreplaced] at hdescription
    exact ⟨halike, t', rfl, hdescription, ((htasks t).2 t').mp hreplaced⟩

end WorkflowEngine.Expression
