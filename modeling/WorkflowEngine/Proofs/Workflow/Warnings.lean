import WorkflowEngine.Proofs.Expression.Refusal
import WorkflowEngine.Workflow.Validation

/-!
# Warnings and replacement

A description or a parameter text is warned of exactly if it is no template, and these are the texts
that are replaced when the task runs. So a task with such a warning is refused in every scope, and
one without fails only where a span is evaluated or where the secrets are loaded (`Hinders`).
-/

namespace WorkflowEngine

open Json (Value)
open Expression

mutual

/-- Validation and replacement go through the same texts of a value. -/
theorem valueTexts_eq (v : Value) : valueTexts v = textsIn v := by
  cases v with
  | str text => rfl
  | arr items => rw [valueTexts, textsIn, itemTexts_eq items]
  | obj fields => rw [valueTexts, textsIn, fieldTexts_eq fields]
  | null => rfl
  | bool b => rfl
  | num n => rfl

theorem itemTexts_eq (items : List Value) : itemTexts items = textsInItems items := by
  cases items with
  | nil => rfl
  | cons v rest => rw [itemTexts, textsInItems, valueTexts_eq v, itemTexts_eq rest]

theorem fieldTexts_eq (fields : List (String × Value)) :
    fieldTexts fields = textsInFields fields := by
  cases fields with
  | nil => rfl
  | cons field rest =>
    obtain ⟨k, v⟩ := field
    rw [fieldTexts, textsInFields, valueTexts_eq v, fieldTexts_eq rest]

end

namespace Task

variable {t : Task} {workflow : String} {fault : Fault}

/-- The warnings about one task of a workflow. -/
def warnings (workflow : String) (t : Task) : List SyntaxWarning :=
  t.expressionTexts.filterMap fun (field, text) =>
    match parseTemplate text with
    | .ok _ => none
    | .error fault => some ⟨workflow, t.name, field, fault⟩

theorem mem_warnings {warning : SyntaxWarning} :
    warning ∈ t.warnings workflow ↔
      ∃ field text fault, (field, text) ∈ t.expressionTexts ∧
        parseTemplate text = .error fault ∧ warning = ⟨workflow, t.name, field, fault⟩ := by
  rw [warnings, List.mem_filterMap]
  constructor
  · rintro ⟨⟨field, text⟩, hmem, heq⟩
    dsimp only at heq
    split at heq
    · cases heq
    · rename_i fault hfault
      cases heq
      exact ⟨field, text, fault, hmem, hfault, rfl⟩
  · rintro ⟨field, text, fault, hmem, hfault, rfl⟩
    exact ⟨(field, text), hmem, by simp only [hfault]⟩

/-- There is a warning of this fault in the description or in a parameter. -/
def Warned (workflow : String) (t : Task) (fault : Fault) : Prop :=
  ∃ warning ∈ t.warnings workflow,
    (warning.field = "description" ∨ warning.field = "parameters") ∧ warning.fault = fault

theorem mem_textsOfTask {text : String} :
    text ∈ textsOfTask t ↔
      ("description", text) ∈ t.expressionTexts ∨ ("parameters", text) ∈ t.expressionTexts := by
  simp [textsOfTask, expressionTexts, fieldTexts_eq]

theorem warned_iff :
    t.Warned workflow fault ↔ ∃ text ∈ textsOfTask t, parseTemplate text = .error fault := by
  constructor
  · rintro ⟨_, hwarning, hfield, rfl⟩
    obtain ⟨field, text, fault, hmem, hfault, rfl⟩ := mem_warnings.mp hwarning
    refine ⟨text, mem_textsOfTask.mpr ?_, hfault⟩
    rcases hfield with rfl | rfl
    · exact .inl hmem
    · exact .inr hmem
  · rintro ⟨text, htext, hfault⟩
    rcases mem_textsOfTask.mp htext with hmem | hmem
    · exact ⟨_, mem_warnings.mpr ⟨_, text, fault, hmem, hfault, rfl⟩, .inl rfl, rfl⟩
    · exact ⟨_, mem_warnings.mpr ⟨_, text, fault, hmem, hfault, rfl⟩, .inr rfl, rfl⟩

theorem not_warned_iff :
    (¬ ∃ fault, t.Warned workflow fault) ↔
      ∀ text ∈ textsOfTask t, ∃ template, parseTemplate text = .ok template := by
  simp only [warned_iff]
  constructor
  · intro hnone text htext
    cases hparsed : parseTemplate text with
    | ok template => exact ⟨template, rfl⟩
    | error fault => exact absurd ⟨fault, text, htext, hparsed⟩ hnone
  · rintro hall ⟨fault, text, htext, hfault⟩
    obtain ⟨template, htemplate⟩ := hall text htext
    rw [htemplate] at hfault
    cases hfault

end Task

theorem Workflow.warnings_eq (w : Workflow) :
    w.warnings = w.tasks.flatMap fun t => t.warnings w.name := rfl

end WorkflowEngine

namespace WorkflowEngine.Expression.Scope

open Json (Value)

variable {s : Scope} {fault : Fault}

/-! ## Where a fault comes from -/

theorem inlineText_eq_error {t : Template} (h : s.inlineText t = .error fault) :
    ∃ source tree, Segment.span source tree ∈ t ∧
      s.eval (String.ofList source) tree = .error fault := by
  induction t with
  | nil => cases h
  | cons segment rest ih =>
    have hrest : s.inlineText rest = .error fault → ∃ source tree,
        Segment.span source tree ∈ segment :: rest ∧
          s.eval (String.ofList source) tree = .error fault := by
      intro hrest
      obtain ⟨source, tree, hmem, hfault⟩ := ih hrest
      exact ⟨source, tree, List.mem_cons_of_mem segment hmem, hfault⟩
    cases segment with
    | text cs =>
      rw [inlineText] at h
      split at h
      · rename_i htail
        cases h
        exact hrest htail
      · cases h
    | span source tree =>
      rw [inlineText] at h
      split at h
      · rename_i hfault
        cases h
        exact ⟨source, tree, List.mem_cons_self, hfault⟩
      · split at h
        · rename_i htail
          cases h
          exact hrest htail
        · cases h

theorem render_eq_error {input : String} {t : Template} (h : s.render input t = .error fault) :
    ∃ source tree, Segment.span source tree ∈ t ∧
      s.eval (String.ofList source) tree = .error fault := by
  rw [render] at h
  split at h
  · cases h
  · split at h
    · rename_i source tree hsole
      exact ⟨source, tree, span_mem_of_soleSpan? hsole, h⟩
    · split at h
      · rename_i htext
        cases h
        exact inlineText_eq_error htext
      · cases h

theorem fillText_eq_error {text : String} {t : Template} (ht : parseTemplate text = .ok t)
    (h : s.fillText text = .error fault) :
    ∃ source tree, Segment.span source tree ∈ t ∧
      s.eval (String.ofList source) tree = .error fault := by
  rw [fillText, ht] at h
  exact render_eq_error h

-- The fault of a value is that of one of its texts, whatever its shape.
mutual

theorem fill_eq_error {v : Value} (h : s.fill v = .error fault) :
    ∃ text ∈ textsIn v, s.fillText text = .error fault := by
  cases v with
  | null => cases h
  | bool b => cases h
  | num n => cases h
  | str text =>
    rw [fill] at h
    exact ⟨text, by simp [textsIn], h⟩
  | arr items =>
    rw [fill] at h
    split at h
    · rename_i hitems
      cases h
      exact fillItems_eq_error hitems
    · cases h
  | obj fields =>
    rw [fill] at h
    split at h
    · rename_i hfields
      cases h
      exact fillFields_eq_error hfields
    · cases h

theorem fillItems_eq_error {items : List Value} (h : s.fillItems items = .error fault) :
    ∃ text ∈ textsInItems items, s.fillText text = .error fault := by
  cases items with
  | nil => cases h
  | cons v rest =>
    simp only [textsInItems, List.mem_append, or_and_right, exists_or]
    rw [fillItems] at h
    split at h
    · rename_i hv
      cases h
      exact .inl (fill_eq_error hv)
    · split at h
      · rename_i hrest
        cases h
        exact .inr (fillItems_eq_error hrest)
      · cases h

theorem fillFields_eq_error {fields : List (String × Value)}
    (h : s.fillFields fields = .error fault) :
    ∃ text ∈ textsInFields fields, s.fillText text = .error fault := by
  cases fields with
  | nil => cases h
  | cons field rest =>
    obtain ⟨k, v⟩ := field
    simp only [textsInFields, List.mem_append, or_and_right, exists_or]
    rw [fillFields] at h
    split at h
    · rename_i hv
      cases h
      exact .inl (fill_eq_error hv)
    · split at h
      · rename_i hrest
        cases h
        exact .inr (fillFields_eq_error hrest)
      · cases h

end

theorem fillDescription_eq_error {description : Option String}
    (h : s.fillDescription description = .error fault) :
    ∃ text ∈ description.toList, s.fillText text = .error fault := by
  cases description with
  | none => cases h
  | some text =>
    refine ⟨text, by simp, ?_⟩
    rw [fillDescription] at h
    cases htext : s.fillText text with
    | ok v =>
      rw [htext] at h
      cases h
    | error fault' =>
      rw [htext] at h
      cases h
      rfl

theorem fillTask_eq_error {t : Task} {description : Option (String × Template)}
    (hparsed : parseDescription t.description = .ok description)
    (h : s.fillTask t description = .error fault) :
    ∃ text ∈ textsOfTask t, s.fillText text = .error fault := by
  simp only [textsOfTask, List.mem_append, or_and_right, exists_or]
  rw [fillTask_eq s hparsed] at h
  split at h
  · rename_i hdescription
    cases h
    exact .inl (fillDescription_eq_error hdescription)
  · split at h
    · rename_i hparameters
      cases h
      exact .inr (fillFields_eq_error hparameters)
    · cases h

/-- Why templates that are well formed cannot be replaced: their secrets cannot be loaded, or a
span in one of them has no value once the secrets that are needed are loaded. -/
inductive Hinders (s : Scope) (texts : List String) (fault : Fault) : Prop where
  | provider {text : String} : text ∈ texts → UsesSecrets text →
      s.loadSecrets.1 = .error fault → Hinders s texts fault
  | evaluation {s' : Scope} {text : String} {template : Template} {source : List Char}
      {tree : Expr} : s' = s ∨ s.loadSecrets = (.ok (), s') → text ∈ texts →
      parseTemplate text = .ok template → Segment.span source tree ∈ template →
      s'.eval (String.ofList source) tree = .error fault → Hinders s texts fault

theorem hinders_of_replaceTask {t : Task}
    (htemplates : ∀ text ∈ textsOfTask t, ∃ template, parseTemplate text = .ok template)
    (h : (s.replaceTask t).1 = .error fault) : s.Hinders (textsOfTask t) fault := by
  have hfill : ∀ {s' : Scope} {description : Option (String × Template)},
      s' = s ∨ s.loadSecrets = (.ok (), s') → parseDescription t.description = .ok description →
      s'.fillTask t description = .error fault → s.Hinders (textsOfTask t) fault := by
    intro s' description hs' hparsed hfault
    obtain ⟨text, htext, hfault⟩ := fillTask_eq_error hparsed hfault
    obtain ⟨template, htemplate⟩ := htemplates text htext
    obtain ⟨source, tree, hspan, heval⟩ := fillText_eq_error htemplate hfault
    exact .evaluation hs' htext htemplate hspan heval
  have hnone : ∀ {text : String}, text ∈ textsOfTask t → parseTemplate text ≠ .error fault := by
    intro text htext hfault
    obtain ⟨template, htemplate⟩ := htemplates text htext
    rw [htemplate] at hfault
    cases hfault
  rw [replaceTask] at h
  split at h
  · rename_i hparsed
    cases h
    obtain ⟨text, htext, hfault⟩ := parseDescription_eq_error hparsed
    exact absurd hfault (hnone (List.mem_append_left _ htext))
  · rename_i description hparsed
    rw [searchTask_eq hparsed] at h
    split at h
    · rename_i hsearch
      cases h
      obtain ⟨text, htext, hfault⟩ := searchTexts_eq_error hsearch
      exact absurd hfault (hnone htext)
    · rename_i needed hsearch
      rw [afterSecrets] at h
      split at h
      · rename_i huses
        rw [huses] at hsearch
        obtain ⟨text, htext, huses⟩ := searchTexts_eq_true hsearch
        split at h
        · rename_i hload
          cases h
          exact .provider htext huses (congrArg Prod.fst hload)
        · rename_i hload
          exact hfill (.inr hload) hparsed h
      · exact hfill (.inl rfl) hparsed h

theorem replaceTask_error_of_faulty {t : Task} (s : Scope)
    (h : ∃ text ∈ textsOfTask t, parseTemplate text = .error fault) :
    ∃ e, (s.replaceTask t).1 = .error e := by
  obtain ⟨text, htext, hfault⟩ := h
  have hfaulty : ∃ text ∈ textsOfTask t, checkSyntax text ≠ .ok () := by
    refine ⟨text, htext, ?_⟩
    rw [checkSyntax_eq_error.mpr hfault]
    nofun
  obtain ⟨before, first, hfirst⟩ := exists_faultyAfter hfaulty
  exact (refused_replaceTask hfirst).fails

end WorkflowEngine.Expression.Scope

namespace WorkflowEngine

open Expression

/-- The warnings of a workflow are those about its tasks. A task is warned of in its description or
parameters if some text there is no template, and only then, and of the fault of that text. If it
is, it is refused in every scope; if it is not, only evaluation or the provider of secrets can
hinder its replacement. -/
theorem warnings_foretell_replacement (workflow : String) (t : Task) :
    (∀ w : Workflow, w.warnings = w.tasks.flatMap fun t => t.warnings w.name) ∧
    (∀ fault, t.Warned workflow fault ↔
      ∃ text ∈ textsOfTask t, parseTemplate text = .error fault) ∧
    ((∃ fault, t.Warned workflow fault) →
      ∀ s : Scope, ∃ fault, (s.replaceTask t).1 = .error fault) ∧
    ((¬ ∃ fault, t.Warned workflow fault) →
      (∀ text ∈ textsOfTask t, ∃ template, parseTemplate text = .ok template) ∧
      ∀ (s : Scope) fault, (s.replaceTask t).1 = .error fault →
        s.Hinders (textsOfTask t) fault) := by
  refine ⟨Workflow.warnings_eq, fun fault => Task.warned_iff, ?_, ?_⟩
  · rintro ⟨fault, hwarned⟩ s
    exact s.replaceTask_error_of_faulty (Task.warned_iff.mp hwarned)
  · intro hnone
    have htemplates := Task.not_warned_iff.mp hnone
    exact ⟨htemplates, fun s fault => Scope.hinders_of_replaceTask htemplates⟩

/-- An unclosed span in a list is warned of, and the task is refused with and without a provider. A
secret that the provider does not have is not warned of, but hinders the replacement. -/
theorem warnings_foretell_replacement_vault :
    let s := plainScope.withSecrets { provider := vault }
    let faulty : Task :=
      { name := "t", parameters := [("a", .str "$[Secrets('key')]"),
          ("b", .arr [.null, .str "$[("])] }
    let secretive : Task := { name := "u", description := "$[Secrets('nope')]" }
    (∃ fault, faulty.Warned "w" fault) ∧ (∃ fault, (s.replaceTask faulty).1 = .error fault) ∧
      (∃ fault, (plainScope.replaceTask faulty).1 = .error fault) ∧
      (¬ ∃ fault, secretive.Warned "w" fault) ∧
      ∃ fault, (s.replaceTask secretive).1 = .error fault ∧
        s.Hinders (textsOfTask secretive) fault := by
  intro s faulty secretive
  obtain ⟨-, hfaults, hrefused, -⟩ := warnings_foretell_replacement "w" faulty
  obtain ⟨-, -, -, hhindered⟩ := warnings_foretell_replacement "w" secretive
  have hwarned : ∃ fault, faulty.Warned "w" fault := by
    cases hparsed : parseTemplate "$[(" with
    | error fault => exact ⟨fault, (hfaults fault).mpr ⟨"$[(", by decide, hparsed⟩⟩
    | ok template => exact absurd (checkSyntax_eq_ok.mpr ⟨template, hparsed⟩) checkSyntax_unclosed
  have hsound : ¬ ∃ fault, secretive.Warned "w" fault := by
    refine Task.not_warned_iff.mpr ?_
    have htext : textsOfTask secretive = ["$[Secrets('nope')]"] := rfl
    rw [htext, List.forall_mem_singleton]
    have hparses : (parseTemplate "$[Secrets('nope')]").toOption.isSome = true := by decide +kernel
    cases hparsed : parseTemplate "$[Secrets('nope')]" with
    | ok template => exact ⟨template, rfl⟩
    | error fault =>
      rw [hparsed] at hparses
      cases hparses
  refine ⟨hwarned, hrefused hwarned s, hrefused hwarned plainScope, hsound, ?_⟩
  have hnone : (s.replaceTask secretive).1.toOption.isSome = false := by decide +kernel
  cases hreplaced : (s.replaceTask secretive).1 with
  | error fault => exact ⟨fault, rfl, (hhindered hsound).2 s fault hreplaced⟩
  | ok t =>
    rw [hreplaced] at hnone
    cases hnone

end WorkflowEngine
