import WorkflowEngine.Proofs.Graph.Search
import WorkflowEngine.Proofs.Workflow.Names
import WorkflowEngine.Workflow.Validation

/-!
# What validation accepts

The four conditions of a sound workflow are stated on names and settings alone. `FirstFault`
says which error goes with the first of them that does not hold, and `validate_spec` that
validation accepts exactly the sound workflows and otherwise answers with that error.
-/

namespace WorkflowEngine

namespace Workflow

/-- The first name is that of a task that depends on the second one, or branches to it. -/
def RefersTo (w : Workflow) (a b : String) : Prop :=
  ∃ t ∈ w.tasks, t.name = a ∧ (b ∈ t.dependencies ∨ b ∈ t.branchTargets)

def UniqueNames (w : Workflow) : Prop := w.taskNames.Nodup

/-- Every dependency and every target of a branch is the name of a task. -/
def Resolved (w : Workflow) : Prop := ∀ a b, w.RefersTo a b → b ∈ w.taskNames

/-- No chain of references leads back to its start. -/
def Unlooped (w : Workflow) : Prop := ∀ a, ¬ Relation.TransGen w.RefersTo a a

end Workflow

def Task.SoundSettings (t : Task) : Prop :=
  0 ≤ t.retry.maxRetries ∧ ∀ d, t.retry.delay = some d → 0 ≤ d

/-- The setting that is named, retries before the delay. -/
inductive Task.BadSetting (t : Task) : SettingFault → Prop where
  | retries : t.retry.maxRetries < 0 → BadSetting t (.negativeRetries t.retry.maxRetries)
  | delay {d : Int} : 0 ≤ t.retry.maxRetries → t.retry.delay = some d → d < 0 →
      BadSetting t (.negativeDelay d)

namespace Workflow

/-- The error that goes with the first condition that a workflow breaks. Every constructor asks
for the conditions before its own, and names the first place where its own is broken. -/
inductive FirstFault (w : Workflow) : ValidationError → Prop where
  | duplicate {before after : List Task} {t : Task} : w.tasks = before ++ t :: after →
      (before.map (·.name)).Nodup → t.name ∈ before.map (·.name) →
      FirstFault w (.duplicateTask w.name t.name)
  | dangling {before after : List Task} {t : Task} {earlier later : List Reference}
      {r : Reference} : w.UniqueNames → w.tasks = before ++ t :: after →
      (∀ s ∈ before, ∀ r ∈ s.references, r.target ∈ w.taskNames) →
      t.references = earlier ++ r :: later → (∀ r ∈ earlier, r.target ∈ w.taskNames) →
      r.target ∉ w.taskNames →
      FirstFault w (.missingReference w.name t.name r.kind r.target)
  | cycle {steps : List CycleStep} : w.UniqueNames → w.Resolved → ¬ w.Unlooped →
      FirstFault w (.cycle w.name steps)
  | settings {before after : List Task} {t : Task} {fault : SettingFault} : w.UniqueNames →
      w.Resolved → w.Unlooped → w.tasks = before ++ t :: after →
      (∀ s ∈ before, s.SoundSettings) → t.BadSetting fault →
      FirstFault w (.invalidSettings t.name fault)

end Workflow

/-! ## Names -/

theorem firstRepeated?_eq_none {names seen : List String} :
    firstRepeated? seen names = none ↔ names.Nodup ∧ ∀ n ∈ names, n ∉ seen := by
  induction names generalizing seen with
  | nil => simp [firstRepeated?]
  | cons n rest ih =>
    rw [firstRepeated?]
    by_cases hn : n ∈ seen
    · simp [hn]
    · simp only [List.contains_iff_mem, hn, if_false, ih, List.nodup_cons, List.mem_cons, not_or,
        forall_eq_or_imp]
      constructor
      · rintro ⟨hnodup, hrest⟩
        exact ⟨⟨fun hmem => (hrest n hmem).1 rfl, hnodup⟩, id, fun m hm => (hrest m hm).2⟩
      · rintro ⟨⟨hnotin, hnodup⟩, -, hrest⟩
        exact ⟨hnodup, fun m hm => ⟨fun h => hnotin (h ▸ hm), hrest m hm⟩⟩

theorem firstRepeated?_eq_some {names seen : List String} {n : String}
    (h : firstRepeated? seen names = some n) :
    ∃ before after, names = before ++ n :: after ∧ before.Nodup ∧ (∀ m ∈ before, m ∉ seen) ∧
      (n ∈ before ∨ n ∈ seen) := by
  induction names generalizing seen with
  | nil => cases h
  | cons m rest ih =>
    rw [firstRepeated?] at h
    by_cases hm : m ∈ seen
    · simp only [List.contains_iff_mem, hm, if_true] at h
      cases h
      exact ⟨[], rest, rfl, List.nodup_nil, by simp, .inr hm⟩
    · simp only [List.contains_iff_mem, hm, if_false] at h
      obtain ⟨before, after, rfl, hnodup, hfresh, hn⟩ := ih h
      refine ⟨m :: before, after, rfl, ?_, ?_, ?_⟩
      · exact List.nodup_cons.mpr ⟨fun hmem => hfresh m hmem (List.mem_cons_self ..), hnodup⟩
      · intro k hk
        rcases List.mem_cons.mp hk with rfl | hk
        · exact hm
        · exact fun hseen => hfresh k hk (List.mem_cons_of_mem _ hseen)
      · rcases hn with hn | hn
        · exact .inl (List.mem_cons_of_mem _ hn)
        · rcases List.mem_cons.mp hn with rfl | hn
          · exact .inl (List.mem_cons_self ..)
          · exact .inr hn

namespace Workflow

variable {w : Workflow}

/-! ## References -/

theorem mem_references {t : Task} {b : String} :
    (∃ r ∈ t.references, r.target = b) ↔ b ∈ t.dependencies ∨ b ∈ t.branchTargets := by
  simp [Task.references, or_and_right, exists_or]

theorem resolved_iff :
    w.Resolved ↔ ∀ t ∈ w.tasks, ∀ r ∈ t.references, r.target ∈ w.taskNames := by
  constructor
  · intro h t ht r hr
    exact h t.name r.target ⟨t, ht, rfl, mem_references.mp ⟨r, hr, rfl⟩⟩
  · rintro h a b ⟨t, ht, -, hb⟩
    obtain ⟨r, hr, rfl⟩ := mem_references.mpr hb
    exact h t ht r hr

theorem firstDangling?_eq_none : w.firstDangling? = none ↔ w.Resolved := by
  simp [firstDangling?, resolved_iff, lastIndex?_eq_none]

theorem firstDangling?_eq_some {t : Task} {r : Reference} (h : w.firstDangling? = some (t, r)) :
    ∃ before after earlier later, w.tasks = before ++ t :: after ∧
      (∀ s ∈ before, ∀ r ∈ s.references, r.target ∈ w.taskNames) ∧
      t.references = earlier ++ r :: later ∧ (∀ r ∈ earlier, r.target ∈ w.taskNames) ∧
      r.target ∉ w.taskNames := by
  obtain ⟨before, s, after, hw, hs, hbefore⟩ := List.findSome?_eq_some_iff.mp h
  obtain ⟨r', hr', heq⟩ := Option.map_eq_some_iff.mp hs
  cases heq
  obtain ⟨hnone, earlier, later, href, hearlier⟩ := List.find?_eq_some_iff_append.mp hr'
  refine ⟨before, after, earlier, later, hw, ?_, href, ?_, ?_⟩
  · intro s hs r hr
    have := hbefore s hs
    simp only [Option.map_eq_none_iff, List.find?_eq_none] at this
    simpa [lastIndex?_eq_none] using this r hr
  · intro r hr
    simpa [isSome_lastIndex?] using hearlier r hr
  · simpa [lastIndex?_eq_none] using hnone

/-! ## Cycles -/

theorem referenceEdges_eq :
    w.referenceEdges = w.predecessorEdges fun t => t.references.map (·.target) := by
  simp [referenceEdges, predecessorEdges, List.filterMap_map]

theorem leads_references : w.Leads (fun t => t.references.map (·.target)) = w.RefersTo := by
  funext a b
  simp only [Leads, RefersTo, List.mem_map, mem_references]

theorem firstCycle?_eq_none (h : w.UniqueNames) : w.firstCycle? = none ↔ w.Unlooped := by
  rw [firstCycle?, Option.map_eq_none_iff, Graph.findMeeting_eq_none_iff, referenceEdges_eq,
    acyclic_predecessorEdges h, leads_references]
  rfl

/-! ## Settings -/

theorem settingFault?_eq_none {t : Task} : settingFault? t = none ↔ t.SoundSettings := by
  rw [settingFault?, Task.SoundSettings]
  by_cases hn : t.retry.maxRetries < 0
  · simp [hn]
  · cases hd : t.retry.delay with
    | none => simpa [hn] using Int.not_lt.mp hn
    | some d =>
      by_cases hneg : d < 0
      · simp [hn, hneg]
      · simpa [hn, hneg] using ⟨Int.not_lt.mp hn, Int.not_lt.mp hneg⟩

theorem settingFault?_eq_some {t : Task} {fault : SettingFault}
    (h : settingFault? t = some fault) : t.BadSetting fault := by
  rw [settingFault?] at h
  by_cases hn : t.retry.maxRetries < 0
  · simp only [hn, if_true] at h
    cases h
    exact .retries hn
  · simp only [hn, if_false] at h
    cases hd : t.retry.delay with
    | none =>
      rw [hd] at h
      cases h
    | some d =>
      by_cases hneg : d < 0
      · simp only [hd, hneg, if_true] at h
        cases h
        exact .delay (by omega) hd hneg
      · simp [hd, hneg] at h

/-! ## Validation -/

theorem validate_eq_ok : w.validate = .ok () ↔
    w.UniqueNames ∧ w.Resolved ∧ w.Unlooped ∧ ∀ t ∈ w.tasks, t.SoundSettings := by
  have hunique : firstRepeated? [] w.taskNames = none ↔ w.UniqueNames := by
    simp [firstRepeated?_eq_none, UniqueNames]
  have hsettings : (w.tasks.findSome? fun t => (settingFault? t).map fun fault => (t.name, fault)) =
      none ↔ ∀ t ∈ w.tasks, t.SoundSettings := by
    simp [List.findSome?_eq_none_iff, settingFault?_eq_none]
  rw [validate]
  cases hrep : firstRepeated? [] w.taskNames with
  | some n => simp [← hunique, hrep]
  | none =>
    have hn := hunique.mp hrep
    cases hdang : w.firstDangling? with
    | some found => simp [← firstDangling?_eq_none, hdang]
    | none =>
      have hr := firstDangling?_eq_none.mp hdang
      cases hcycle : w.firstCycle? with
      | some steps => simp [← firstCycle?_eq_none hn, hcycle]
      | none =>
        have hc := (firstCycle?_eq_none hn).mp hcycle
        simp only [hn, hr, hc, true_and, ← hsettings]
        split <;> simp_all

theorem firstFault_of_validate {e : ValidationError} (h : w.validate = .error e) :
    w.FirstFault e := by
  rw [validate] at h
  cases hrep : firstRepeated? [] w.taskNames with
  | some n =>
    rw [hrep] at h
    cases h
    obtain ⟨before, after, hnames, hnodup, -, hn⟩ := firstRepeated?_eq_some hrep
    obtain ⟨before, rest, hw, rfl, hrest⟩ := List.map_eq_append_iff.mp hnames
    obtain ⟨t, after, rfl, rfl, rfl⟩ := List.map_eq_cons_iff.mp hrest
    exact .duplicate hw hnodup (by simpa using hn)
  | none =>
    have hn : w.UniqueNames := (firstRepeated?_eq_none.mp hrep).1
    rw [hrep] at h
    cases hdang : w.firstDangling? with
    | some found =>
      obtain ⟨t, r⟩ := found
      rw [hdang] at h
      cases h
      obtain ⟨before, after, earlier, later, hw, hbefore, href, hearlier, hmissing⟩ :=
        firstDangling?_eq_some hdang
      exact .dangling hn hw hbefore href hearlier hmissing
    | none =>
      have hr := firstDangling?_eq_none.mp hdang
      rw [hdang] at h
      cases hcycle : w.firstCycle? with
      | some steps =>
        rw [hcycle] at h
        cases h
        refine .cycle hn hr fun hloop => ?_
        rw [(firstCycle?_eq_none hn).mpr hloop] at hcycle
        cases hcycle
      | none =>
        have hc := (firstCycle?_eq_none hn).mp hcycle
        rw [hcycle] at h
        dsimp only at h
        split at h
        · rename_i name fault hfound
          cases h
          obtain ⟨before, t, after, hw, ht, hbefore⟩ := List.findSome?_eq_some_iff.mp hfound
          obtain ⟨fault', hfault, heq⟩ := Option.map_eq_some_iff.mp ht
          cases heq
          refine .settings hn hr hc hw (fun s hs => ?_) (settingFault?_eq_some hfault)
          simpa [settingFault?_eq_none] using hbefore s hs
        · cases h

/-- Validation accepts a workflow exactly when its task names differ, every reference leads to a
task, no chain of references leads back to its start, and no retry setting is negative; and the
error is that of the first of these conditions that does not hold, at the first place where it
does not hold. -/
theorem validate_spec (w : Workflow) :
    (w.validate = .ok () ↔
      w.UniqueNames ∧ w.Resolved ∧ w.Unlooped ∧ ∀ t ∈ w.tasks, t.SoundSettings) ∧
    ∀ e, w.validate = .error e → w.FirstFault e :=
  ⟨validate_eq_ok, fun _ => firstFault_of_validate⟩

/-- A dependency and a branch lead into each other, and a setting is negative. -/
def mixedLoop : Workflow where
  name := "w"
  tasks := [{ name := "A", dependencies := ["B"], retry := { maxRetries := -1 } },
    { name := "B", branches := [⟨"$[true]", "A"⟩] }]

theorem validate_spec_mixedLoop :
    mixedLoop.validate = .error (.cycle "w" [⟨"A", .dependency⟩, ⟨"B", .branch⟩]) ∧
      mixedLoop.FirstFault (.cycle "w" [⟨"A", .dependency⟩, ⟨"B", .branch⟩]) :=
  ⟨by decide, (validate_spec mixedLoop).2 _ (by decide)⟩

end Workflow

end WorkflowEngine
