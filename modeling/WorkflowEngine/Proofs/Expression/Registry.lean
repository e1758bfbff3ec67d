import WorkflowEngine.Expression.Function
import WorkflowEngine.Proofs.Fields
import WorkflowEngine.Proofs.Text.Case

/-!
# What a registry has

After any changes a registry has under a key the function that was registered under it last, unless
the key was removed since (`Standing`). Keys are trimmed and in small form, and registering and
removing trim the name that they are given. A lookup does not, so a name with blanks around it is
never found, not even the one that a function was registered with.
-/

namespace WorkflowEngine.Expression

namespace Registry

variable {r : Registry} {f : Function} {k n : String}

/-! ## Keys -/

theorem key_of_trimmed (h : Text.trim n = n) : key n = Text.lower n := by rw [key, h]

theorem key_eq_empty : key n = "" ↔ Text.trim n = "" := by rw [key, Text.lower_eq_empty]

theorem trimmed_key (n : String) : Text.Trimmed (key n).toList := by
  rw [key, Text.trimmed_lower]
  exact Text.trimmed_trim n

/-- The small form of a name with blanks around it is no key. -/
theorem key_ne_lower (h : Text.trim n ≠ n) (m : String) : key m ≠ Text.lower n := by
  intro heq
  have htrimmed := trimmed_key m
  rw [heq, Text.trimmed_lower, ← Text.trim_eq_self] at htrimmed
  exact h htrimmed

/-! ## Changes -/

inductive Change where
  | register (f : Function)
  | unregister (name : String)

def Change.key : Change → String
  | .register f => Registry.key f.name
  | .unregister name => Registry.key name

/-- The registry after a change. One that rejects a function is as it was. -/
def apply (r : Registry) : Change → Registry
  | .register f =>
    match r.register f with
    | .error _ => r
    | .ok r => r
  | .unregister name => (r.unregister name).2

def run (r : Registry) (changes : List Change) : Registry := changes.foldl apply r

theorem run_cons (r : Registry) (change : Change) (changes : List Change) :
    r.run (change :: changes) = (r.apply change).run changes := rfl

theorem run_append (r : Registry) (before after : List Change) :
    r.run (before ++ after) = (r.run before).run after := List.foldl_append

theorem register_of_empty (r : Registry) (h : key f.name = "") :
    r.register f = .error .emptyName := by
  rw [register, h]
  rfl

theorem register_of_ne_empty (r : Registry) (h : key f.name ≠ "") :
    r.register f = .ok ⟨r.entries.insert (key f.name) f⟩ := by
  rw [register, if_neg]
  simpa using h

theorem find?_of_register {r' : Registry} (h : r.register f = .ok r') (k : String) :
    r'.entries.find? k = if key f.name = k then some f else r.entries.find? k := by
  by_cases hname : key f.name = ""
  · rw [register_of_empty r hname] at h
    cases h
  · rw [register_of_ne_empty r hname] at h
    cases h
    exact Fields.find?_insert (key f.name) k f r.entries

theorem apply_register_of_empty (r : Registry) (h : key f.name = "") :
    r.apply (.register f) = r := by
  rw [apply, register_of_empty r h]

theorem apply_register (r : Registry) (h : key f.name ≠ "") :
    r.apply (.register f) = ⟨r.entries.insert (key f.name) f⟩ := by
  rw [apply, register_of_ne_empty r h]

/-- What a change puts under its key. -/
def Change.entry? : Change → Option Function
  | .register f => some f
  | .unregister _ => none

theorem find?_apply (r : Registry) (change : Change) (hk : k ≠ "") :
    (r.apply change).entries.find? k =
      if change.key = k then change.entry? else r.entries.find? k := by
  cases change with
  | unregister name => exact Fields.find?_erase (key name) k r.entries
  | register f =>
    by_cases hname : key f.name = ""
    · have hne : key f.name ≠ k := fun h => hk (h ▸ hname)
      rw [apply_register_of_empty r hname, Change.key, if_neg hne]
    · rw [apply_register r hname]
      exact Fields.find?_insert (key f.name) k f r.entries

/-- Nothing gets under the empty key. -/
theorem find?_empty_apply (change : Change) (h : r.entries.find? "" = none) :
    (r.apply change).entries.find? "" = none := by
  cases change with
  | unregister name =>
    refine (Fields.find?_erase (key name) "" r.entries).trans ?_
    rw [h, ite_self]
  | register f =>
    by_cases hname : key f.name = ""
    · rw [apply_register_of_empty r hname, h]
    · rw [apply_register r hname]
      refine (Fields.find?_insert (key f.name) "" f r.entries).trans ?_
      rw [if_neg hname, h]

/-! ## Histories -/

variable {changes : List Change}

/-- Among these changes `f` is registered under the key, and no later one replaces or removes it.
A registration without a key is rejected. -/
def Standing (changes : List Change) (k : String) (f : Function) : Prop :=
  k ≠ "" ∧ ∃ before after, changes = before ++ .register f :: after ∧ key f.name = k ∧
    ∀ change ∈ after, change.key ≠ k

theorem standing_cons {change : Change} (hk : k ≠ "") :
    Standing (change :: changes) k f ↔
      Standing changes k f ∨
        (change.key = k ∧ change.entry? = some f) ∧ ∀ change ∈ changes, change.key ≠ k := by
  constructor
  · rintro ⟨-, before, after, heq, hkey, hafter⟩
    cases before with
    | nil =>
      cases heq
      exact .inr ⟨⟨hkey, rfl⟩, hafter⟩
    | cons _ before =>
      cases heq
      exact .inl ⟨hk, before, after, rfl, hkey, hafter⟩
  · rintro (⟨-, before, after, rfl, hkey, hafter⟩ | ⟨⟨hkey, hentry⟩, hafter⟩)
    · exact ⟨hk, change :: before, after, rfl, hkey, hafter⟩
    · cases change with
      | unregister name => cases hentry
      | register f' =>
        cases hentry
        exact ⟨hk, [], changes, rfl, hkey, hafter⟩

/-- What is found after a run was registered in it, or was there and is left alone. -/
theorem find?_run (r : Registry) (changes : List Change) (hk : k ≠ "") :
    (r.run changes).entries.find? k = some f ↔
      Standing changes k f ∨
        r.entries.find? k = some f ∧ ∀ change ∈ changes, change.key ≠ k := by
  induction changes generalizing r with
  | nil => simp [run, Standing]
  | cons change rest ih =>
    rw [run_cons, ih (r.apply change), standing_cons hk, find?_apply r change hk,
      List.forall_mem_cons]
    by_cases hkey : change.key = k
    · rw [if_pos hkey]
      simp [hkey]
    · rw [if_neg hkey]
      simp [hkey]

theorem find?_empty_run (changes : List Change) (h : r.entries.find? "" = none) :
    (r.run changes).entries.find? "" = none := by
  induction changes generalizing r with
  | nil => exact h
  | cons change rest ih => exact ih (find?_empty_apply change h)

theorem find?_eq_some (changes : List Change) :
    (({} : Registry).run changes).entries.find? k = some f ↔ Standing changes k f := by
  by_cases hk : k = ""
  · subst hk
    rw [find?_empty_run changes rfl]
    exact iff_of_false nofun fun h => h.1 rfl
  · rw [find?_run {} changes hk]
    exact or_iff_left fun h => nomatch h.1

/-- Whatever was registered, a name with blanks around it finds nothing. -/
theorem find?_lower_of_blanks (changes : List Change) (h : Text.trim n ≠ n) :
    (({} : Registry).run changes).entries.find? (Text.lower n) = none := by
  rw [Option.eq_none_iff_forall_ne_some]
  intro f hf
  obtain ⟨-, _, _, -, hkey, -⟩ := (find?_eq_some changes).mp hf
  exact key_ne_lower h f.name hkey

theorem run_registers (r : Registry) {fs : List Function}
    (h : ∀ f ∈ fs, Text.trim f.name = f.name ∧ f.name ≠ "") :
    r.run (fs.map .register) =
      ⟨fs.foldl (fun entries f => entries.insert (Text.lower f.name) f) r.entries⟩ := by
  induction fs generalizing r with
  | nil => rfl
  | cons f fs ih =>
    obtain ⟨⟨htrim, hne⟩, hrest⟩ := List.forall_mem_cons.mp h
    have hkey : key f.name ≠ "" := by rwa [ne_eq, key_eq_empty, htrim]
    rw [List.map_cons, List.foldl_cons, ← key_of_trimmed htrim, run_cons, apply_register r hkey,
      ih _ hrest]

theorem withBuiltins_eq : withBuiltins = ({} : Registry).run (builtins.map .register) := by
  have hbuiltins : ∀ f ∈ builtins, Text.trim f.name = f.name ∧ f.name ≠ "" := by decide +kernel
  rw [run_registers {} hbuiltins]
  rfl

/-- What a registry has is what stands after its changes. Removing finds it by any spelling of the
name, and so does a lookup by a name without blanks around it; by any other name nothing is found.
A function that is registered is found by its trimmed name, and one without a name is rejected and
changes nothing. -/
theorem has_what_stands (changes : List Change) (n : String) :
    let r := ({} : Registry).run changes
    withBuiltins.run changes = ({} : Registry).run (builtins.map .register ++ changes) ∧
    ((r.unregister n).1 = true ↔ ∃ f, Standing changes (key n) f) ∧
    (Text.trim n = n →
      (∀ f, r.get? n = some f ↔ Standing changes (key n) f) ∧
      (r.has n = true ↔ ∃ f, r.get? n = some f) ∧
      (r.has n = true ↔ (r.unregister n).1 = true)) ∧
    (Text.trim n ≠ n → r.get? n = none ∧ r.has n = false) ∧
    ∀ f : Function,
      (Text.trim f.name ≠ "" →
        ∃ r', r.register f = .ok r' ∧ r'.get? (Text.trim f.name) = some f) ∧
      (Text.trim f.name = "" → r.register f = .error .emptyName ∧ r.apply (.register f) = r) := by
  intro r
  have hfind : ∀ {k : String} {f : Function},
      r.entries.find? k = some f ↔ Standing changes k f := find?_eq_some changes
  refine ⟨?_, ?_, ?_, ?_, ?_⟩
  · rw [withBuiltins_eq, run_append]
  · simp only [← hfind]
    exact Option.isSome_iff_exists
  · intro htrim
    have hkey := key_of_trimmed htrim
    refine ⟨?_, Option.isSome_iff_exists, ?_⟩
    · intro f
      rw [get?, ← hkey, hfind]
    · rw [has, ← hkey]
      rfl
  · intro hblanks
    have hnone := find?_lower_of_blanks changes hblanks
    refine ⟨hnone, ?_⟩
    rw [has, Fields.has, hnone]
    rfl
  · intro f
    constructor
    · intro hname
      rw [ne_eq, ← key_eq_empty] at hname
      have hregister := register_of_ne_empty r hname
      refine ⟨_, hregister, ?_⟩
      have hkey : Text.lower (Text.trim f.name) = key f.name := rfl
      rw [get?, hkey, find?_of_register hregister, if_pos rfl]
    · intro hname
      rw [← key_eq_empty] at hname
      exact ⟨register_of_empty r hname, apply_register_of_empty r hname⟩

/-- Of two functions under one key the later one is found by any spelling without blanks around it,
and by none with them. The removal of another one and a function without a name change nothing. -/
theorem has_what_stands_overridden :
    let twice : Function := ⟨" Twice ", fun _ => .ok .null⟩
    let thrice : Function := ⟨"twice", fun args => .ok (.arr args)⟩
    let unnamed : Function := ⟨" \t", twice.run⟩
    let r := ({} : Registry).run [.register twice, .register thrice, .register ⟨"Gone", twice.run⟩,
      .unregister " GONE", .register unnamed]
    r.get? "TWICE" = some thrice ∧ r.has "TWICE" = true ∧ (r.unregister " twice").1 = true ∧
      r.get? " Twice " = none ∧ r.has " Twice " = false ∧
      (∃ r', r.register twice = .ok r' ∧ r'.get? "Twice" = some twice) ∧
      r.apply (.register unnamed) = r := by
  intro twice thrice unnamed r
  have hstanding : Standing [.register twice, .register thrice, .register ⟨"Gone", twice.run⟩,
      .unregister " GONE", .register unnamed] (key "TWICE") thrice :=
    ⟨by decide +kernel, [.register twice], _, rfl, by decide +kernel, by decide +kernel⟩
  obtain ⟨-, -, hfound, -, hregister⟩ := has_what_stands _ "TWICE"
  obtain ⟨hget, hhas, -⟩ := hfound (by decide +kernel)
  obtain ⟨-, hremoved, -⟩ := has_what_stands _ " twice"
  obtain ⟨-, -, -, hblanks, -⟩ := has_what_stands _ " Twice "
  obtain ⟨hnone, hnot⟩ := hblanks (by decide +kernel)
  have hthrice := (hget thrice).mpr hstanding
  have hkey : key "TWICE" = key " twice" := by decide +kernel
  have htrim : Text.trim twice.name = "Twice" := by decide +kernel
  refine ⟨hthrice, hhas.mpr ⟨thrice, hthrice⟩, hremoved.mpr ⟨thrice, hkey ▸ hstanding⟩, hnone, hnot,
    ?_, ((hregister unnamed).2 (by decide +kernel)).2⟩
  rw [← htrim]
  exact (hregister twice).1 (by decide +kernel)

/-- A function whose name has blanks around it is registered and can be removed by that name, but
is not found by it. -/
theorem not_found_by_own_name :
    let f : Function := ⟨" Twice ", fun _ => .ok .null⟩
    ∃ r, withBuiltins.register f = .ok r ∧ r.get? f.name = none ∧ r.has f.name = false ∧
      (r.unregister f.name).1 = true := by
  intro f
  have hkey : key f.name ≠ "" := by
    rw [ne_eq, key_eq_empty]
    decide +kernel
  have hname : Text.trim f.name ≠ f.name := by decide +kernel
  obtain ⟨r, hregister⟩ : ∃ r, withBuiltins.register f = .ok r :=
    ⟨_, register_of_ne_empty withBuiltins hkey⟩
  have hnone : r.entries.find? (Text.lower f.name) = none := by
    rw [find?_of_register hregister, if_neg (key_ne_lower hname f.name), withBuiltins_eq]
    exact find?_lower_of_blanks _ hname
  refine ⟨r, hregister, hnone, ?_, ?_⟩
  · rw [has, Fields.has, hnone]
    rfl
  · rw [unregister, Fields.has, find?_of_register hregister, if_pos rfl]
    rfl

end Registry

end WorkflowEngine.Expression
