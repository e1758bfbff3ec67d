import WorkflowEngine.Text.Blank
import WorkflowEngine.Text.Case

/-!
# Blanks and letter case

The small form of a blank is the blank, and that of any other character has no blank in it. So a
text has blanks around it if its small form does, and only then (`trimmed_lower`), and it makes no
difference whether a trimmed text is lowered or a lowered one trimmed.
-/

namespace WorkflowEngine.Text

variable {c d : Char} {cs ds before : List Char}

/-! ## Trimming -/

/-- There is nothing but blanks. -/
def Blanks (cs : List Char) : Prop := ∀ c ∈ cs, isBlank c = true

/-- What is so of the code points of the blanks is so of every blank. -/
theorem of_isBlank {P : Char → Prop} (h : isBlank c = true)
    (hall : ∀ r ∈ blankRanges, ∀ n ∈ List.range' r.1 (r.2 + 1 - r.1), P (Char.ofNat n)) : P c := by
  rw [isBlank, inRanges, List.any_eq_true] at h
  obtain ⟨r, hr, hc⟩ := h
  rw [Bool.and_eq_true, decide_eq_true_eq, decide_eq_true_eq] at hc
  have hcode := hall r hr c.toNat (List.mem_range'_1.mpr (by omega))
  rwa [Char.ofNat_toNat] at hcode

theorem allBlank_iff {s : String} : allBlank s = true ↔ Blanks s.toList := by
  rw [allBlank, List.all_eq_true]
  rfl

theorem trimStartChars_append (h : Blanks before) (cs : List Char) :
    trimStartChars (before ++ cs) = trimStartChars cs :=
  List.dropWhile_append_of_pos h

/-- There is no blank at either end. -/
def Trimmed (cs : List Char) : Prop :=
  cs.head?.any isBlank = false ∧ cs.getLast?.any isBlank = false

theorem head?_dropWhile (p : Char → Bool) (cs : List Char) :
    (cs.dropWhile p).head?.any p = false := by
  induction cs with
  | nil => rfl
  | cons c rest ih =>
    rw [List.dropWhile_cons]
    split
    · exact ih
    · rename_i hc
      simpa using hc

theorem head?_dropWhile_isBlank (cs : List Char) :
    (cs.dropWhile isBlank).head?.any isBlank = false := head?_dropWhile isBlank cs

theorem dropWhile_isBlank_eq (h : cs.head?.any isBlank = false) : cs.dropWhile isBlank = cs := by
  cases cs with
  | nil => rfl
  | cons c rest =>
    have hblank : isBlank c = false := h
    rw [List.dropWhile_cons, hblank]
    rfl

/-- What begins a text does so still when something is taken off its end. -/
theorem head?_of_prefix (h : ds <+: cs) (hcs : cs.head?.any isBlank = false) :
    ds.head?.any isBlank = false := by
  obtain ⟨rest, rfl⟩ := h
  cases ds with
  | nil => rfl
  | cons d ds => exact hcs

theorem trimmed_trimChars (cs : List Char) : Trimmed (trimChars cs) := by
  constructor
  · have hprefix : trimChars cs <+: trimStartChars cs := by
      rw [trimChars, ← List.reverse_suffix, List.reverse_reverse]
      exact List.dropWhile_suffix isBlank
    exact head?_of_prefix hprefix (head?_dropWhile_isBlank cs)
  · rw [trimChars, List.getLast?_reverse]
    exact head?_dropWhile_isBlank _

theorem trimChars_eq_self : trimChars cs = cs ↔ Trimmed cs := by
  constructor
  · intro h
    rw [← h]
    exact trimmed_trimChars cs
  · rintro ⟨hfirst, hlast⟩
    rw [← List.head?_reverse] at hlast
    rw [trimChars, trimStartChars, trimStartChars, dropWhile_isBlank_eq hfirst,
      dropWhile_isBlank_eq hlast, List.reverse_reverse]

theorem trim_eq_self {s : String} : trim s = s ↔ Trimmed s.toList := by
  rw [← trimChars_eq_self, trim, ← String.toList_inj, String.toList_ofList]

theorem trimmed_trim (s : String) : Trimmed (trim s).toList := by
  rw [trim, String.toList_ofList]
  exact trimmed_trimChars s.toList

/-! ## The small form of a character -/

/-- No blank has a code point in this interval. -/
def NoBlanks (first last : Int) : Prop :=
  ∀ r ∈ blankRanges, last < r.1 ∨ r.2 < first

instance (first last : Int) : Decidable (NoBlanks first last) :=
  inferInstanceAs (Decidable (∀ r ∈ blankRanges, last < r.1 ∨ r.2 < first))

theorem NoBlanks.isBlank_eq {first last : Int} (h : NoBlanks first last)
    (hfirst : first ≤ c.toNat) (hlast : c.toNat ≤ last) : isBlank c = false := by
  rw [isBlank, inRanges, List.any_eq_false]
  intro r hr
  have hout := h r hr
  rw [Bool.and_eq_true, decide_eq_true_eq, decide_eq_true_eq]
  omega

/-- A number that is no code point stands for a character that is no blank either. -/
theorem NoBlanks.isBlank_ofNat {first last : Int} {n : Nat} (h : NoBlanks first last)
    (hfirst : first ≤ n) (hlast : n ≤ last) : isBlank (Char.ofNat n) = false := by
  by_cases hvalid : n.isValidChar
  · have htoNat : (Char.ofNat n).toNat = n := by
      rw [Char.ofNat, dif_pos hvalid]
      rfl
    refine h.isBlank_eq ?_ ?_
    · rw [htoNat]
      exact hfirst
    · rw [htoNat]
      exact hlast
  · rw [Char.ofNat, dif_neg hvalid]
    decide

theorem noBlanks_lowerRuns : ∀ run ∈ lowerRuns, NoBlanks run.first run.last ∧
    0 ≤ run.first + run.shift ∧ NoBlanks (run.first + run.shift) (run.last + run.shift) := by
  decide +kernel

theorem noBlanks_lowerExpansions : ∀ e ∈ lowerExpansions, NoBlanks e.1 e.1 ∧
    e.2 ≠ [] ∧ ∀ n ∈ e.2, NoBlanks n n := by
  decide +kernel

theorem isBlank_toLower (h : c.toNat < 128) : isBlank c.toLower = isBlank c := by
  have hall : ∀ n : Fin 128, isBlank (Char.ofNat n).toLower = isBlank (Char.ofNat n) := by
    decide +kernel
  simpa using hall ⟨c.toNat, h⟩

/-- The second text is what the first character becomes when blanks are neither lost nor made. -/
def KeepsBlanks (c : Char) (ds : List Char) : Prop :=
  ds ≠ [] ∧ ∀ d ∈ ds, isBlank d = isBlank c

theorem keepsBlanks_singleton (h : isBlank d = isBlank c) : KeepsBlanks c [d] :=
  ⟨by simp, by simpa using h⟩

theorem keepsBlanks_lowerChar (c : Char) : KeepsBlanks c (lowerChar c) := by
  rw [lowerChar]
  split
  · rename_i hascii
    exact keepsBlanks_singleton (isBlank_toLower hascii)
  · rw [mapCase]
    split
    · rename_i target htarget
      have hmem : (c.toNat, target) ∈ lowerExpansions := by
        obtain ⟨_, _, hsplit, -⟩ := List.lookup_eq_some_iff.mp htarget
        rw [hsplit]
        simp
      obtain ⟨hc, hne, htarget⟩ := noBlanks_lowerExpansions _ hmem
      refine ⟨by simpa using hne, ?_⟩
      rw [List.forall_mem_map]
      intro n hn
      rw [(htarget n hn).isBlank_ofNat (Int.le_refl _) (Int.le_refl _),
        hc.isBlank_eq (Int.le_refl _) (Int.le_refl _)]
    · split
      · rename_i run hrun
        have hcovers := List.find?_some hrun
        simp only [CaseRun.covers, Bool.and_eq_true, decide_eq_true_eq] at hcovers
        obtain ⟨⟨hfirst, hlast⟩, -⟩ := hcovers
        obtain ⟨hc, hpositive, htarget⟩ := noBlanks_lowerRuns run (List.mem_of_find?_eq_some hrun)
        refine keepsBlanks_singleton ?_
        have hsource : isBlank c = false := hc.isBlank_eq (by omega) (by omega)
        rw [hsource]
        exact htarget.isBlank_ofNat (by omega) (by omega)
      · exact keepsBlanks_singleton rfl

/-! ## The small form of a text -/

/-- The first character and the rest of a small form. A sigma becomes one of two letters. -/
theorem lowerFrom_cons (before : List Char) (c : Char) (rest : List Char) :
    ∃ small, KeepsBlanks c small ∧
      lowerFrom before (c :: rest) = small ++ lowerFrom (c :: before) rest := by
  refine ⟨_, ?_, rfl⟩
  split
  · rename_i hsigma
    subst hsigma
    split
    · exact keepsBlanks_singleton (by decide)
    · exact keepsBlanks_singleton (by decide)
  · exact keepsBlanks_lowerChar c

theorem KeepsBlanks.head? (h : KeepsBlanks c ds) (cs : List Char) :
    (ds ++ cs).head?.any isBlank = isBlank c := by
  obtain ⟨hne, hds⟩ := h
  cases ds with
  | nil => exact absurd rfl hne
  | cons d ds => exact hds d List.mem_cons_self

theorem KeepsBlanks.getLast? (h : KeepsBlanks c ds) : ds.getLast?.any isBlank = isBlank c := by
  obtain ⟨hne, hds⟩ := h
  rw [List.getLast?_eq_some_getLast hne]
  exact hds _ (List.getLast_mem hne)

theorem lowerFrom_eq_nil : lowerFrom before cs = [] ↔ cs = [] := by
  cases cs with
  | nil => exact iff_of_true rfl rfl
  | cons c rest =>
    obtain ⟨small, ⟨hne, -⟩, heq⟩ := lowerFrom_cons before c rest
    rw [heq]
    simp [hne]

theorem head?_lowerFrom (before cs : List Char) :
    (lowerFrom before cs).head?.any isBlank = cs.head?.any isBlank := by
  cases cs with
  | nil => rfl
  | cons c rest =>
    obtain ⟨small, hsmall, heq⟩ := lowerFrom_cons before c rest
    rw [heq]
    exact hsmall.head? _

theorem getLast?_lowerFrom (before cs : List Char) :
    (lowerFrom before cs).getLast?.any isBlank = cs.getLast?.any isBlank := by
  induction cs generalizing before with
  | nil => rfl
  | cons c rest ih =>
    obtain ⟨small, hsmall, heq⟩ := lowerFrom_cons before c rest
    rw [heq]
    cases rest with
    | nil =>
      rw [lowerFrom, List.append_nil]
      exact hsmall.getLast?
    | cons c' rest =>
      have hne : lowerFrom (c :: before) (c' :: rest) ≠ [] := by simp [lowerFrom_eq_nil]
      rw [List.getLast?_append, List.getLast?_eq_some_getLast hne, Option.some_or,
        ← List.getLast?_eq_some_getLast hne, List.getLast?_cons_cons]
      exact ih (c :: before)

theorem trimmed_lowerFrom : Trimmed (lowerFrom before cs) ↔ Trimmed cs := by
  rw [Trimmed, Trimmed, head?_lowerFrom, getLast?_lowerFrom]

theorem trimmed_lower {s : String} : Trimmed (lower s).toList ↔ Trimmed s.toList := by
  rw [lower, String.toList_ofList]
  exact trimmed_lowerFrom

theorem lower_eq_empty {s : String} : lower s = "" ↔ s = "" := by
  rw [lower, ← String.toList_inj, String.toList_ofList, ← String.toList_inj]
  exact lowerFrom_eq_nil

end WorkflowEngine.Text
