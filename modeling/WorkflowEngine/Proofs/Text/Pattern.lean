import Mathlib.Data.List.Forall2

/-!
# Patterns

A pattern is matched against a whole text, part by part. A part may take more or less from the
front of what is left, and prefers one over the other; the match that counts is the first one when
the earlier parts have their way before the later ones (`firstMatch?`).
-/

namespace WorkflowEngine.Text

inductive Part where
  /-- Characters of a class, as many as possible. -/
  | many (p : Char → Bool)
  | word (w : List Char)
  /-- A character that need not be there. -/
  | optional (c : Char)
  /-- Any characters, as few as possible. -/
  | few

namespace Part

def waysMany (p : Char → Bool) : List Char → List (List Char × List Char)
  | [] => [([], [])]
  | c :: cs =>
    if p c then (waysMany p cs).map (fun (taken, rest) => (c :: taken, rest)) ++ [([], c :: cs)]
    else [([], c :: cs)]

def waysFew : List Char → List (List Char × List Char)
  | [] => [([], [])]
  | c :: cs => ([], c :: cs) :: (waysFew cs).map fun (taken, rest) => (c :: taken, rest)

/-- What a part may take from the front of a text, with what is then left, as it prefers it. -/
def ways : Part → List Char → List (List Char × List Char)
  | many p, cs => waysMany p cs
  | word w, cs => if w.isPrefixOf cs then [(w, cs.drop w.length)] else []
  | optional c, cs =>
    if cs.head? = some c then [([c], cs.drop 1), ([], cs)] else [([], cs)]
  | few, cs => waysFew cs

/-- What a part may be matched by. -/
def Takes : Part → List Char → Prop
  | many p, taken => ∀ c ∈ taken, p c = true
  | word w, taken => taken = w
  | optional c, taken => taken = [] ∨ taken = [c]
  | few, _ => True

variable {p : Char → Bool} {part : Part} {cs taken rest : List Char}

theorem takes_of_mem_waysMany (h : (taken, rest) ∈ waysMany p cs) :
    cs = taken ++ rest ∧ ∀ c ∈ taken, p c = true := by
  induction cs generalizing taken rest with
  | nil =>
    cases List.mem_singleton.mp h
    exact ⟨rfl, nofun⟩
  | cons c cs ih =>
    rw [waysMany] at h
    split at h
    · rename_i hc
      rcases List.mem_append.mp h with h | h
      · obtain ⟨⟨more, left⟩, hmem, heq⟩ := List.mem_map.mp h
        cases heq
        obtain ⟨rfl, hmore⟩ := ih hmem
        exact ⟨rfl, List.forall_mem_cons.mpr ⟨hc, hmore⟩⟩
      · cases List.mem_singleton.mp h
        exact ⟨rfl, nofun⟩
    · cases List.mem_singleton.mp h
      exact ⟨rfl, nofun⟩

theorem eq_append_of_mem_waysFew (h : (taken, rest) ∈ waysFew cs) : cs = taken ++ rest := by
  induction cs generalizing taken rest with
  | nil =>
    cases List.mem_singleton.mp h
    rfl
  | cons c cs ih =>
    rcases List.mem_cons.mp h with h | h
    · cases h
      rfl
    · obtain ⟨⟨more, left⟩, hmem, heq⟩ := List.mem_map.mp h
      cases heq
      rw [ih hmem, List.cons_append]

theorem takes_of_mem_ways (h : (taken, rest) ∈ part.ways cs) :
    cs = taken ++ rest ∧ part.Takes taken := by
  cases part with
  | many p => exact takes_of_mem_waysMany h
  | word w =>
    rw [ways] at h
    split at h
    · rename_i hprefix
      cases List.mem_singleton.mp h
      exact ⟨(List.prefix_iff_eq_append.mp (List.isPrefixOf_iff_prefix.mp hprefix)).symm, rfl⟩
    · cases h
  | optional c =>
    rw [ways] at h
    split at h
    · rename_i hhead
      obtain ⟨tail, rfl⟩ := List.head?_eq_some_iff.mp hhead
      rcases List.mem_cons.mp h with h | h
      · cases h
        exact ⟨rfl, .inr rfl⟩
      · cases List.mem_singleton.mp h
        exact ⟨rfl, .inl rfl⟩
    · cases List.mem_singleton.mp h
      exact ⟨rfl, .inl rfl⟩
  | few => exact ⟨eq_append_of_mem_waysFew h, trivial⟩

variable {β : Type} {f : List Char × List Char → Option β} {b : β} {run : List Char}

/-- A run of a class is tried as a whole first. -/
theorem findSome?_waysMany (hrun : ∀ c ∈ run, p c = true) (hstop : cs.head?.any p = false)
    (h : f (run, cs) = some b) : (waysMany p (run ++ cs)).findSome? f = some b := by
  induction run generalizing f with
  | nil =>
    cases cs with
    | nil => simp [waysMany, h]
    | cons c cs =>
      have hc : p c = false := hstop
      simp [waysMany, hc, h]
  | cons c run ih =>
    obtain ⟨hc, hrun⟩ := List.forall_mem_cons.mp hrun
    have hlater := ih (f := fun (taken, rest) => f (c :: taken, rest)) hrun h
    rw [List.cons_append, waysMany, if_pos hc, List.findSome?_append, List.findSome?_map]
    exact Option.or_eq_some_iff.mpr (.inl hlater)

/-- More characters are tried only after fewer. -/
theorem findSome?_waysFew (h : f (run, cs) = some b)
    (hfewer : ∀ more left, left ≠ [] → run = more ++ left → f (more, left ++ cs) = none) :
    (waysFew (run ++ cs)).findSome? f = some b := by
  induction run generalizing f with
  | nil =>
    cases cs with
    | nil => simp [waysFew, h]
    | cons c cs =>
      rw [List.nil_append, waysFew, List.findSome?_cons, h]
  | cons c run ih =>
    have hnone : f ([], c :: (run ++ cs)) = none := hfewer [] (c :: run) nofun rfl
    have hlater := ih (f := fun (taken, rest) => f (c :: taken, rest)) h
      fun more left hleft heq => hfewer (c :: more) left hleft (by rw [heq, List.cons_append])
    rw [List.cons_append, waysFew, List.findSome?_cons, hnone, List.findSome?_map]
    exact hlater

end Part

/-- The first match of a pattern: what each of its parts takes. -/
def firstMatch? : List Part → List Char → Option (List (List Char))
  | [], cs => if cs = [] then some [] else none
  | part :: parts, cs =>
    (part.ways cs).findSome? fun (taken, rest) => (firstMatch? parts rest).map (taken :: ·)

variable {p : Char → Bool} {parts : List Part} {cs run : List Char} {pieces : List (List Char)}

theorem firstMatch?_cons (part : Part) (parts : List Part) (cs : List Char) :
    firstMatch? (part :: parts) cs =
      (part.ways cs).findSome? fun (taken, rest) => (firstMatch? parts rest).map (taken :: ·) := rfl

/-- A match takes the text apart into pieces that the parts may be matched by. -/
theorem takes_of_firstMatch? (h : firstMatch? parts cs = some pieces) :
    cs = pieces.flatten ∧ List.Forall₂ Part.Takes parts pieces := by
  induction parts generalizing cs pieces with
  | nil =>
    rw [firstMatch?] at h
    split at h
    · rename_i hempty
      cases h
      exact ⟨hempty, .nil⟩
    · cases h
  | cons part parts ih =>
    rw [firstMatch?_cons] at h
    obtain ⟨⟨taken, rest⟩, hmem, hmatch⟩ := List.exists_of_findSome?_eq_some h
    obtain ⟨later, hlater, rfl⟩ := Option.map_eq_some_iff.mp hmatch
    obtain ⟨rfl, htakes⟩ := Part.takes_of_mem_ways hmem
    obtain ⟨rfl, hall⟩ := ih hlater
    exact ⟨rfl, .cons htakes hall⟩

theorem firstMatch?_word (w : List Char) :
    firstMatch? (.word w :: parts) (w ++ cs) = (firstMatch? parts cs).map (w :: ·) := by
  have hprefix : w.isPrefixOf (w ++ cs) = true :=
    List.isPrefixOf_iff_prefix.mpr (List.prefix_append w cs)
  rw [firstMatch?_cons, Part.ways, if_pos hprefix, List.drop_left]
  simp

theorem firstMatch?_optional {c : Char} (h : cs.head? ≠ some c) :
    firstMatch? (.optional c :: parts) cs = (firstMatch? parts cs).map ([] :: ·) := by
  rw [firstMatch?_cons, Part.ways, if_neg h]
  simp

/-- A run of a class is taken as a whole if the rest matches then. -/
theorem firstMatch?_many (hrun : ∀ c ∈ run, p c = true) (hstop : cs.head?.any p = false)
    (h : firstMatch? parts cs = some pieces) :
    firstMatch? (.many p :: parts) (run ++ cs) = some (run :: pieces) := by
  rw [firstMatch?_cons, Part.ways]
  exact Part.findSome?_waysMany hrun hstop (by simp only [h, Option.map_some])

/-- As few characters are taken as the rest allows. -/
theorem firstMatch?_few (h : firstMatch? parts cs = some pieces)
    (hfewer : ∀ more left, left ≠ [] → run = more ++ left → firstMatch? parts (left ++ cs) = none) :
    firstMatch? (.few :: parts) (run ++ cs) = some (run :: pieces) := by
  rw [firstMatch?_cons, Part.ways]
  refine Part.findSome?_waysFew (by simp only [h, Option.map_some]) fun more left hleft heq => ?_
  simp only [hfewer more left hleft heq, Option.map_none]

end WorkflowEngine.Text
