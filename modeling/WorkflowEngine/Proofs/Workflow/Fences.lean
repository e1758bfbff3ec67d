import WorkflowEngine.Proofs.Text.Case
import WorkflowEngine.Proofs.Text.Pattern
import WorkflowEngine.Workflow.Synthesis

/-!
# Answers between code fences

What stands between the fences of an answer is what the pattern of a fenced answer gives to its
part in the middle (`fencedBody?_eq_firstMatch?`). The text of an object, from its first brace to
its last one, is taken out as it is, whatever stands in it.
-/

namespace WorkflowEngine

open Text

/-- A fence with an optional tag, what stands in between, and a fence at the end, with blanks around
them. -/
def fencePattern : List Part :=
  [.many isBlank, .word fence, .many isTagChar, .many isBlank, .optional '\n', .few,
    .many isBlank, .word fence, .many isBlank]

/-- What comes after the part in the middle. -/
def closingPattern : List Part := [.many isBlank, .word fence, .many isBlank]

/-- The text in the middle, with a tag in front of it, stands between two fences. -/
def Fenced (cs inner : List Char) : Prop :=
  ∃ before after, Blanks before ∧ Blanks after ∧
    cs = before ++ (fence ++ (inner ++ (fence ++ after)))

variable {p : Char → Bool} {c : Char} {cs inner before after : List Char}

/-! ## Trimming -/

theorem dropWhile_append_stop (hc : p c = false) (cs rest : List Char) :
    (cs ++ c :: rest).dropWhile p = cs.dropWhile p ++ c :: rest := by
  induction cs with
  | nil => exact List.dropWhile_cons_of_neg (by simp [hc])
  | cons d cs ih =>
    rw [List.cons_append, List.dropWhile_cons, List.dropWhile_cons]
    split
    · exact ih
    · rfl

theorem trimEndChars_append (h : Blanks after) (cs : List Char) :
    trimEndChars (cs ++ after) = trimEndChars cs := by
  have hreverse : Blanks after.reverse := fun c hc => h c (List.mem_reverse.mp hc)
  rw [trimEndChars, List.reverse_append, trimStartChars_append hreverse, trimEndChars]

theorem trimEndChars_eq_self (h : cs.getLast?.any isBlank = false) : trimEndChars cs = cs := by
  rw [← List.head?_reverse] at h
  rw [trimEndChars, trimStartChars, dropWhile_isBlank_eq h, List.reverse_reverse]

theorem exists_dropWhile (p : Char → Bool) (cs : List Char) :
    ∃ run, (∀ c ∈ run, p c = true) ∧ cs = run ++ cs.dropWhile p :=
  ⟨cs.takeWhile p, List.all_eq_true.mp List.all_takeWhile, List.takeWhile_append_dropWhile.symm⟩

theorem exists_trimEndChars (cs : List Char) :
    ∃ after, Blanks after ∧ cs = trimEndChars cs ++ after := by
  obtain ⟨before, hbefore, heq⟩ := exists_dropWhile isBlank cs.reverse
  refine ⟨before.reverse, fun c hc => hbefore c (List.mem_reverse.mp hc), ?_⟩
  rw [trimEndChars, ← List.reverse_append, trimStartChars, ← heq, List.reverse_reverse]

theorem getLast?_trimEndChars (cs : List Char) :
    (trimEndChars cs).getLast?.any isBlank = false := by
  rw [trimEndChars, List.getLast?_reverse]
  exact head?_dropWhile_isBlank _

/-! ## Between the fences -/

/-- What is left between the fences without the tag and without blanks around it. -/
def untagged (inner : List Char) : List Char :=
  trimEndChars (trimStartChars (inner.dropWhile isTagChar))

theorem fencedBody?_of_fenced (h : Fenced cs inner) :
    fencedBody? cs = some (untagged inner) := by
  obtain ⟨before, after, hbefore, hafter, rfl⟩ := h
  have hfront : trimStartChars (before ++ (fence ++ (inner ++ (fence ++ after)))) =
      fence ++ (inner ++ (fence ++ after)) := by
    rw [trimStartChars_append hbefore]
    rfl
  -- Neither the tag nor the blanks after it reach into the fence at the end.
  have hback : trimStartChars ((inner ++ (fence ++ after)).dropWhile isTagChar) =
      trimStartChars (inner.dropWhile isTagChar) ++ fence ++ after := by
    rw [show inner ++ (fence ++ after) = inner ++ '\x60' :: ('\x60' :: '\x60' :: after) from rfl,
      dropWhile_append_stop (by decide), trimStartChars, dropWhile_append_stop (by decide),
      trimStartChars, List.append_assoc]
    rfl
  have hbody : trimEndChars (trimStartChars ((inner ++ (fence ++ after)).dropWhile isTagChar)) =
      trimStartChars (inner.dropWhile isTagChar) ++ fence := by
    rw [hback, trimEndChars_append hafter]
    exact trimEndChars_eq_self (by rw [List.getLast?_append]; rfl)
  rw [fencedBody?, hfront, fence, List.cons_append, List.cons_append, List.cons_append,
    List.nil_append]
  dsimp only
  rw [if_pos rfl, ← fence, hbody,
    if_pos (List.isSuffixOf_iff_suffix.mpr (List.suffix_append ..))]
  have htake : (trimStartChars (inner.dropWhile isTagChar) ++ fence).take
      ((trimStartChars (inner.dropWhile isTagChar) ++ fence).length - 3) =
      trimStartChars (inner.dropWhile isTagChar) := by
    rw [List.length_append]
    exact List.take_left' (by simp [fence])
  rw [htake, untagged]

theorem fenced_of_fencedBody? {body : List Char} (h : fencedBody? cs = some body) :
    ∃ inner, Fenced cs inner := by
  unfold fencedBody? at h
  split at h
  · rename_i a b c rest hfront
    split at h
    · rename_i hfence
      dsimp only at h
      split at h
      · rename_i hsuffix
        obtain ⟨before, hbefore, hcs⟩ := exists_dropWhile isBlank cs
        obtain ⟨tag, -, hrest⟩ := exists_dropWhile isTagChar rest
        obtain ⟨opening, -, htagged⟩ := exists_dropWhile isBlank (rest.dropWhile isTagChar)
        obtain ⟨after, hafter, hend⟩ :=
          exists_trimEndChars (trimStartChars (rest.dropWhile isTagChar))
        obtain ⟨body, hbody⟩ := List.isSuffixOf_iff_suffix.mp hsuffix
        refine ⟨tag ++ (opening ++ body), before, after, hbefore, hafter, ?_⟩
        rw [trimStartChars] at hfront hend hbody
        rw [hcs, hfront, show a :: b :: c :: rest = [a, b, c] ++ rest from rfl, hfence, hrest,
          htagged, hend, ← hbody]
        simp
      · cases h
    · cases h
  · cases h

/-! ## The match of the pattern -/

/-- The last fence of a text is in one place. -/
theorem append_fence_inj {xs ys after' : List Char} (hafter : Blanks after)
    (hafter' : Blanks after') (h : xs ++ (fence ++ after) = ys ++ (fence ++ after')) : xs = ys := by
  have htrim (zs blanks : List Char) (hblanks : Blanks blanks) :
      trimEndChars (zs ++ (fence ++ blanks)) = zs ++ fence := by
    rw [← List.append_assoc, trimEndChars_append hblanks]
    exact trimEndChars_eq_self (by rw [List.getLast?_append]; rfl)
  have hsame := congrArg trimEndChars h
  rw [htrim xs after hafter, htrim ys after' hafter'] at hsame
  exact List.append_cancel_right hsame

/-- The fence at the end cannot be reached from in front of a character that is not blank. -/
theorem firstMatch?_closingPattern_eq_none {left closing : List Char} (hafter : Blanks after)
    (hne : left ≠ []) (hlast : left.getLast?.any isBlank = false) :
    firstMatch? closingPattern (left ++ (closing ++ (fence ++ after))) = none := by
  cases hmatch : firstMatch? closingPattern (left ++ (closing ++ (fence ++ after))) with
  | none => rfl
  | some pieces =>
    obtain ⟨heq, htakes⟩ := takes_of_firstMatch? hmatch
    obtain _ | ⟨hfirst, _ | ⟨rfl, _ | ⟨hthird, _ | _⟩⟩⟩ := htakes
    rename_i first third
    have hfirst : Blanks first := hfirst
    have hsame : left ++ closing = first := by
      refine append_fence_inj hafter hthird ?_
      rw [List.append_assoc, heq]
      simp
    rw [List.getLast?_eq_some_getLast hne] at hlast
    have hblank := hfirst _ (hsame ▸ List.mem_append_left closing (List.getLast_mem hne))
    rw [show isBlank (left.getLast hne) = false from hlast] at hblank
    cases hblank

theorem firstMatch?_closingPattern {closing : List Char} (hclosing : Blanks closing)
    (hafter : Blanks after) : firstMatch? closingPattern (closing ++ (fence ++ after)) =
      some [closing, fence, after] := by
  refine firstMatch?_many hclosing rfl ?_
  rw [firstMatch?_word]
  have hend : firstMatch? [.many isBlank] (after ++ []) = some [after] :=
    firstMatch?_many hafter rfl rfl
  rw [List.append_nil] at hend
  rw [hend]
  rfl

/-- Every part takes what it is meant for, and the new line goes with the blanks before it. -/
theorem firstMatch?_fencePattern {tag opening body closing : List Char} (hbefore : Blanks before)
    (htag : ∀ c ∈ tag, isTagChar c = true) (hopening : Blanks opening) (hclosing : Blanks closing)
    (hafter : Blanks after)
    (huntagged : (opening ++ (body ++ (closing ++ (fence ++ after)))).head?.any isTagChar = false)
    (hfirst : (body ++ (closing ++ (fence ++ after))).head?.any isBlank = false)
    (hlast : body.getLast?.any isBlank = false) :
    firstMatch? fencePattern
        (before ++ (fence ++ (tag ++ (opening ++ (body ++ (closing ++ (fence ++ after))))))) =
      some [before, fence, tag, opening, [], body, closing, fence, after] := by
  have hbody : firstMatch? (.few :: closingPattern) (body ++ (closing ++ (fence ++ after))) =
      some [body, closing, fence, after] := by
    refine firstMatch?_few (firstMatch?_closingPattern hclosing hafter) fun more left hne heq => ?_
    refine firstMatch?_closingPattern_eq_none hafter hne ?_
    rw [← List.getLast?_append_of_ne_nil more hne, ← heq]
    exact hlast
  have hline : firstMatch? (.optional '\n' :: .few :: closingPattern)
      (body ++ (closing ++ (fence ++ after))) = some [[], body, closing, fence, after] := by
    rw [firstMatch?_optional, hbody, Option.map_some]
    intro hhead
    rw [hhead] at hfirst
    cases hfirst
  have htagged := firstMatch?_many htag huntagged (firstMatch?_many hopening hfirst hline)
  refine firstMatch?_many hbefore rfl ((firstMatch?_word fence).trans ?_)
  exact congrArg (Option.map (fence :: ·)) htagged

theorem head?_dropWhile_fence (hp : p '\x60' = false) (cs after : List Char) :
    (cs.dropWhile p ++ (fence ++ after)).head?.any p = false := by
  have hpass := dropWhile_append_stop hp cs ('\x60' :: '\x60' :: after)
  rw [show fence ++ after = '\x60' :: '\x60' :: '\x60' :: after from rfl, ← hpass]
  exact head?_dropWhile p _

theorem firstMatch?_of_fenced (h : Fenced cs inner) :
    ∃ pieces, firstMatch? fencePattern cs = some pieces ∧ pieces[5]? = some (untagged inner) := by
  obtain ⟨before, after, hbefore, hafter, rfl⟩ := h
  obtain ⟨tag, htag, hinner⟩ := exists_dropWhile isTagChar inner
  obtain ⟨opening, hopening, hrest⟩ := exists_dropWhile isBlank (inner.dropWhile isTagChar)
  obtain ⟨closing, hclosing, hend⟩ :=
    exists_trimEndChars (trimStartChars (inner.dropWhile isTagChar))
  have hbody : trimStartChars (inner.dropWhile isTagChar) ++ (fence ++ after) =
      untagged inner ++ (closing ++ (fence ++ after)) :=
    (congrArg (· ++ (fence ++ after)) hend).trans (List.append_assoc ..)
  have hopened : inner.dropWhile isTagChar ++ (fence ++ after) =
      opening ++ (untagged inner ++ (closing ++ (fence ++ after))) := by
    rw [← hbody]
    exact (congrArg (· ++ (fence ++ after)) hrest).trans (List.append_assoc ..)
  have htagged : inner ++ (fence ++ after) =
      tag ++ (opening ++ (untagged inner ++ (closing ++ (fence ++ after)))) := by
    rw [← hopened]
    exact (congrArg (· ++ (fence ++ after)) hinner).trans (List.append_assoc ..)
  refine ⟨[before, fence, tag, opening, [], untagged inner, closing, fence, after], ?_, rfl⟩
  rw [htagged]
  refine firstMatch?_fencePattern hbefore htag hopening hclosing hafter ?_ ?_
    (getLast?_trimEndChars _)
  · rw [← hopened]
    exact head?_dropWhile_fence (by decide) inner after
  · rw [← hbody]
    exact head?_dropWhile_fence (by decide) (inner.dropWhile isTagChar) after

theorem fenced_of_firstMatch? {pieces : List (List Char)}
    (h : firstMatch? fencePattern cs = some pieces) : ∃ inner, Fenced cs inner := by
  obtain ⟨heq, htakes⟩ := takes_of_firstMatch? h
  obtain _ | ⟨hbefore, _ | ⟨rfl, _ | ⟨-, _ | ⟨-, _ | ⟨-, _ | ⟨-, _ | ⟨-, _ | ⟨rfl,
    _ | ⟨hafter, _ | _⟩⟩⟩⟩⟩⟩⟩⟩⟩ := htakes
  rename_i before tag opening line body closing after
  refine ⟨tag ++ (opening ++ (line ++ (body ++ closing))), before, after, hbefore, hafter, ?_⟩
  rw [heq]
  simp

/-- What stands between the fences is what the middle part of the first match takes. -/
theorem fencedBody?_eq_firstMatch? (cs : List Char) :
    fencedBody? cs = (firstMatch? fencePattern cs).bind (·[5]?) := by
  cases hmatch : firstMatch? fencePattern cs with
  | some pieces =>
    obtain ⟨inner, hfenced⟩ := fenced_of_firstMatch? hmatch
    obtain ⟨pieces', hmatch', hbody⟩ := firstMatch?_of_fenced hfenced
    rw [hmatch] at hmatch'
    cases hmatch'
    rw [fencedBody?_of_fenced hfenced, Option.bind_some, hbody]
  | none =>
    cases hbody : fencedBody? cs with
    | none => rfl
    | some body =>
      obtain ⟨inner, hfenced⟩ := fenced_of_fencedBody? hbody
      obtain ⟨pieces, hmatch', -⟩ := firstMatch?_of_fenced hfenced
      rw [hmatch] at hmatch'
      cases hmatch'

/-! ## The text of an object -/

/-- What may stand around the text of an object: fences, a tag at the first one, and blanks. -/
structure Fencing where
  before : String
  tag : String
  opening : String
  closing : String
  after : String
  before_blank : allBlank before = true
  tag_chars : ∀ c ∈ tag.toList, isTagChar c = true
  opening_blank : allBlank opening = true
  closing_blank : allBlank closing = true
  after_blank : allBlank after = true

/-- An answer that holds a text between fences. -/
def Fencing.around (f : Fencing) (text : String) : String :=
  f.before ++ String.ofList fence ++ f.tag ++ f.opening ++ text ++ f.closing ++
    String.ofList fence ++ f.after

theorem Fencing.toList_around (f : Fencing) (text : String) :
    (f.around text).toList = f.before.toList ++ (fence ++ (f.tag.toList ++ (f.opening.toList ++
      (text.toList ++ (f.closing.toList ++ (fence ++ f.after.toList)))))) := by
  simp [around]

theorem isTagChar_of_isBlank (h : isBlank c = true) : isTagChar c = false :=
  of_isBlank (P := fun c => isTagChar c = false) h (by decide +kernel)

theorem head?_object_append (hp : p '\x7b' = false) {object : List Char}
    (hfirst : object.head? = some '\x7b') (rest : List Char) :
    (object ++ rest).head?.any p = false := by
  rw [List.head?_append, hfirst]
  exact hp

/-- Neither a tag nor the blanks after it reach into the text of an object. -/
theorem head?_blanks_append (hp : p '\x7b' = false) {blanks object : List Char}
    (hblanks : ∀ c ∈ blanks, p c = false) (hfirst : object.head? = some '\x7b')
    (rest : List Char) : (blanks ++ (object ++ rest)).head?.any p = false := by
  cases blanks with
  | nil => exact head?_object_append hp hfirst rest
  | cons d blanks => exact hblanks d List.mem_cons_self

theorem Fencing.firstMatch? (f : Fencing) {object : String}
    (hfirst : object.toList.head? = some '\x7b') (hlast : object.toList.getLast? = some '\x7d') :
    Text.firstMatch? fencePattern (f.around object).toList =
      some [f.before.toList, fence, f.tag.toList, f.opening.toList, [], object.toList,
        f.closing.toList, fence, f.after.toList] := by
  have hopening := allBlank_iff.mp f.opening_blank
  rw [f.toList_around]
  refine firstMatch?_fencePattern (allBlank_iff.mp f.before_blank) f.tag_chars hopening
    (allBlank_iff.mp f.closing_blank) (allBlank_iff.mp f.after_blank) ?_ ?_ ?_
  · exact head?_blanks_append (by decide)
      (fun c hc => isTagChar_of_isBlank (hopening c hc)) hfirst _
  · exact head?_object_append (by decide) hfirst _
  · rw [hlast]
    decide

/-- Blanks around the text of an object are no fences, and are taken off. -/
theorem unfenced_object {before after object : List Char} (hbefore : Blanks before)
    (hafter : Blanks after) (hfirst : object.head? = some '\x7b')
    (hlast : object.getLast? = some '\x7d') :
    firstMatch? fencePattern (before ++ (object ++ after)) = none ∧
      trimChars (before ++ (object ++ after)) = object := by
  have hstart : trimStartChars (before ++ (object ++ after)) = object ++ after := by
    rw [trimStartChars_append hbefore, trimStartChars]
    exact dropWhile_isBlank_eq (head?_object_append (by decide) hfirst _)
  constructor
  · cases hmatch : firstMatch? fencePattern (before ++ (object ++ after)) with
    | none => rfl
    | some pieces =>
      obtain ⟨inner, before', after', hbefore', -, heq⟩ := fenced_of_firstMatch? hmatch
      rw [heq, trimStartChars_append hbefore'] at hstart
      have hhead := congrArg List.head? hstart
      rw [List.head?_append, hfirst] at hhead
      cases hhead
  · calc trimChars (before ++ (object ++ after))
        = trimEndChars (trimStartChars (before ++ (object ++ after))) := rfl
      _ = trimEndChars (object ++ after) := by rw [hstart]
      _ = trimEndChars object := trimEndChars_append hafter object
      _ = object := trimEndChars_eq_self (by rw [hlast]; decide)

/-- What an answer gives depends on its text without the fences only. -/
theorem synthesize_of_stripFences {text text' : String} (h : stripFences text = stripFences text')
    (goal : String) :
    (synthesize goal (.answer text)).map (fun s => (s.workflow, s.plan)) =
      (synthesize goal (.answer text')).map (fun s => (s.workflow, s.plan)) := by
  have hread : readAnswer text = readAnswer text' := by
    delta readAnswer
    rw [h]
  unfold synthesize
  split
  · rfl
  · simp only [Except.map, Synthesis.ofAnswer, hread]

/-- The text of an object comes out of its fences as it is, and so it does without fences. The
goal is answered alike. -/
theorem object_out_of_fences (f : Fencing) {object before after : String}
    (hfirst : object.toList.head? = some '\x7b') (hlast : object.toList.getLast? = some '\x7d')
    (hbefore : allBlank before = true) (hafter : allBlank after = true) :
    firstMatch? fencePattern (f.around object).toList =
        some [f.before.toList, fence, f.tag.toList, f.opening.toList, [], object.toList,
          f.closing.toList, fence, f.after.toList] ∧
      stripFences (f.around object) = object ∧
      firstMatch? fencePattern (before ++ object ++ after).toList = none ∧
      stripFences (before ++ object ++ after) = object ∧
      ∀ goal, (synthesize goal (.answer (f.around object))).map (fun s => (s.workflow, s.plan)) =
        (synthesize goal (.answer (before ++ object ++ after))).map
          (fun s => (s.workflow, s.plan)) := by
  have hmatch := f.firstMatch? hfirst hlast
  have htext : (before ++ object ++ after).toList =
      before.toList ++ (object.toList ++ after.toList) := by simp
  obtain ⟨hnone, htrim⟩ :=
    unfenced_object (allBlank_iff.mp hbefore) (allBlank_iff.mp hafter) hfirst hlast
  rw [← htext] at hnone htrim
  have hfenced : stripFences (f.around object) = object := by
    rw [stripFences, fencedBody?_eq_firstMatch?, hmatch]
    exact String.ofList_toList
  have hunfenced : stripFences (before ++ object ++ after) = object := by
    rw [stripFences, fencedBody?_eq_firstMatch?, hnone, Option.bind_none, Option.getD_none, htrim]
    exact String.ofList_toList
  exact ⟨hmatch, hfenced, hnone, hunfenced, synthesize_of_stripFences (hfenced.trans hunfenced.symm)⟩

/-- A tag, with new lines around what stands between the fences. -/
def jsonFencing : Fencing where
  before := " "
  tag := "json"
  opening := "\n"
  closing := "\n"
  after := "\n"
  before_blank := by decide
  tag_chars := List.all_eq_true.mp (by decide)
  opening_blank := by decide
  closing_blank := by decide
  after_blank := by decide

/-- A text with fences of its own, on lines of their own. -/
def fencesInObject : String := "\x7b\x22plan\x22: \x22\n\x60\x60\x60\n\x60\x60\x60 \x22\x7d"

theorem object_out_of_fences_inner :
    fencesInObject.toList.head? = some '\x7b' ∧ fencesInObject.toList.getLast? = some '\x7d' ∧
      stripFences (jsonFencing.around fencesInObject) = fencesInObject ∧
      stripFences (" " ++ fencesInObject ++ "\n") = fencesInObject ∧
      (synthesize "a" (.answer (jsonFencing.around fencesInObject))).map
          (fun s => (s.workflow, s.plan)) =
        (synthesize "a" (.answer (" " ++ fencesInObject ++ "\n"))).map
          (fun s => (s.workflow, s.plan)) := by
  have hfirst : fencesInObject.toList.head? = some '\x7b' := by decide
  have hlast : fencesInObject.toList.getLast? = some '\x7d' := by decide
  have hbefore : allBlank " " = true := by decide
  have hafter : allBlank "\n" = true := by decide
  obtain ⟨-, hfenced, -, hunfenced, hsame⟩ :=
    object_out_of_fences jsonFencing hfirst hlast hbefore hafter
  exact ⟨hfirst, hlast, hfenced, hunfenced, hsame "a"⟩

end WorkflowEngine
