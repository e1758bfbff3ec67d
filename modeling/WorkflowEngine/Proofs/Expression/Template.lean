import Mathlib.Data.List.Chain
import Mathlib.Data.List.TakeWhile
import WorkflowEngine.Proofs.Expression.Brackets
import WorkflowEngine.Proofs.Expression.Secrets

/-!
# How a text is split and put together

A template that was read from a text has every character of it, in order, and breaks it at the
spans and nowhere else (`Template.ReadFrom`); there is only one way to do that. A text that is one
span, but for blanks around it, has the value of that span, and every other text is put together
from its pieces (`parse_of_parseTemplate`).
-/

namespace WorkflowEngine.Expression

open Json (Value)

variable {cs before body rest : List Char} {t : Template}

/-! ## Splitting -/

theorem opening_infix_cons {c : Char} :
    ['$', '['] <:+: c :: cs ↔ (c = '$' ∧ ∃ rest, cs = '[' :: rest) ∨ ['$', '['] <:+: cs := by
  rw [List.infix_cons_iff, List.cons_prefix_cons]
  refine or_congr_left (and_congr eq_comm ?_)
  constructor
  · rintro ⟨rest, rfl⟩
    exact ⟨rest, rfl⟩
  · rintro ⟨rest, rfl⟩
    exact ⟨rest, rfl⟩

theorem splitOpening_eq_none : splitOpening cs = none ↔ ¬ ['$', '['] <:+: cs := by
  fun_induction splitOpening cs with
  | case1 => simp
  | case2 rest => simp [opening_infix_cons]
  | case3 c rest hne ih =>
    rw [Option.map_eq_none_iff, ih, opening_infix_cons, not_or]
    refine (and_iff_right ?_).symm
    rintro ⟨rfl, rest, rfl⟩
    exact hne rest rfl rfl

/-- The text is split at the first place where a span begins. -/
theorem splitOpening_eq_some : splitOpening cs = some (before, body) ↔
    cs = before ++ '$' :: '[' :: body ∧ ¬ ['$', '['] <:+: before := by
  fun_induction splitOpening cs generalizing before with
  | case1 => simp
  | case2 rest =>
    constructor
    · intro h
      cases h
      exact ⟨rfl, by simp⟩
    · rintro ⟨heq, hnot⟩
      match before with
      | [] =>
        cases heq
        rfl
      | [c] => simp at heq
      | c :: c' :: before =>
        simp only [List.cons_append, List.cons.injEq] at heq
        obtain ⟨rfl, rfl, -⟩ := heq
        exact absurd (opening_infix_cons.mpr (.inl ⟨rfl, before, rfl⟩)) hnot
  | case3 c rest hne ih =>
    constructor
    · intro h
      obtain ⟨⟨before', body'⟩, hsome, heq⟩ := Option.map_eq_some_iff.mp h
      cases heq
      obtain ⟨rfl, hnot⟩ := ih.mp hsome
      refine ⟨rfl, ?_⟩
      rw [opening_infix_cons, not_or]
      refine ⟨?_, hnot⟩
      rintro ⟨rfl, rest, rfl⟩
      exact hne _ rfl rfl
    · rintro ⟨heq, hnot⟩
      cases before with
      | nil =>
        cases heq
        exact absurd rfl (hne body rfl)
      | cons c' before =>
        cases heq
        rw [opening_infix_cons, not_or] at hnot
        rw [ih.mpr ⟨rfl, hnot.2⟩]
        rfl

theorem source_append (t t' : Template) :
    Template.source (t ++ t') = Template.source t ++ Template.source t' := by
  induction t with
  | nil => rfl
  | cons segment rest ih => cases segment <;> simp [Template.source, ih]

@[simp] theorem source_textSegment (cs : List Char) : Template.source (textSegment cs) = cs := by
  cases cs <;> simp [textSegment, Template.source]

/-- The segments of a text: spans as they are closed and parsed, and what is between them. -/
structure Template.ReadFrom (t : Template) (cs : List Char) : Prop where
  source : t.source = cs
  texts : ∀ text, .text text ∈ t → text ≠ [] ∧ ¬ ['$', '['] <:+: text
  apart : t.IsChain fun a b => a.isSpan || b.isSpan
  spans : ∀ source tree, .span source tree ∈ t →
    Quoting.outside.Closes 0 source ∧ parseChars source = .ok tree

theorem readFrom_textSegment (h : ¬ ['$', '['] <:+: cs) :
    Template.ReadFrom (textSegment cs) cs := by
  refine ⟨source_textSegment cs, ?_, ?_, ?_⟩
  · intro text htext
    unfold textSegment at htext
    split at htext
    · simp at htext
    · rename_i hcs
      cases List.mem_singleton.mp htext
      exact ⟨by simpa using hcs, h⟩
  · unfold textSegment
    split <;> simp
  · intro source tree hspan
    unfold textSegment at hspan
    split at hspan <;> simp at hspan

theorem Template.ReadFrom.span {source after : List Char} {tree : Expr}
    (ht : t.ReadFrom after) (hbefore : ¬ ['$', '['] <:+: before)
    (hcloses : Quoting.outside.Closes 0 source) (hparse : parseChars source = .ok tree) :
    Template.ReadFrom (textSegment before ++ .span source tree :: t)
      (before ++ '$' :: '[' :: (source ++ ']' :: after)) := by
  have htext := readFrom_textSegment hbefore
  refine ⟨?_, ?_, ?_, ?_⟩
  · simp [source_append, Template.source, ht.source]
  · intro text hmem
    simp only [List.mem_append, List.mem_cons] at hmem
    rcases hmem with hmem | hmem | hmem
    · exact htext.texts text hmem
    · cases hmem
    · exact ht.texts text hmem
  · have hspan : (Segment.span source tree :: t).IsChain fun a b => a.isSpan || b.isSpan := by
      refine List.IsChain.cons ht.apart ?_
      intro b _
      simp [Segment.isSpan]
    unfold textSegment
    split
    · exact hspan
    · refine List.IsChain.cons hspan ?_
      intro b hb
      cases hb
      simp [Segment.isSpan]
  · intro source' tree' hmem
    simp only [List.mem_append, List.mem_cons] at hmem
    rcases hmem with hmem | hmem | hmem
    · exact htext.spans source' tree' hmem
    · cases hmem
      exact ⟨hcloses, hparse⟩
    · exact ht.spans source' tree' hmem

theorem Template.ReadFrom.tail {segment : Segment} (ht : Template.ReadFrom (segment :: t) cs) :
    t.ReadFrom t.source :=
  ⟨rfl, fun text h => ht.texts text (List.mem_cons_of_mem _ h), ht.apart.tail,
    fun source tree h => ht.spans source tree (List.mem_cons_of_mem _ h)⟩

theorem Template.ReadFrom.cases (ht : t.ReadFrom cs) :
    (t = textSegment cs ∧ ¬ ['$', '['] <:+: cs) ∨
    ∃ before source after tree t', cs = before ++ '$' :: '[' :: (source ++ ']' :: after) ∧
      t = textSegment before ++ .span source tree :: t' ∧ ¬ ['$', '['] <:+: before ∧
      Quoting.outside.Closes 0 source ∧ parseChars source = .ok tree ∧
      Template.ReadFrom t' after := by
  have hsource := ht.source
  match t with
  | [] =>
    subst hsource
    exact .inl ⟨rfl, by simp [Template.source]⟩
  | [.text text] =>
    obtain ⟨hne, hnot⟩ := ht.texts text List.mem_cons_self
    simp only [Template.source, List.append_nil] at hsource
    subst hsource
    exact .inl ⟨by simp [textSegment, hne], hnot⟩
  | .span source tree :: rest =>
    obtain ⟨hcloses, hparse⟩ := ht.spans source tree List.mem_cons_self
    exact .inr ⟨[], source, Template.source rest, tree, rest, hsource.symm, rfl, by simp, hcloses,
      hparse, ht.tail⟩
  | .text text :: .span source tree :: rest =>
    obtain ⟨hne, hnot⟩ := ht.texts text List.mem_cons_self
    obtain ⟨hcloses, hparse⟩ :=
      ht.spans source tree (List.mem_cons_of_mem _ List.mem_cons_self)
    exact .inr ⟨text, source, Template.source rest, tree, rest, hsource.symm,
      by simp [textSegment, hne], hnot, hcloses, hparse, ht.tail.tail⟩
  | .text text :: .text text' :: rest =>
    have hapart := (List.isChain_cons_cons.mp ht.apart).1
    simp [Segment.isSpan] at hapart

theorem segmentsFrom_eq_ok {whole : List Char} {fuel : Nat} (hfuel : rest.length ≤ fuel) :
    segmentsFrom whole fuel rest = .ok t ↔ t.ReadFrom rest := by
  induction fuel generalizing rest t with
  | zero =>
    have hrest : rest = [] := List.length_eq_zero_iff.mp (by omega)
    subst hrest
    constructor
    · intro h
      cases h
      exact readFrom_textSegment (by simp)
    · intro ht
      obtain ⟨rfl, -⟩ | ⟨before, source, after, tree, t', heq, -⟩ := ht.cases
      · rfl
      · simp at heq
  | succ fuel ih =>
    constructor
    · intro h
      rw [segmentsFrom] at h
      split at h
      · rename_i hopening
        cases h
        exact readFrom_textSegment (splitOpening_eq_none.mp hopening)
      · rename_i before body hopening
        obtain ⟨rfl, hbefore⟩ := splitOpening_eq_some.mp hopening
        split at h
        · cases h
        · rename_i source after hclosing
          obtain ⟨rfl, hcloses⟩ := splitClosing_eq_some.mp hclosing
          split at h
          · cases h
          · rename_i tree hparse
            split at h
            · cases h
            · rename_i segments hsegments
              cases h
              simp only [List.length_append, List.length_cons] at hfuel
              have hafter := (ih (by omega)).mp hsegments
              exact hafter.span hbefore hcloses hparse
    · intro ht
      obtain ⟨rfl, hnot⟩ | ⟨before, source, after, tree, t', rfl, rfl, hbefore, hcloses, hparse,
        hafter⟩ := ht.cases
      · rw [segmentsFrom, splitOpening_eq_none.mpr hnot]
      · have hopening : splitOpening (before ++ '$' :: '[' :: (source ++ ']' :: after)) = _ :=
          splitOpening_eq_some.mpr ⟨rfl, hbefore⟩
        have hclosing : splitClosing 0 (source ++ ']' :: after) = _ :=
          splitClosing_eq_some.mpr ⟨rfl, hcloses⟩
        simp only [List.length_append, List.length_cons] at hfuel
        have hsegments := (ih (by omega)).mpr hafter
        rw [segmentsFrom, hopening]
        dsimp only
        rw [hclosing]
        dsimp only
        rw [hparse]
        dsimp only
        rw [hsegments]

/-- A text has at most one reading. -/
theorem Template.ReadFrom.unique {t' : Template} (ht : t.ReadFrom cs) (ht' : t'.ReadFrom cs) :
    t = t' := by
  have hread : segmentsFrom cs cs.length cs = .ok t := (segmentsFrom_eq_ok (Nat.le_refl _)).mpr ht
  rw [(segmentsFrom_eq_ok (Nat.le_refl _)).mpr ht'] at hread
  exact (Except.ok.inj hread).symm

theorem parseTemplate_eq_ok {input : String} :
    parseTemplate input = .ok t ↔ t.ReadFrom input.toList :=
  segmentsFrom_eq_ok (Nat.le_refl _)

/-! ## A span with nothing but blanks around it -/

theorem trimChars_of_blank {pre mid post : List Char} (hpre : ∀ c ∈ pre, Text.isBlank c = true)
    (hpost : ∀ c ∈ post, Text.isBlank c = true) :
    Text.trimChars (pre ++ '$' :: '[' :: (mid ++ ']' :: post)) = '$' :: '[' :: (mid ++ [']']) := by
  have hdollar : Text.isBlank '$' = false := by decide
  have hclose : Text.isBlank ']' = false := by decide
  have hstart : Text.trimStartChars (pre ++ '$' :: '[' :: (mid ++ ']' :: post)) =
      '$' :: '[' :: (mid ++ ']' :: post) := by
    rw [Text.trimStartChars, List.dropWhile_append_of_pos hpre]
    simp [hdollar]
  have hreverse : ('$' :: '[' :: (mid ++ ']' :: post)).reverse =
      post.reverse ++ ']' :: ('$' :: '[' :: mid).reverse := by simp
  have hend : Text.trimStartChars (post.reverse ++ ']' :: ('$' :: '[' :: mid).reverse) =
      ']' :: ('$' :: '[' :: mid).reverse := by
    rw [Text.trimStartChars, List.dropWhile_append_of_pos fun c hc => hpost c (by simpa using hc)]
    simp [hclose]
  rw [Text.trimChars, hstart, hreverse, hend]
  simp

theorem exists_blank_trimChars (cs : List Char) :
    ∃ pre post, (∀ c ∈ pre, Text.isBlank c = true) ∧ (∀ c ∈ post, Text.isBlank c = true) ∧
      cs = pre ++ (Text.trimChars cs ++ post) := by
  refine ⟨cs.takeWhile Text.isBlank,
    ((Text.trimStartChars cs).reverse.takeWhile Text.isBlank).reverse, ?_, ?_, ?_⟩
  · intro c hc
    exact List.mem_takeWhile_imp hc
  · intro c hc
    exact List.mem_takeWhile_imp (List.mem_reverse.mp hc)
  · have hend : Text.trimChars cs ++
        ((Text.trimStartChars cs).reverse.takeWhile Text.isBlank).reverse =
          Text.trimStartChars cs := by
      rw [Text.trimChars, ← List.reverse_append]
      unfold Text.trimStartChars
      rw [List.takeWhile_append_dropWhile, List.reverse_reverse]
    rw [hend, Text.trimStartChars, List.takeWhile_append_dropWhile]

theorem not_opening_of_blank (h : ∀ c ∈ cs, Text.isBlank c = true) : ¬ ['$', '['] <:+: cs := by
  intro hopening
  have hdollar := h '$' (hopening.subset (by simp))
  exact absurd hdollar (by decide)

/-- The text is one span with nothing around it. -/
structure IsSpan (cs source : List Char) (tree : Expr) : Prop where
  text : cs = '$' :: '[' :: (source ++ [']'])
  closes : Quoting.outside.Closes 0 source
  parses : parseChars source = .ok tree

def Segment.span? : Segment → Option (List Char × Expr)
  | .span source tree => some (source, tree)
  | .text _ => none

/-- A span has no characters that could be other than blanks. -/
def Segment.blank : Segment → Bool
  | .span _ _ => true
  | .text cs => cs.all Text.isBlank

theorem soleSpan?_eq (t : Template) : t.soleSpan? =
    match t.filterMap Segment.span? with
    | [only] => if t.all Segment.blank then some only else none
    | _ => none := rfl

def Segment.IsBlankText (segment : Segment) : Prop :=
  segment.span? = none ∧ segment.blank = true

theorem Segment.IsBlankText.exists {segment : Segment} (h : segment.IsBlankText) :
    ∃ text, segment = .text text ∧ ∀ c ∈ text, Text.isBlank c = true := by
  cases segment with
  | text cs => exact ⟨cs, rfl, List.all_eq_true.mp h.2⟩
  | span source tree => cases h.1

theorem blank_source (h : ∀ segment ∈ t, segment.IsBlankText) :
    ∀ c ∈ t.source, Text.isBlank c = true := by
  induction t with
  | nil => simp [Template.source]
  | cons segment rest ih =>
    obtain ⟨text, rfl, htext⟩ := (h _ List.mem_cons_self).exists
    intro c hc
    rcases List.mem_append.mp hc with hc | hc
    · exact htext c hc
    · exact ih (fun segment hmem => h segment (List.mem_cons_of_mem _ hmem)) c hc

theorem soleSpan?_eq_some {source : List Char} {tree : Expr} : t.soleSpan? = some (source, tree) ↔
    ∃ pre post, t = pre ++ .span source tree :: post ∧
      (∀ segment ∈ pre, segment.IsBlankText) ∧ ∀ segment ∈ post, segment.IsBlankText := by
  rw [soleSpan?_eq]
  constructor
  · intro h
    split at h
    · rename_i only hspans
      split at h
      · rename_i hblank
        cases h
        obtain ⟨pre, only, post, rfl, hpre, honly, hpost⟩ := List.filterMap_eq_cons_iff.mp hspans
        simp only [List.all_append, List.all_cons, Bool.and_eq_true, List.all_eq_true] at hblank
        rw [List.filterMap_eq_nil_iff] at hpost
        cases only with
        | text cs => cases honly
        | span source' tree' =>
          cases honly
          exact ⟨pre, post, rfl, fun segment hmem => ⟨hpre segment hmem, hblank.1 segment hmem⟩,
            fun segment hmem => ⟨hpost segment hmem, hblank.2.2 segment hmem⟩⟩
      · cases h
    · cases h
  · rintro ⟨pre, post, rfl, hpre, hpost⟩
    have hprespans : pre.filterMap Segment.span? = [] :=
      List.filterMap_eq_nil_iff.mpr fun segment hmem => (hpre segment hmem).1
    have hpostspans : post.filterMap Segment.span? = [] :=
      List.filterMap_eq_nil_iff.mpr fun segment hmem => (hpost segment hmem).1
    have hspans : (pre ++ .span source tree :: post).filterMap Segment.span? =
        [(source, tree)] := by
      simp [hprespans, hpostspans, Segment.span?]
    have hblank : (pre ++ .span source tree :: post).all Segment.blank = true := by
      rw [List.all_append, List.all_cons, List.all_eq_true.mpr fun segment hmem =>
        (hpre segment hmem).2, List.all_eq_true.mpr fun segment hmem => (hpost segment hmem).2]
      rfl
    rw [hspans, hblank]
    rfl

theorem isBlankText_textSegment (h : ∀ c ∈ cs, Text.isBlank c = true) :
    ∀ segment ∈ textSegment cs, segment.IsBlankText := by
  intro segment hmem
  unfold textSegment at hmem
  split at hmem
  · simp at hmem
  · cases List.mem_singleton.mp hmem
    exact ⟨rfl, List.all_eq_true.mpr h⟩

/-- Whether a text is one span with blanks around it is seen from its segments. -/
theorem Template.ReadFrom.soleSpan?_iff {source : List Char} {tree : Expr} (ht : t.ReadFrom cs) :
    t.soleSpan? = some (source, tree) ↔ IsSpan (Text.trimChars cs) source tree := by
  constructor
  · intro h
    obtain ⟨pre, post, rfl, hpre, hpost⟩ := soleSpan?_eq_some.mp h
    obtain ⟨hcloses, hparse⟩ := ht.spans source tree (by simp)
    refine ⟨?_, hcloses, hparse⟩
    rw [← ht.source, source_append]
    exact trimChars_of_blank (blank_source hpre) (blank_source hpost)
  · intro h
    obtain ⟨pre, post, hpre, hpost, hcs⟩ := exists_blank_trimChars cs
    have hafter := readFrom_textSegment (not_opening_of_blank hpost)
    have hread := hafter.span (not_opening_of_blank hpre) h.closes h.parses
    rw [h.text] at hcs
    have hsame : t = textSegment pre ++ .span source tree :: textSegment post := by
      refine ht.unique ?_
      rw [hcs]
      simpa using hread
    rw [hsame]
    exact soleSpan?_eq_some.mpr ⟨textSegment pre, textSegment post, rfl,
      isBlankText_textSegment hpre, isBlankText_textSegment hpost⟩

/-! ## The value of a text -/

/-- What stands for a segment in the text that a template is filled to. -/
def Segment.written (value : List Char → Expr → Value) : Segment → List Char
  | .text cs => cs
  | .span source tree => (stringify (value source tree)).toList

theorem flatMap_written_of_text {value : List Char → Expr → Value}
    (h : ∀ source tree, .span source tree ∉ t) : t.flatMap (Segment.written value) = t.source := by
  induction t with
  | nil => rfl
  | cons segment rest ih =>
    have hrest := ih fun source tree hmem => h source tree (List.mem_cons_of_mem _ hmem)
    cases segment with
    | text cs => rw [List.flatMap_cons, hrest, Segment.written, Template.source]
    | span source tree => exact absurd List.mem_cons_self (h source tree)

theorem hasSpans_eq_true : t.hasSpans = true ↔ ∃ source tree, .span source tree ∈ t := by
  rw [Template.hasSpans, List.any_eq_true]
  constructor
  · rintro ⟨segment, hmem, hspan⟩
    cases segment with
    | text cs => cases hspan
    | span source tree => exact ⟨source, tree, hmem⟩
  · rintro ⟨source, tree, hmem⟩
    exact ⟨_, hmem, rfl⟩

theorem hasSpans_eq_false : t.hasSpans = false ↔ ∀ source tree, .span source tree ∉ t := by
  rw [← Bool.not_eq_true, hasSpans_eq_true]
  push Not
  rfl

namespace Scope

variable {s s' : Scope} {input : String} {fault : Fault} {value : List Char → Expr → Value}

/-- The scope in which a template is evaluated: the secrets are loaded if a span uses them. -/
def Prepares (s : Scope) (t : Template) (s' : Scope) : Prop :=
  if t.usesSecrets then s.loadSecrets = (.ok (), s') else s' = s

theorem parse_of_prepares (h : parseTemplate input = .ok t) (hs : s.Prepares t s') :
    s.parse input = (s'.render input t, s') := by
  rw [parse, h]
  dsimp only
  rw [afterSecrets]
  rw [Prepares] at hs
  split at hs
  · rename_i huses
    rw [if_pos huses, hs]
  · rename_i huses
    rw [if_neg huses, hs]

theorem parse_of_not_loaded (h : parseTemplate input = .ok t) (huses : t.usesSecrets = true)
    (hload : s.loadSecrets = (.error fault, s')) : s.parse input = (.error fault, s') := by
  rw [parse, h]
  dsimp only
  rw [afterSecrets, if_pos huses, hload]

theorem prepares_self (h : ∀ source tree, .span source tree ∉ t) : s.Prepares t s := by
  rw [Prepares, if_neg]
  intro huses
  obtain ⟨segment, hmem, hsecret⟩ := List.any_eq_true.mp huses
  cases segment with
  | text cs => cases hsecret
  | span source tree => exact h source tree hmem

theorem inlineText_ok
    (h : ∀ source tree, .span source tree ∈ t →
      s.eval (String.ofList source) tree = .ok (value source tree)) :
    s.inlineText t = .ok (t.flatMap (Segment.written value)) := by
  induction t with
  | nil => rfl
  | cons segment rest ih =>
    have hrest := ih fun source tree hmem => h source tree (List.mem_cons_of_mem _ hmem)
    cases segment with
    | text cs =>
      rw [inlineText, hrest]
      rfl
    | span source tree =>
      rw [inlineText, h source tree List.mem_cons_self]
      dsimp only
      rw [hrest]
      rfl

/-- The first span that has no value decides. -/
theorem inlineText_error {pre post : Template} {source : List Char} {tree : Expr}
    (hpre : ∀ source tree, .span source tree ∈ pre →
      ∃ v, s.eval (String.ofList source) tree = .ok v)
    (herror : s.eval (String.ofList source) tree = .error fault) :
    s.inlineText (pre ++ .span source tree :: post) = .error fault := by
  induction pre with
  | nil => rw [List.nil_append, inlineText, herror]
  | cons segment rest ih =>
    have hrest := ih fun source tree hmem => hpre source tree (List.mem_cons_of_mem _ hmem)
    cases segment with
    | text cs => rw [List.cons_append, inlineText, hrest]
    | span source' tree' =>
      obtain ⟨v, hv⟩ := hpre source' tree' List.mem_cons_self
      rw [List.cons_append, inlineText, hv]
      dsimp only
      rw [hrest]

theorem render_of_isSpan {source : List Char} {tree : Expr} (ht : t.ReadFrom input.toList)
    (h : IsSpan (Text.trimChars input.toList) source tree) :
    s.render input t = s.eval (String.ofList source) tree := by
  have hsole := ht.soleSpan?_iff.mpr h
  have hspans : t.hasSpans = true := hasSpans_eq_true.mpr ⟨_, _, span_mem_of_soleSpan? hsole⟩
  rw [render, hsole, hspans]
  rfl

theorem render_of_spans (ht : t.ReadFrom input.toList)
    (h : ∀ source tree, ¬ IsSpan (Text.trimChars input.toList) source tree)
    (hspans : t.hasSpans = true) :
    s.render input t = (s.inlineText t).map fun cs => .str (String.ofList cs) := by
  have hsole : t.soleSpan? = none := by
    cases hsole : t.soleSpan? with
    | none => rfl
    | some only => exact absurd (ht.soleSpan?_iff.mp hsole) (h only.1 only.2)
  rw [render, hspans, hsole]
  cases s.inlineText t <;> rfl

theorem render_of_text (h : ∀ source tree, .span source tree ∉ t) :
    s.render input t = .ok (.str input) := by
  rw [render, hasSpans_eq_false.mpr h]
  rfl

end Scope

/-- A text that can be read at all breaks into its segments. Without a span it stands for itself; if
it is one span but for blanks around it, it has the value of that span; and else each span is
replaced by the text of its value, which is not read again. -/
theorem parse_of_parseTemplate (s : Scope) {input : String} (h : parseTemplate input = .ok t) :
    t.ReadFrom input.toList ∧
    ((∀ source tree, .span source tree ∉ t) → s.parse input = (.ok (.str input), s)) ∧
    (∀ fault s', t.usesSecrets = true → s.loadSecrets = (.error fault, s') →
      s.parse input = (.error fault, s')) ∧
    ∀ s', s.Prepares t s' →
      (∀ source tree, IsSpan (Text.trimChars input.toList) source tree →
        s.parse input = (s'.eval (String.ofList source) tree, s')) ∧
      ((∀ source tree, ¬ IsSpan (Text.trimChars input.toList) source tree) →
        (∀ value : List Char → Expr → Value,
          (∀ source tree, .span source tree ∈ t →
            s'.eval (String.ofList source) tree = .ok (value source tree)) →
          s.parse input =
            (.ok (.str (String.ofList (t.flatMap (Segment.written value)))), s')) ∧
        ∀ pre source tree post fault, t = pre ++ .span source tree :: post →
          (∀ source tree, .span source tree ∈ pre →
            ∃ v, s'.eval (String.ofList source) tree = .ok v) →
          s'.eval (String.ofList source) tree = .error fault →
          s.parse input = (.error fault, s')) := by
  have ht := parseTemplate_eq_ok.mp h
  refine ⟨ht, ?_, fun fault s' => Scope.parse_of_not_loaded h, ?_⟩
  · intro htext
    rw [Scope.parse_of_prepares h (Scope.prepares_self htext), Scope.render_of_text htext]
  · intro s' hs
    rw [Scope.parse_of_prepares h hs]
    refine ⟨?_, ?_⟩
    · intro source tree hspan
      rw [Scope.render_of_isSpan ht hspan]
    · intro hmixed
      refine ⟨?_, ?_⟩
      · intro value hvalues
        by_cases hspans : t.hasSpans = true
        · rw [Scope.render_of_spans ht hmixed hspans, Scope.inlineText_ok hvalues]
          rfl
        · have htext := hasSpans_eq_false.mp (Bool.eq_false_iff.mpr hspans)
          rw [Scope.render_of_text htext, flatMap_written_of_text htext, ht.source,
            String.ofList_toList]
      · intro pre source tree post fault hsplit hpre herror
        have hspans : t.hasSpans = true :=
          hasSpans_eq_true.mpr ⟨source, tree, by rw [hsplit]; simp⟩
        rw [Scope.render_of_spans ht hmixed hspans, hsplit, Scope.inlineText_error hpre herror]
        rfl

/-- Quotes hide the bracket in the span, and the bracket before it closes nothing. -/
theorem parse_of_parseTemplate_quoted :
    let t : Template := [.text ['a', ']'], .span ['"', '[', '"'] (.literal (.str "[")), .text ['b']]
    let s : Scope := { context := { traceId := "t" }, functions := {} }
    parseTemplate "a]$[\"[\"]b" = .ok t ∧ t.source = "a]$[\"[\"]b".toList ∧
      s.parse "a]$[\"[\"]b" = (.ok (.str "a][b"), s) := by
  intro t s
  have hread : parseTemplate "a]$[\"[\"]b" = .ok t := rfl
  obtain ⟨ht, -, -, hprepared⟩ := parse_of_parseTemplate s hread
  have hmixed : ∀ source tree,
      ¬ IsSpan (Text.trimChars "a]$[\"[\"]b".toList) source tree := by
    intro source tree h
    have hfirst := congrArg List.head? h.text
    have hletter : (Text.trimChars "a]$[\"[\"]b".toList).head? = some 'a' := by decide +kernel
    rw [hletter] at hfirst
    simp at hfirst
  have hvalues : ∀ source tree, .span source tree ∈ t →
      s.eval (String.ofList source) tree = .ok (.str "[") := by
    intro source tree hmem
    simp only [t, List.mem_cons, List.not_mem_nil, reduceCtorEq, Segment.span.injEq, or_false,
      false_or] at hmem
    obtain ⟨rfl, rfl⟩ := hmem
    rfl
  exact ⟨hread, ht.source, ((hprepared s rfl).2 hmixed).1 (fun _ _ => .str "[") hvalues⟩

end WorkflowEngine.Expression
