import WorkflowEngine.Proofs.Expression.Template

/-!
# Any text as a literal

A text is written as a string literal by putting a backslash before every backslash and before the
quote that surrounds it. The scanner of spans ends such a literal where it ends, its only token is
the text, and so the text comes back as it is from a template (`parse_quoted`).
-/

namespace WorkflowEngine.Expression

open Json (Value)

/-- Backslashes before backslashes and quotes. -/
def escape (quote : Char) (cs : List Char) : List Char :=
  cs.flatMap fun c => if c = '\\' ∨ c = quote then ['\\', c] else [c]

/-- The text as a string literal. -/
def quoted (quote : Char) (text : String) : String :=
  String.ofList (quote :: (escape quote text.toList ++ [quote]))

theorem escape_cons (quote c : Char) (cs : List Char) :
    escape quote (c :: cs) =
      (if c = '\\' ∨ c = quote then ['\\', c] else [c]) ++ escape quote cs := by
  rw [escape, List.flatMap_cons]
  rfl

section

variable {quote : Char}

theorem ne_backslash_of_quote (h : quote = '\'' ∨ quote = '"') : quote ≠ '\\' := by
  rcases h with rfl | rfl <;> decide

theorem readString_escape (hquote : quote ≠ '\\') (cs rest : List Char) :
    readString quote (escape quote cs ++ quote :: rest) = some (cs, rest) := by
  induction cs with
  | nil =>
    rw [escape, List.flatMap_nil, List.nil_append, readString.eq_3]
    · rw [if_pos rfl]
    · rintro c rest rfl
      exact absurd rfl hquote
  | cons c cs ih =>
    rw [escape_cons]
    split
    · simp only [List.cons_append, List.nil_append]
      rw [readString, ih]
      rfl
    · rename_i hplain
      rw [not_or] at hplain
      simp only [List.cons_append, List.nil_append]
      rw [readString.eq_3, if_neg hplain.2, ih]
      · rfl
      · intro c' rest' hc
        exact absurd hc hplain.1

theorem closes_inside_cons {n : Int} {c : Char} {cs : List Char} :
    (Quoting.inside quote).Closes n (c :: cs) ↔
      ((Quoting.inside quote).next c).Closes (n + (Quoting.inside quote).weight c) cs := by
  rw [Quoting.closes_cons]
  refine and_iff_right fun h => ?_
  cases h

/-- A literal ends at its second quote and leaves the brackets as they were. -/
theorem closes_escape (hquote : quote ≠ '\\') (cs : List Char) :
    (Quoting.inside quote).Closes 0 (escape quote cs ++ [quote]) := by
  induction cs with
  | nil =>
    refine closes_inside_cons.mpr ?_
    simp [Quoting.closes_nil, Quoting.next, Quoting.weight, hquote]
  | cons c cs ih =>
    rw [escape_cons]
    split
    · refine closes_inside_cons.mpr (Quoting.closes_cons.mpr ⟨?_, ?_⟩)
      · simp [Quoting.next]
      · simpa [Quoting.next, Quoting.weight] using ih
    · rename_i hplain
      rw [not_or] at hplain
      refine closes_inside_cons.mpr ?_
      simpa [Quoting.next, Quoting.weight, hplain] using ih

theorem closes_quoted (h : quote = '\'' ∨ quote = '"') (text : String) :
    Quoting.outside.Closes 0 (quoted quote text).toList := by
  have hinside := closes_escape (ne_backslash_of_quote h) text.toList
  rw [quoted, String.toList_ofList]
  refine Quoting.closes_cons.mpr ⟨?_, ?_⟩
  · rintro - rfl
    simp at h
  · have hnext : Quoting.outside.next quote = .inside quote := if_pos h
    have hweight : Quoting.outside.weight quote = 0 := by rcases h with rfl | rfl <;> rfl
    rw [hnext, hweight]
    exact hinside

/-- The text is the only token of its literal. -/
theorem tokenize_quoted (h : quote = '\'' ∨ quote = '"') (text : String) :
    tokenize (quoted quote text).toList = .ok [.string text] := by
  have hread := readString_escape (ne_backslash_of_quote h) text.toList []
  have hblank : Text.isBlank quote = false := by rcases h with rfl | rfl <;> decide
  have hdigit : quote.isDigit = false := by rcases h with rfl | rfl <;> decide
  have hname : startsName quote = false := by rcases h with rfl | rfl <;> decide +kernel
  rw [quoted, String.toList_ofList, tokenize, List.length_cons, tokenizeFrom]
  simp [hblank, readToken, hdigit, hname, h, hread, tokenizeFrom]

theorem parseChars_quoted (h : quote = '\'' ∨ quote = '"') (text : String) :
    parseChars (quoted quote text).toList = .ok (.literal (.str text)) := by
  rw [parseChars, tokenize_quoted h]
  rfl

end

/-! ## In a template -/

section

variable {before after source : List Char} {tree : Expr}

theorem filterMap_span?_textSegment (cs : List Char) :
    (textSegment cs).filterMap Segment.span? = [] := by
  unfold textSegment
  split <;> rfl

theorem all_blank_textSegment (cs : List Char) :
    (textSegment cs).all Segment.blank = cs.all Text.isBlank := by
  cases cs <;> simp [textSegment, Segment.blank]

theorem soleSpan?_between : Template.soleSpan? (textSegment before ++ .span source tree ::
    textSegment after) = if before.all Text.isBlank && after.all Text.isBlank then
      some (source, tree) else none := by
  simp [soleSpan?_eq, filterMap_span?_textSegment, all_blank_textSegment, Segment.span?,
    Segment.blank]

theorem span_notMem_textSegment {cs : List Char} : .span source tree ∉ textSegment cs := by
  unfold textSegment
  split <;> simp

theorem usesSecrets_between (h : tree.usesSecrets = false) :
    Template.usesSecrets (textSegment before ++ .span source tree :: textSegment after) = false := by
  have htext : ∀ cs : List Char, (textSegment cs).any Segment.usesSecrets = false := by
    intro cs
    unfold textSegment
    split <;> rfl
  simp [Template.usesSecrets, htext, Segment.usesSecrets, h]

theorem flatMap_written_textSegment {value : List Char → Expr → Value} (cs : List Char) :
    (textSegment cs).flatMap (Segment.written value) = cs := by
  unfold textSegment
  split <;> simp_all [Segment.written]

end

variable {quote : Char} {before after : List Char}

/-- The template that is read from a literal between two texts. -/
def aroundLiteral (before : List Char) (quote : Char) (text : String) (after : List Char) :
    Template :=
  textSegment before ++
    .span (quoted quote text).toList (.literal (.str text)) :: textSegment after

theorem readFrom_aroundLiteral (h : quote = '\'' ∨ quote = '"') (text : String)
    (hbefore : ¬ ['$', '['] <:+: before) (hafter : ¬ ['$', '['] <:+: after) :
    (aroundLiteral before quote text after).ReadFrom
      (before ++ '$' :: '[' :: ((quoted quote text).toList ++ ']' :: after)) :=
  (readFrom_textSegment hafter).span hbefore (closes_quoted h text) (parseChars_quoted h text)

theorem render_aroundLiteral (s : Scope) (input text : String) :
    s.render input (aroundLiteral before quote text after) =
      .ok (.str (if before.all Text.isBlank && after.all Text.isBlank then text
        else String.ofList (before ++ (text.toList ++ after)))) := by
  have hspans : (aroundLiteral before quote text after).hasSpans = true :=
    hasSpans_eq_true.mpr ⟨_, _, List.mem_append_right _ List.mem_cons_self⟩
  have htext : s.inlineText (aroundLiteral before quote text after) =
      .ok (before ++ (text.toList ++ after)) := by
    have hvalue : ∀ source tree, .span source tree ∈ aroundLiteral before quote text after →
        s.eval (String.ofList source) tree = .ok (.str text) := by
      intro source tree hmem
      simp only [aroundLiteral, List.mem_append, List.mem_cons, span_notMem_textSegment, false_or,
        or_false, Segment.span.injEq] at hmem
      obtain ⟨-, rfl⟩ := hmem
      rfl
    rw [Scope.inlineText_ok hvalue]
    simp [aroundLiteral, flatMap_written_textSegment, Segment.written, stringify]
  rw [Scope.render, hspans, aroundLiteral, soleSpan?_between]
  by_cases hblank : before.all Text.isBlank && after.all Text.isBlank
  · rw [if_pos hblank, if_pos hblank]
    rfl
  · rw [if_neg hblank, if_neg hblank, ← aroundLiteral, htext]
    rfl

/-- Any text comes back from its literal as it is, between blanks as the value of the template and
between other texts in its place. -/
theorem parse_quoted (s : Scope) (h : quote = '\'' ∨ quote = '"') (text a b : String)
    (ha : ¬ ['$', '['] <:+: a.toList) (hb : ¬ ['$', '['] <:+: b.toList) :
    s.parse (a ++ "$[" ++ quoted quote text ++ "]" ++ b) =
      (.ok (.str (if Text.allBlank a && Text.allBlank b then text else a ++ text ++ b)), s) := by
  have hread : parseTemplate (a ++ "$[" ++ quoted quote text ++ "]" ++ b) =
      .ok (aroundLiteral a.toList quote text b.toList) := by
    refine parseTemplate_eq_ok.mpr ?_
    simpa using readFrom_aroundLiteral h text ha hb
  have hprepares : s.Prepares (aroundLiteral a.toList quote text b.toList) s := by
    rw [Scope.Prepares, if_neg]
    rw [aroundLiteral, usesSecrets_between rfl]
    decide
  rw [Scope.parse_of_prepares hread hprepares, render_aroundLiteral]
  simp only [Text.allBlank, String.ofList_append, String.ofList_toList, String.append_assoc]

/-- A text of delimiters that ends with a backslash, once alone and once between texts. -/
theorem parse_quoted_delimiters :
    let text := "]$[\"' \\"
    let s : Scope := { context := { traceId := "t" }, functions := {} }
    (quoted '"' text = "\"]$[\\\"' \\\\\"") ∧
    s.parse (" " ++ "$[" ++ quoted '"' text ++ "]" ++ "\n") = (.ok (.str text), s) ∧
    s.parse ("[a] " ++ "$[" ++ quoted '\'' text ++ "]" ++ "$") =
      (.ok (.str "[a] ]$[\"' \\$"), s) := by
  intro text s
  refine ⟨by decide +kernel, ?_, ?_⟩
  · exact parse_quoted s (.inr rfl) text " " "\n" (by decide +kernel) (by decide +kernel)
  · exact parse_quoted s (.inl rfl) text "[a] " "$" (by decide +kernel) (by decide +kernel)

end WorkflowEngine.Expression
