import WorkflowEngine.Proofs.Expression.Completeness
import WorkflowEngine.Proofs.Expression.Lexing
import WorkflowEngine.Proofs.Expression.Nesting

/-!
# Parentheses left open

When the closing parenthesis at the end of an expression is missing, every call that has begun comes
to the end of the tokens. The call that would have read the parenthesis asks for it there, and that
is the fault reported, unless nothing stands in the parentheses: then it asks for an argument first
(`unclosedFault`). `Phrase.Unclosed` says so for each kind of phrase, and `unclosed_of_derives` is
the induction on the derivation.
-/

namespace WorkflowEngine.Expression

variable {n fuel : Nat} {e : Expr} {t : Token} {ts us : List Token} {p : Phrase}

/-- What is wrong with tokens after which a closing parenthesis is missing. -/
def unclosedFault (ts : List Token) : SyntaxFault :=
  if ts.getLast? = some .parenOpen then .invalid else .unbalancedParentheses

/-- Only the last token counts. -/
theorem unclosedFault_append (ts : List Token) (h : us ≠ []) :
    unclosedFault (ts ++ us) = unclosedFault us := by
  rw [unclosedFault, List.getLast?_append_of_ne_nil ts h]
  rfl

theorem unclosedFault_cons (t : Token) (h : ts ≠ []) : unclosedFault (t :: ts) = unclosedFault ts :=
  unclosedFault_append [t] h

/-! ## How phrases end -/

/-- The tokens do not end with that one. -/
def EndsOtherwise (t : Token) (ts : List Token) : Prop := ts.getLast? ≠ some t

theorem EndsOtherwise.append (hts : EndsOtherwise t ts) (hus : EndsOtherwise t us) :
    EndsOtherwise t (ts ++ us) := by
  rw [EndsOtherwise, List.getLast?_append]
  cases hlast : us.getLast? with
  | none => exact hts
  | some u =>
    rw [EndsOtherwise, hlast] at hus
    exact hus

theorem endsOtherwise_singleton {u : Token} (hu : u ≠ t) : EndsOtherwise t [u] := by
  simpa [EndsOtherwise] using hu

theorem EndsOtherwise.cons {u : Token} (hu : u ≠ t) (hts : EndsOtherwise t ts) :
    EndsOtherwise t (u :: ts) :=
  (endsOtherwise_singleton hu).append hts

theorem EndsOtherwise.prepend (hus : EndsOtherwise t us) (hne : us ≠ []) (ts : List Token) :
    EndsOtherwise t (ts ++ us) := by
  rw [EndsOtherwise, List.getLast?_append_of_ne_nil ts hne]
  exact hus

theorem endsOtherwise_concat {u : Token} (hu : u ≠ t) (ts : List Token) :
    EndsOtherwise t (ts ++ [u]) :=
  (endsOtherwise_singleton hu).prepend (List.cons_ne_nil u []) ts

theorem Operator.ne_paren {op : BinaryOp} (h : Operator n t op) :
    t ≠ .parenOpen ∧ t ≠ .parenClose := by
  cases h <;> exact ⟨nofun, nofun⟩

/-- No phrase ends with an opening parenthesis. -/
theorem Derives.endsOtherwise (h : Derives p ts) : EndsOtherwise .parenOpen ts := by
  induction h with
  | plain _ ih => exact ih
  | tighter _ _ ih => exact ih
  | operand _ ih => exact ih
  | bare _ ih => exact ih
  | lastArg _ ih => exact ih
  | noStep => nofun
  | choice _ _ _ ihc iht ihe => exact ihc.append (.cons nofun (iht.append (.cons nofun ihe)))
  | binary _ hop _ ihl ihr => exact ihl.append (.cons hop.ne_paren.1 ihr)
  | path _ _ ihe ihs => exact ihe.append ihs
  | index _ _ ihe ihs => exact .cons nofun (ihe.append (.cons nofun ihs))
  | nextArg _ _ ihe ihes => exact ihe.append (.cons nofun ihes)
  | not _ ih => exact .cons nofun ih
  | negate _ ih => exact .cons nofun ih
  | property _ ih => exact .cons nofun (.cons nofun ih)
  | @group e ts _ _ => exact endsOtherwise_concat (by nofun) (.parenOpen :: ts)
  | @span e ts _ _ => exact endsOtherwise_concat (by nofun) (.spanOpen :: ts)
  | @lookup source key ts _ _ =>
    exact endsOtherwise_concat (by nofun) (.ident source.name :: .parenOpen :: ts)
  | @callNone name _ => exact endsOtherwise_concat (by nofun) [.ident name, .parenOpen]
  | @call name args ts _ _ _ =>
    exact endsOtherwise_concat (by nofun) (.ident name :: .parenOpen :: ts)
  | _ => exact endsOtherwise_singleton nofun

/-- The steps of a path do not end with a closing parenthesis. -/
theorem Derives.steps_endsOtherwise {steps : List Step} (h : Derives (.steps steps) ts) :
    EndsOtherwise .parenClose ts := by
  generalize hp : Phrase.steps steps = p at h
  induction h generalizing steps with
  | noStep => nofun
  | property _ ih =>
    cases hp
    exact .cons nofun (.cons nofun (ih rfl))
  | @index e steps ts us _ _ _ ih =>
    cases hp
    have hclose : EndsOtherwise .parenClose (.bracketClose :: us) := .cons nofun (ih rfl)
    exact hclose.prepend (List.cons_ne_nil _ _) (.bracketOpen :: ts)
  | _ => cases hp

theorem unclosedFault_of_endsOtherwise (h : EndsOtherwise .parenOpen ts) :
    unclosedFault ts = .unbalancedParentheses := if_neg h

/-- Before the closing parenthesis at its end there is something in every phrase. -/
theorem Derives.dropLast_ne_nil (h : Derives p ts) (hlast : ts.getLast? = some .parenClose) :
    ts.dropLast ≠ [] := by
  intro hnil
  have hts := List.dropLast_append_getLast? _ hlast
  rw [hnil, List.nil_append] at hts
  subst hts
  have hbegins := begins_of_derives h
  cases p with
  | steps steps => exact absurd rfl h.steps_endsOtherwise
  | primary e =>
    obtain ⟨t, us, heq, ht⟩ := hbegins
    cases heq
    exact ht
  | _ =>
    obtain ⟨t, us, heq, ht⟩ := hbegins
    cases heq
    rcases ht with ht | ht | ht
    · exact ht
    · cases ht
    · cases ht

/-! ## One kind of phrase after the other -/

/-- What the function for a phrase makes of its tokens when a closing parenthesis is missing at
their end. Steps do not end with one. -/
def Phrase.Unclosed : Phrase → List Token → Prop
  | .expr _, ts => ∀ fuel, 12 * ts.length + 12 ≤ fuel →
      parseExpr fuel ts = .error (unclosedFault ts)
  | .level n _, ts => ∀ fuel, 12 * ts.length + (11 - n) ≤ fuel →
      n ≤ 6 ∧ parseLevel fuel n ts = .error (unclosedFault ts)
  | .prefixed _, ts => ∀ fuel, 12 * ts.length + 4 ≤ fuel →
      parseUnary fuel ts = .error (unclosedFault ts)
  | .primary _, ts => ∀ fuel, 12 * ts.length + 3 ≤ fuel →
      parsePrimary fuel ts = .error (unclosedFault ts)
  | .steps _, _ => False
  | .args _, ts => ∀ fuel, 12 * ts.length + 13 ≤ fuel →
      parseArgs fuel ts = .error (unclosedFault ts)

theorem unclosed_plain (h : (Phrase.level 0 e).Unclosed ts) : (Phrase.expr e).Unclosed ts := by
  intro fuel hfuel
  obtain ⟨fuel, rfl⟩ := Nat.exists_eq_succ_of_ne_zero (by omega : fuel ≠ 0)
  rw [parseExpr, (h fuel (by omega)).2]

theorem unclosed_choice {c b : Expr} {cs bs : List Token} (hc : (Phrase.level 0 c).Parsed cs)
    (hb : (Phrase.expr b).Parsed bs) (h : (Phrase.expr e).Unclosed ts) (hts : ts ≠ []) :
    (Phrase.expr (.ternary c b e)).Unclosed (cs ++ .question :: (bs ++ .colon :: ts)) := by
  intro fuel hfuel
  obtain ⟨fuel, rfl⟩ := Nat.exists_eq_succ_of_ne_zero (by omega : fuel ≠ 0)
  have hcond := hc.level_ok (endsLevel_of_head (.inr rfl) 0)
    (fun t ht => by cases ht; rfl)
    (by omega : 12 * (cs ++ .question :: (bs ++ .colon :: ts)).length + (11 - 0) ≤ fuel)
  simp only [List.length_append, List.length_cons] at hfuel
  have hthen := hb fuel (.colon :: ts) (fun t ht => by cases ht; trivial)
    (by simp only [List.length_append, List.length_cons]; omega)
  have hfault : unclosedFault (cs ++ .question :: (bs ++ .colon :: ts)) = unclosedFault ts := by
    rw [unclosedFault_append _ (List.cons_ne_nil _ _), ← List.cons_append,
      unclosedFault_append _ (List.cons_ne_nil _ _), unclosedFault_cons _ hts]
  rw [parseExpr, hcond]
  dsimp only
  rw [hthen]
  dsimp only
  rw [h fuel (by omega), hfault]

theorem unclosed_tighter (hn : n < 6) (h : (Phrase.level (n + 1) e).Unclosed ts) :
    (Phrase.level n e).Unclosed ts := by
  intro fuel hfuel
  obtain ⟨fuel, rfl⟩ := Nat.exists_eq_succ_of_ne_zero (by omega : fuel ≠ 0)
  refine ⟨by omega, ?_⟩
  rw [parseLevel, levelCount, if_pos hn, (h fuel (by omega)).2]

theorem unclosed_operand (h : (Phrase.prefixed e).Unclosed ts) :
    (Phrase.level 6 e).Unclosed ts := by
  intro fuel hfuel
  obtain ⟨fuel, rfl⟩ := Nat.exists_eq_succ_of_ne_zero (by omega : fuel ≠ 0)
  refine ⟨Nat.le_refl 6, ?_⟩
  rw [parseLevel, levelCount, if_neg (lt_irrefl 6), h fuel (by omega)]

theorem unclosed_binary {op : BinaryOp} {lhs : Expr} {ls : List Token}
    (hl : (Phrase.level n lhs).Parsed ls) (hop : Operator n t op)
    (h : (Phrase.level (n + 1) e).Unclosed ts) (hts : ts ≠ []) :
    (Phrase.level n (.binary op lhs e)).Unclosed (ls ++ t :: ts) := by
  intro fuel hfuel
  obtain ⟨hn, left, hleft, heq⟩ := hl fuel (t :: ts) (hop.endsLevel _) hfuel
  obtain ⟨left, rfl⟩ := Nat.exists_eq_succ_of_ne_zero (by omega : left ≠ 0)
  rw [List.length_cons] at hleft
  refine ⟨hn, ?_⟩
  rw [heq, parseTail, operatorAt_eq_some.mpr hop]
  dsimp only
  rw [(h left (by omega)).2, unclosedFault_append _ (List.cons_ne_nil _ _),
    unclosedFault_cons _ hts]

theorem unclosed_signed {op : UnaryOp} (ht : t = .bang ∧ op = .not ∨ t = .minus ∧ op = .negate)
    (h : (Phrase.prefixed e).Unclosed ts) (hts : ts ≠ []) :
    (Phrase.prefixed (.unary op e)).Unclosed (t :: ts) := by
  intro fuel hfuel
  obtain ⟨fuel, rfl⟩ := Nat.exists_eq_succ_of_ne_zero (by omega : fuel ≠ 0)
  rw [List.length_cons] at hfuel
  rcases ht with ⟨rfl, rfl⟩ | ⟨rfl, rfl⟩ <;>
    rw [parseUnary, h fuel (by omega), unclosedFault_cons _ hts]

/-- The first token of an operand is none of the prefixes. -/
theorem unclosed_bare (h : (Phrase.primary e).Unclosed (t :: ts)) (ht : t.Opens) :
    (Phrase.prefixed e).Unclosed (t :: ts) := by
  intro fuel hfuel
  obtain ⟨fuel, rfl⟩ := Nat.exists_eq_succ_of_ne_zero (by omega : fuel ≠ 0)
  rw [parseUnary, h fuel (by omega)]
  · intro _ h
    cases h
    exact ht
  · intro _ h
    cases h
    exact ht

theorem parseExpr_end (h : Derives (.expr e) ts) (hfuel : 12 * ts.length + 12 ≤ fuel) :
    parseExpr fuel ts = .ok (e, []) := by
  have hparse := parsed_of_derives h fuel [] nofun (by rwa [List.append_nil])
  rwa [List.append_nil] at hparse

theorem unclosed_group (h : Derives (.expr e) ts) :
    (Phrase.primary e).Unclosed (.parenOpen :: ts) := by
  intro fuel hfuel
  obtain ⟨fuel, rfl⟩ := Nat.exists_eq_succ_of_ne_zero (by omega : fuel ≠ 0)
  have hpos : 0 < ts.length := by
    refine h.length_pos ?_
    intro steps hsteps
    cases hsteps
  rw [List.length_cons] at hfuel
  rw [parsePrimary, parseExpr_end h (by omega),
    unclosedFault_cons _ (List.ne_nil_of_length_pos hpos),
    unclosedFault_of_endsOtherwise h.endsOtherwise]
  rfl

/-- After arguments the closing parenthesis is asked for. -/
theorem parseArgs_end {es : List Expr} (h : Derives (.args es) ts)
    (hfuel : 12 * ts.length + 13 ≤ fuel) :
    parseArgs fuel ts = .error .unbalancedParentheses := by
  generalize hp : Phrase.args es = p at h
  induction h generalizing es fuel with
  | @lastArg e ts h _ =>
    obtain ⟨fuel, rfl⟩ := Nat.exists_eq_succ_of_ne_zero (by omega : fuel ≠ 0)
    rw [parseArgs, parseExpr_end h (by omega)]
    rfl
  | @nextArg e es ts us h _ _ ih =>
    obtain ⟨fuel, rfl⟩ := Nat.exists_eq_succ_of_ne_zero (by omega : fuel ≠ 0)
    have harg := parsed_of_derives h fuel (.comma :: us) (fun t ht => by cases ht; trivial)
      (by omega)
    simp only [List.length_append, List.length_cons] at hfuel
    rw [parseArgs, harg]
    dsimp only
    rw [ih (by omega) rfl]
  | _ => cases hp

theorem unclosed_applied {name : String} {args : List Expr}
    (hword : name ≠ "true" ∧ name ≠ "false" ∧ name ≠ "null") (h : Derives (.args args) ts) :
    (Phrase.primary e).Unclosed (.ident name :: .parenOpen :: ts) := by
  intro fuel hfuel
  obtain ⟨fuel, rfl⟩ := Nat.exists_eq_succ_of_ne_zero (by omega : fuel ≠ 0)
  simp only [List.length_cons] at hfuel
  have hbegins := begins_of_derives h
  have hne : ts ≠ [] := by
    obtain ⟨t, us, rfl, -⟩ := hbegins
    exact List.cons_ne_nil t us
  rw [unclosedFault_cons _ (List.cons_ne_nil _ _), unclosedFault_cons _ hne,
    unclosedFault_of_endsOtherwise h.endsOtherwise, parsePrimary_called hword hbegins.head?_ne,
    parseArgs_end h (by omega)]
  rfl

/-- After the name and the opening parenthesis an argument is asked for. -/
theorem unclosed_callNone {name : String}
    (hword : name ≠ "true" ∧ name ≠ "false" ∧ name ≠ "null") :
    (Phrase.primary e).Unclosed [.ident name, .parenOpen] := by
  intro fuel hfuel
  obtain ⟨fuel, rfl⟩ := Nat.exists_eq_add_of_le' (by simpa using hfuel : 27 ≤ fuel)
  have hopen : ([] : List Token).head? ≠ some .parenClose := (Option.some_ne_none _).symm
  have hargs : parseArgs (fuel + 26) [] = .error .invalid := rfl
  rw [parsePrimary_called hword hopen, hargs]
  rfl

theorem unclosed_lastArg (h : (Phrase.expr e).Unclosed ts) : (Phrase.args [e]).Unclosed ts := by
  intro fuel hfuel
  obtain ⟨fuel, rfl⟩ := Nat.exists_eq_succ_of_ne_zero (by omega : fuel ≠ 0)
  rw [parseArgs, h fuel (by omega)]

theorem unclosed_nextArg {es : List Expr} (hfirst : (Phrase.expr e).Parsed us)
    (h : (Phrase.args es).Unclosed ts) (hts : ts ≠ []) :
    (Phrase.args (e :: es)).Unclosed (us ++ .comma :: ts) := by
  intro fuel hfuel
  obtain ⟨fuel, rfl⟩ := Nat.exists_eq_succ_of_ne_zero (by omega : fuel ≠ 0)
  have harg := hfirst fuel (.comma :: ts) (fun t ht => by cases ht; trivial) (by omega)
  simp only [List.length_append, List.length_cons] at hfuel
  rw [parseArgs, harg]
  dsimp only
  rw [h fuel (by omega), unclosedFault_append _ (List.cons_ne_nil _ _), unclosedFault_cons _ hts]

/-! ## All phrases -/

/-- A closing parenthesis at the end is that of what follows another token. -/
theorem dropLast_of_getLast? (us : List Token)
    (hlast : (us ++ t :: ts).getLast? = some .parenClose) (ht : t ≠ .parenClose) :
    ts.getLast? = some .parenClose ∧ (us ++ t :: ts).dropLast = us ++ t :: ts.dropLast := by
  cases ts with
  | nil => exact absurd (by simpa using hlast) ht
  | cons u ts => exact ⟨by simpa using hlast, by simp⟩

theorem unclosed_of_derives (h : Derives p ts) (hlast : ts.getLast? = some .parenClose) :
    p.Unclosed ts.dropLast := by
  induction h with
  | choice hc hb h _ _ ih =>
    obtain ⟨hlast, hdrop⟩ := dropLast_of_getLast? _ hlast nofun
    rw [hdrop]
    obtain ⟨hlast, hdrop⟩ := dropLast_of_getLast? _ hlast nofun
    rw [hdrop]
    exact unclosed_choice (parsed_of_derives hc) (parsed_of_derives hb) (ih hlast)
      (h.dropLast_ne_nil hlast)
  | plain _ ih => exact unclosed_plain (ih hlast)
  | binary hl hop h _ ih =>
    obtain ⟨hlast, hdrop⟩ := dropLast_of_getLast? _ hlast hop.ne_paren.2
    rw [hdrop]
    exact unclosed_binary (parsed_of_derives hl) hop (ih hlast) (h.dropLast_ne_nil hlast)
  | tighter hn _ ih => exact unclosed_tighter hn (ih hlast)
  | operand _ ih => exact unclosed_operand (ih hlast)
  | @not e ts h ih =>
    obtain ⟨hlast, hdrop⟩ := dropLast_of_getLast? [] hlast nofun
    rw [show (Token.bang :: ts).dropLast = .bang :: ts.dropLast from hdrop]
    exact unclosed_signed (.inl ⟨rfl, rfl⟩) (ih hlast) (h.dropLast_ne_nil hlast)
  | @negate e ts h ih =>
    obtain ⟨hlast, hdrop⟩ := dropLast_of_getLast? [] hlast nofun
    rw [show (Token.minus :: ts).dropLast = .minus :: ts.dropLast from hdrop]
    exact unclosed_signed (.inr ⟨rfl, rfl⟩) (ih hlast) (h.dropLast_ne_nil hlast)
  | bare h ih =>
    have hne := h.dropLast_ne_nil hlast
    obtain ⟨t, us, rfl, ht⟩ := begins_of_derives h
    cases us with
    | nil => exact absurd rfl hne
    | cons u us => exact unclosed_bare (ih hlast) ht
  | @path e step steps ts us _ h _ _ =>
    have hends := h.steps_endsOtherwise
    obtain ⟨t, us, rfl, -⟩ := begins_of_derives h
    exact absurd hlast (hends.prepend (List.cons_ne_nil t us) ts)
  | noStep => cases hlast
  | property h _ => exact absurd hlast (Derives.property h).steps_endsOtherwise
  | index he h _ _ => exact absurd hlast (Derives.index he h).steps_endsOtherwise
  | @group e ts h _ =>
    rw [← List.cons_append, List.dropLast_concat]
    exact unclosed_group h
  | @span e ts _ _ => exact absurd hlast (endsOtherwise_concat (by nofun) (.spanOpen :: ts))
  | lookup source h _ =>
    rw [← List.cons_append, ← List.cons_append, List.dropLast_concat]
    refine unclosed_applied ?_ (.lastArg h)
    cases source <;> decide
  | callNone hname => exact unclosed_callNone ⟨hname.ne_true, hname.ne_false, hname.ne_null⟩
  | call hname h _ =>
    rw [← List.cons_append, ← List.cons_append, List.dropLast_concat]
    exact unclosed_applied ⟨hname.ne_true, hname.ne_false, hname.ne_null⟩ h
  | lastArg _ ih => exact unclosed_lastArg (ih hlast)
  | nextArg h hrest _ ih =>
    obtain ⟨hlast, hdrop⟩ := dropLast_of_getLast? _ hlast nofun
    rw [hdrop]
    exact unclosed_nextArg (parsed_of_derives h) (ih hlast) (hrest.dropLast_ne_nil hlast)
  | _ => cases hlast

theorem treeOf_unclosed (h : Derives (.expr e) (ts ++ [.parenClose])) :
    treeOf ts = .error (unclosedFault ts) := by
  have hne := h.dropLast_ne_nil List.getLast?_concat
  have hparse := unclosed_of_derives h List.getLast?_concat
  rw [List.dropLast_concat] at hne hparse
  cases ts with
  | nil => exact absurd rfl hne
  | cons t ts => simp only [treeOf, hparse (enoughFuel (t :: ts)) (Nat.le_refl _)]

/-! ## In a span -/

/-- The fault of the first span is that of all segments. -/
theorem segmentsFrom_malformed {whole pre source post : List Char} {fault : SyntaxFault}
    (hpre : ¬ ['$', '['] <:+: pre) (hcloses : Quoting.outside.Closes 0 source)
    (hparse : parseChars source = .error fault) :
    segmentsFrom whole (fuel + 1) (pre ++ '$' :: '[' :: (source ++ ']' :: post)) =
      .error (.malformed fault (String.ofList source)) := by
  rw [segmentsFrom, splitOpening_eq_some.mpr ⟨rfl, hpre⟩]
  dsimp only
  rw [splitClosing_eq_some.mpr ⟨rfl, hcloses⟩]
  dsimp only
  rw [hparse]

theorem parseTemplate_malformed {pre post source : String} {fault : SyntaxFault}
    (hpre : ¬ ['$', '['] <:+: pre.toList) (hcloses : Quoting.outside.Closes 0 source.toList)
    (hparse : parseChars source.toList = .error fault) :
    parseTemplate (pre ++ "$[" ++ source ++ "]" ++ post) = .error (.malformed fault source) := by
  have hchars : (pre ++ "$[" ++ source ++ "]" ++ post).toList =
      pre.toList ++ '$' :: '[' :: (source.toList ++ ']' :: post.toList) := by simp
  have hlength : (pre.toList ++ '$' :: '[' :: (source.toList ++ ']' :: post.toList)).length =
      (pre.toList ++ '[' :: (source.toList ++ ']' :: post.toList)).length + 1 := by simp; omega
  rw [parseTemplate, parseTemplateChars, hchars, hlength,
    segmentsFrom_malformed hpre hcloses hparse, String.ofList_toList]

theorem Balanced.of_concat (ht : t.weight = 0) (h : Balanced (ts ++ [t])) : Balanced ts := by
  refine ⟨fun before hbefore => h.nonneg before (hbefore.trans (List.prefix_append ts [t])), ?_⟩
  have hclosed := h.closed
  rwa [bracketDepth_append, bracketDepth_cons, bracketDepth_nil, ht, Int.add_zero,
    Int.add_zero] at hclosed

theorem message_unclosedFault (ts : List Token) (text : String) :
    (unclosedFault ts).message text =
      if ts.getLast? = some .parenOpen then "Invalid expression: " ++ Text.trim text
      else "Unbalanced parentheses in expression: " ++ text := by
  rw [unclosedFault]
  split <;> rfl

/-- Without the closing parenthesis at its end an expression is refused, by itself and as the first
span of a template, and the message is about the parentheses if something stands between them. With
nothing between them the expression is called invalid. -/
theorem unclosed_reported {text : String} {e : Expr} {ts : List Token}
    (hparse : parseChars text.toList = .ok e)
    (htokens : tokenize text.toList = .ok (ts ++ [.parenClose])) :
    ∃ before blanks : String, text = before ++ ")" ++ blanks ∧ Text.allBlank blanks = true ∧
      tokenize (before ++ blanks).toList = .ok ts ∧
      ∃ fault, parseChars (before ++ blanks).toList = .error fault ∧
        (∀ pre post : String, ¬ ['$', '['] <:+: pre.toList →
          parseTemplate (pre ++ "$[" ++ (before ++ blanks) ++ "]" ++ post) =
            .error (.malformed fault (before ++ blanks))) ∧
        fault.message (before ++ blanks) =
          if ts.getLast? = some .parenOpen then
            "Invalid expression: " ++ Text.trim (before ++ blanks)
          else "Unbalanced parentheses in expression: " ++ (before ++ blanks) := by
  have hderives : Derives (.expr e) (ts ++ [.parenClose]) := by
    rw [parseChars, htokens] at hparse
    exact ((treeOf_spec _).1 e).mp hparse
  obtain ⟨before, blanks, hsplit, hblanks, hbefore⟩ := (tokenize_eq_ok.mp htokens).before_paren
  have hcut : tokenize (before ++ blanks) = .ok ts := by
    have happend := hbefore.append (stops_blanks hblanks) (lexes_nil.mpr hblanks)
    rw [List.append_nil] at happend
    exact tokenize_eq_ok.mpr happend
  have hbalanced : Balanced ts := hderives.balanced.of_concat rfl
  have hfault : parseChars (before ++ blanks) = .error (unclosedFault ts) := by
    rw [parseChars, hcut]
    exact treeOf_unclosed hderives
  have hchars : (String.ofList before ++ String.ofList blanks).toList = before ++ blanks := by simp
  refine ⟨String.ofList before, String.ofList blanks, ?_, ?_, ?_, unclosedFault ts, ?_, ?_,
    message_unclosedFault ts _⟩
  · rw [← String.toList_inj, hsplit]
    simp
  · rw [Text.allBlank, String.toList_ofList, List.all_eq_true]
    exact hblanks
  · rw [hchars, hcut]
  · rw [hchars, hfault]
  · intro pre post hpre
    refine parseTemplate_malformed hpre ?_ ?_
    · rw [hchars]
      exact closes_of_balanced hcut hbalanced
    · rw [hchars, hfault]

/-- Deleting the parenthesis of a grouping in the last argument, and a blank after the call. -/
theorem unclosed_reported_argument :
    let text := "Max(1, (2)) "
    let ts : List Token :=
      [.ident "Max", .parenOpen, .integer 1, .comma, .parenOpen, .integer 2, .parenClose]
    (∃ e, parseChars text.toList = .ok e) ∧ tokenize text.toList = .ok (ts ++ [.parenClose]) ∧
      ∃ before blanks : String, text = before ++ ")" ++ blanks ∧ Text.allBlank blanks = true ∧
        ∃ fault, parseTemplate ("" ++ "$[" ++ (before ++ blanks) ++ "]" ++ "!") = .error fault ∧
          fault.message = "Unbalanced parentheses in expression: " ++ (before ++ blanks) := by
  intro text ts
  have htokens : tokenize text.toList = .ok (ts ++ [.parenClose]) := by decide +kernel
  have hparses : (parseChars text.toList).toOption.isSome = true := by decide +kernel
  cases hparse : parseChars text.toList with
  | error fault =>
    rw [hparse] at hparses
    cases hparses
  | ok e =>
    obtain ⟨before, blanks, hsplit, hblanks, -, fault, -, htemplate, hmessage⟩ :=
      unclosed_reported hparse htokens
    exact ⟨⟨e, rfl⟩, htokens, before, blanks, hsplit, hblanks, _,
      htemplate "" "!" (by decide), hmessage⟩

/-- Without the parenthesis after an empty list of arguments the parentheses are not mentioned. -/
theorem unclosed_without_arguments :
    let ts : List Token := [.ident "Sum", .parenOpen]
    (parseChars "Sum()".toList).toOption.isSome = true ∧
      tokenize "Sum()".toList = .ok (ts ++ [.parenClose]) ∧
      parseChars "Sum(".toList = .error .invalid ∧
      parseTemplate "$[Sum(]" = .error (.malformed .invalid "Sum(") ∧
      ¬ "Unbalanced parentheses".toList <:+:
        (Fault.malformed .invalid "Sum(").message.toList := by
  intro ts
  have hparse : parseChars "Sum(".toList = .error .invalid := by rfl
  refine ⟨by decide +kernel, by decide +kernel, hparse, ?_, by decide +kernel⟩
  have hspan : splitClosing 0 "Sum(]".toList = some ("Sum(".toList, []) := by decide
  have htext : "$[Sum(]" = "" ++ "$[" ++ "Sum(" ++ "]" ++ "" := by decide
  rw [htext]
  exact parseTemplate_malformed (by decide) (splitClosing_eq_some.mp hspan).2 hparse

end WorkflowEngine.Expression
