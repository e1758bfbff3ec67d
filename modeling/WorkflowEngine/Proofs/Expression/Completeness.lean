import Mathlib.Data.Set.Subsingleton
import WorkflowEngine.Proofs.Expression.Soundness

/-!
# Parsing is complete

Every phrase of the grammar is read by its function, in front of anything that cannot belong to it.
`Phrase.Parsed` says this for each kind of phrase, with the fuel that its function needs, and
`parsed_of_derives` is the induction on the derivation. Operators of one level are grouped by a
loop, so a phrase of a level is read up to the point where the loop looks at what follows.
-/

namespace WorkflowEngine.Expression

/-- No step of a path follows. -/
def EndsOperand (rest : List Token) : Prop :=
  ∀ t ∈ rest.head?, t ≠ .dot ∧ t ≠ .bracketOpen

/-- Neither a step nor an operator that binds tighter than that level follows. -/
def EndsLevel (n : Nat) (rest : List Token) : Prop :=
  EndsOperand rest ∧ ∀ t ∈ rest.head?, ∀ m, n < m → operatorAt m t = none

/-- A token that ends an expression inside another one. -/
def Token.Closes : Token → Prop
  | .parenClose => True
  | .bracketClose => True
  | .comma => True
  | .colon => True
  | _ => False

def EndsExpr (rest : List Token) : Prop := ∀ t ∈ rest.head?, t.Closes

theorem EndsLevel.succ {n : Nat} {rest : List Token} (h : EndsLevel n rest) :
    EndsLevel (n + 1) rest :=
  ⟨h.1, fun t ht m hm => h.2 t ht m (by omega)⟩

/-- After a condition, or before a closing token, no binary operator follows. -/
theorem operatorAt_eq_none {t : Token} (h : t.Closes ∨ t = .question) (n : Nat) :
    operatorAt n t = none := by
  cases hop : operatorAt n t with
  | none => rfl
  | some op =>
    rcases h with h | rfl
    · cases operatorAt_eq_some.mp hop <;> exact h.elim
    · cases operatorAt_eq_some.mp hop

theorem endsLevel_of_head {t : Token} {rest : List Token} (h : t.Closes ∨ t = .question) (n : Nat) :
    EndsLevel n (t :: rest) := by
  refine ⟨fun u hu => ?_, fun u hu m _ => ?_⟩
  · cases hu
    rcases h with h | rfl
    · exact ⟨fun ht => by rw [ht] at h; exact h, fun ht => by rw [ht] at h; exact h⟩
    · exact ⟨nofun, nofun⟩
  · cases hu
    exact operatorAt_eq_none h m

theorem EndsExpr.level {rest : List Token} (h : EndsExpr rest) (n : Nat) : EndsLevel n rest := by
  cases rest with
  | nil => exact ⟨nofun, nofun⟩
  | cons t rest => exact endsLevel_of_head (.inl (h t rfl)) n

/-- In front of an operator of its own level, a phrase of a level is over. -/
theorem Operator.endsLevel {n : Nat} {t : Token} {op : BinaryOp} (h : Operator n t op)
    (rest : List Token) : EndsLevel n (t :: rest) := by
  refine ⟨fun u hu => ?_, fun u hu m hm => ?_⟩
  · cases hu
    cases h <;> exact ⟨nofun, nofun⟩
  · cases hu
    cases hop : operatorAt m t with
    | none => rfl
    | some op' =>
      have hoperator := operatorAt_eq_some.mp hop
      cases h <;> cases hoperator <;> omega

/-- What the function for a phrase makes of its tokens. -/
def Phrase.Parsed : Phrase → List Token → Prop
  | .expr e, ts => ∀ fuel rest, EndsExpr rest → 12 * (ts ++ rest).length + 12 ≤ fuel →
      parseExpr fuel (ts ++ rest) = .ok (e, rest)
  | .level n e, ts => ∀ fuel rest, EndsLevel n rest →
      12 * (ts ++ rest).length + (11 - n) ≤ fuel →
      n ≤ 6 ∧ ∃ left, 12 * rest.length + 1 ≤ left ∧
        parseLevel fuel n (ts ++ rest) = parseTail left n e rest
  | .prefixed e, ts => ∀ fuel rest, EndsOperand rest → 12 * (ts ++ rest).length + 4 ≤ fuel →
      parseUnary fuel (ts ++ rest) = .ok (e, rest)
  | .primary e, ts => ∀ fuel rest, 12 * (ts ++ rest).length + 3 ≤ fuel →
      parsePrimary fuel (ts ++ rest) = .ok (e, rest)
  | .steps ss, ts => ∀ fuel rest, EndsOperand rest → 12 * (ts ++ rest).length + 1 ≤ fuel →
      parseSteps fuel (ts ++ rest) = .ok (ss, rest)
  | .args es, ts => ∀ fuel rest, 12 * (ts ++ .parenClose :: rest).length + 13 ≤ fuel →
      parseArgs fuel (ts ++ .parenClose :: rest) = .ok (es, rest)

variable {n left fuel : Nat} {e : Expr} {ts us rest : List Token}

/-! ## Operators -/

theorem parseTail_ends (hleft : 0 < left) (h : ∀ t ∈ rest.head?, operatorAt n t = none) :
    parseTail left n e rest = .ok (e, rest) := by
  obtain ⟨left, rfl⟩ := Nat.exists_eq_succ_of_ne_zero hleft.ne'
  cases rest with
  | nil => rfl
  | cons t rest => rw [parseTail, h t rfl]

/-- A phrase of a level is read as a whole when no operator of that level follows either. -/
theorem Phrase.Parsed.level_ok (h : (Phrase.level n e).Parsed ts) (hends : EndsLevel n rest)
    (hlast : ∀ t ∈ rest.head?, operatorAt n t = none)
    (hfuel : 12 * (ts ++ rest).length + (11 - n) ≤ fuel) :
    parseLevel fuel n (ts ++ rest) = .ok (e, rest) := by
  obtain ⟨-, left, hleft, heq⟩ := h fuel rest hends hfuel
  rw [heq, parseTail_ends (by omega) hlast]

theorem parsed_tighter (hn : n < 6) (h : (Phrase.level (n + 1) e).Parsed ts) :
    (Phrase.level n e).Parsed ts := by
  intro fuel rest hends hfuel
  obtain ⟨fuel, rfl⟩ := Nat.exists_eq_succ_of_ne_zero (by omega : fuel ≠ 0)
  have hparse := h.level_ok hends.succ (fun t ht => hends.2 t ht _ n.lt_succ_self)
    (by omega : 12 * (ts ++ rest).length + (11 - (n + 1)) ≤ fuel)
  refine ⟨by omega, fuel, ?_, ?_⟩
  · rw [List.length_append] at hfuel
    omega
  · rw [parseLevel, levelCount, if_pos hn, hparse]

theorem parsed_operand (h : (Phrase.prefixed e).Parsed ts) : (Phrase.level 6 e).Parsed ts := by
  intro fuel rest hends hfuel
  obtain ⟨fuel, rfl⟩ := Nat.exists_eq_succ_of_ne_zero (by omega : fuel ≠ 0)
  refine ⟨Nat.le_refl 6, 12 * rest.length + 1, Nat.le_refl _, ?_⟩
  rw [parseLevel, levelCount, if_neg (lt_irrefl 6), h fuel rest hends.1 (by omega)]
  refine (parseTail_ends (Nat.succ_pos _) fun t ht => ?_).symm
  cases hop : operatorAt 6 t with
  | none => rfl
  | some op => cases operatorAt_eq_some.mp hop

theorem parsed_binary {t : Token} {op : BinaryOp} {lhs rhs : Expr} {ls rs : List Token}
    (hl : (Phrase.level n lhs).Parsed ls) (hop : Operator n t op)
    (hr : (Phrase.level (n + 1) rhs).Parsed rs) :
    (Phrase.level n (.binary op lhs rhs)).Parsed (ls ++ t :: rs) := by
  intro fuel rest hends hfuel
  rw [List.append_assoc, List.cons_append] at hfuel ⊢
  obtain ⟨hn, left, hleft, heq⟩ := hl fuel (t :: (rs ++ rest)) (hop.endsLevel _) hfuel
  obtain ⟨left, rfl⟩ := Nat.exists_eq_succ_of_ne_zero (by omega : left ≠ 0)
  rw [List.length_cons] at hleft
  have hparse := hr.level_ok hends.succ (fun t ht => hends.2 t ht _ n.lt_succ_self)
    (by omega : 12 * (rs ++ rest).length + (11 - (n + 1)) ≤ left)
  refine ⟨hn, left, ?_, ?_⟩
  · rw [List.length_append] at hleft
    omega
  · rw [heq, parseTail, operatorAt_eq_some.mpr hop]
    dsimp only
    rw [hparse]

/-! ## Choices -/

theorem parsed_plain (h : (Phrase.level 0 e).Parsed ts) : (Phrase.expr e).Parsed ts := by
  intro fuel rest hends hfuel
  obtain ⟨fuel, rfl⟩ := Nat.exists_eq_succ_of_ne_zero (by omega : fuel ≠ 0)
  have hparse := h.level_ok (hends.level 0) (fun t ht => operatorAt_eq_none (.inl (hends t ht)) 0)
    (by omega : 12 * (ts ++ rest).length + (11 - 0) ≤ fuel)
  rw [parseExpr, hparse]
  cases rest with
  | nil => rfl
  | cons t rest =>
    have hcloses := hends t rfl
    cases t <;> first | rfl | exact hcloses.elim

theorem parsed_choice {c t e : Expr} {cs ts es : List Token} (hc : (Phrase.level 0 c).Parsed cs)
    (ht : (Phrase.expr t).Parsed ts) (he : (Phrase.expr e).Parsed es) :
    (Phrase.expr (.ternary c t e)).Parsed (cs ++ .question :: (ts ++ .colon :: es)) := by
  intro fuel rest hends hfuel
  obtain ⟨fuel, rfl⟩ := Nat.exists_eq_succ_of_ne_zero (by omega : fuel ≠ 0)
  simp only [List.append_assoc, List.cons_append] at hfuel ⊢
  have hcond := hc.level_ok (endsLevel_of_head (.inr rfl) 0)
    (fun t ht => by cases ht; rfl)
    (by omega : 12 * (cs ++ .question :: (ts ++ .colon :: (es ++ rest))).length + (11 - 0) ≤ fuel)
  simp only [List.length_append, List.length_cons] at hfuel
  have hthen := ht fuel (.colon :: (es ++ rest)) (fun t ht => by cases ht; trivial)
    (by simp only [List.length_append, List.length_cons]; omega)
  have helse := he fuel rest hends (by rw [List.length_append]; omega)
  rw [parseExpr, hcond]
  dsimp only
  rw [hthen]
  dsimp only
  rw [helse]

/-! ## Operands -/

/-- An operand without prefixes, with as many steps as follow. -/
theorem parseUnary_primary {path : List Step} (hprimary : (Phrase.primary e).Parsed ts)
    (hbegins : (Phrase.primary e).Begins ts) (hsteps : (Phrase.steps path).Parsed us)
    (hends : EndsOperand rest) (hfuel : 12 * (ts ++ (us ++ rest)).length + 4 ≤ fuel + 1) :
    parseUnary (fuel + 1) (ts ++ (us ++ rest)) =
      .ok (if path.isEmpty then e else .path e path, rest) := by
  have hread := hprimary fuel (us ++ rest) (by omega)
  have hrest := hsteps fuel rest hends (by rw [List.length_append] at hfuel; omega)
  obtain ⟨t, ts, rfl, ht⟩ := hbegins
  rw [List.cons_append] at hread ⊢
  rw [parseUnary, hread]
  · dsimp only
    rw [hrest]
    cases path <;> rfl
  · intro _ h
    cases h
    exact ht
  · intro _ h
    cases h
    exact ht

theorem parsed_not (h : (Phrase.prefixed e).Parsed ts) :
    (Phrase.prefixed (.unary .not e)).Parsed (.bang :: ts) := by
  intro fuel rest hends hfuel
  obtain ⟨fuel, rfl⟩ := Nat.exists_eq_succ_of_ne_zero (by omega : fuel ≠ 0)
  rw [List.cons_append, List.length_cons] at hfuel
  rw [List.cons_append, parseUnary, h fuel rest hends (by omega)]

theorem parsed_negate (h : (Phrase.prefixed e).Parsed ts) :
    (Phrase.prefixed (.unary .negate e)).Parsed (.minus :: ts) := by
  intro fuel rest hends hfuel
  obtain ⟨fuel, rfl⟩ := Nat.exists_eq_succ_of_ne_zero (by omega : fuel ≠ 0)
  rw [List.cons_append, List.length_cons] at hfuel
  rw [List.cons_append, parseUnary, h fuel rest hends (by omega)]

theorem parsed_noStep : (Phrase.steps []).Parsed [] := by
  intro fuel rest hends hfuel
  obtain ⟨fuel, rfl⟩ := Nat.exists_eq_succ_of_ne_zero (by omega : fuel ≠ 0)
  rw [List.nil_append, parseSteps]
  · intro _ h
    subst h
    exact (hends _ rfl).1 rfl
  · intro _ h
    subst h
    exact (hends _ rfl).2 rfl

theorem parsed_bare (h : (Phrase.primary e).Parsed ts) (hbegins : (Phrase.primary e).Begins ts) :
    (Phrase.prefixed e).Parsed ts := by
  intro fuel rest hends hfuel
  obtain ⟨fuel, rfl⟩ := Nat.exists_eq_succ_of_ne_zero (by omega : fuel ≠ 0)
  exact parseUnary_primary h hbegins parsed_noStep hends hfuel

theorem parsed_path {step : Step} {path : List Step} (h : (Phrase.primary e).Parsed ts)
    (hbegins : (Phrase.primary e).Begins ts) (hsteps : (Phrase.steps (step :: path)).Parsed us) :
    (Phrase.prefixed (.path e (step :: path))).Parsed (ts ++ us) := by
  intro fuel rest hends hfuel
  obtain ⟨fuel, rfl⟩ := Nat.exists_eq_succ_of_ne_zero (by omega : fuel ≠ 0)
  rw [List.append_assoc] at hfuel ⊢
  exact parseUnary_primary h hbegins hsteps hends hfuel

theorem parsed_property {name : String} {path : List Step} (h : (Phrase.steps path).Parsed ts) :
    (Phrase.steps (.property name :: path)).Parsed (.dot :: .ident name :: ts) := by
  intro fuel rest hends hfuel
  obtain ⟨fuel, rfl⟩ := Nat.exists_eq_succ_of_ne_zero (by omega : fuel ≠ 0)
  simp only [List.cons_append, List.length_cons] at hfuel ⊢
  rw [parseSteps, h fuel rest hends (by omega)]

theorem parsed_index {path : List Step} (h : (Phrase.expr e).Parsed ts)
    (hsteps : (Phrase.steps path).Parsed us) :
    (Phrase.steps (.index e :: path)).Parsed (.bracketOpen :: (ts ++ .bracketClose :: us)) := by
  intro fuel rest hends hfuel
  obtain ⟨fuel, rfl⟩ := Nat.exists_eq_succ_of_ne_zero (by omega : fuel ≠ 0)
  simp only [List.cons_append, List.append_assoc, List.length_cons] at hfuel ⊢
  have hindex := h fuel (.bracketClose :: (us ++ rest)) (fun t ht => by cases ht; trivial)
    (by omega)
  rw [List.length_append, List.length_cons] at hfuel
  rw [parseSteps, hindex]
  dsimp only [closeBracket]
  rw [hsteps fuel rest hends (by omega)]

/-! ## Primaries -/

theorem parsed_group (h : (Phrase.expr e).Parsed ts) :
    (Phrase.primary e).Parsed (.parenOpen :: (ts ++ [.parenClose])) := by
  intro fuel rest hfuel
  obtain ⟨fuel, rfl⟩ := Nat.exists_eq_succ_of_ne_zero (by omega : fuel ≠ 0)
  simp only [List.cons_append, List.append_assoc, List.nil_append, List.length_cons] at hfuel ⊢
  rw [parsePrimary, h fuel (.parenClose :: rest) (fun t ht => by cases ht; trivial) (by omega)]
  rfl

theorem parsed_span (h : (Phrase.expr e).Parsed ts) :
    (Phrase.primary e).Parsed (.spanOpen :: (ts ++ [.bracketClose])) := by
  intro fuel rest hfuel
  obtain ⟨fuel, rfl⟩ := Nat.exists_eq_succ_of_ne_zero (by omega : fuel ≠ 0)
  simp only [List.cons_append, List.append_assoc, List.nil_append, List.length_cons] at hfuel ⊢
  rw [parsePrimary, h fuel (.bracketClose :: rest) (fun t ht => by cases ht; trivial) (by omega)]
  rfl

theorem Phrase.Begins.head?_ne {es : List Expr} (h : (Phrase.args es).Begins ts) :
    ts.head? ≠ some .parenClose := by
  obtain ⟨t, us, rfl, ht⟩ := h
  rintro ⟨⟩
  rcases ht with ht | ht | ht
  · exact ht
  · cases ht
  · cases ht

/-- After a name and an opening parenthesis that is not closed at once, arguments are read. -/
theorem parsePrimary_called {fuel : Nat} {name : String}
    (hword : name ≠ "true" ∧ name ≠ "false" ∧ name ≠ "null")
    (hopen : ts.head? ≠ some .parenClose) :
    parsePrimary (fuel + 1) (.ident name :: .parenOpen :: ts) =
      (parseArgs fuel ts).bind fun r => (applied name r.1).map fun e => (e, r.2) := by
  rw [parsePrimary.eq_def]
  dsimp only
  rw [if_neg hword.1, if_neg hword.2.1, if_neg hword.2.2]
  split
  · rename_i heq
    cases heq
    exact absurd rfl hopen
  · rename_i heq
    cases heq
    cases parseArgs fuel ts with
    | error fault => rfl
    | ok r =>
      dsimp only [Except.bind]
      cases applied name r.1 <;> rfl
  · rename_i hnot
    exact absurd rfl (hnot _)

/-- A name with arguments. -/
theorem parsePrimary_applied {name : String} {args : List Expr}
    (hword : name ≠ "true" ∧ name ≠ "false" ∧ name ≠ "null")
    (happlied : applied name args = .ok e) (h : (Phrase.args args).Parsed ts)
    (hbegins : (Phrase.args args).Begins ts) :
    (Phrase.primary e).Parsed (.ident name :: .parenOpen :: (ts ++ [.parenClose])) := by
  intro fuel rest hfuel
  obtain ⟨fuel, rfl⟩ := Nat.exists_eq_succ_of_ne_zero (by omega : fuel ≠ 0)
  simp only [List.cons_append, List.append_assoc, List.nil_append, List.length_cons] at hfuel ⊢
  have hhead : (ts ++ .parenClose :: rest).head? ≠ some .parenClose := by
    have hne := hbegins.head?_ne
    obtain ⟨t, us, rfl, -⟩ := hbegins
    exact hne
  rw [parsePrimary_called hword hhead, h fuel rest (by omega)]
  dsimp only [Except.bind]
  rw [happlied]
  rfl

theorem applied_call {name : String} (hname : IsFunctionName name) (args : List Expr) :
    applied name args = .ok (.call name args) := by
  cases hsource : Source.ofName? name with
  | none => simp only [applied, hsource]
  | some source => exact absurd (ofName?_eq_some.mp hsource) (hname.ne_source source)

theorem parsed_call {name : String} {args : List Expr} (hname : IsFunctionName name)
    (h : (Phrase.args args).Parsed ts) (hbegins : (Phrase.args args).Begins ts) :
    (Phrase.primary (.call name args)).Parsed
      (.ident name :: .parenOpen :: (ts ++ [.parenClose])) :=
  parsePrimary_applied ⟨hname.ne_true, hname.ne_false, hname.ne_null⟩ (applied_call hname args) h
    hbegins

theorem parsed_callNone {name : String} (hname : IsFunctionName name) :
    (Phrase.primary (.call name [])).Parsed [.ident name, .parenOpen, .parenClose] := by
  intro fuel rest hfuel
  obtain ⟨fuel, rfl⟩ := Nat.exists_eq_succ_of_ne_zero (by omega : fuel ≠ 0)
  simp only [List.cons_append, List.nil_append]
  rw [parsePrimary.eq_def]
  dsimp only
  rw [if_neg hname.ne_true, if_neg hname.ne_false, if_neg hname.ne_null, applied_call hname]

theorem parsed_lastArg (h : (Phrase.expr e).Parsed ts) : (Phrase.args [e]).Parsed ts := by
  intro fuel rest hfuel
  obtain ⟨fuel, rfl⟩ := Nat.exists_eq_succ_of_ne_zero (by omega : fuel ≠ 0)
  rw [parseArgs, h fuel (.parenClose :: rest) (fun t ht => by cases ht; trivial) (by omega)]
  rfl

theorem parsed_nextArg {es : List Expr} (h : (Phrase.expr e).Parsed ts)
    (hrest : (Phrase.args es).Parsed us) :
    (Phrase.args (e :: es)).Parsed (ts ++ .comma :: us) := by
  intro fuel rest hfuel
  obtain ⟨fuel, rfl⟩ := Nat.exists_eq_succ_of_ne_zero (by omega : fuel ≠ 0)
  simp only [List.append_assoc, List.cons_append] at hfuel ⊢
  have harg := h fuel (.comma :: (us ++ .parenClose :: rest)) (fun t ht => by cases ht; trivial)
    (by omega)
  rw [List.length_append, List.length_cons] at hfuel
  rw [parseArgs, harg]
  dsimp only
  rw [hrest fuel rest (by omega)]

/-- A single argument of the name of a source. -/
theorem parsed_lookup (source : Source) (h : (Phrase.expr e).Parsed ts)
    (hbegins : (Phrase.expr e).Begins ts) :
    (Phrase.primary (.lookup source e)).Parsed
      (.ident source.name :: .parenOpen :: (ts ++ [.parenClose])) := by
  have happlied : applied source.name [e] = .ok (.lookup source e) := by
    simp only [applied, ofName?_eq_some.mpr rfl]
  refine parsePrimary_applied ?_ happlied (parsed_lastArg h) hbegins
  cases source <;> decide

theorem parsed_literal {t : Token} (h : ∀ fuel rest, parsePrimary (fuel + 1) (t :: rest) =
    .ok (e, rest)) : (Phrase.primary e).Parsed [t] := by
  intro fuel rest hfuel
  obtain ⟨fuel, rfl⟩ := Nat.exists_eq_succ_of_ne_zero (by omega : fuel ≠ 0)
  exact h fuel rest

/-! ## All phrases -/

theorem parsed_of_derives {p : Phrase} {ts : List Token} (h : Derives p ts) : p.Parsed ts := by
  induction h with
  | choice _ _ _ ihc iht ihe => exact parsed_choice ihc iht ihe
  | plain _ ih => exact parsed_plain ih
  | binary _ hop _ ihl ihr => exact parsed_binary ihl hop ihr
  | tighter hn _ ih => exact parsed_tighter hn ih
  | operand _ ih => exact parsed_operand ih
  | not _ ih => exact parsed_not ih
  | negate _ ih => exact parsed_negate ih
  | bare h ih => exact parsed_bare ih (begins_of_derives h)
  | path h _ ih ihsteps => exact parsed_path ih (begins_of_derives h) ihsteps
  | noStep => exact parsed_noStep
  | property _ ih => exact parsed_property ih
  | index _ _ ih ihsteps => exact parsed_index ih ihsteps
  | group _ ih => exact parsed_group ih
  | span _ ih => exact parsed_span ih
  | lookup source h ih => exact parsed_lookup source ih (begins_of_derives h)
  | callNone hname => exact parsed_callNone hname
  | call hname h ih => exact parsed_call hname ih (begins_of_derives h)
  | lastArg _ ih => exact parsed_lastArg ih
  | nextArg _ _ ih ihrest => exact parsed_nextArg ih ihrest
  | _ => exact parsed_literal fun _ _ => rfl

theorem treeOf_of_derives (h : Derives (.expr e) ts) : treeOf ts = .ok e := by
  have hparse := parsed_of_derives h (enoughFuel ts) [] nofun
    (by rw [List.append_nil]; exact Nat.le_refl _)
  rw [List.append_nil] at hparse
  cases ts with
  | nil => exact absurd (h.length_pos nofun) (lt_irrefl 0)
  | cons t ts => simp only [treeOf, hparse]

/-- What stands after an expression is never passed over. -/
theorem treeOf_leftover (h : parseExpr (enoughFuel ts) ts = .ok (e, rest)) (hrest : rest ≠ []) :
    ∃ fault, treeOf ts = .error fault := by
  unfold treeOf
  split
  · exact ⟨_, rfl⟩
  · rw [h]
    split
    · exact ⟨_, rfl⟩
    · rename_i heq
      cases heq
      exact absurd rfl hrest
    all_goals exact ⟨_, rfl⟩

/-- A list of tokens has a tree exactly if the grammar derives the list as a whole, and then it is
the only tree that the grammar gives it. Every list is either parsed or has a fault, with the fuel
that there is; tokens that are left over after an expression are always a fault. -/
theorem treeOf_spec (ts : List Token) :
    (∀ e, treeOf ts = .ok e ↔ Derives (.expr e) ts) ∧
    {e | Derives (.expr e) ts}.Subsingleton ∧
    treeOf ts ≠ .error .exhausted ∧
    ∀ e rest, parseExpr (enoughFuel ts) ts = .ok (e, rest) → rest ≠ [] →
      ∃ fault, treeOf ts = .error fault := by
  have hiff : ∀ e, treeOf ts = .ok e ↔ Derives (.expr e) ts := by
    intro e
    refine ⟨fun h => ?_, treeOf_of_derives⟩
    obtain ⟨fault, hfault, -⟩ | ⟨e', he, hderives⟩ := treeOf_reads ts
    · rw [hfault] at h
      cases h
    · rw [he] at h
      cases h
      exact hderives
  refine ⟨hiff, fun e he e' he' => ?_, fun h => ?_, fun e rest => treeOf_leftover⟩
  · have hsame := ((hiff e).mpr he).symm.trans ((hiff e').mpr he')
    cases hsame
    rfl
  · obtain ⟨fault, hfault, hne⟩ | ⟨e, he, -⟩ := treeOf_reads ts
    · rw [hfault] at h
      cases h
      exact hne rfl
    · rw [he] at h
      cases h

end WorkflowEngine.Expression
