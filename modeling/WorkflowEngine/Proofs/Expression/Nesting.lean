import WorkflowEngine.Proofs.Expression.Calls
import WorkflowEngine.Proofs.Expression.Lexemes

/-!
# Brackets inside a span

Every phrase closes the brackets that it opens (`Derives.bracketDepth_eq_zero`), so at every call no
more brackets have been closed than opened, and a bracket that is asked for is open (`Makes.step`).
The tokens of a span are balanced; hence a closing bracket is never in excess there and never
missing at the end of the tokens (`spans_nested`). The only fault of brackets in a span is a
parenthesis in place of a bracket.
-/

namespace WorkflowEngine.Expression

/-! ## What is read is balanced -/

theorem Operator.weight {n : Nat} {t : Token} {op : BinaryOp} (h : Operator n t op) :
    t.weight = 0 := by
  cases h <;> rfl

theorem Operator.level_lt {n : Nat} {t : Token} {op : BinaryOp} (h : Operator n t op) : n < 6 := by
  cases h <;> decide

theorem balanced_nil : Balanced [] :=
  ⟨fun before hbefore => by rw [List.prefix_nil.mp hbefore]; exact Int.le_refl 0, rfl⟩

theorem Balanced.append {ts us : List Token} (hts : Balanced ts) (hus : Balanced us) :
    Balanced (ts ++ us) := by
  refine ⟨?_, by rw [bracketDepth_append, hts.closed, hus.closed]; rfl⟩
  rintro before ⟨rest, heq⟩
  rcases List.append_eq_append_iff.mp heq with ⟨middle, rfl, -⟩ | ⟨after, rfl, rfl⟩
  · exact hts.nonneg before ⟨middle, rfl⟩
  · rw [bracketDepth_append, hts.closed, Int.zero_add]
    exact hus.nonneg after ⟨rest, rfl⟩

theorem balanced_singleton {t : Token} (ht : t.weight = 0) : Balanced [t] := by
  refine ⟨?_, by simpa using ht⟩
  intro before hbefore
  rcases List.prefix_cons_iff.mp hbefore with rfl | ⟨before, rfl, htail⟩
  · exact Int.le_refl 0
  · rw [List.prefix_nil.mp htail, bracketDepth_cons, ht]
    exact Int.le_refl 0

theorem Balanced.cons {t : Token} {ts : List Token} (ht : t.weight = 0) (hts : Balanced ts) :
    Balanced (t :: ts) :=
  (balanced_singleton ht).append hts

/-- A bracket is opened before the tokens and closed after them. -/
theorem Balanced.enclosed {t : Token} {ts : List Token} (ht : t.weight = 1) (hts : Balanced ts) :
    Balanced (t :: (ts ++ [.bracketClose])) := by
  have hclose : Token.bracketClose.weight = -1 := rfl
  refine ⟨?_, by simp [ht, hts.closed, hclose]⟩
  intro before hbefore
  rcases List.prefix_cons_iff.mp hbefore with rfl | ⟨before, rfl, rest, heq⟩
  · exact Int.le_refl 0
  · rcases List.append_eq_append_iff.mp heq with ⟨middle, rfl, -⟩ | ⟨after, rfl, hlast⟩
    · have hnonneg := hts.nonneg before ⟨middle, rfl⟩
      rw [bracketDepth_cons]
      omega
    · rcases List.prefix_cons_iff.mp ⟨rest, hlast.symm⟩ with rfl | ⟨after, rfl, hnil⟩
      · simp [ht, hts.closed]
      · rw [List.prefix_nil.mp hnil]
        simp [ht, hts.closed, hclose]

/-- In every phrase the brackets are balanced. -/
theorem Derives.balanced {p : Phrase} {ts : List Token} (h : Derives p ts) : Balanced ts := by
  induction h with
  | plain _ ih => exact ih
  | tighter _ _ ih => exact ih
  | operand _ ih => exact ih
  | bare _ ih => exact ih
  | lastArg _ ih => exact ih
  | noStep => exact balanced_nil
  | choice _ _ _ ihc iht ihe => exact ihc.append (.cons rfl (iht.append (.cons rfl ihe)))
  | binary _ hop _ ihl ihr => exact ihl.append (.cons hop.weight ihr)
  | path _ _ ihe ihs => exact ihe.append ihs
  | @index e steps ts us _ _ ihe ihs =>
    have heq : Token.bracketOpen :: (ts ++ .bracketClose :: us) =
        .bracketOpen :: (ts ++ [.bracketClose]) ++ us := by simp
    rw [heq]
    exact (ihe.enclosed rfl).append ihs
  | nextArg _ _ ihe ihes => exact ihe.append (.cons rfl ihes)
  | not _ ih => exact .cons rfl ih
  | negate _ ih => exact .cons rfl ih
  | property _ ih => exact .cons rfl (.cons rfl ih)
  | group _ ih => exact .cons rfl (ih.append (balanced_singleton rfl))
  | span _ ih => exact ih.enclosed rfl
  | lookup _ _ ih => exact .cons rfl (.cons rfl (ih.append (balanced_singleton rfl)))
  | callNone _ => exact .cons rfl (.cons rfl (balanced_singleton rfl))
  | call _ _ ih => exact .cons rfl (.cons rfl (ih.append (balanced_singleton rfl)))
  | _ => exact balanced_singleton rfl

theorem Derives.bracketDepth_eq_zero {p : Phrase} {ts : List Token} (h : Derives p ts) :
    bracketDepth ts = 0 := h.balanced.closed

/-- What follows a phrase is not longer than the tokens that begin with it, and has their
brackets. -/
theorem Reads.left {α : Type} {phrase : α → Phrase} {ts rest : List Token} {x : Parsed α} {a : α}
    (h : Reads ts (fun a => Derives (phrase a)) x) (hx : x = .ok (a, rest)) :
    rest.length ≤ ts.length ∧ bracketDepth rest = bracketDepth ts := by
  subst hx
  obtain ⟨used, rfl, hused⟩ := h
  simp [hused.bracketDepth_eq_zero]

theorem closeBracket_eq_ok {ts rest : List Token} :
    closeBracket ts = .ok rest ↔ ts = .bracketClose :: rest := by
  constructor
  · intro h
    obtain ⟨fault, hfault, -⟩ | ⟨rest', rfl, hrest⟩ := closeBracket_cases ts
    · rw [hfault] at h
      cases h
    · cases h
      rfl
  · rintro rfl
    rfl

/-! ## What is open at a call -/

/-- The tokens that a call is left with. -/
def Call.left : Call → List Token
  | .expr _ ts => ts
  | .level _ _ ts => ts
  | .tail _ _ _ ts => ts
  | .prefixed _ ts => ts
  | .steps _ ts => ts
  | .primary _ ts => ts
  | .args _ ts => ts
  | .closeBracket ts => ts

/-- What the tokens that are left open, less what they close and less the bracket that is asked
for. -/
def Call.surplus : Call → Int
  | .closeBracket ts => bracketDepth ts + 1
  | c => bracketDepth c.left

/-- The call has the fuel with which it reads what is there (`ReadsAt`). -/
def Call.Fueled : Call → Prop
  | .expr fuel ts => 12 * ts.length + 12 ≤ fuel
  | .level fuel n ts => n ≤ 6 ∧ 12 * ts.length + (11 - n) ≤ fuel
  | .tail fuel n lhs ts => (∃ before, Derives (.level n lhs) before) ∧ 12 * ts.length + 1 ≤ fuel
  | .prefixed fuel ts => 12 * ts.length + 4 ≤ fuel
  | .steps fuel ts => 12 * ts.length + 1 ≤ fuel
  | .primary fuel ts => 12 * ts.length + 3 ≤ fuel
  | .args fuel ts => 12 * ts.length + 13 ≤ fuel
  | .closeBracket _ => True

/-- A call that has its fuel gives each call that it makes the fuel for that one. Before it makes a
call, no more brackets are closed than opened; a bracket that is asked for has been opened. -/
theorem Makes.step {c d : Call} (h : Makes c d) (hfuel : c.Fueled) :
    d.Fueled ∧ d.surplus ≤ c.surplus := by
  cases h with
  | condition | target | arg =>
    simp only [Call.Fueled, Call.surplus, Call.left] at hfuel ⊢
    omega
  | operand hn | tightest hn =>
    simp only [Call.Fueled, Call.surplus, Call.left, levelCount] at hfuel hn ⊢
    omega
  | not | negate | afterProperty | index | group | span | applied =>
    simp only [Call.Fueled, Call.surplus, Call.left, bracketDepth_cons, Token.weight,
      List.length_cons] at hfuel ⊢
    omega
  | @thenBranch fuel c ts us hc =>
    simp only [Call.Fueled] at hfuel
    have hcond := ((readsAt fuel).level 0 ts (by omega) (by omega)).left hc
    simp only [Call.Fueled, Call.surplus, Call.left, bracketDepth_cons, Token.weight,
      List.length_cons] at hcond ⊢
    omega
  | @elseBranch fuel c t ts us vs hc ht =>
    simp only [Call.Fueled] at hfuel
    have hcond := ((readsAt fuel).level 0 ts (by omega) (by omega)).left hc
    simp only [bracketDepth_cons, Token.weight, List.length_cons] at hcond
    have hthen := ((readsAt fuel).expr us (by omega)).left ht
    simp only [Call.Fueled, Call.surplus, Call.left, bracketDepth_cons, Token.weight,
      List.length_cons] at hthen ⊢
    omega
  | @operators fuel n lhs ts us hn hlhs =>
    simp only [Call.Fueled, levelCount] at hfuel hn
    have hreads := (readsAt fuel).level (n + 1) ts (by omega) (by omega)
    have hleft := hreads.left hlhs
    rw [hlhs] at hreads
    obtain ⟨used, -, hused⟩ := hreads
    simp only [Call.Fueled, Call.surplus, Call.left]
    exact ⟨⟨⟨used, .tighter hn hused⟩, by omega⟩, by omega⟩
  | @nextOperand fuel n op lhs t ts hop =>
    have hoperator := operatorAt_eq_some.mp hop
    have hweight := hoperator.weight
    have hlevel := hoperator.level_lt
    simp only [Call.Fueled, Call.surplus, Call.left, bracketDepth_cons, List.length_cons]
      at hfuel ⊢
    omega
  | @nextOperators fuel n op lhs rhs t ts us hop hrhs =>
    have hoperator := operatorAt_eq_some.mp hop
    have hweight := hoperator.weight
    have hlevel := hoperator.level_lt
    simp only [Call.Fueled, List.length_cons] at hfuel
    obtain ⟨⟨before, hbefore⟩, hfuel⟩ := hfuel
    have hreads := (readsAt fuel).level (n + 1) ts (by omega) (by omega)
    have hleft := hreads.left hrhs
    rw [hrhs] at hreads
    obtain ⟨used, -, hused⟩ := hreads
    simp only [Call.Fueled, Call.surplus, Call.left, bracketDepth_cons]
    exact ⟨⟨⟨_, .binary hbefore hoperator hused⟩, by omega⟩, by omega⟩
  | @path fuel e ts us _ _ he =>
    simp only [Call.Fueled] at hfuel
    have htarget := ((readsAt fuel).primary ts (by omega)).left he
    simp only [Call.Fueled, Call.surplus, Call.left]
    omega
  | @indexEnd fuel e ts us he | @spanEnd fuel e ts us he =>
    simp only [Call.Fueled, List.length_cons] at hfuel
    have hinner := ((readsAt fuel).expr ts (by omega)).left he
    simp only [Call.Fueled, Call.surplus, Call.left, bracketDepth_cons, Token.weight, true_and]
    omega
  | @afterIndex fuel e ts us vs he hclose =>
    simp only [Call.Fueled, List.length_cons] at hfuel
    have hindex := ((readsAt fuel).expr ts (by omega)).left he
    rw [closeBracket_eq_ok.mp hclose] at hindex
    simp only [Call.Fueled, Call.surplus, Call.left, bracketDepth_cons, Token.weight,
      List.length_cons] at hindex ⊢
    omega
  | @nextArg fuel e ts us he =>
    simp only [Call.Fueled] at hfuel
    have harg := ((readsAt fuel).expr ts (by omega)).left he
    simp only [Call.Fueled, Call.surplus, Call.left, bracketDepth_cons, Token.weight,
      List.length_cons] at harg ⊢
    omega

theorem Comes.surplus_le {c : Call} {rest : List Token} (h : Comes c rest) (hfuel : c.Fueled) :
    bracketDepth rest + 1 ≤ c.surplus := by
  have hall : ∀ d, Relation.ReflTransGen Makes c d → d.Fueled ∧ d.surplus ≤ c.surplus := by
    intro d hd
    induction hd with
    | refl => exact ⟨hfuel, Int.le_refl _⟩
    | tail _ hmakes ih =>
      obtain ⟨hfuel', hle⟩ := hmakes.step ih.1
      exact ⟨hfuel', Int.le_trans hle ih.2⟩
  exact (hall _ h).2

/-! ## Spans -/

section

variable {ts : List Token}

/-- What is left after an expression does not begin with a closing bracket. -/
theorem Balanced.not_surplus (h : Balanced ts) (e : Expr) (rest : List Token) :
    parseExpr (enoughFuel ts) ts ≠ .ok (e, .bracketClose :: rest) := by
  intro hparse
  obtain ⟨used, rfl, hused⟩ : Reads ts (fun e => Derives (.expr e))
      (.ok (e, .bracketClose :: rest)) := hparse ▸ (readsAt _).expr ts (Nat.le_refl _)
  have hprefix := h.nonneg (used ++ [.bracketClose]) ⟨rest, by simp⟩
  simp [hused.bracketDepth_eq_zero, Token.weight] at hprefix

/-- Where a bracket is asked for, the tokens are not at their end. -/
theorem Balanced.not_missing (h : Balanced ts) : ¬ Comes (.expr (enoughFuel ts) ts) [] := by
  intro hcomes
  have hle := hcomes.surplus_le (Nat.le_refl _)
  simp only [bracketDepth_nil, Call.surplus, Call.left, h.closed] at hle
  omega

/-- When the brackets of balanced tokens are at fault, a parenthesis stands in place of a
bracket. -/
theorem Balanced.treeOf_unbalanced (h : Balanced ts)
    (hfault : treeOf ts = .error .unbalancedBrackets) :
    ∃ rest, Comes (.expr (enoughFuel ts) ts) (.parenClose :: rest) := by
  unfold treeOf at hfault
  split at hfault
  · cases hfault
  · split at hfault
    · rename_i hparse
      cases hfault
      obtain hcomes | hcomes := ((explainsAt _).expr _ _ hparse).of_unbalanced
      · exact absurd hcomes h.not_missing
      · exact hcomes
    · cases hfault
    · cases hfault
    · rename_i hparse
      exact absurd hparse (h.not_surplus _ _)
    · cases hfault

end

theorem segmentsFrom_ne_unterminated (whole : List Char) (fuel : Nat) (rest : List Char)
    (text : String) :
    segmentsFrom whole fuel rest ≠ .error (.malformed .unterminatedString text) := by
  induction fuel generalizing rest with
  | zero => nofun
  | succ fuel ih =>
    rw [segmentsFrom]
    split
    · nofun
    · split
      · nofun
      · rename_i source after hclosing
        obtain ⟨-, hcloses⟩ := splitClosing_eq_some.mp hclosing
        split
        · rename_i fault hparse
          intro heq
          cases heq
          unfold parseChars at hparse
          split at hparse
          · rename_i htokens
            cases hparse
            exact (tokenize_of_closes hcloses).1 htokens
          · exact treeOf_ne_unterminated _ hparse
        · split
          · rename_i fault hfault
            intro heq
            cases heq
            exact ih after hfault
          · nofun

/-- The bracket that ends a span and the tokens of the span agree on strings and nesting: no string
of the span stays open, its brackets are balanced, and while the tokens are parsed a closing bracket
is never in excess and never missing at their end. Brackets are at fault only where a parenthesis
stands in place of one, and no template is refused for a string that stays open. -/
theorem spans_nested {body source after : List Char}
    (h : splitClosing 0 body = some (source, after)) :
    tokenize source ≠ .error .unterminatedString ∧
    (∀ ts, tokenize source = .ok ts →
      Balanced ts ∧
      (∀ e rest, parseExpr (enoughFuel ts) ts ≠ .ok (e, .bracketClose :: rest)) ∧
      ¬ Comes (.expr (enoughFuel ts) ts) [] ∧
      (treeOf ts = .error .unbalancedBrackets →
        ∃ rest, Comes (.expr (enoughFuel ts) ts) (.parenClose :: rest))) ∧
    ∀ input text, parseTemplate input ≠ .error (.malformed .unterminatedString text) := by
  obtain ⟨-, hcloses⟩ := splitClosing_eq_some.mp h
  obtain ⟨hstrings, hbalanced⟩ := tokenize_of_closes hcloses
  refine ⟨hstrings, fun ts hts => ?_, fun input text => ?_⟩
  · have hts := hbalanced ts hts
    exact ⟨hts, hts.not_surplus, hts.not_missing, hts.treeOf_unbalanced⟩
  · exact segmentsFrom_ne_unterminated _ _ _ text

/-- The bracket in quotes counts nowhere, and a parenthesis is closed where the bracket of an index
is asked for. -/
theorem spans_nested_parenthesis :
    let ts : List Token := [.string "[", .bracketOpen, .integer 2, .parenClose, .bracketClose]
    splitClosing 0 "'['[2)]]!".toList = some ("'['[2)]".toList, ['!']) ∧
      tokenize "'['[2)]".toList = .ok ts ∧ Balanced ts ∧
      treeOf ts = .error .unbalancedBrackets ∧
      ∃ rest, Comes (.expr (enoughFuel ts) ts) (.parenClose :: rest) := by
  intro ts
  have hsplit : splitClosing 0 "'['[2)]]!".toList = some ("'['[2)]".toList, ['!']) := by decide
  have htokens : tokenize "'['[2)]".toList = .ok ts := by rfl
  have hfault : treeOf ts = .error .unbalancedBrackets := by rfl
  obtain ⟨hbalanced, -, -, hcomes⟩ := (spans_nested hsplit).2.1 ts htokens
  exact ⟨hsplit, htokens, hbalanced, hfault, hcomes hfault⟩

end WorkflowEngine.Expression
