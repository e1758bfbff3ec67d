import Mathlib.Logic.Relation
import WorkflowEngine.Proofs.Expression.Soundness

/-!
# Calls of the parser

What the parser asks for while it reads. `Makes` says which calls a call of a parsing function
makes, and `Comes` that it comes to a point where a closing bracket has to follow. A fault that is
neither of parentheses nor one of the words `invalid` and `exhausted` is found at such a point and
nowhere else (`explainsAt`).
-/

namespace WorkflowEngine.Expression

/-- A call of a parsing function. -/
inductive Call where
  | expr (fuel : Nat) (ts : List Token)
  | level (fuel n : Nat) (ts : List Token)
  | tail (fuel n : Nat) (lhs : Expr) (ts : List Token)
  | prefixed (fuel : Nat) (ts : List Token)
  | steps (fuel : Nat) (ts : List Token)
  | primary (fuel : Nat) (ts : List Token)
  | args (fuel : Nat) (ts : List Token)
  | closeBracket (ts : List Token)

/-- The calls that a call makes, each with the tokens that are left by then. -/
inductive Makes : Call → Call → Prop where
  | condition {fuel : Nat} {ts : List Token} : Makes (.expr (fuel + 1) ts) (.level fuel 0 ts)
  | thenBranch {fuel : Nat} {c : Expr} {ts us : List Token} :
      parseLevel fuel 0 ts = .ok (c, .question :: us) →
      Makes (.expr (fuel + 1) ts) (.expr fuel us)
  | elseBranch {fuel : Nat} {c t : Expr} {ts us vs : List Token} :
      parseLevel fuel 0 ts = .ok (c, .question :: us) →
      parseExpr fuel us = .ok (t, .colon :: vs) → Makes (.expr (fuel + 1) ts) (.expr fuel vs)
  | operand {fuel n : Nat} {ts : List Token} : n < levelCount →
      Makes (.level (fuel + 1) n ts) (.level fuel (n + 1) ts)
  | operators {fuel n : Nat} {lhs : Expr} {ts us : List Token} : n < levelCount →
      parseLevel fuel (n + 1) ts = .ok (lhs, us) →
      Makes (.level (fuel + 1) n ts) (.tail fuel n lhs us)
  | tightest {fuel n : Nat} {ts : List Token} : ¬ n < levelCount →
      Makes (.level (fuel + 1) n ts) (.prefixed fuel ts)
  | nextOperand {fuel n : Nat} {op : BinaryOp} {lhs : Expr} {t : Token} {ts : List Token} :
      operatorAt n t = some op → Makes (.tail (fuel + 1) n lhs (t :: ts)) (.level fuel (n + 1) ts)
  | nextOperators {fuel n : Nat} {op : BinaryOp} {lhs rhs : Expr} {t : Token}
      {ts us : List Token} : operatorAt n t = some op →
      parseLevel fuel (n + 1) ts = .ok (rhs, us) →
      Makes (.tail (fuel + 1) n lhs (t :: ts)) (.tail fuel n (.binary op lhs rhs) us)
  | not {fuel : Nat} {ts : List Token} :
      Makes (.prefixed (fuel + 1) (.bang :: ts)) (.prefixed fuel ts)
  | negate {fuel : Nat} {ts : List Token} :
      Makes (.prefixed (fuel + 1) (.minus :: ts)) (.prefixed fuel ts)
  | target {fuel : Nat} {ts : List Token} : ts.head? ≠ some .bang → ts.head? ≠ some .minus →
      Makes (.prefixed (fuel + 1) ts) (.primary fuel ts)
  | path {fuel : Nat} {e : Expr} {ts us : List Token} : ts.head? ≠ some .bang →
      ts.head? ≠ some .minus → parsePrimary fuel ts = .ok (e, us) →
      Makes (.prefixed (fuel + 1) ts) (.steps fuel us)
  | afterProperty {fuel : Nat} {name : String} {ts : List Token} :
      Makes (.steps (fuel + 1) (.dot :: .ident name :: ts)) (.steps fuel ts)
  | index {fuel : Nat} {ts : List Token} :
      Makes (.steps (fuel + 1) (.bracketOpen :: ts)) (.expr fuel ts)
  | indexEnd {fuel : Nat} {e : Expr} {ts us : List Token} : parseExpr fuel ts = .ok (e, us) →
      Makes (.steps (fuel + 1) (.bracketOpen :: ts)) (.closeBracket us)
  | afterIndex {fuel : Nat} {e : Expr} {ts us vs : List Token} :
      parseExpr fuel ts = .ok (e, us) → closeBracket us = .ok vs →
      Makes (.steps (fuel + 1) (.bracketOpen :: ts)) (.steps fuel vs)
  | group {fuel : Nat} {ts : List Token} :
      Makes (.primary (fuel + 1) (.parenOpen :: ts)) (.expr fuel ts)
  | span {fuel : Nat} {ts : List Token} :
      Makes (.primary (fuel + 1) (.spanOpen :: ts)) (.expr fuel ts)
  | spanEnd {fuel : Nat} {e : Expr} {ts us : List Token} : parseExpr fuel ts = .ok (e, us) →
      Makes (.primary (fuel + 1) (.spanOpen :: ts)) (.closeBracket us)
  | applied {fuel : Nat} {name : String} {ts : List Token} :
      name ≠ "true" → name ≠ "false" → name ≠ "null" → ts.head? ≠ some .parenClose →
      Makes (.primary (fuel + 1) (.ident name :: .parenOpen :: ts)) (.args fuel ts)
  | arg {fuel : Nat} {ts : List Token} : Makes (.args (fuel + 1) ts) (.expr fuel ts)
  | nextArg {fuel : Nat} {e : Expr} {ts us : List Token} :
      parseExpr fuel ts = .ok (e, .comma :: us) → Makes (.args (fuel + 1) ts) (.args fuel us)

/-- The call comes to a point where a closing bracket has to follow, and `rest` does. -/
def Comes (c : Call) (rest : List Token) : Prop :=
  Relation.ReflTransGen Makes c (.closeBracket rest)

theorem Comes.head {c d : Call} {rest : List Token} (h : Makes c d) (hd : Comes d rest) :
    Comes c rest :=
  Relation.ReflTransGen.head h hd

/-! ## Where a fault is found -/

/-- A fault that says nothing of brackets. -/
def SyntaxFault.IsOther (fault : SyntaxFault) : Prop :=
  fault = .invalid ∨ fault = .exhausted ∨ fault = .unbalancedParentheses

/-- The fault says nothing of brackets, or the call comes to a point where a bracket is asked for
and does not follow. -/
def Explained (c : Call) (fault : SyntaxFault) : Prop :=
  fault.IsOther ∨ ∃ rest, Comes c rest ∧ closeBracket rest = .error fault

theorem Explained.invalid {c : Call} : Explained c .invalid := .inl (.inl rfl)

theorem Explained.head {c d : Call} {fault : SyntaxFault} (h : Makes c d)
    (hd : Explained d fault) : Explained c fault := by
  obtain hother | ⟨rest, hcomes, hfault⟩ := hd
  · exact .inl hother
  · exact .inr ⟨rest, hcomes.head h, hfault⟩

theorem Explained.of_makes {c : Call} {fault : SyntaxFault} {rest : List Token}
    (h : Makes c (.closeBracket rest)) (hfault : closeBracket rest = .error fault) :
    Explained c fault :=
  .inr ⟨rest, .single h, hfault⟩

theorem Explained.of_closeParen {c : Call} {fault : SyntaxFault} {rest : List Token}
    (h : closeParen rest = .error fault) : Explained c fault := by
  unfold closeParen at h
  split at h <;> cases h
  · exact .inl (.inr (.inr rfl))
  · exact .inl (.inr (.inr rfl))
  · exact .invalid

theorem Explained.of_applied {c : Call} {fault : SyntaxFault} {name : String} {args : List Expr}
    (h : applied name args = .error fault) : Explained c fault := by
  unfold applied at h
  split at h <;> cases h
  exact .invalid

/-- Every fault of a parsing function is explained. -/
structure ExplainsAt (fuel : Nat) : Prop where
  expr : ∀ ts fault, parseExpr fuel ts = .error fault → Explained (.expr fuel ts) fault
  level : ∀ n ts fault, parseLevel fuel n ts = .error fault → Explained (.level fuel n ts) fault
  tail : ∀ n lhs ts fault, parseTail fuel n lhs ts = .error fault →
    Explained (.tail fuel n lhs ts) fault
  prefixed : ∀ ts fault, parseUnary fuel ts = .error fault → Explained (.prefixed fuel ts) fault
  steps : ∀ ts fault, parseSteps fuel ts = .error fault → Explained (.steps fuel ts) fault
  primary : ∀ ts fault, parsePrimary fuel ts = .error fault → Explained (.primary fuel ts) fault
  args : ∀ ts fault, parseArgs fuel ts = .error fault → Explained (.args fuel ts) fault

section

variable {fuel : Nat} {ts : List Token} {fault : SyntaxFault}

theorem ExplainsAt.expr_succ (ih : ExplainsAt fuel)
    (h : parseExpr (fuel + 1) ts = .error fault) : Explained (.expr (fuel + 1) ts) fault := by
  rw [parseExpr] at h
  split at h
  · rename_i hc
    cases h
    exact (ih.level 0 ts _ hc).head .condition
  · rename_i c us hc
    split at h
    · rename_i ht
      cases h
      exact (ih.expr us _ ht).head (.thenBranch hc)
    · rename_i t vs ht
      split at h
      · rename_i he
        cases h
        exact (ih.expr vs _ he).head (.elseBranch hc ht)
      · cases h
    · cases h
      exact .invalid
  · cases h

theorem ExplainsAt.level_succ (ih : ExplainsAt fuel) {n : Nat}
    (h : parseLevel (fuel + 1) n ts = .error fault) :
    Explained (.level (fuel + 1) n ts) fault := by
  rw [parseLevel] at h
  split at h
  · rename_i hn
    split at h
    · rename_i hlhs
      cases h
      exact (ih.level (n + 1) ts _ hlhs).head (.operand hn)
    · rename_i lhs us hlhs
      exact (ih.tail n lhs us _ h).head (.operators hn hlhs)
  · rename_i hn
    exact (ih.prefixed ts _ h).head (.tightest hn)

theorem ExplainsAt.tail_succ (ih : ExplainsAt fuel) {n : Nat} {lhs : Expr}
    (h : parseTail (fuel + 1) n lhs ts = .error fault) :
    Explained (.tail (fuel + 1) n lhs ts) fault := by
  cases ts with
  | nil => cases h
  | cons t ts =>
    rw [parseTail] at h
    split at h
    · cases h
    · rename_i op hop
      split at h
      · rename_i hrhs
        cases h
        exact (ih.level (n + 1) ts _ hrhs).head (.nextOperand hop)
      · rename_i rhs us hrhs
        exact (ih.tail n _ us _ h).head (.nextOperators hop hrhs)

theorem ExplainsAt.steps_succ (ih : ExplainsAt fuel)
    (h : parseSteps (fuel + 1) ts = .error fault) :
    Explained (.steps (fuel + 1) ts) fault := by
  cases ts with
  | nil => cases h
  | cons t ts =>
    cases t with
    | dot =>
      rcases ts with _ | ⟨t, ts⟩
      · cases h
        exact .invalid
      cases t with
      | ident name =>
        rw [parseSteps] at h
        split at h
        · rename_i hsteps
          cases h
          exact (ih.steps ts _ hsteps).head .afterProperty
        · cases h
      | _ =>
        cases h
        exact .invalid
    | bracketOpen =>
      rw [parseSteps] at h
      split at h
      · rename_i he
        cases h
        exact (ih.expr ts _ he).head .index
      · rename_i e us he
        split at h
        · rename_i hclose
          cases h
          exact .of_makes (.indexEnd he) hclose
        · rename_i vs hclose
          split at h
          · rename_i hsteps
            cases h
            exact (ih.steps vs _ hsteps).head (.afterIndex he hclose)
          · cases h
    | _ => cases h

theorem ExplainsAt.args_succ (ih : ExplainsAt fuel)
    (h : parseArgs (fuel + 1) ts = .error fault) : Explained (.args (fuel + 1) ts) fault := by
  rw [parseArgs] at h
  split at h
  · rename_i he
    cases h
    exact (ih.expr ts _ he).head .arg
  · rename_i e us he
    split at h
    · rename_i hes
      cases h
      exact (ih.args us _ hes).head (.nextArg he)
    · cases h
  · split at h
    · rename_i hclose
      cases h
      exact .of_closeParen hclose
    · cases h

theorem ExplainsAt.ident_succ (ih : ExplainsAt fuel) {name : String}
    (h : parsePrimary (fuel + 1) (.ident name :: ts) = .error fault) :
    Explained (.primary (fuel + 1) (.ident name :: ts)) fault := by
  rw [parsePrimary.eq_def] at h
  dsimp only at h
  split at h
  · cases h
  rename_i htrue
  split at h
  · cases h
  rename_i hfalse
  split at h
  · cases h
  rename_i hnull
  split at h
  · split at h
    · rename_i happlied
      cases h
      exact .of_applied happlied
    · cases h
  · rename_i us hne
    split at h
    · rename_i hargs
      cases h
      have hhead : us.head? ≠ some .parenClose := by
        intro hhead
        obtain ⟨vs, rfl⟩ := List.head?_eq_some_iff.mp hhead
        exact hne vs rfl
      exact (ih.args us _ hargs).head (.applied htrue hfalse hnull hhead)
    · split at h
      · rename_i happlied
        cases h
        exact .of_applied happlied
      · cases h
  · cases h
    exact .invalid

theorem ExplainsAt.primary_succ (ih : ExplainsAt fuel)
    (h : parsePrimary (fuel + 1) ts = .error fault) :
    Explained (.primary (fuel + 1) ts) fault := by
  cases ts with
  | nil =>
    cases h
    exact .invalid
  | cons t ts =>
    cases t with
    | parenOpen =>
      rw [parsePrimary] at h
      split at h
      · rename_i he
        cases h
        exact (ih.expr ts _ he).head .group
      · split at h
        · rename_i hclose
          cases h
          exact .of_closeParen hclose
        · cases h
    | spanOpen =>
      rw [parsePrimary] at h
      split at h
      · rename_i he
        cases h
        exact (ih.expr ts _ he).head .span
      · rename_i e us he
        split at h
        · rename_i hclose
          cases h
          exact .of_makes (.spanEnd he) hclose
        · cases h
    | ident name => exact ih.ident_succ h
    | integer n => cases h
    | decimal x => cases h
    | string s => cases h
    | _ =>
      cases h
      exact .invalid

/-- An operand without prefixes. -/
theorem ExplainsAt.path (ih : ExplainsAt fuel) (hbang : ts.head? ≠ some .bang)
    (hminus : ts.head? ≠ some .minus)
    (h : (match parsePrimary fuel ts with
      | .error fault => .error fault
      | .ok (target, rest) =>
        match parseSteps fuel rest with
        | .error fault => .error fault
        | .ok ([], rest) => .ok (target, rest)
        | .ok (step :: steps, rest) => .ok (.path target (step :: steps), rest) : Parsed Expr) =
          .error fault) : Explained (.prefixed (fuel + 1) ts) fault := by
  split at h
  · rename_i htarget
    cases h
    exact (ih.primary ts _ htarget).head (.target hbang hminus)
  · rename_i target us htarget
    split at h
    · rename_i hsteps
      cases h
      exact (ih.steps us _ hsteps).head (.path hbang hminus htarget)
    · cases h
    · cases h

theorem ExplainsAt.prefixed_succ (ih : ExplainsAt fuel)
    (h : parseUnary (fuel + 1) ts = .error fault) :
    Explained (.prefixed (fuel + 1) ts) fault := by
  cases ts with
  | nil => exact ih.path (by simp) (by simp) h
  | cons t ts =>
    cases t with
    | bang =>
      rw [parseUnary] at h
      split at h
      · rename_i hoperand
        cases h
        exact (ih.prefixed ts _ hoperand).head .not
      · cases h
    | minus =>
      rw [parseUnary] at h
      split at h
      · rename_i hoperand
        cases h
        exact (ih.prefixed ts _ hoperand).head .negate
      · cases h
    | _ => exact ih.path (by simp) (by simp) h

end

theorem explainsAt (fuel : Nat) : ExplainsAt fuel := by
  induction fuel with
  | zero =>
    have hexhausted : ∀ c fault, SyntaxFault.exhausted = fault → Explained c fault := by
      rintro c _ rfl
      exact .inl (.inr (.inl rfl))
    exact ⟨fun _ fault h => hexhausted _ fault (Except.error.inj h),
      fun _ _ fault h => hexhausted _ fault (Except.error.inj h),
      fun _ _ _ fault h => hexhausted _ fault (Except.error.inj h),
      fun _ fault h => hexhausted _ fault (Except.error.inj h),
      fun _ fault h => hexhausted _ fault (Except.error.inj h),
      fun _ fault h => hexhausted _ fault (Except.error.inj h),
      fun _ fault h => hexhausted _ fault (Except.error.inj h)⟩
  | succ fuel ih =>
    exact ⟨fun _ _ => ih.expr_succ, fun _ _ _ => ih.level_succ, fun _ _ _ _ => ih.tail_succ,
      fun _ _ => ih.prefixed_succ, fun _ _ => ih.steps_succ, fun _ _ => ih.primary_succ,
      fun _ _ => ih.args_succ⟩

theorem closeBracket_eq_error {ts : List Token} {fault : SyntaxFault}
    (h : closeBracket ts = .error fault) :
    fault = .invalid ∨ fault = .unbalancedBrackets ∧ (ts = [] ∨ ∃ rest, ts = .parenClose :: rest) := by
  unfold closeBracket at h
  split at h <;> cases h
  · exact .inr ⟨rfl, .inl rfl⟩
  · exact .inr ⟨rfl, .inr ⟨_, rfl⟩⟩
  · exact .inl rfl

/-- No parsing function takes a string for one that stays open. -/
theorem Explained.ne_unterminated {c : Call} {fault : SyntaxFault} (h : Explained c fault) :
    fault ≠ .unterminatedString := by
  rintro rfl
  obtain (h | h | h) | ⟨rest, -, hfault⟩ := h
  · cases h
  · cases h
  · cases h
  · obtain h | ⟨h, -⟩ := closeBracket_eq_error hfault <;> cases h

/-- Brackets are unbalanced where a bracket is asked for and the tokens end, or a parenthesis is
closed instead. -/
theorem Explained.of_unbalanced {c : Call} (h : Explained c .unbalancedBrackets) :
    Comes c [] ∨ ∃ rest, Comes c (.parenClose :: rest) := by
  obtain (h | h | h) | ⟨rest, hcomes, hfault⟩ := h
  · cases h
  · cases h
  · cases h
  · obtain h | ⟨-, rfl | ⟨rest, rfl⟩⟩ := closeBracket_eq_error hfault
    · cases h
    · exact .inl hcomes
    · exact .inr ⟨rest, hcomes⟩

theorem treeOf_ne_unterminated (ts : List Token) : treeOf ts ≠ .error .unterminatedString := by
  intro h
  unfold treeOf at h
  split at h
  · cases h
  · split at h
    · rename_i hparse
      cases h
      exact ((explainsAt _).expr _ _ hparse).ne_unterminated rfl
    all_goals cases h

end WorkflowEngine.Expression
