import WorkflowEngine.Expression.Grammar

/-!
# The grammar of expressions

What the tokens of an expression say, without an algorithm. A phrase is a piece of an expression
with what it means, and `Derives` has one rule for each way to write one. A binary operator of some
level has an operand of its own level on the left and one of the next level on the right, so
operators of one level group to the left; a choice may end in another choice, so choices group to
the right.

`begins_of_derives` says how phrases begin.
-/

namespace WorkflowEngine.Expression

/-- The binary operators by levels, the loosest first. -/
inductive Operator : Nat → Token → BinaryOp → Prop where
  | or : Operator 0 .orOr .or
  | and : Operator 1 .andAnd .and
  | equal : Operator 2 .equal .equal
  | notEqual : Operator 2 .notEqual .notEqual
  | greater : Operator 3 .greater .greater
  | greaterOrEqual : Operator 3 .greaterEq .greaterOrEqual
  | less : Operator 3 .less .less
  | lessOrEqual : Operator 3 .lessEq .lessOrEqual
  | add : Operator 4 .plus .add
  | subtract : Operator 4 .minus .subtract
  | multiply : Operator 5 .star .multiply
  | divide : Operator 5 .slash .divide

/-- A name that is not a word of the language. -/
structure IsFunctionName (name : String) : Prop where
  ne_true : name ≠ "true"
  ne_false : name ≠ "false"
  ne_null : name ≠ "null"
  ne_source : ∀ source : Source, name ≠ source.name

inductive Phrase where
  | expr (e : Expr)
  /-- Operands joined by binary operators of that level and of tighter ones. -/
  | level (n : Nat) (e : Expr)
  | prefixed (e : Expr)
  | primary (e : Expr)
  /-- The steps of a path, without what they start from. -/
  | steps (steps : List Step)
  /-- One or more arguments. -/
  | args (args : List Expr)

/-- The list of tokens, as a whole, is that phrase. -/
inductive Derives : Phrase → List Token → Prop where
  | choice {c t e : Expr} {cs ts es : List Token} : Derives (.level 0 c) cs →
      Derives (.expr t) ts → Derives (.expr e) es →
      Derives (.expr (.ternary c t e)) (cs ++ .question :: (ts ++ .colon :: es))
  | plain {e : Expr} {ts : List Token} : Derives (.level 0 e) ts → Derives (.expr e) ts
  | binary {n : Nat} {lhs rhs : Expr} {ls rs : List Token} {t : Token} {op : BinaryOp} :
      Derives (.level n lhs) ls → Operator n t op → Derives (.level (n + 1) rhs) rs →
      Derives (.level n (.binary op lhs rhs)) (ls ++ t :: rs)
  | tighter {n : Nat} {e : Expr} {ts : List Token} : n < 6 → Derives (.level (n + 1) e) ts →
      Derives (.level n e) ts
  | operand {e : Expr} {ts : List Token} : Derives (.prefixed e) ts → Derives (.level 6 e) ts
  | not {e : Expr} {ts : List Token} : Derives (.prefixed e) ts →
      Derives (.prefixed (.unary .not e)) (.bang :: ts)
  | negate {e : Expr} {ts : List Token} : Derives (.prefixed e) ts →
      Derives (.prefixed (.unary .negate e)) (.minus :: ts)
  | bare {e : Expr} {ts : List Token} : Derives (.primary e) ts → Derives (.prefixed e) ts
  | path {e : Expr} {step : Step} {steps : List Step} {ts us : List Token} :
      Derives (.primary e) ts → Derives (.steps (step :: steps)) us →
      Derives (.prefixed (.path e (step :: steps))) (ts ++ us)
  | noStep : Derives (.steps []) []
  | property {name : String} {steps : List Step} {ts : List Token} : Derives (.steps steps) ts →
      Derives (.steps (.property name :: steps)) (.dot :: .ident name :: ts)
  | index {e : Expr} {steps : List Step} {ts us : List Token} : Derives (.expr e) ts →
      Derives (.steps steps) us →
      Derives (.steps (.index e :: steps)) (.bracketOpen :: (ts ++ .bracketClose :: us))
  | integer (n : Nat) : Derives (.primary (.literal (.ofInt n))) [.integer n]
  | decimal (x : Float) : Derives (.primary (.literal (.ofFloat x))) [.decimal x]
  | string (s : String) : Derives (.primary (.literal (.str s))) [.string s]
  | true : Derives (.primary (.literal (.bool Bool.true))) [.ident "true"]
  | false : Derives (.primary (.literal (.bool Bool.false))) [.ident "false"]
  | null : Derives (.primary (.literal .null)) [.ident "null"]
  | group {e : Expr} {ts : List Token} : Derives (.expr e) ts →
      Derives (.primary e) (.parenOpen :: (ts ++ [.parenClose]))
  | span {e : Expr} {ts : List Token} : Derives (.expr e) ts →
      Derives (.primary e) (.spanOpen :: (ts ++ [.bracketClose]))
  | lookup (source : Source) {key : Expr} {ts : List Token} : Derives (.expr key) ts →
      Derives (.primary (.lookup source key))
        (.ident source.name :: .parenOpen :: (ts ++ [.parenClose]))
  | callNone {name : String} : IsFunctionName name →
      Derives (.primary (.call name [])) [.ident name, .parenOpen, .parenClose]
  | call {name : String} {args : List Expr} {ts : List Token} : IsFunctionName name →
      Derives (.args args) ts →
      Derives (.primary (.call name args)) (.ident name :: .parenOpen :: (ts ++ [.parenClose]))
  | lastArg {e : Expr} {ts : List Token} : Derives (.expr e) ts → Derives (.args [e]) ts
  | nextArg {e : Expr} {es : List Expr} {ts us : List Token} : Derives (.expr e) ts →
      Derives (.args es) us → Derives (.args (e :: es)) (ts ++ .comma :: us)

/-! ## How phrases begin -/

/-- A token with which an operand can begin. -/
def Token.Opens : Token → Prop
  | .integer _ => True
  | .decimal _ => True
  | .string _ => True
  | .ident _ => True
  | .parenOpen => True
  | .spanOpen => True
  | _ => False

/-- How the tokens of a phrase begin. -/
def Phrase.Begins : Phrase → List Token → Prop
  | .primary _, ts => ∃ t us, ts = t :: us ∧ t.Opens
  | .steps [], ts => ts = []
  | .steps _, ts => ∃ t us, ts = t :: us ∧ (t = .dot ∨ t = .bracketOpen)
  | _, ts => ∃ t us, ts = t :: us ∧ (t.Opens ∨ t = .bang ∨ t = .minus)

theorem begins_of_derives {p : Phrase} {ts : List Token} (h : Derives p ts) : p.Begins ts := by
  induction h with
  | choice _ _ _ ihc _ _ =>
    obtain ⟨t, us, rfl, ht⟩ := ihc
    exact ⟨t, _, rfl, ht⟩
  | plain _ ih => exact ih
  | binary _ _ _ ih _ =>
    obtain ⟨t, us, rfl, ht⟩ := ih
    exact ⟨t, _, rfl, ht⟩
  | tighter _ _ ih => exact ih
  | operand _ ih => exact ih
  | not _ _ => exact ⟨_, _, rfl, .inr (.inl rfl)⟩
  | negate _ _ => exact ⟨_, _, rfl, .inr (.inr rfl)⟩
  | bare _ ih =>
    obtain ⟨t, us, rfl, ht⟩ := ih
    exact ⟨t, us, rfl, .inl ht⟩
  | path _ _ ih _ =>
    obtain ⟨t, us, rfl, ht⟩ := ih
    exact ⟨t, _, rfl, .inl ht⟩
  | noStep => rfl
  | property _ _ => exact ⟨_, _, rfl, .inl rfl⟩
  | index _ _ _ _ => exact ⟨_, _, rfl, .inr rfl⟩
  | lastArg _ ih => exact ih
  | nextArg _ _ ih _ =>
    obtain ⟨t, us, rfl, ht⟩ := ih
    exact ⟨t, _, rfl, ht⟩
  | _ => exact ⟨_, _, rfl, trivial⟩

theorem Derives.length_pos {p : Phrase} {ts : List Token} (h : Derives p ts)
    (hp : ∀ steps, p ≠ .steps steps) : 0 < ts.length := by
  have hbegins := begins_of_derives h
  cases p with
  | steps steps => exact absurd rfl (hp steps)
  | _ =>
    obtain ⟨t, us, rfl, -⟩ := hbegins
    exact Nat.succ_pos _

end WorkflowEngine.Expression
