import WorkflowEngine.Proofs.Expression.Grammar

/-!
# Parsing is sound

With enough fuel every parsing function either reads a phrase from the front of its tokens or
reports a fault that is about the tokens; the fuel never runs out. Each function has a bound of its
own on the fuel that it needs. `ReadsAt` gathers what the functions do with some fuel, and
`readsAt` is the induction on the fuel.
-/

namespace WorkflowEngine.Expression

theorem operatorAt_eq_some {n : Nat} {t : Token} {op : BinaryOp} :
    operatorAt n t = some op ↔ Operator n t op := by
  constructor
  · intro h
    unfold operatorAt at h
    split at h <;> cases h <;> constructor
  · intro h
    cases h <;> rfl

theorem ofName?_eq_some {name : String} {source : Source} :
    Source.ofName? name = some source ↔ name = source.name := by
  unfold Source.ofName?
  constructor
  · intro h
    split at h
    · cases h
      assumption
    · split at h
      · cases h
        assumption
      · split at h
        · cases h
          assumption
        · cases h
  · rintro rfl
    cases source <;> decide

/-- A phrase at the front of a list and what follows it, or a fault of the tokens. -/
def Reads {α : Type} (ts : List Token) (p : α → List Token → Prop) : Parsed α → Prop
  | .ok (a, rest) => ∃ used, ts = used ++ rest ∧ p a used
  | .error fault => fault ≠ .exhausted

/-- What the parsing functions do with that much fuel. -/
structure ReadsAt (fuel : Nat) : Prop where
  expr : ∀ ts, 12 * ts.length + 12 ≤ fuel →
    Reads ts (fun e => Derives (.expr e)) (parseExpr fuel ts)
  level : ∀ n ts, n ≤ 6 → 12 * ts.length + (11 - n) ≤ fuel →
    Reads ts (fun e => Derives (.level n e)) (parseLevel fuel n ts)
  tail : ∀ n lhs before ts, Derives (.level n lhs) before → 12 * ts.length + 1 ≤ fuel →
    Reads ts (fun e used => Derives (.level n e) (before ++ used)) (parseTail fuel n lhs ts)
  prefixed : ∀ ts, 12 * ts.length + 4 ≤ fuel →
    Reads ts (fun e => Derives (.prefixed e)) (parseUnary fuel ts)
  steps : ∀ ts, 12 * ts.length + 1 ≤ fuel →
    Reads ts (fun steps => Derives (.steps steps)) (parseSteps fuel ts)
  primary : ∀ ts, 12 * ts.length + 3 ≤ fuel →
    Reads ts (fun e => Derives (.primary e)) (parsePrimary fuel ts)
  args : ∀ ts, 12 * ts.length + 13 ≤ fuel →
    Reads ts (fun args used => ∃ us, used = us ++ [.parenClose] ∧ Derives (.args args) us)
      (parseArgs fuel ts)

theorem Reads.cases {α : Type} {ts : List Token} {p : α → List Token → Prop} {x : Parsed α}
    (h : Reads ts p x) :
    (∃ fault, x = .error fault ∧ fault ≠ .exhausted) ∨
      ∃ a used rest, x = .ok (a, rest) ∧ ts = used ++ rest ∧ p a used := by
  cases x with
  | error fault => exact .inl ⟨fault, rfl, h⟩
  | ok r =>
    obtain ⟨a, rest⟩ := r
    obtain ⟨used, hts, hp⟩ := h
    exact .inr ⟨a, used, rest, rfl, hts, hp⟩

/-! ## Brackets -/

theorem closeParen_cases (ts : List Token) :
    (∃ fault, closeParen ts = .error fault ∧ fault ≠ .exhausted) ∨
      ∃ rest, ts = .parenClose :: rest ∧ closeParen ts = .ok rest := by
  unfold closeParen
  split
  · exact .inr ⟨_, rfl, rfl⟩
  all_goals exact .inl ⟨_, rfl, nofun⟩

theorem closeBracket_cases (ts : List Token) :
    (∃ fault, closeBracket ts = .error fault ∧ fault ≠ .exhausted) ∨
      ∃ rest, ts = .bracketClose :: rest ∧ closeBracket ts = .ok rest := by
  unfold closeBracket
  split
  · exact .inr ⟨_, rfl, rfl⟩
  all_goals exact .inl ⟨_, rfl, nofun⟩

/-! ## One function after the other -/

section

variable {fuel : Nat} {ts : List Token}

theorem ReadsAt.expr_succ (ih : ReadsAt fuel) (hfuel : 12 * ts.length + 12 ≤ fuel + 1) :
    Reads ts (fun e => Derives (.expr e)) (parseExpr (fuel + 1) ts) := by
  rw [parseExpr]
  obtain ⟨fault, h, hfault⟩ | ⟨condition, cs, rest, h, rfl, hc⟩ :=
    (ih.level 0 ts (by omega) (by omega)).cases
  · rw [h]
    exact hfault
  rw [h]
  split
  · contradiction
  · rename_i _ rest heq
    cases heq
    have hcs := hc.length_pos nofun
    simp only [List.length_append, List.length_cons] at hfuel
    obtain ⟨fault, h, hfault⟩ | ⟨thenBranch, us, rest, h, rfl, ht⟩ :=
      (ih.expr rest (by omega)).cases
    · rw [h]
      exact hfault
    rw [h]
    rw [List.length_append] at hfuel
    split
    · contradiction
    · rename_i _ rest heq
      cases heq
      rw [List.length_cons] at hfuel
      obtain ⟨fault, h, hfault⟩ | ⟨elseBranch, vs, rest, h, rfl, he⟩ :=
        (ih.expr rest (by omega)).cases
      · rw [h]
        exact hfault
      rw [h]
      exact ⟨_, by simp, .choice hc ht he⟩
    · exact nofun
  · rename_i heq
    cases heq
    exact ⟨cs, rfl, .plain hc⟩

theorem ReadsAt.level_succ (ih : ReadsAt fuel) {n : Nat} (hn : n ≤ 6)
    (hfuel : 12 * ts.length + (11 - n) ≤ fuel + 1) :
    Reads ts (fun e => Derives (.level n e)) (parseLevel (fuel + 1) n ts) := by
  rw [parseLevel]
  split
  · rename_i hlt
    rw [levelCount] at hlt
    obtain ⟨fault, h, hfault⟩ | ⟨lhs, us, rest, h, rfl, hus⟩ :=
      (ih.level (n + 1) ts (by omega) (by omega)).cases
    · rw [h]
      exact hfault
    rw [h]
    have hpos := hus.length_pos nofun
    rw [List.length_append] at hfuel
    obtain ⟨fault, h, hfault⟩ | ⟨e, vs, rest, h, rfl, hvs⟩ :=
      (ih.tail n lhs us rest (.tighter hlt hus) (by omega)).cases
    · dsimp only
      rw [h]
      exact hfault
    · dsimp only
      rw [h]
      exact ⟨us ++ vs, by simp, hvs⟩
  · rename_i hge
    rw [levelCount] at hge
    obtain rfl : n = 6 := by omega
    obtain ⟨fault, h, hfault⟩ | ⟨e, us, rest, h, rfl, hus⟩ := (ih.prefixed ts (by omega)).cases
    · exact h ▸ hfault
    · exact h ▸ ⟨us, rfl, .operand hus⟩

theorem ReadsAt.tail_succ (ih : ReadsAt fuel) {n : Nat} {lhs : Expr} {before : List Token}
    (hbefore : Derives (.level n lhs) before) (hfuel : 12 * ts.length + 1 ≤ fuel + 1) :
    Reads ts (fun e used => Derives (.level n e) (before ++ used))
      (parseTail (fuel + 1) n lhs ts) := by
  cases ts with
  | nil => exact ⟨[], rfl, by simpa using hbefore⟩
  | cons t ts =>
    rw [parseTail]
    rw [List.length_cons] at hfuel
    cases hop : operatorAt n t with
    | none => exact ⟨[], rfl, by simpa using hbefore⟩
    | some op =>
      dsimp only
      have hoperator := operatorAt_eq_some.mp hop
      have hn : n < 6 := by cases hoperator <;> decide
      obtain ⟨fault, h, hfault⟩ | ⟨rhs, us, rest, h, rfl, hus⟩ :=
        (ih.level (n + 1) ts (by omega) (by omega)).cases
      · rw [h]
        exact hfault
      rw [h]
      rw [List.length_append] at hfuel
      obtain ⟨fault, h, hfault⟩ | ⟨e, vs, rest, h, rfl, hvs⟩ :=
        (ih.tail n _ _ rest (.binary hbefore hoperator hus) (by omega)).cases
      · dsimp only
        rw [h]
        exact hfault
      · dsimp only
        rw [h]
        exact ⟨t :: (us ++ vs), by simp, by simpa using hvs⟩

theorem ReadsAt.steps_succ (ih : ReadsAt fuel) (hfuel : 12 * ts.length + 1 ≤ fuel + 1) :
    Reads ts (fun steps => Derives (.steps steps)) (parseSteps (fuel + 1) ts) := by
  cases ts with
  | nil => exact ⟨[], rfl, .noStep⟩
  | cons t ts =>
    cases t with
    | dot =>
      rcases ts with _ | ⟨t, ts⟩
      · exact nofun
      cases t with
      | ident name =>
        rw [parseSteps]
        simp only [List.length_cons] at hfuel
        obtain ⟨fault, h, hfault⟩ | ⟨steps, us, rest, h, rfl, hus⟩ :=
          (ih.steps ts (by omega)).cases
        · rw [h]
          exact hfault
        rw [h]
        exact ⟨_, rfl, .property hus⟩
      | _ => exact nofun
    | bracketOpen =>
      rw [parseSteps]
      rw [List.length_cons] at hfuel
      obtain ⟨fault, h, hfault⟩ | ⟨index, us, rest, h, rfl, hus⟩ :=
        (ih.expr ts (by omega)).cases
      · rw [h]
        exact hfault
      rw [h]
      dsimp only
      obtain ⟨fault, h, hfault⟩ | ⟨rest, rfl, h⟩ := closeBracket_cases rest
      · rw [h]
        exact hfault
      rw [h]
      simp only [List.length_append, List.length_cons] at hfuel
      obtain ⟨fault, h, hfault⟩ | ⟨steps, vs, rest, h, rfl, hvs⟩ :=
        (ih.steps rest (by omega)).cases
      · dsimp only
        rw [h]
        exact hfault
      · dsimp only
        rw [h]
        exact ⟨_, by simp, .index hus hvs⟩
    | _ => exact ⟨[], rfl, .noStep⟩

theorem ReadsAt.args_succ (ih : ReadsAt fuel) (hfuel : 12 * ts.length + 13 ≤ fuel + 1) :
    Reads ts (fun args used => ∃ us, used = us ++ [.parenClose] ∧ Derives (.args args) us)
      (parseArgs (fuel + 1) ts) := by
  rw [parseArgs]
  obtain ⟨fault, h, hfault⟩ | ⟨arg, us, rest, h, rfl, hus⟩ := (ih.expr ts (by omega)).cases
  · rw [h]
    exact hfault
  rw [h]
  split
  · contradiction
  · rename_i rest heq
    cases heq
    simp only [List.length_append, List.length_cons] at hfuel
    obtain ⟨fault, h, hfault⟩ | ⟨args, _, rest, h, rfl, vs, rfl, hvs⟩ :=
      (ih.args _ (by omega : 12 * List.length rest + 13 ≤ fuel)).cases
    · rw [h]
      exact hfault
    rw [h]
    exact ⟨us ++ .comma :: (vs ++ [.parenClose]), by simp, us ++ .comma :: vs, by simp,
      .nextArg hus hvs⟩
  · rename_i heq
    cases heq
    obtain ⟨fault, h, hfault⟩ | ⟨rest, rfl, h⟩ := closeParen_cases rest
    · rw [h]
      exact hfault
    rw [h]
    exact ⟨us ++ [.parenClose], by simp, us, rfl, .lastArg hus⟩

/-- A call or a lookup, once its arguments are read. -/
theorem applied_cases {name : String} (hword : name ≠ "true" ∧ name ≠ "false" ∧ name ≠ "null")
    (args : List Expr) :
    (∃ fault, applied name args = .error fault ∧ fault ≠ .exhausted) ∨
      (applied name args = .ok (.call name args) ∧ IsFunctionName name) ∨
      ∃ source key, name = source.name ∧ args = [key] ∧
        applied name args = .ok (.lookup source key) := by
  unfold applied
  split
  · rename_i hsource
    refine .inr (.inl ⟨rfl, hword.1, hword.2.1, hword.2.2, fun source hname => ?_⟩)
    rw [ofName?_eq_some.mpr hname] at hsource
    cases hsource
  · rename_i source key hsource
    exact .inr (.inr ⟨source, key, ofName?_eq_some.mp hsource, rfl, rfl⟩)
  · exact .inl ⟨_, rfl, nofun⟩

theorem ReadsAt.ident_succ (ih : ReadsAt fuel) {name : String}
    (hfuel : 12 * ts.length + 13 ≤ fuel) :
    Reads (.ident name :: ts) (fun e => Derives (.primary e))
      (parsePrimary (fuel + 1) (.ident name :: ts)) := by
  rw [parsePrimary.eq_def]
  dsimp only
  split
  · rename_i hname
    exact ⟨[.ident name], rfl, hname ▸ .true⟩
  split
  · rename_i hname
    exact ⟨[.ident name], rfl, hname ▸ .false⟩
  split
  · rename_i hname
    exact ⟨[.ident name], rfl, hname ▸ .null⟩
  rename_i htrue hfalse hnull
  split
  · rename_i rest
    obtain ⟨fault, h, hfault⟩ | ⟨h, hname⟩ | ⟨source, key, -, hkey, -⟩ :=
      applied_cases ⟨htrue, hfalse, hnull⟩ []
    · rw [h]
      exact hfault
    · rw [h]
      exact ⟨_, rfl, .callNone hname⟩
    · cases hkey
  · rename_i rest _
    rw [List.length_cons] at hfuel
    obtain ⟨fault, h, hfault⟩ | ⟨args, _, rest, h, rfl, us, rfl, hus⟩ :=
      (ih.args rest (by omega)).cases
    · rw [h]
      exact hfault
    rw [h]
    dsimp only
    obtain ⟨fault, h, hfault⟩ | ⟨h, hname⟩ | ⟨source, key, rfl, rfl, h⟩ :=
      applied_cases ⟨htrue, hfalse, hnull⟩ args
    · rw [h]
      exact hfault
    · rw [h]
      exact ⟨_, rfl, .call hname hus⟩
    · rw [h]
      cases hus with
      | lastArg hus => exact ⟨_, rfl, .lookup source hus⟩
      | nextArg _ hrest => cases hrest
  · exact nofun

theorem ReadsAt.primary_succ (ih : ReadsAt fuel) (hfuel : 12 * ts.length + 3 ≤ fuel + 1) :
    Reads ts (fun e => Derives (.primary e)) (parsePrimary (fuel + 1) ts) := by
  cases ts with
  | nil => exact nofun
  | cons t ts =>
    rw [List.length_cons] at hfuel
    cases t with
    | integer n => exact ⟨[.integer n], rfl, .integer n⟩
    | decimal x => exact ⟨[.decimal x], rfl, .decimal x⟩
    | string s => exact ⟨[.string s], rfl, .string s⟩
    | parenOpen =>
      rw [parsePrimary]
      obtain ⟨fault, h, hfault⟩ | ⟨e, us, rest, h, rfl, hus⟩ := (ih.expr ts (by omega)).cases
      · rw [h]
        exact hfault
      rw [h]
      dsimp only
      obtain ⟨fault, h, hfault⟩ | ⟨rest, rfl, h⟩ := closeParen_cases rest
      · rw [h]
        exact hfault
      rw [h]
      exact ⟨_, by simp, .group hus⟩
    | spanOpen =>
      rw [parsePrimary]
      obtain ⟨fault, h, hfault⟩ | ⟨e, us, rest, h, rfl, hus⟩ := (ih.expr ts (by omega)).cases
      · rw [h]
        exact hfault
      rw [h]
      dsimp only
      obtain ⟨fault, h, hfault⟩ | ⟨rest, rfl, h⟩ := closeBracket_cases rest
      · rw [h]
        exact hfault
      rw [h]
      exact ⟨_, by simp, .span hus⟩
    | ident name => exact ih.ident_succ (by omega)
    | _ => exact nofun

/-- An operand without prefixes. -/
theorem ReadsAt.path (ih : ReadsAt fuel) (hfuel : 12 * ts.length + 4 ≤ fuel + 1) :
    Reads ts (fun e => Derives (.prefixed e))
      (match parsePrimary fuel ts with
      | .error fault => .error fault
      | .ok (target, rest) =>
        match parseSteps fuel rest with
        | .error fault => .error fault
        | .ok ([], rest) => .ok (target, rest)
        | .ok (step :: steps, rest) => .ok (.path target (step :: steps), rest)) := by
  obtain ⟨fault, h, hfault⟩ | ⟨target, us, rest, h, rfl, hus⟩ := (ih.primary ts (by omega)).cases
  · rw [h]
    exact hfault
  rw [h]
  dsimp only
  have hpos := hus.length_pos nofun
  rw [List.length_append] at hfuel
  obtain ⟨fault, h, hfault⟩ | ⟨steps, vs, rest, h, rfl, hvs⟩ := (ih.steps rest (by omega)).cases
  · rw [h]
    exact hfault
  rw [h]
  cases steps with
  | nil =>
    obtain rfl : vs = [] := begins_of_derives hvs
    exact ⟨us, by simp, .bare hus⟩
  | cons step steps => exact ⟨us ++ vs, by simp, .path hus hvs⟩

theorem ReadsAt.prefixed_succ (ih : ReadsAt fuel) (hfuel : 12 * ts.length + 4 ≤ fuel + 1) :
    Reads ts (fun e => Derives (.prefixed e)) (parseUnary (fuel + 1) ts) := by
  cases ts with
  | nil => exact ih.path hfuel
  | cons t ts =>
    cases t with
    | bang =>
      rw [parseUnary]
      rw [List.length_cons] at hfuel
      obtain ⟨fault, h, hfault⟩ | ⟨operand, us, rest, h, rfl, hus⟩ :=
        (ih.prefixed ts (by omega)).cases
      · rw [h]
        exact hfault
      · rw [h]
        exact ⟨.bang :: us, rfl, .not hus⟩
    | minus =>
      rw [parseUnary]
      rw [List.length_cons] at hfuel
      obtain ⟨fault, h, hfault⟩ | ⟨operand, us, rest, h, rfl, hus⟩ :=
        (ih.prefixed ts (by omega)).cases
      · rw [h]
        exact hfault
      · rw [h]
        exact ⟨.minus :: us, rfl, .negate hus⟩
    | _ => exact ih.path hfuel

end

theorem readsAt (fuel : Nat) : ReadsAt fuel := by
  induction fuel with
  | zero =>
    exact ⟨fun _ h => by omega, fun _ _ _ h => by omega, fun _ _ _ _ _ h => by omega,
      fun _ h => by omega, fun _ h => by omega, fun _ h => by omega, fun _ h => by omega⟩
  | succ fuel ih =>
    exact ⟨fun _ => ih.expr_succ, fun _ _ => ih.level_succ, fun _ _ _ _ => ih.tail_succ,
      fun _ => ih.prefixed_succ, fun _ => ih.steps_succ, fun _ => ih.primary_succ,
      fun _ => ih.args_succ⟩

/-- A whole list of tokens: an expression, or a fault of the tokens. -/
theorem treeOf_reads (ts : List Token) :
    (∃ fault, treeOf ts = .error fault ∧ fault ≠ .exhausted) ∨
      ∃ e, treeOf ts = .ok e ∧ Derives (.expr e) ts := by
  unfold treeOf
  split
  · exact .inl ⟨_, rfl, nofun⟩
  · obtain ⟨fault, h, hfault⟩ | ⟨e, us, rest, h, hts, hus⟩ :=
      ((readsAt (enoughFuel ts)).expr ts (Nat.le_refl _)).cases
    · rw [h]
      exact .inl ⟨fault, rfl, hfault⟩
    rw [h]
    split
    · contradiction
    · rename_i heq
      cases heq
      rw [List.append_nil] at hts
      exact .inr ⟨e, rfl, hts ▸ hus⟩
    all_goals exact .inl ⟨_, rfl, nofun⟩

end WorkflowEngine.Expression
