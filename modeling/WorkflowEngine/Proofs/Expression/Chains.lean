import Mathlib.Data.List.Chain
import WorkflowEngine.Proofs.Expression.Comparison

/-!
# Chains of comparisons

Two values that both have numbers are compared as numbers, and two texts of which one is no numeral
are compared as texts. Each of the two orders is transitive, but a chain may go from one to the
other. Along two steps that happens only if exactly two of the three values have numbers, and it
does harm only if those two stand differently as numbers and as texts (`Gap`). A chain along which
all values have numbers, or at most one has, is in order from its first value to its last
(`less_transitive`).
-/

namespace WorkflowEngine.Expression

open Json (Value)

variable {a b c : Value}

/-- The value is a number or the text of one. -/
def hasNumber (v : Value) : Bool := (asNumber v).isSome

/-- The values have numbers, and these are in order. -/
def NumberLess (a b : Value) : Prop :=
  ∃ x y, asNumber a = some x ∧ asNumber b = some y ∧ x < y

/-- The values are texts in order. -/
def TextLess (a b : Value) : Prop := ∃ s t, a = .str s ∧ b = .str t ∧ s < t

/-- The first value is less than the second one. -/
def Less (a b : Value) : Prop := compareValues a b = some .lt

instance (a b : Value) : Decidable (Less a b) :=
  inferInstanceAs (Decidable (compareValues a b = some .lt))

theorem hasNumber_eq_false {v : Value} : hasNumber v = false ↔ asNumber v = none := by
  rw [hasNumber, Option.isSome_eq_false_iff, Option.isNone_iff_eq_none]

theorem NumberLess.trans (hab : NumberLess a b) (hbc : NumberLess b c) : NumberLess a c := by
  obtain ⟨x, y, ha, hb, hxy⟩ := hab
  obtain ⟨y', z, hb', hc, hyz⟩ := hbc
  obtain rfl : y = y' := Option.some.inj (hb.symm.trans hb')
  exact ⟨x, z, ha, hc, Decimal.float_lt_trans hxy hyz⟩

theorem NumberLess.left (h : NumberLess a b) : hasNumber a = true := by
  obtain ⟨x, y, ha, -, -⟩ := h
  rw [hasNumber, ha]
  rfl

theorem NumberLess.right (h : NumberLess a b) : hasNumber b = true := by
  obtain ⟨x, y, -, hb, -⟩ := h
  rw [hasNumber, hb]
  rfl

theorem TextLess.trans (hab : TextLess a b) (hbc : TextLess b c) : TextLess a c := by
  obtain ⟨s, t, rfl, rfl, hst⟩ := hab
  obtain ⟨t', u, ht, rfl, htu⟩ := hbc
  cases ht
  exact ⟨s, u, rfl, rfl, String.lt_trans hst htu⟩

/-! ## Two steps -/

theorem textOrder_eq_lt {s t : String} : textOrder s t = .lt ↔ s < t := by
  unfold textOrder
  split
  · rename_i h
    exact iff_of_true rfl h
  · rename_i h
    split <;> exact iff_of_false nofun h

theorem less_iff : Less a b ↔
    NumberLess a b ∨ (hasNumber a = false ∨ hasNumber b = false) ∧ TextLess a b := by
  rw [Less, compareValues_eq_some, hasNumber_eq_false, hasNumber_eq_false]
  simp only [textOrder_eq_lt, ← Decimal.lt_iff_orderOf]
  rfl

theorem less_of_numbers (ha : hasNumber a = true) (hb : hasNumber b = true) :
    Less a b ↔ NumberLess a b := by
  simp [less_iff, ha, hb]

theorem less_of_no_number (h : hasNumber a = false ∨ hasNumber b = false) :
    Less a b ↔ TextLess a b := by
  have hnot : ¬ NumberLess a b := by
    intro hless
    simp [hless.left, hless.right] at h
  simp [less_iff, hnot, h]

/-- Exactly two of three values have numbers, and the first value and the last one are not in the
order that a chain of the three asks for: as numbers if both have one, and as texts if not. -/
inductive Gap (a b c : Value) : Prop where
  | numbersFirst : hasNumber a = true → hasNumber b = true → hasNumber c = false →
      ¬ TextLess a c → Gap a b c
  | numbersLast : hasNumber a = false → hasNumber b = true → hasNumber c = true →
      ¬ TextLess a c → Gap a b c
  | numbersAround : hasNumber a = true → hasNumber b = false → hasNumber c = true →
      ¬ NumberLess a c → Gap a b c

theorem Gap.two (h : Gap a b c) : [a, b, c].countP hasNumber = 2 := by
  cases h with
  | numbersFirst ha hb hc _ => simp [ha, hb, hc]
  | numbersLast ha hb hc _ => simp [ha, hb, hc]
  | numbersAround ha hb hc _ => simp [ha, hb, hc]

theorem less_trans_iff (hab : Less a b) (hbc : Less b c) : Less a c ↔ ¬ Gap a b c := by
  constructor
  · intro hac hgap
    cases hgap with
    | numbersFirst _ _ hc hnot => exact hnot ((less_of_no_number (.inr hc)).mp hac)
    | numbersLast ha _ _ hnot => exact hnot ((less_of_no_number (.inl ha)).mp hac)
    | numbersAround ha _ hc hnot => exact hnot ((less_of_numbers ha hc).mp hac)
  · intro hgap
    -- Where at most one of the three has a number, both steps are steps of texts.
    have htexts : (hasNumber a = false ∨ hasNumber b = false) →
        (hasNumber b = false ∨ hasNumber c = false) → TextLess a c := by
      intro hfirst hlast
      exact ((less_of_no_number hfirst).mp hab).trans ((less_of_no_number hlast).mp hbc)
    cases ha : hasNumber a with
    | false =>
      rw [less_of_no_number (.inl ha)]
      cases hc : hasNumber c with
      | false => exact htexts (.inl ha) (.inr hc)
      | true =>
        cases hb : hasNumber b with
        | false => exact htexts (.inl ha) (.inl hb)
        | true =>
          by_contra hnot
          exact hgap (.numbersLast ha hb hc hnot)
    | true =>
      cases hc : hasNumber c with
      | false =>
        rw [less_of_no_number (.inr hc)]
        cases hb : hasNumber b with
        | false => exact htexts (.inr hb) (.inr hc)
        | true =>
          by_contra hnot
          exact hgap (.numbersFirst ha hb hc hnot)
      | true =>
        rw [less_of_numbers ha hc]
        cases hb : hasNumber b with
        | false =>
          by_contra hnot
          exact hgap (.numbersAround ha hb hc hnot)
        | true => exact ((less_of_numbers ha hb).mp hab).trans ((less_of_numbers hb hc).mp hbc)

/-- The two values that have numbers stand differently as numbers and as texts. -/
theorem Gap.differ (h : Gap a b c) (hab : Less a b) (hbc : Less b c) :
    NumberLess a b ∧ ¬ TextLess a b ∨ NumberLess b c ∧ ¬ TextLess b c ∨
      TextLess a c ∧ ¬ NumberLess a c := by
  cases h with
  | numbersFirst ha hb hc hnot =>
    have htext := (less_of_no_number (.inr hc)).mp hbc
    exact .inl ⟨(less_of_numbers ha hb).mp hab, fun hless => hnot (hless.trans htext)⟩
  | numbersLast ha hb hc hnot =>
    have htext := (less_of_no_number (.inl ha)).mp hab
    exact .inr (.inl ⟨(less_of_numbers hb hc).mp hbc, fun hless => hnot (htext.trans hless)⟩)
  | numbersAround ha hb hc hnot =>
    have hfirst := (less_of_no_number (.inr hb)).mp hab
    exact .inr (.inr ⟨hfirst.trans ((less_of_no_number (.inl hb)).mp hbc), hnot⟩)

/-! ## Longer chains -/

/-- All of the values have numbers, or at most one has. -/
def Unmixed (vs : List Value) : Prop :=
  (∀ v ∈ vs, hasNumber v = true) ∨ vs.countP hasNumber ≤ 1

theorem Unmixed.tail {v : Value} {vs : List Value} (h : Unmixed (v :: vs)) : Unmixed vs := by
  rcases h with hall | hone
  · exact .inl fun w hw => hall w (List.mem_cons_of_mem v hw)
  · rw [List.countP_cons] at hone
    exact .inr (by omega)

/-- No gap opens between the first two of the values and another one. -/
theorem Unmixed.not_gap {vs : List Value} (h : Unmixed (a :: b :: vs)) (hc : c ∈ vs) :
    ¬ Gap a b c := by
  intro hgap
  have htwo := hgap.two
  rcases h with hall | hone
  · have hthree : [a, b, c].countP hasNumber = [a, b, c].length := by
      refine List.countP_eq_length.mpr fun v hv => hall v ?_
      simp only [List.mem_cons, List.not_mem_nil, or_false] at hv ⊢
      rcases hv with rfl | rfl | rfl
      · exact .inl rfl
      · exact .inr (.inl rfl)
      · exact .inr (.inr hc)
    rw [htwo] at hthree
    cases hthree
  · have hsub : [a, b, c].Sublist (a :: b :: vs) :=
      ((List.singleton_sublist.mpr hc).cons_cons b).cons_cons a
    have hle := hsub.countP_le (p := hasNumber)
    omega

/-- A chain of such values is in order throughout. -/
theorem Unmixed.pairwise_less {vs : List Value} (h : Unmixed vs) (hchain : vs.IsChain Less) :
    vs.Pairwise Less := by
  induction vs with
  | nil => exact .nil
  | cons a vs ih =>
    have hrest := ih h.tail hchain.tail
    cases vs with
    | nil => exact List.pairwise_singleton ..
    | cons b vs =>
      have hab := (List.isChain_cons_cons.mp hchain).1
      refine List.pairwise_cons.mpr ⟨fun c hc => ?_, hrest⟩
      rcases List.mem_cons.mp hc with rfl | hc
      · exact hab
      · have hbc := (List.pairwise_cons.mp hrest).1 c hc
        exact (less_trans_iff hab hbc).mpr (h.not_gap hc)

theorem Less.not_less (h : Less a b) : ¬ Less b a := by
  intro hba
  rw [Less, compareValues_swap_of_some h] at hba
  cases hba

/-! ## Chains of operands -/

/-- "Less than" evaluates to true for the two operands. -/
def Scope.IsLess (s : Scope) (span : String) (lhs rhs : Expr) : Prop :=
  s.eval span (.binary .less lhs rhs) = .ok (.bool true)

section

variable {s : Scope} {span : String} {ea eb ec : Expr}

theorem isLess_iff (ha : s.eval span ea = .ok a) (hb : s.eval span eb = .ok b) :
    s.IsLess span ea eb ↔ Less a b := by
  rw [Scope.IsLess, Less]
  cases h : compareValues a b with
  | none =>
    rw [refusesOrder_of_none ha hb h .less rfl]
    simp
  | some o =>
    rw [(compares_of_some ha hb h).less]
    simp

/-- A chain of operands is one of their values. -/
theorem isChain_map {value : Expr → Value} {es : List Expr}
    (hvalues : ∀ e ∈ es, s.eval span e = .ok (value e)) (hchain : es.IsChain (s.IsLess span)) :
    (es.map value).IsChain Less := by
  refine (List.isChain_map value).mpr (hchain.imp_of_mem_imp ?_)
  intro ea eb ha hb hless
  exact (isLess_iff (hvalues ea ha) (hvalues eb hb)).mp hless

/-- A chain that is in order throughout does not lead back. -/
theorem not_isLess_back {value : Expr → Value} {es : List Expr}
    (hvalues : ∀ e ∈ es, s.eval span e = .ok (value e)) (hless : es.Pairwise (s.IsLess span))
    (hfirst : es.head? = some ea) (hlast : es.getLast? = some eb) : ¬ s.IsLess span eb ea := by
  have ha := hvalues ea (List.mem_of_mem_head? hfirst)
  have hb := hvalues eb (List.mem_of_mem_getLast? hlast)
  rw [isLess_iff hb ha]
  obtain ⟨rest, rfl⟩ := List.head?_eq_some_iff.mp hfirst
  rcases List.mem_cons.mp (List.mem_of_mem_getLast? hlast) with rfl | hmem
  · exact fun hself => hself.not_less hself
  · have hab := (List.pairwise_cons.mp hless).1 eb hmem
    exact ((isLess_iff ha hb).mp hab).not_less

end

/-- Where the first of three operands is less than the second and the second less than the third,
the first is less than the third unless exactly two of them have numbers and these two stand
differently as numbers and as texts. A chain of operands of which all have numbers, or at most one
has, is in order throughout, so that it never leads back. -/
theorem less_transitive (s : Scope) (span : String) :
    (∀ {ea eb ec : Expr} {a b c : Value}, s.eval span ea = .ok a → s.eval span eb = .ok b →
      s.eval span ec = .ok c → s.IsLess span ea eb → s.IsLess span eb ec →
      (s.IsLess span ea ec ↔ ¬ Gap a b c) ∧
      (Gap a b c → [a, b, c].countP hasNumber = 2 ∧
        (NumberLess a b ∧ ¬ TextLess a b ∨ NumberLess b c ∧ ¬ TextLess b c ∨
          TextLess a c ∧ ¬ NumberLess a c))) ∧
    ∀ (es : List Expr) (value : Expr → Value), (∀ e ∈ es, s.eval span e = .ok (value e)) →
      es.IsChain (s.IsLess span) → Unmixed (es.map value) →
      es.Pairwise (s.IsLess span) ∧
      ∀ first last, es.head? = some first → es.getLast? = some last →
        ¬ s.IsLess span last first := by
  constructor
  · intro ea eb ec a b c ha hb hc hab hbc
    rw [isLess_iff ha hb] at hab
    rw [isLess_iff hb hc] at hbc
    rw [isLess_iff ha hc]
    exact ⟨less_trans_iff hab hbc, fun hgap => ⟨hgap.two, hgap.differ hab hbc⟩⟩
  · intro es value hvalues hchain hunmixed
    have hpairwise : es.Pairwise (s.IsLess span) := by
      have hless := List.pairwise_map.mp (hunmixed.pairwise_less (isChain_map hvalues hchain))
      refine hless.imp_of_mem ?_
      intro ea eb ha hb
      exact (isLess_iff (hvalues ea ha) (hvalues eb hb)).mpr
    exact ⟨hpairwise, fun first last => not_isLess_back hvalues hpairwise⟩

/-- A gap behind two texts that are numerals, and a chain of four values that all have numbers. -/
theorem less_transitive_thresholds :
    let s : Scope := { context := { traceId := "t" }, functions := {} }
    let text (t : String) : Expr := .literal (.str t)
    let es : List Expr := [text " -1e1", .literal (.ofInt 2), text "2.5", text "INF"]
    (s.IsLess "" (text "2") (text "10") ∧ s.IsLess "" (text "10") (text "1a") ∧
      (s.IsLess "" (text "2") (text "1a") ↔ ¬ Gap (.str "2") (.str "10") (.str "1a"))) ∧
    es.IsChain (s.IsLess "") ∧ es.Pairwise (s.IsLess "") := by
  intro s text es
  have hliteral : ∀ v w : Value, Less v w → s.IsLess "" (.literal v) (.literal w) :=
    fun v w => (isLess_iff rfl rfl).mpr
  have hab : s.IsLess "" (text "2") (text "10") := hliteral _ _ (by decide +kernel)
  have hbc : s.IsLess "" (text "10") (text "1a") := hliteral _ _ (by decide +kernel)
  have hchain : es.IsChain (s.IsLess "") := by
    simp only [es, text, List.isChain_cons_cons, List.isChain_singleton, and_true]
    refine ⟨hliteral _ _ ?_, hliteral _ _ ?_, hliteral _ _ ?_⟩ <;> decide +kernel
  obtain ⟨htriple, hlist⟩ := less_transitive s ""
  let value : Expr → Value := fun e => (s.eval "" e).toOption.getD .null
  have hvalues : ∀ e ∈ es, s.eval "" e = .ok (value e) := by
    simp only [es, text, List.mem_cons, List.not_mem_nil, or_false]
    rintro e (rfl | rfl | rfl | rfl) <;> rfl
  have hunmixed : Unmixed (es.map value) := by
    refine .inl ?_
    decide +kernel
  have hpairs := (hlist es value hvalues hchain hunmixed).1
  exact ⟨⟨hab, hbc, (htriple rfl rfl rfl hab hbc).1⟩, hchain, hpairs⟩

/-- Numbers lead up to a text that is no numeral, and texts lead back. -/
theorem less_cycle :
    let s : Scope := { context := { traceId := "t" }, functions := {} }
    let text (t : String) : Expr := .literal (.str t)
    s.IsLess "" (text "2") (text "10") ∧ s.IsLess "" (text "10") (text "1a") ∧
      ¬ s.IsLess "" (text "2") (text "1a") ∧ s.IsLess "" (text "1a") (text "2") := by
  intro s text
  have hliteral : ∀ t t' : String, s.IsLess "" (text t) (text t') ↔ Less (.str t) (.str t') :=
    fun t t' => isLess_iff rfl rfl
  simp only [hliteral]
  decide +kernel

end WorkflowEngine.Expression
