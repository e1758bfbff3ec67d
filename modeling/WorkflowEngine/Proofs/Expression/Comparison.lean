import Mathlib.Data.String.Basic
import WorkflowEngine.Expression.Eval
import WorkflowEngine.Proofs.Decimal.Order

/-!
# Ordering and equality agree

The ordering operators go by `compareValues` and the equality operators by `looseEq`, two separate
case distinctions. Where two values have an order, equality is that order being `eq`, and the other
way round the order is the mirrored one; where they have none, every ordering operator fails
(`comparisons_agree`).
-/

namespace WorkflowEngine.Expression

open Json (Value)

variable {a b : Value} {o : Ordering}

/-- The order of two texts. -/
def textOrder (s t : String) : Ordering := if s < t then .lt else if s = t then .eq else .gt

theorem textOrder_swap (s t : String) : textOrder t s = (textOrder s t).swap := by
  unfold textOrder
  rcases lt_trichotomy s t with h | rfl | h
  · rw [if_neg (String.lt_asymm h), if_neg h.ne', if_pos h]
    rfl
  · rw [if_neg (String.lt_irrefl s), if_pos rfl]
    rfl
  · rw [if_pos h, if_neg (String.lt_asymm h), if_neg h.ne']
    rfl

theorem textOrder_eq {s t : String} : textOrder s t = .eq ↔ s = t := by
  unfold textOrder
  constructor
  · intro h
    split at h
    · cases h
    · split at h
      · assumption
      · cases h
  · rintro rfl
    rw [if_neg (String.lt_irrefl s), if_pos rfl]

/-! ## Orders of values -/

/-- Values have an order as numbers or as texts. -/
theorem compareValues_eq_some : compareValues a b = some o ↔
    (∃ x y, asNumber a = some x ∧ asNumber b = some y ∧ Decimal.orderOf x y = some o) ∨
    (asNumber a = none ∨ asNumber b = none) ∧
      ∃ s t, a = .str s ∧ b = .str t ∧ textOrder s t = o := by
  unfold compareValues
  split
  · rename_i x y ha hb
    simp [ha, hb, Decimal.compareFloats_eq_orderOf]
  · rename_i hnumbers
    have hnone : asNumber a = none ∨ asNumber b = none := by
      by_contra! h
      obtain ⟨x, ha⟩ := Option.ne_none_iff_exists'.mp h.1
      obtain ⟨y, hb⟩ := Option.ne_none_iff_exists'.mp h.2
      exact hnumbers x y ha hb
    have hnot : ¬ ∃ x y, asNumber a = some x ∧ asNumber b = some y ∧
        Decimal.orderOf x y = some o := by
      rintro ⟨x, y, ha, hb, -⟩
      exact hnumbers x y ha hb
    rw [or_iff_right hnot, and_iff_right hnone]
    split
    · rename_i s t
      simp [textOrder]
    · rename_i hstr
      simp only [reduceCtorEq, false_iff]
      rintro ⟨s, t, rfl, rfl, -⟩
      exact hstr s t rfl rfl

theorem compareValues_swap_of_some (h : compareValues a b = some o) :
    compareValues b a = some o.swap := by
  refine compareValues_eq_some.mpr ?_
  rcases compareValues_eq_some.mp h with ⟨x, y, ha, hb, horder⟩ | ⟨hnone, s, t, rfl, rfl, horder⟩
  · exact .inl ⟨y, x, hb, ha, by rw [Decimal.orderOf_swap x y, horder]; rfl⟩
  · exact .inr ⟨hnone.symm, t, s, rfl, rfl, by rw [textOrder_swap s t, horder]⟩

theorem compareValues_swap (a b : Value) :
    compareValues b a = (compareValues a b).map Ordering.swap := by
  cases hab : compareValues a b with
  | some o => exact compareValues_swap_of_some hab
  | none =>
    cases hba : compareValues b a with
    | none => rfl
    | some o =>
      rw [compareValues_swap_of_some hba] at hab
      cases hab

theorem looseEq_of_numbers {x y : Float} (ha : asNumber a = some x) (hb : asNumber b = some y) :
    looseEq a b = (x == y) := by
  unfold looseEq
  split
  · rename_i x' y' ha' hb'
    rw [ha] at ha'
    rw [hb] at hb'
    cases ha'
    cases hb'
    rfl
  · rename_i hnot
    exact (hnot x y ha hb).elim

theorem looseEq_texts {s t : String}
    (h : asNumber (.str s) = none ∨ asNumber (.str t) = none) :
    looseEq (.str s) (.str t) = (s == t) := by
  unfold looseEq
  split
  · rename_i hs ht
    simp [hs, ht] at h
  · rfl

/-- Of two values that have an order, equality is that order being `eq`. -/
theorem looseEq_of_compareValues (h : compareValues a b = some o) :
    looseEq a b = (o == .eq) := by
  rw [Bool.eq_iff_iff, beq_iff_eq]
  rcases compareValues_eq_some.mp h with ⟨x, y, ha, hb, horder⟩ | ⟨hnone, s, t, rfl, rfl, horder⟩
  · rw [looseEq_of_numbers ha hb, Decimal.beq_iff_orderOf, horder, Option.some_inj]
  · rw [looseEq_texts hnone, beq_iff_eq, ← horder, textOrder_eq]

/-! ## The operators -/

/-- What the six comparisons say of two operands, the first of which stands to the second in the
order `o`. -/
structure Scope.Compares (s : Scope) (span : String) (lhs rhs : Expr) (o : Ordering) : Prop where
  less : s.eval span (.binary .less lhs rhs) = .ok (.bool (o == .lt))
  equal : s.eval span (.binary .equal lhs rhs) = .ok (.bool (o == .eq))
  notEqual : s.eval span (.binary .notEqual lhs rhs) = .ok (.bool (o != .eq))
  greater : s.eval span (.binary .greater lhs rhs) = .ok (.bool (o == .gt))
  lessOrEqual : s.eval span (.binary .lessOrEqual lhs rhs) =
    .ok (.bool (o == .lt || o == .eq))
  greaterOrEqual : s.eval span (.binary .greaterOrEqual lhs rhs) =
    .ok (.bool (o == .gt || o == .eq))

def BinaryOp.isOrdering : BinaryOp → Bool
  | .less | .lessOrEqual | .greater | .greaterOrEqual => true
  | _ => false

/-- Every ordering operator refuses the two operands. -/
def Scope.RefusesOrder (s : Scope) (span : String) (lhs rhs : Expr) (a b : Value) : Prop :=
  ∀ op : BinaryOp, op.isOrdering = true → s.eval span (.binary op lhs rhs) =
    .error (.wrongOperands op (stringify a) (stringify b) span)

section

variable {s : Scope} {span : String} {lhs rhs : Expr}

theorem eval_binary_of_ok {op : BinaryOp} (ha : s.eval span lhs = .ok a)
    (hb : s.eval span rhs = .ok b) (hop : shortCircuit? op a = none) :
    s.eval span (.binary op lhs rhs) = applyBinary span op a b := by
  rw [Scope.eval, ha]
  dsimp only
  rw [hop, hb]

theorem compares_of_some (ha : s.eval span lhs = .ok a) (hb : s.eval span rhs = .ok b)
    (h : compareValues a b = some o) : s.Compares span lhs rhs o := by
  have hequal := looseEq_of_compareValues h
  constructor <;> rw [eval_binary_of_ok ha hb rfl] <;>
    simp only [applyBinary, compareWith, h, hequal, ordered]
  · rfl
  · cases o <;> rfl
  · cases o <;> rfl

theorem refusesOrder_of_none (ha : s.eval span lhs = .ok a) (hb : s.eval span rhs = .ok b)
    (h : compareValues a b = none) : s.RefusesOrder span lhs rhs a b := by
  intro op hop
  cases op <;> cases hop <;> rw [eval_binary_of_ok ha hb rfl] <;>
    simp only [applyBinary, compareWith, h]

end

/-- For two operands that have values, either the ordering operators all fail, whichever operand
comes first, or exactly one of "less", "equal" and "greater" holds, the other comparisons follow
from it, and with the operands swapped the mirrored one holds. -/
theorem comparisons_agree (s : Scope) (span : String) {lhs rhs : Expr}
    (ha : s.eval span lhs = .ok a) (hb : s.eval span rhs = .ok b) :
    (s.RefusesOrder span lhs rhs a b ∧ s.RefusesOrder span rhs lhs b a) ∨
    ∃ o : Ordering, s.Compares span lhs rhs o ∧ s.Compares span rhs lhs o.swap := by
  have hswap := compareValues_swap a b
  cases h : compareValues a b with
  | none =>
    rw [h] at hswap
    exact .inl ⟨refusesOrder_of_none ha hb h, refusesOrder_of_none hb ha hswap⟩
  | some o =>
    rw [h] at hswap
    exact .inr ⟨o, compares_of_some ha hb h, compares_of_some hb ha hswap⟩

/-- A numeral with blanks around it, and an integer. -/
theorem comparisons_agree_numeral :
    let s : Scope := { context := { traceId := "t" }, functions := {} }
    let lhs := Expr.literal (.str " 1e1 ")
    let rhs := Expr.literal (.ofInt 9)
    s.eval "" lhs = .ok (.str " 1e1 ") ∧ s.eval "" rhs = .ok (.ofInt 9) ∧
    ((s.RefusesOrder "" lhs rhs (.str " 1e1 ") (.ofInt 9) ∧
      s.RefusesOrder "" rhs lhs (.ofInt 9) (.str " 1e1 ")) ∨
    ∃ o : Ordering, s.Compares "" lhs rhs o ∧ s.Compares "" rhs lhs o.swap) := by
  intro s lhs rhs
  exact ⟨rfl, rfl, comparisons_agree s "" rfl rfl⟩

end WorkflowEngine.Expression
