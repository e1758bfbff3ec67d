import Mathlib.Data.Prod.Lex
import Mathlib.Order.Compare
import WorkflowEngine.Expression.Coercion

/-!
# Order of doubles

Two doubles are compared as what they stand for: sign, exponent and mantissa, or a zero, an
infinity, or "not a number". From that one comparison come "less than" and "equal", so of two
doubles that are numbers exactly one of less, equal and greater holds, and the other way round it
is the mirrored one. "Less than" is that of places in a linear order (`place?`), so it is
transitive.
-/

namespace WorkflowEngine.Decimal

open Float.Model (UnpackedFloat)

/-- How a double stands to another; "not a number" stands in no order to any. -/
def orderOf (x y : Float) : Option Ordering := x.toModel.unpack.compare y.toModel.unpack

variable {x y z : Float}

theorem lt_iff_orderOf : x < y ↔ orderOf x y = some .lt := by
  change decide ((x.toModel.unpack.compare y.toModel.unpack == some .lt) = true) = true ↔ _
  rw [decide_eq_true_iff, beq_iff_eq]
  rfl

theorem beq_iff_orderOf : (x == y) = true ↔ orderOf x y = some .eq := by
  change (x.toModel.unpack.compare y.toModel.unpack == some .eq) = true ↔ _
  rw [beq_iff_eq]
  rfl

theorem swap_then_compare (e e' : Int) (m m' : Nat) :
    (compare e' e).then (compare m' m) = ((compare e e').then (compare m m')).swap := by
  rw [Ordering.swap_then, ← Int.compare_swap, ← Nat.compare_swap]

theorem compare_unpacked_swap (a b : UnpackedFloat) :
    b.compare a = (a.compare b).map Ordering.swap := by
  rcases a with (_ | _) | _ | (_ | _) | ⟨_ | _, m, e, hm⟩ <;>
    rcases b with (_ | _) | _ | (_ | _) | ⟨_ | _, m', e', hm'⟩ <;>
    first
    | rfl
    | exact congrArg some (swap_then_compare e e' m m')
    | exact congrArg (fun o => some o.swap) (swap_then_compare e e' m m')

theorem orderOf_swap (x y : Float) : orderOf y x = (orderOf x y).map Ordering.swap :=
  compare_unpacked_swap _ _

theorem compareFloats_eq_orderOf (x y : Float) : Expression.compareFloats x y = orderOf x y := by
  have hgreater : y < x ↔ orderOf x y = some .gt := by
    rw [lt_iff_orderOf, orderOf_swap x y]
    cases orderOf x y with
    | none => simp
    | some o => cases o <;> simp
  simp only [Expression.compareFloats, lt_iff_orderOf, beq_iff_orderOf, hgreater]
  cases orderOf x y with
  | none => rfl
  | some o => cases o <;> rfl

/-- Where an unpacked double stands among the others: by its sign and kind first, and then by
exponent and mantissa, which count the other way below zero. -/
def place? : UnpackedFloat → Option (Int ×ₗ Int ×ₗ Int)
  | .notANumber => none
  | .infinity .negative => some (toLex (-2, toLex (0, 0)))
  | .finite .negative m e _ => some (toLex (-1, toLex (-e, -m)))
  | .zero _ => some (toLex (0, toLex (0, 0)))
  | .finite .positive m e _ => some (toLex (1, toLex (e, m)))
  | .infinity .positive => some (toLex (2, toLex (0, 0)))

theorem compare_unpacked_eq_lt {a b : UnpackedFloat} :
    a.compare b = some .lt ↔ ∃ p q, place? a = some p ∧ place? b = some q ∧ p < q := by
  rcases a with (_ | _) | _ | (_ | _) | ⟨_ | _, m, e, hm⟩ <;>
    rcases b with (_ | _) | _ | (_ | _) | ⟨_ | _, m', e', hm'⟩ <;>
    dsimp only [UnpackedFloat.compare, place?] <;>
    simp [Prod.Lex.toLex_lt_toLex]
  case infinity.negative.infinity.positive => rfl
  case finite.negative.finite.negative =>
    rw [Ordering.then_eq_gt, Int.compare_eq_gt, Int.compare_eq_eq, Nat.compare_eq_gt]
  case finite.positive.finite.positive =>
    rw [Ordering.then_eq_lt, Int.compare_eq_lt, Int.compare_eq_eq, Nat.compare_eq_lt]

theorem float_lt_trans (hxy : x < y) (hyz : y < z) : x < z := by
  rw [lt_iff_orderOf] at hxy hyz ⊢
  obtain ⟨p, q, hp, hq, hpq⟩ := compare_unpacked_eq_lt.mp hxy
  obtain ⟨q', r, hq', hr, hqr⟩ := compare_unpacked_eq_lt.mp hyz
  obtain rfl : q = q' := Option.some.inj (hq.symm.trans hq')
  exact compare_unpacked_eq_lt.mpr ⟨p, r, hp, hr, hpq.trans hqr⟩

end WorkflowEngine.Decimal
