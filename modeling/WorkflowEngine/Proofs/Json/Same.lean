import Mathlib
import WorkflowEngine.Json.Value

/-!
# Equality of JSON values

Two values are equal as values exactly when they are the same value once every negative zero is
taken for zero (`Value.same_iff`). That holds for the values that JSON has, in which every double is
finite: "not a number" would not be equal to itself.
-/

namespace WorkflowEngine.Json

/-- Every double is finite. -/
inductive Value.Finite : Value → Prop where
  | null : Finite .null
  | bool (b : Bool) : Finite (.bool b)
  | int (i : Int) : Finite (.num (.int i))
  | float {x : Float} : x.isFinite = true → Finite (.num (.float x))
  | str (s : String) : Finite (.str s)
  | arr {items : List Value} : (∀ v ∈ items, Finite v) → Finite (.arr items)
  | obj {fields : List (String × Value)} : (∀ e ∈ fields, Finite e.2) → Finite (.obj fields)

/-! ## Doubles -/

section

variable {x y : Float}

theorem ne_nan_of_isFinite (h : x.isFinite = true) : x ≠ Float.nan := by
  rintro rfl
  exact absurd h (by decide)

/-- A double, with zero in place of negative zero. -/
def plusZero (x : Float) : Float := if x = -0.0 then 0.0 else x

theorem plusZero_eq_nan (h : plusZero x = Float.nan) : x = Float.nan := by
  unfold plusZero at h
  split at h
  · exact absurd h (by decide)
  · exact h

/-- Comparison of doubles takes no notice of the sign of a zero, and else of everything. -/
theorem beq_iff_plusZero (hx : x ≠ Float.nan) : (x == y) = true ↔ plusZero x = plusZero y := by
  have hzero : (0.0 : Float) = 0 := by decide
  have hne : (0 : Float) ≠ -0 := by decide
  rw [Float.beq_iff_ne_nan_and_eq]
  constructor
  · rintro ⟨-, -, rfl | ⟨rfl, rfl⟩ | ⟨rfl, rfl⟩⟩
    · rfl
    · decide
    · decide
  · intro h
    have hy : y ≠ Float.nan := by
      rintro rfl
      exact hx (plusZero_eq_nan (h.trans (by decide)))
    refine ⟨hx, hy, ?_⟩
    simp only [plusZero, hzero] at h
    split at h <;> split at h
    · left
      simp [*]
    · right; right
      exact ⟨‹_›, h.symm⟩
    · right; left
      exact ⟨h, ‹_›⟩
    · exact .inl h

end

/-! ## Values -/

def Number.plusZero : Number → Number
  | .int i => .int i
  | .float x => .float (Json.plusZero x)

mutual

/-- A value with zero in place of every negative zero in it. -/
def Value.plusZeros : Value → Value
  | .num n => .num n.plusZero
  | .arr items => .arr (Value.plusZerosItems items)
  | .obj fields => .obj (Value.plusZerosFields fields)
  | v => v

def Value.plusZerosItems : List Value → List Value
  | [] => []
  | v :: vs => v.plusZeros :: Value.plusZerosItems vs

def Value.plusZerosFields : List (String × Value) → List (String × Value)
  | [] => []
  | (k, v) :: es => (k, v.plusZeros) :: Value.plusZerosFields es

end

theorem Number.same_iff {m : Number} (hm : (Value.num m).Finite) (n : Number) :
    m.same n = true ↔ m.plusZero = n.plusZero := by
  cases hm with
  | int i => cases n <;> simp [Number.same, Number.plusZero]
  | float hx =>
    cases n with
    | int j => simp [Number.same, Number.plusZero]
    | float y =>
      rw [Number.same, beq_iff_plusZero (ne_nan_of_isFinite hx), Number.plusZero, Number.plusZero,
        Number.float.injEq]

mutual

theorem Value.same_iff (v w : Value) (hv : v.Finite) :
    v.same w = true ↔ v.plusZeros = w.plusZeros := by
  match v with
  | .null => cases w <;> simp [Value.same, Value.plusZeros]
  | .bool b => cases w <;> simp [Value.same, Value.plusZeros]
  | .str s => cases w <;> simp [Value.same, Value.plusZeros]
  | .num m =>
    cases w with
    | num n => rw [Value.same, Number.same_iff hv, Value.plusZeros, Value.plusZeros, Value.num.injEq]
    | _ => simp [Value.same, Value.plusZeros]
  | .arr vs =>
    cases hv with
    | arr hvs =>
      cases w with
      | arr ws =>
        rw [Value.same, Value.sameItems_iff vs ws hvs, Value.plusZeros, Value.plusZeros,
          Value.arr.injEq]
      | _ => simp [Value.same, Value.plusZeros]
  | .obj es =>
    cases hv with
    | obj hes =>
      cases w with
      | obj fs =>
        rw [Value.same, Value.sameFields_iff es fs hes, Value.plusZeros, Value.plusZeros,
          Value.obj.injEq]
      | _ => simp [Value.same, Value.plusZeros]

theorem Value.sameItems_iff (vs ws : List Value) (hvs : ∀ v ∈ vs, v.Finite) :
    Value.sameItems vs ws = true ↔ Value.plusZerosItems vs = Value.plusZerosItems ws := by
  match vs, ws with
  | [], [] => simp [Value.sameItems]
  | [], w :: ws => simp [Value.sameItems, Value.plusZerosItems]
  | v :: vs, [] => simp [Value.sameItems, Value.plusZerosItems]
  | v :: vs, w :: ws =>
    obtain ⟨hv, hvs⟩ := List.forall_mem_cons.mp hvs
    rw [Value.sameItems, Bool.and_eq_true, Value.same_iff v w hv, Value.sameItems_iff vs ws hvs,
      Value.plusZerosItems, Value.plusZerosItems, List.cons.injEq]

theorem Value.sameFields_iff (es fs : List (String × Value)) (hes : ∀ e ∈ es, e.2.Finite) :
    Value.sameFields es fs = true ↔ Value.plusZerosFields es = Value.plusZerosFields fs := by
  match es, fs with
  | [], [] => simp [Value.sameFields]
  | [], f :: fs => simp [Value.sameFields, Value.plusZerosFields]
  | e :: es, [] => simp [Value.sameFields, Value.plusZerosFields]
  | (k, v) :: es, (l, w) :: fs =>
    obtain ⟨hv, hes⟩ := List.forall_mem_cons.mp hes
    rw [Value.sameFields, Bool.and_eq_true, Bool.and_eq_true, beq_iff_eq, Value.same_iff v w hv,
      Value.sameFields_iff es fs hes, Value.plusZerosFields, Value.plusZerosFields,
      List.cons.injEq, Prod.mk.injEq]

end

end WorkflowEngine.Json
