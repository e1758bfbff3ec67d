import Mathlib
import WorkflowEngine.Decimal.Shortest

/-!
# Shortest decimals tell doubles apart

Seventeen digits reach into the interval of every double: the grid of decimals with that many
digits is narrower than the interval is wide (`Binary.holds_shortest`). The intervals of different
doubles have no point in common (`Binary.eq_of_holds`), so a double is known from its shortest
decimal.
-/

namespace WorkflowEngine.Decimal

/-! ## Values -/

def Scaled.value (d : Scaled) : ℚ := d.digits * (10 : ℚ) ^ d.exponent

def Ratio.value (r : Ratio) : ℚ := r.num / r.den

theorem two_zpow_pos (e : Int) : 0 < (2 : ℚ) ^ e := zpow_pos (by norm_num) e

theorem ten_zpow_pos (e : Int) : 0 < (10 : ℚ) ^ e := zpow_pos (by norm_num) e

section

variable {r : Ratio} {n : Nat} {e : Int}

theorem scaleTwo_den_pos : 0 < (Ratio.scaleTwo n e).den := by
  unfold Ratio.scaleTwo
  split
  · exact Nat.one_pos
  · exact Nat.two_pow_pos _

theorem scaleTwo_value : (Ratio.scaleTwo n e).value = n * (2 : ℚ) ^ e := by
  unfold Ratio.scaleTwo Ratio.value
  split
  · rename_i hpos
    obtain ⟨k, rfl⟩ := Int.eq_ofNat_of_zero_le hpos
    simp
  · rename_i hneg
    obtain ⟨k, hk⟩ := Int.eq_ofNat_of_zero_le (show 0 ≤ -e by omega)
    obtain rfl : e = -(k : Int) := by omega
    simp [div_eq_mul_inv]

theorem shiftTen_den_pos (hr : 0 < r.den) : 0 < (r.shiftTen e).den := by
  unfold Ratio.shiftTen
  split
  · exact Nat.mul_pos hr (Nat.pow_pos (by decide))
  · exact hr

theorem shiftTen_value : (r.shiftTen e).value = r.value / (10 : ℚ) ^ e := by
  unfold Ratio.shiftTen Ratio.value
  split
  · rename_i hpos
    obtain ⟨k, rfl⟩ := Int.eq_ofNat_of_zero_le hpos
    simp [div_div]
  · rename_i hneg
    obtain ⟨k, hk⟩ := Int.eq_ofNat_of_zero_le (show 0 ≤ -e by omega)
    obtain rfl : e = -(k : Int) := by omega
    simp [div_mul_eq_mul_div]

theorem Ratio.value_le_iff (hr : 0 < r.den) : r.value ≤ n ↔ r.num ≤ n * r.den := by
  rw [Ratio.value, div_le_iff₀ (by exact_mod_cast hr)]
  exact_mod_cast Iff.rfl

theorem Ratio.le_value_iff (hr : 0 < r.den) : n ≤ r.value ↔ n * r.den ≤ r.num := by
  rw [Ratio.value, le_div_iff₀ (by exact_mod_cast hr)]
  exact_mod_cast Iff.rfl

theorem Ratio.div_le_value (hr : 0 < r.den) : ((r.num / r.den : Nat) : ℚ) ≤ r.value :=
  (Ratio.le_value_iff hr).mpr (Nat.div_mul_le_self _ _)

theorem Ratio.value_lt_div_add_one (hr : 0 < r.den) :
    r.value < ((r.num / r.den + 1 : Nat) : ℚ) := by
  rw [← not_le, Ratio.le_value_iff hr, not_le]
  exact Nat.lt_mul_of_div_lt (Nat.lt_succ_self _) hr

end

/-! ## The interval of a double -/

namespace Interval

def lower (i : Interval) : ℚ := i.low * (2 : ℚ) ^ i.exponent

def upper (i : Interval) : ℚ := i.high * (2 : ℚ) ^ i.exponent

def middle (i : Interval) : ℚ := i.value * (2 : ℚ) ^ i.exponent

/-- The reals in the interval. -/
def Holds (i : Interval) (x : ℚ) : Prop :=
  if i.closed then i.lower ≤ x ∧ x ≤ i.upper else i.lower < x ∧ x < i.upper

variable {i : Interval} {d : Nat} {e : Int} {x : ℚ}

theorem holds_of_between (hlow : i.lower < x) (hhigh : x < i.upper) : i.Holds x := by
  unfold Holds
  split
  · exact ⟨hlow.le, hhigh.le⟩
  · exact ⟨hlow, hhigh⟩

theorem Holds.bounds (h : i.Holds x) : i.lower ≤ x ∧ x ≤ i.upper := by
  unfold Holds at h
  split at h
  · exact h
  · exact ⟨h.1.le, h.2.le⟩

theorem contains_iff : i.contains d e = true ↔ i.Holds (d * (10 : ℚ) ^ e) := by
  have hden : ∀ n, 0 < ((Ratio.scaleTwo n i.exponent).shiftTen e).den := fun n =>
    shiftTen_den_pos scaleTwo_den_pos
  have hvalue : ∀ n : Nat, ((Ratio.scaleTwo n i.exponent).shiftTen e).value =
      n * (2 : ℚ) ^ i.exponent / (10 : ℚ) ^ e := fun n => by
    rw [shiftTen_value, scaleTwo_value]
  have hten := ten_zpow_pos e
  have hlow := Ratio.value_le_iff (n := d) (hden i.low)
  have hlow' := Ratio.le_value_iff (n := d) (hden i.low)
  have hhigh := Ratio.le_value_iff (n := d) (hden i.high)
  have hhigh' := Ratio.value_le_iff (n := d) (hden i.high)
  rw [hvalue, div_le_iff₀ hten] at hlow hhigh'
  rw [hvalue, le_div_iff₀ hten] at hhigh hlow'
  unfold contains Holds lower upper
  split
  · rw [Bool.and_eq_true, decide_eq_true_iff, decide_eq_true_iff, hlow, hhigh]
  · rw [Bool.and_eq_true, decide_eq_true_iff, decide_eq_true_iff, ← not_le, ← not_le, ← not_le,
      ← not_le, hlow', hhigh']

theorem holds_of_onGrid {found : Scaled} (h : i.onGrid e = some found) :
    i.Holds found.value := by
  unfold onGrid at h
  dsimp only at h
  split at h
  · rename_i hbelow habove
    rw [contains_iff] at hbelow habove
    split at h
    · cases h
      exact habove
    · split at h
      · cases h
        exact hbelow
      · split at h <;> cases h
        · exact hbelow
        · exact habove
  · rename_i hbelow _
    cases h
    exact contains_iff.mp hbelow
  · rename_i _ habove
    cases h
    exact contains_iff.mp habove
  · cases h

theorem holds_of_search {leading : Int} {grids count : Nat} {found : Scaled}
    (h : i.search leading grids count = some found) : i.Holds found.value := by
  induction grids generalizing count with
  | zero => cases h
  | succ grids ih =>
    rw [search] at h
    split at h
    · rename_i hfound
      cases h
      exact holds_of_onGrid hfound
    · exact ih h

/-- A grid that is narrower than the interval is wide has a point in it. -/
theorem onGrid_ne_none (hlow : i.lower < i.middle) (hhigh : i.middle < i.upper)
    (hgrid : (10 : ℚ) ^ e < i.upper - i.lower) : i.onGrid e ≠ none := by
  intro hnone
  have hten := ten_zpow_pos e
  have hden : 0 < ((Ratio.scaleTwo i.value i.exponent).shiftTen e).den :=
    shiftTen_den_pos scaleTwo_den_pos
  have hbelow := Ratio.div_le_value hden
  have habove := Ratio.value_lt_div_add_one hden
  rw [shiftTen_value, scaleTwo_value] at hbelow habove
  rw [le_div_iff₀ hten] at hbelow
  rw [div_lt_iff₀ hten] at habove
  unfold onGrid at hnone
  dsimp only at hnone
  generalize ((Ratio.scaleTwo i.value i.exponent).shiftTen e).num /
    ((Ratio.scaleTwo i.value i.exponent).shiftTen e).den = below at hbelow habove hnone
  split at hnone
  · split at hnone
    · cases hnone
    · split at hnone
      · cases hnone
      · split at hnone <;> cases hnone
  · cases hnone
  · cases hnone
  · rename_i hnotBelow hnotAbove
    rw [← Bool.not_eq_true, contains_iff] at hnotBelow hnotAbove
    have hlower : (below : ℚ) * (10 : ℚ) ^ e ≤ i.lower := by
      by_contra! hlt
      exact hnotBelow (holds_of_between hlt (lt_of_le_of_lt hbelow hhigh))
    have hupper : i.upper ≤ ((below + 1 : Nat) : ℚ) * (10 : ℚ) ^ e := by
      by_contra! hlt
      exact hnotAbove (holds_of_between (lt_trans hlow habove) hlt)
    push_cast at hupper
    linarith

theorem search_ne_none {leading : Int} {grids count : Nat}
    (h : i.onGrid (leading - ((count + grids : Nat) : Int) + 1) ≠ none) :
    i.search leading (grids + 1) count ≠ none := by
  induction grids generalizing count with
  | zero =>
    rw [search]
    split
    · exact Option.some_ne_none _
    · rename_i hnone
      exact absurd hnone h
  | succ grids ih =>
    rw [search]
    split
    · exact Option.some_ne_none _
    · refine ih ?_
      rwa [show count + 1 + grids = count + (grids + 1) by omega]

end Interval

/-! ## Digits of a fraction -/

theorem lt_ten_pow_digitCount (n : Nat) : n < 10 ^ digitCount n :=
  (Nat.length_toDigits_le_iff (by decide) Nat.length_toDigits_pos).mp (Nat.le_refl _)

theorem ten_pow_le_of_pos {n : Nat} (hn : 0 < n) : 10 ^ (digitCount n - 1) ≤ n := by
  by_contra! hlt
  rcases Nat.eq_zero_or_pos (digitCount n - 1) with hone | hmore
  · rw [hone] at hlt
    omega
  · have hshort := (Nat.length_toDigits_le_iff (by decide) hmore).mpr hlt
    rw [← digitCount] at hshort
    omega

theorem Ratio.leadingExponent_le {r : Ratio} (hnum : 0 < r.num) (hden : 0 < r.den) :
    (10 : ℚ) ^ r.leadingExponent ≤ r.value := by
  unfold Ratio.leadingExponent
  split
  · rename_i hle
    have hpos : 0 < r.num / r.den := Nat.div_pos hle hden
    have hcount : 0 < digitCount (r.num / r.den) := Nat.length_toDigits_pos
    obtain ⟨k, hk⟩ := Nat.exists_eq_add_of_lt hcount
    rw [Nat.zero_add] at hk
    have hpow := ten_pow_le_of_pos hpos
    rw [hk] at hpow ⊢
    calc (10 : ℚ) ^ (((k + 1 : Nat) : Int) - 1) = ((10 ^ k : Nat) : ℚ) := by simp
      _ ≤ ((r.num / r.den : Nat) : ℚ) := by exact_mod_cast hpow
      _ ≤ r.value := Ratio.div_le_value hden
  · rename_i hlt
    have hpow := lt_ten_pow_digitCount (r.den / r.num)
    have hswap : r.den < 10 ^ digitCount (r.den / r.num) * r.num :=
      (Nat.div_lt_iff_lt_mul hnum).mp hpow
    have hden' : (0 : ℚ) < r.den := by exact_mod_cast hden
    rw [Ratio.value, zpow_neg, zpow_natCast, inv_le_iff_one_le_mul₀ (by positivity),
      div_mul_eq_mul_div, le_div_iff₀ hden', one_mul, mul_comm]
    exact_mod_cast hswap.le

/-! ## The shortest decimal -/

theorem trimZeros_value (fuel : Nat) (d : Scaled) : (d.trimZeros fuel).value = d.value := by
  induction fuel generalizing d with
  | zero => rfl
  | succ fuel ih =>
    rw [Scaled.trimZeros]
    split
    · rename_i hzero
      obtain ⟨k, hk⟩ : ∃ k, d.digits = 10 * k := ⟨d.digits / 10, by omega⟩
      rw [ih, Scaled.value, Scaled.value, hk, Nat.mul_div_cancel_left k (by decide),
        zpow_add_one₀ (by norm_num)]
      push_cast
      ring
    · rfl

namespace Binary

/-- The form in which a double is taken apart: only the least exponent has fewer than 53 bits. -/
structure Normal (b : Binary) : Prop where
  significand_lt : b.significand < 2 ^ 53
  exponent_ge : -1074 ≤ b.exponent
  significand_ge : -1074 < b.exponent → 2 ^ 52 ≤ b.significand

variable {b b' : Binary} {x : ℚ}

/-- How far the interval reaches down, in quarters of the last place. -/
def reach (b : Binary) : Nat := if b.isPowerEdge then 1 else 2

theorem isPowerEdge_iff : b.isPowerEdge = true ↔ b.significand = 2 ^ 52 ∧ -1074 < b.exponent := by
  simp [isPowerEdge]

theorem interval_lower (b : Binary) :
    b.interval.lower = ((4 * b.significand - b.reach : Nat) : ℚ) * (2 : ℚ) ^ (b.exponent - 2) :=
  rfl

theorem interval_upper (b : Binary) :
    b.interval.upper = ((4 * b.significand + 2 : Nat) : ℚ) * (2 : ℚ) ^ (b.exponent - 2) := rfl

theorem interval_middle (b : Binary) :
    b.interval.middle = ((4 * b.significand : Nat) : ℚ) * (2 : ℚ) ^ (b.exponent - 2) := rfl

theorem reach_pos (b : Binary) : 0 < b.reach := by
  unfold reach
  split <;> decide

theorem reach_le (b : Binary) : b.reach ≤ 2 := by
  unfold reach
  split <;> decide

/-- The grid of seventeen digits is narrower than the interval is wide. -/
theorem grid_narrow (hpos : 0 < b.significand) (hlt : b.significand < 2 ^ 53) {e : Int}
    (hlead : (10 : ℚ) ^ e ≤ b.interval.middle) :
    (10 : ℚ) ^ (e - 16) < b.interval.upper - b.interval.lower := by
  have hreach := b.reach_le
  have hwide : 4 * b.significand < (2 + b.reach) * 10 ^ 16 := by
    unfold reach
    split
    · rename_i hedge
      rw [(isPowerEdge_iff.mp hedge).1]
      decide
    · omega
  have hwide' : (4 * b.significand : ℚ) < (2 + b.reach) * 10 ^ 16 := by exact_mod_cast hwide
  have hpow := two_zpow_pos (b.exponent - 2)
  have hshift : (10 : ℚ) ^ e = (10 : ℚ) ^ (e - 16) * 10 ^ 16 := by
    rw [← zpow_natCast, ← zpow_add₀ (by norm_num)]
    norm_num
  rw [interval_middle, hshift] at hlead
  rw [interval_upper, interval_lower, ← sub_mul, Nat.cast_sub (by omega)]
  push_cast at hlead ⊢
  refine lt_of_mul_lt_mul_right ?_ (show (0 : ℚ) ≤ 10 ^ 16 by norm_num)
  calc (10 : ℚ) ^ (e - 16) * 10 ^ 16 ≤ 4 * b.significand * 2 ^ (b.exponent - 2) := hlead
    _ < (2 + b.reach) * 10 ^ 16 * 2 ^ (b.exponent - 2) := by gcongr
    _ = _ := by ring

theorem holds_shortest (hpos : 0 < b.significand) (hlt : b.significand < 2 ^ 53) :
    b.interval.Holds b.shortest.value := by
  have hpow := two_zpow_pos (b.exponent - 2)
  have hlow : b.interval.lower < b.interval.middle := by
    rw [interval_lower, interval_middle]
    have := b.reach_pos
    gcongr
    omega
  have hhigh : b.interval.middle < b.interval.upper := by
    rw [interval_middle, interval_upper]
    gcongr
    omega
  have hnum : 0 < (Ratio.scaleTwo b.interval.value b.interval.exponent).num := by
    have hvalue : 0 < b.interval.value := Nat.mul_pos (by decide) hpos
    unfold Ratio.scaleTwo
    split
    · exact Nat.mul_pos hvalue (Nat.two_pow_pos _)
    · exact hvalue
  have hlead := (Ratio.leadingExponent_le hnum scaleTwo_den_pos).trans_eq scaleTwo_value
  have hgrid := Interval.onGrid_ne_none hlow hhigh (grid_narrow hpos hlt hlead)
  unfold shortest
  dsimp only
  generalize (Ratio.scaleTwo b.interval.value b.interval.exponent).leadingExponent = leading
    at hgrid
  have hsearch : b.interval.search leading 17 1 ≠ none := by
    refine Interval.search_ne_none ?_
    rwa [show leading - ((1 + 16 : Nat) : Int) + 1 = leading - 16 by omega]
  obtain ⟨d, hd⟩ := Option.ne_none_iff_exists'.mp hsearch
  rw [hd, Option.getD_some, trimZeros_value]
  exact Interval.holds_of_search hd

/-- Of two doubles, the interval of the smaller ends where that of the larger begins or before; where
they meet, one of the two significands is odd. All this in quarters of the smaller last place. -/
theorem quarters_apart (hb : b.Normal) (hb' : b'.Normal) {k : Nat}
    (hk : b'.exponent = b.exponent + k) (h : k = 0 → b.significand < b'.significand) :
    4 * b.significand + 2 < (4 * b'.significand - b'.reach) * 2 ^ k ∨
      4 * b.significand + 2 = (4 * b'.significand - b'.reach) * 2 ^ k ∧
        (b.significand % 2 = 1 ∨ b'.significand % 2 = 1) := by
  obtain ⟨hlt, hge, hfull⟩ := hb
  obtain ⟨hlt', hge', hfull'⟩ := hb'
  have hreach : b'.reach = 1 ∧ b'.significand = 2 ^ 52 ∧ -1074 < b'.exponent ∨
      b'.reach = 2 ∧ (b'.significand = 2 ^ 52 → b'.exponent = -1074) := by
    unfold reach
    split
    · rename_i hedge
      exact .inl ⟨rfl, isPowerEdge_iff.mp hedge⟩
    · rename_i hedge
      rw [isPowerEdge_iff, not_and, not_lt] at hedge
      exact .inr ⟨rfl, fun heq => le_antisymm (hedge heq) hge'⟩
  cases k with
  | zero =>
    have hless := h rfl
    rw [pow_zero, Nat.mul_one]
    omega
  | succ k =>
    have hpow : 1 ≤ 2 ^ k := Nat.one_le_two_pow
    have hscale : (4 * b'.significand - b'.reach) * 2 ≤
        (4 * b'.significand - b'.reach) * 2 ^ (k + 1) :=
      Nat.mul_le_mul_left _ (by omega)
    have hfull := hfull' (by omega)
    omega

/-- Where the intervals of two doubles meet, one of them does not have its end. -/
theorem apart (hb : b.Normal) (hb' : b'.Normal) (h : b.exponent < b'.exponent ∨
      b.exponent = b'.exponent ∧ b.significand < b'.significand) :
    b.interval.upper < b'.interval.lower ∨ b.interval.upper = b'.interval.lower ∧
      (b.interval.closed = false ∨ b'.interval.closed = false) := by
  have hclosed : ∀ b : Binary, b.significand % 2 = 1 → b.interval.closed = false := by
    intro b hodd
    simp [interval, hodd]
  obtain ⟨k, hk⟩ : ∃ k : Nat, b'.exponent = b.exponent + k :=
    ⟨(b'.exponent - b.exponent).toNat, by omega⟩
  have hnat := quarters_apart hb hb' hk (by omega)
  have hpow := two_zpow_pos (b.exponent - 2)
  have hlower : b'.interval.lower = (((4 * b'.significand - b'.reach) * 2 ^ k : Nat) : ℚ) *
      (2 : ℚ) ^ (b.exponent - 2) := by
    rw [interval_lower, hk, show b.exponent + k - 2 = k + (b.exponent - 2) by omega,
      zpow_add₀ (by norm_num), zpow_natCast, ← mul_assoc]
    push_cast
    rfl
  rw [interval_upper, hlower]
  rcases hnat with hlt | ⟨heq, hodd⟩
  · left
    gcongr
  · right
    rw [heq]
    exact ⟨rfl, hodd.imp (hclosed b) (hclosed b')⟩

theorem not_holds_both (hb : b.Normal) (hb' : b'.Normal) (h : b.exponent < b'.exponent ∨
      b.exponent = b'.exponent ∧ b.significand < b'.significand)
    (hx : b.interval.Holds x) (hx' : b'.interval.Holds x) : False := by
  rcases apart hb hb' h with hlt | ⟨heq, hopen⟩
  · exact absurd (lt_of_lt_of_le hlt hx'.bounds.1) (not_lt.mpr hx.bounds.2)
  · rcases hopen with hopen | hopen
    · rw [Interval.Holds, if_neg (by simp [hopen])] at hx
      exact absurd (heq ▸ hx.2) (not_lt.mpr hx'.bounds.1)
    · rw [Interval.Holds, if_neg (by simp [hopen])] at hx'
      exact absurd (heq ▸ hx'.1) (not_lt.mpr hx.bounds.2)

/-- No real rounds to two doubles. -/
theorem eq_of_holds (hb : b.Normal) (hb' : b'.Normal) (hx : b.interval.Holds x)
    (hx' : b'.interval.Holds x) : b = b' := by
  rcases lt_trichotomy b.exponent b'.exponent with hlt | hexponent | hgt
  · exact (not_holds_both hb hb' (.inl hlt) hx hx').elim
  · rcases lt_trichotomy b.significand b'.significand with hlt | hsignificand | hgt
    · exact (not_holds_both hb hb' (.inr ⟨hexponent, hlt⟩) hx hx').elim
    · cases b
      cases b'
      cases hexponent
      cases hsignificand
      rfl
    · exact (not_holds_both hb' hb (.inr ⟨hexponent.symm, hgt⟩) hx' hx).elim
  · exact (not_holds_both hb' hb (.inl hgt) hx' hx).elim

end Binary

/-! ## Doubles -/

section

variable {x y : Float}

theorem bits_eq (bits : UInt64) : bits.toNat =
    bits.toNat / 2 ^ 63 * 2 ^ 63 + exponentBits bits * 2 ^ 52 + fractionBits bits := by
  have hfraction : fractionBits bits = bits.toNat % 2 ^ 52 := rfl
  have hexponent : exponentBits bits = bits.toNat / 2 ^ 52 % 2 ^ 11 := rfl
  omega

theorem fractionBits_lt (bits : UInt64) : fractionBits bits < 2 ^ 52 :=
  Nat.mod_lt _ (Nat.two_pow_pos 52)

theorem normal_ofFloat (x : Float) : (Binary.ofFloat x).Normal := by
  have hfraction := fractionBits_lt x.toBits
  have hpow : Nat.pow 2 52 = 2 ^ 52 := rfl
  unfold Binary.ofFloat Binary.ofBits
  split
  · exact ⟨by dsimp only; omega, le_refl _, fun h => absurd h (lt_irrefl _)⟩
  · exact ⟨by dsimp only; omega, by dsimp only; omega, fun _ => by dsimp only; omega⟩

theorem bits_of_ofBits {a b : UInt64} (h : Binary.ofBits a = Binary.ofBits b) :
    exponentBits a = exponentBits b ∧ fractionBits a = fractionBits b := by
  have ha := fractionBits_lt a
  have hb := fractionBits_lt b
  have hpow : Nat.pow 2 52 = 2 ^ 52 := rfl
  unfold Binary.ofBits at h
  split at h <;> split at h <;> simp only [Binary.mk.injEq] at h <;> omega

/-- A double is known from its sign and its parts. -/
theorem eq_of_parts (hsign : isNegative x = isNegative y)
    (hparts : Binary.ofFloat x = Binary.ofFloat y) : x = y := by
  obtain ⟨hexponent, hfraction⟩ := bits_of_ofBits hparts
  have hx := bits_eq x.toBits
  have hy := bits_eq y.toBits
  have hxlt := x.toBits.toNat_lt
  have hylt := y.toBits.toNat_lt
  have hpow : Nat.pow 2 63 = 2 ^ 63 := rfl
  rw [isNegative, isNegative, decide_eq_decide, hpow] at hsign
  rw [← Float.toBits_inj, ← UInt64.toNat_inj, hx, hy, hexponent, hfraction]
  have htop : x.toBits.toNat / 2 ^ 63 = y.toBits.toNat / 2 ^ 63 := by omega
  rw [htop]

end

end WorkflowEngine.Decimal
