import WorkflowEngine.Workflow.Optimization

/-!
# How many tasks may run at once

The width of a workflow is brought between the least that the settings name and the shares of the
processors. The product of the shares is a word. As long as it does not wrap, the result is the one
over the exact product (`parallelismFor_eq_exact_iff`), and a larger share never makes it less. A
product that wraps can be anything, so that a larger share may leave less
(`parallelism_drops_when_raised`).
-/

namespace WorkflowEngine

variable {n low high high' : Nat}

/-! ## Bringing a number between bounds -/

theorem clamp_eq (h : low ≤ high) : clamp n low high = max low (min n high) := by
  unfold clamp
  split
  · omega
  · split <;> omega

theorem low_le_clamp (h : low ≤ high) : low ≤ clamp n low high := by
  rw [clamp_eq h]
  exact Nat.le_max_left ..

theorem clamp_mono (h : low ≤ high) (hle : high ≤ high') :
    clamp n low high ≤ clamp n low high' := by
  rw [clamp_eq h, clamp_eq (Nat.le_trans h hle)]
  omega

/-- Two upper bounds make a difference only to numbers above the lower one of them. -/
theorem clamp_eq_clamp_iff (h : low ≤ high) (hle : high ≤ high') :
    clamp n low high = clamp n low high' ↔ high = high' ∨ n ≤ high := by
  rw [clamp_eq h, clamp_eq (Nat.le_trans h hle)]
  omega

/-! ## The shares of the processors -/

namespace Settings

variable {s : Settings} {processors factor : Nat}

/-- The upper bound, which is never below the least. -/
def upperBound (s : Settings) (shares : Nat) : Nat := max s.minParallelism shares

/-- The width between the bounds, over the product as a natural number. -/
def exactParallelism (s : Settings) (processors width : Nat) : Nat :=
  clamp width s.minParallelism (s.upperBound (processors * s.parallelismPerCpu))

theorem minParallelism_le_upperBound (s : Settings) (shares : Nat) :
    s.minParallelism ≤ s.upperBound shares := Nat.le_max_left ..

theorem upperBound_mono {shares shares' : Nat} (h : shares ≤ shares') :
    s.upperBound shares ≤ s.upperBound shares' := by
  unfold upperBound
  omega

theorem parallelismFor_eq (s : Settings) (processors width : Nat) :
    s.parallelismFor processors width = clamp width s.minParallelism
      (s.upperBound (processors * s.parallelismPerCpu % wordLimit)) := by
  rw [upperBound, Nat.max_comm]
  rfl

theorem parallelismFor_le_exact (s : Settings) (processors width : Nat) :
    s.parallelismFor processors width ≤ s.exactParallelism processors width := by
  rw [parallelismFor_eq]
  exact clamp_mono (s.minParallelism_le_upperBound _) (upperBound_mono (Nat.mod_le ..))

theorem parallelismFor_eq_exact (h : processors * s.parallelismPerCpu < wordLimit) (width : Nat) :
    s.parallelismFor processors width = s.exactParallelism processors width := by
  rw [parallelismFor_eq, Nat.mod_eq_of_lt h, exactParallelism]

/-- That the product has wrapped shows in the widths above the bound that is left. -/
theorem parallelismFor_eq_exact_iff (hleast : s.minParallelism < wordLimit)
    (processors width : Nat) :
    s.parallelismFor processors width = s.exactParallelism processors width ↔
      processors * s.parallelismPerCpu < wordLimit ∨
        width ≤ s.upperBound (processors * s.parallelismPerCpu % wordLimit) := by
  constructor
  · intro h
    rw [parallelismFor_eq, exactParallelism, clamp_eq_clamp_iff
      (s.minParallelism_le_upperBound _) (upperBound_mono (Nat.mod_le ..))] at h
    refine h.imp_left fun hsame => ?_
    have hwrapped : processors * s.parallelismPerCpu % wordLimit < wordLimit :=
      Nat.mod_lt _ (by decide)
    unfold upperBound at hsame
    omega
  · rintro (h | h)
    · exact parallelismFor_eq_exact h width
    · rw [parallelismFor_eq, exactParallelism, clamp_eq_clamp_iff
        (s.minParallelism_le_upperBound _) (upperBound_mono (Nat.mod_le ..))]
      exact .inr h

theorem exactParallelism_mono (h : s.parallelismPerCpu ≤ factor) (processors width : Nat) :
    s.exactParallelism processors width ≤
      (s.withParallelismPerCpu factor).exactParallelism processors width :=
  clamp_mono (s.minParallelism_le_upperBound _) (upperBound_mono (Nat.mul_le_mul_left _ h))

/-- The bounds between which the width is brought are in order, so the result is never below the
least. It is the one over the exact product unless the product wraps and the width is above what is
left of it, and then it is less. To raise the share of a processor takes nothing away as long as the
new product is a word. -/
theorem parallelism_wraps (hleast : s.minParallelism < wordLimit) (processors width : Nat) :
    let shares := processors * s.parallelismPerCpu
    let upper := s.upperBound (shares % wordLimit)
    s.parallelismFor processors width = clamp width s.minParallelism upper ∧
      s.minParallelism ≤ upper ∧
      s.minParallelism ≤ s.parallelismFor processors width ∧
      s.parallelismFor processors width ≤ s.exactParallelism processors width ∧
      (s.parallelismFor processors width = s.exactParallelism processors width ↔
        shares < wordLimit ∨ width ≤ upper) ∧
      ∀ factor, s.parallelismPerCpu ≤ factor → processors * factor < wordLimit →
        s.parallelismFor processors width ≤
          (s.withParallelismPerCpu factor).parallelismFor processors width := by
  have hbounds := s.minParallelism_le_upperBound (processors * s.parallelismPerCpu % wordLimit)
  refine ⟨s.parallelismFor_eq processors width, hbounds, ?_,
    s.parallelismFor_le_exact processors width, parallelismFor_eq_exact_iff hleast processors width,
    fun factor hraised hword => ?_⟩
  · rw [parallelismFor_eq]
    exact low_le_clamp hbounds
  · calc s.parallelismFor processors width
        ≤ s.exactParallelism processors width := s.parallelismFor_le_exact processors width
      _ ≤ (s.withParallelismPerCpu factor).exactParallelism processors width :=
        exactParallelism_mono hraised processors width
      _ = (s.withParallelismPerCpu factor).parallelismFor processors width :=
        (parallelismFor_eq_exact (s := s.withParallelismPerCpu factor) hword width).symm

/-- Three shares for each of four processors instead of two, and a width above both products. -/
theorem parallelism_wraps_raised :
    let s : Settings := {}
    s.minParallelism < wordLimit ∧ s.parallelismPerCpu ≤ 3 ∧ 4 * 3 < wordLimit ∧
      s.parallelismFor 4 20 ≤ (s.withParallelismPerCpu 3).parallelismFor 4 20 := by
  intro s
  have hleast : s.minParallelism < wordLimit := by decide
  obtain ⟨-, -, -, -, -, hraise⟩ := parallelism_wraps hleast 4 20
  exact ⟨hleast, by decide, by decide, hraise 3 (by decide) (by decide)⟩

end Settings

/-- Three tasks that depend on nothing. -/
def threeAbreast : Workflow where
  name := "abreast"
  tasks := [{ name := "a" }, { name := "b" }, { name := "c" }]

/-- Four processors of `2 ^ 62` shares each have none together. The three tasks may run at once when
each processor has two shares, and only two of them when it has that many. -/
theorem parallelism_drops_when_raised :
    let raised : Settings := { parallelismPerCpu := Nat.pow 2 62 }
    (Settings.ofText .json "\x7b\"parallelism_per_cpu\": 4611686018427387904\x7d").toOption =
        some raised ∧
      raised.exactParallelism 4 3 = 3 ∧ raised.parallelismFor 4 3 = 2 ∧
      (threeAbreast.optimize {} 4).workflow.configuration.parallelism = some 3 ∧
      (threeAbreast.optimize raised 4).workflow.configuration.parallelism = some 2 := by
  decide +kernel

end WorkflowEngine
