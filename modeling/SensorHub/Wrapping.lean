import SensorHub.Quantities

/-!
# Wrapped angles

What the two wrapping loops end with: a value congruent to the one they started
with, between their borders.  A wrapped difference of two angles is the
difference of any representatives which are less than half a turn apart.
-/

namespace SensorHub

variable {K : Type*} [ExactDouble K]

/-! ## The loops -/

theorem lowerBelow_modEq (border step : K) (hstep : 0 < step) (value : K) :
    lowerBelow border step hstep value ≡ value [PMOD step] := by
  induction value using lowerBelow.induct border step hstep with
  | case1 value hborder ih =>
      rw [lowerBelow, if_pos hborder]
      have hsub : value - step ≡ value [PMOD step] := by
        simpa [sub_eq_add_neg] using
          AddCommGroup.add_zsmul_modEq (a := value) (p := step) (-1)
      exact ih.trans hsub
  | case2 value hborder =>
      rw [lowerBelow, if_neg hborder]

theorem lowerBelow_lt (border step : K) (hstep : 0 < step) (value : K) :
    lowerBelow border step hstep value < border := by
  induction value using lowerBelow.induct border step hstep with
  | case1 value hborder ih =>
      rw [lowerBelow, if_pos hborder]
      exact ih
  | case2 value hborder =>
      rw [lowerBelow, if_neg hborder]
      exact not_le.mp hborder

theorem raiseTo_modEq (border step : K) (hstep : 0 < step) (value : K) :
    raiseTo border step hstep value ≡ value [PMOD step] := by
  induction value using raiseTo.induct border step hstep with
  | case1 value hborder ih =>
      rw [raiseTo, if_pos hborder]
      have hadd : value + step ≡ value [PMOD step] := by simp
      exact ih.trans hadd
  | case2 value hborder =>
      rw [raiseTo, if_neg hborder]

theorem le_raiseTo (border step : K) (hstep : 0 < step) (value : K) :
    border ≤ raiseTo border step hstep value := by
  induction value using raiseTo.induct border step hstep with
  | case1 value hborder ih =>
      rw [raiseTo, if_pos hborder]
      exact ih
  | case2 value hborder =>
      rw [raiseTo, if_neg hborder]
      exact not_lt.mp hborder

theorem raiseTo_lt {border step : K} (hstep : 0 < step) {value : K}
    (hvalue : value < border + step) :
    raiseTo border step hstep value < border + step := by
  induction value using raiseTo.induct border step hstep with
  | case1 value hborder ih =>
      rw [raiseTo, if_pos hborder]
      exact ih (by linarith)
  | case2 value hborder =>
      rw [raiseTo, if_neg hborder]
      exact hvalue

/-- Both loops together, with borders one step apart. -/
theorem wrap_mem {low high step : K} (hstep : 0 < step) (hborders : low + step = high)
    (value : K) :
    raiseTo low step hstep (lowerBelow high step hstep value) ∈ Set.Ico low high := by
  have hlowered := lowerBelow_lt high step hstep value
  have hraised := raiseTo_lt hstep (hlowered.trans_eq hborders.symm)
  rw [hborders] at hraised
  exact ⟨le_raiseTo _ _ _ _, hraised⟩

/-! ## Norm and difference -/

theorem valueNorm_modEq (quantity : Quantity) (value : K) :
    valueNorm quantity value ≡ value [PMOD 2 * mPi] := by
  unfold valueNorm
  split <;> first
    | exact (raiseTo_modEq _ _ _ _).trans (lowerBelow_modEq _ _ _ _)
    | exact AddCommGroup.modEq_rfl

theorem valueDiff_modEq (quantity : Quantity) (value1 value2 : K) :
    valueDiff quantity value1 value2 ≡ value1 - value2 [PMOD 2 * mPi] := by
  unfold valueDiff
  simp only []
  split <;> first
    | exact (raiseTo_modEq _ _ _ _).trans (lowerBelow_modEq _ _ _ _)
    | exact AddCommGroup.modEq_rfl

theorem valueDiff_eq_wrap {quantity : Quantity} (hangular : quantity.angular = true)
    (value1 value2 : K) :
    valueDiff quantity value1 value2 =
      raiseTo (-mPi) (2 * mPi) two_mPi_pos
        (lowerBelow mPi (2 * mPi) two_mPi_pos (value1 - value2)) := by
  cases quantity <;> first | rfl | cases hangular

theorem valueDiff_mem {quantity : Quantity} (hangular : quantity.angular = true)
    (value1 value2 : K) :
    -mPi ≤ valueDiff quantity value1 value2 ∧
      valueDiff quantity value1 value2 < mPi := by
  rw [valueDiff_eq_wrap hangular]
  exact wrap_mem two_mPi_pos (by ring) (value1 - value2)

theorem eq_of_modEq {period x y : K} (hmod : x ≡ y [PMOD period])
    (hnear : |y - x| < period) : x = y := by
  obtain ⟨turns, hturns⟩ := AddCommGroup.modEq_iff_eq_add_zsmul.mp hmod
  have hperiod : 0 < period := (abs_nonneg _).trans_lt hnear
  have hdiff : y - x = turns * period := by
    rw [hturns, zsmul_eq_mul, add_sub_cancel_left]
  rw [hdiff, abs_mul, abs_of_pos hperiod, mul_lt_iff_lt_one_left hperiod, ← Int.cast_abs,
    ← Int.cast_one, Int.cast_lt, Int.abs_lt_one_iff] at hnear
  rw [hturns, hnear, zero_zsmul, add_zero]

/-- Representatives that are less than half a turn apart have the difference of
the angles. -/
theorem valueDiff_eq_sub {quantity : Quantity} (hangular : quantity.angular = true)
    {value1 value2 lifted1 lifted2 : K} (h1 : value1 ≡ lifted1 [PMOD 2 * mPi])
    (h2 : value2 ≡ lifted2 [PMOD 2 * mPi]) (hnear : |lifted1 - lifted2| < mPi) :
    valueDiff quantity value1 value2 = lifted1 - lifted2 := by
  have hmod : valueDiff quantity value1 value2 ≡ lifted1 - lifted2 [PMOD 2 * mPi] :=
    (valueDiff_modEq quantity value1 value2).trans (h1.sub h2)
  obtain ⟨hlow, hhigh⟩ := valueDiff_mem hangular value1 value2
  obtain ⟨hbelow, habove⟩ := abs_lt.mp hnear
  refine eq_of_modEq hmod (abs_lt.mpr ⟨?_, ?_⟩) <;> linarith

end SensorHub
