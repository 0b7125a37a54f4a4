import SensorHub.IeeeDouble
import SensorHub.Wrapping

/-!
# A difference added back

`value_norm` and `value_diff` wrap the same quantities, though each has a list
of its own, and `value_norm` has two intervals to wrap into.  Both intervals are
one turn long and half-open, so that an angle has one representative in each;
therefore a wrapped difference that is added back leads to the angle it was
taken from.

On finite values all four loops end.  They are run with a bound on the passes,
as on values from the wire.
-/

namespace SensorHub

variable {K : Type*} [ExactDouble K]

namespace IeeeDouble

def sub (rounding : Rounding K) : IeeeDouble K → IeeeDouble K → IeeeDouble K
  | finite value1, finite value2 => finite (rounding.round (value1 - value2))
  | nan, _ => nan
  | _, nan => nan
  | posInf, posInf => nan
  | negInf, negInf => nan
  | posInf, _ => posInf
  | negInf, _ => negInf
  | finite _, posInf => negInf
  | finite _, negInf => posInf

/-- `value_diff`, with at most `fuel` passes of each loop. -/
def valueDiff (rounding : Rounding K) (fuel : ℕ) (quantity : Quantity)
    (value1 value2 : IeeeDouble K) : Option (IeeeDouble K) :=
  let result := value1.sub rounding value2
  match quantity with
  | .lo | .hdg | .crs | .ro | .pi | .ya =>
      (whileLoop (atLeast mPi) (shift rounding (-(2 * mPi))) fuel result).bind
        (whileLoop (below (-mPi)) (shift rounding (2 * mPi)) fuel)
  | _ => some result

/-- The loops of `value_diff` end on finite values. -/
theorem exists_valueDiff (quantity : Quantity) (value1 value2 : K) :
    ∃ enough, ∀ fuel ≥ enough,
      valueDiff .exact fuel quantity (finite value1) (finite value2) =
        some (finite (SensorHub.valueDiff quantity value1 value2)) := by
  cases hangular : quantity.angular with
  | false =>
      refine ⟨0, fun fuel _ => ?_⟩
      rw [valueDiff_of_not_angular hangular]
      cases quantity <;> first | rfl | cases hangular
  | true =>
      have hloops : ∀ fuel, valueDiff .exact fuel quantity (finite value1) (finite value2) =
          (whileLoop (atLeast mPi) (shift .exact (-(2 * mPi))) fuel
            (finite (value1 - value2))).bind
              (whileLoop (below (-mPi)) (shift .exact (2 * mPi)) fuel) := by
        intro fuel
        cases quantity <;> first | rfl | cases hangular
      obtain ⟨enough, henough⟩ :=
        exists_wrap mPi (-mPi) (2 * mPi) two_mPi_pos (value1 - value2)
      refine ⟨enough, fun fuel hfuel => ?_⟩
      rw [hloops, henough fuel hfuel, valueDiff_eq_wrap hangular]

end IeeeDouble

/-! ## The intervals of `value_norm` -/

def signedAngles : List Quantity :=
  [.lo, .ro, .pi, .ya]

def courseAngles : List Quantity :=
  [.hdg, .crs]

theorem angular_iff (quantity : Quantity) :
    quantity.angular = true ↔ quantity ∈ signedAngles ∨ quantity ∈ courseAngles := by
  cases quantity <;> decide

theorem valueNorm_mem_of_signed {quantity : Quantity} (hquantity : quantity ∈ signedAngles)
    (value : K) : valueNorm quantity value ∈ Set.Ico (-mPi) mPi := by
  have hwrap := wrap_mem (show 0 < 2 * (mPi : K) from two_mPi_pos)
    (show -mPi + 2 * mPi = (mPi : K) by ring) value
  simp only [signedAngles, List.mem_cons, List.not_mem_nil, or_false] at hquantity
  rcases hquantity with rfl | rfl | rfl | rfl <;> exact hwrap

theorem valueNorm_mem_of_course {quantity : Quantity} (hquantity : quantity ∈ courseAngles)
    (value : K) : valueNorm quantity value ∈ Set.Ico 0 (2 * mPi) := by
  have hwrap := wrap_mem (show 0 < 2 * (mPi : K) from two_mPi_pos)
    (zero_add (2 * (mPi : K))) value
  simp only [courseAngles, List.mem_cons, List.not_mem_nil, or_false] at hquantity
  rcases hquantity with rfl | rfl <;> exact hwrap

theorem eq_of_mem_Ico {low high x y : K} (hborders : low + 2 * mPi = high)
    (hx : x ∈ Set.Ico low high) (hy : y ∈ Set.Ico low high)
    (hmod : x ≡ y [PMOD 2 * mPi]) : x = y := by
  refine eq_of_modEq hmod (abs_lt.mpr ⟨?_, ?_⟩) <;>
    linarith [hx.1, hx.2, hy.1, hy.2]

/-- Angles that differ by whole turns have the same norm. -/
theorem valueNorm_eq_of_modEq {quantity : Quantity} (hangular : quantity.angular = true)
    {x y : K} (hmod : x ≡ y [PMOD 2 * mPi]) :
    valueNorm quantity x = valueNorm quantity y := by
  have hnorms : valueNorm quantity x ≡ valueNorm quantity y [PMOD 2 * mPi] :=
    ((valueNorm_modEq quantity x).trans hmod).trans (valueNorm_modEq quantity y).symm
  rcases (angular_iff quantity).mp hangular with hsigned | hcourse
  · exact eq_of_mem_Ico (by ring) (valueNorm_mem_of_signed hsigned x)
      (valueNorm_mem_of_signed hsigned y) hnorms
  · exact eq_of_mem_Ico (zero_add _) (valueNorm_mem_of_course hcourse x)
      (valueNorm_mem_of_course hcourse y) hnorms

/-- A difference that is added back leads to the same norm. -/
theorem valueNorm_add_valueDiff (quantity : Quantity) (value1 value2 : K) :
    valueNorm quantity (value2 + valueDiff quantity value1 value2) =
      valueNorm quantity value1 := by
  cases hangular : quantity.angular with
  | false => rw [valueDiff_of_not_angular hangular, add_sub_cancel]
  | true =>
      refine valueNorm_eq_of_modEq hangular ?_
      have hdiff := (valueDiff_modEq quantity value1 value2).add_left value2
      rwa [add_sub_cancel] at hdiff

/-- What the two functions do with any two numbers. -/
theorem norm_and_diff (quantity : Quantity) (value1 value2 : K) :
    (∃ enough, ∀ fuel ≥ enough,
      IeeeDouble.valueNorm .exact fuel quantity (.finite value1) =
        some (.finite (valueNorm quantity value1))) ∧
    (∃ enough, ∀ fuel ≥ enough,
      IeeeDouble.valueDiff .exact fuel quantity (.finite value1) (.finite value2) =
        some (.finite (valueDiff quantity value1 value2))) ∧
    (quantity.angular = false →
      valueNorm quantity value1 = value1 ∧
        valueDiff quantity value1 value2 = value1 - value2) ∧
    (quantity.angular = true →
      valueNorm quantity value1 ≡ value1 [PMOD 2 * mPi] ∧
        valueDiff quantity value1 value2 ≡ value1 - value2 [PMOD 2 * mPi] ∧
        valueDiff quantity value1 value2 ∈ Set.Ico (-mPi) mPi) ∧
    (quantity ∈ [Quantity.lo, .ro, .pi, .ya] →
      valueNorm quantity value1 ∈ Set.Ico (-mPi) mPi) ∧
    (quantity ∈ [Quantity.hdg, .crs] →
      valueNorm quantity value1 ∈ Set.Ico 0 (2 * mPi)) ∧
    valueNorm quantity (value2 + valueDiff quantity value1 value2) =
      valueNorm quantity value1 := by
  refine ⟨IeeeDouble.exists_valueNorm quantity fun _ => rfl,
    IeeeDouble.exists_valueDiff quantity value1 value2, ?_, ?_,
    fun hsigned => valueNorm_mem_of_signed hsigned value1,
    fun hcourse => valueNorm_mem_of_course hcourse value1,
    valueNorm_add_valueDiff quantity value1 value2⟩
  · intro hangular
    exact ⟨valueNorm_of_not_angular hangular value1,
      valueDiff_of_not_angular hangular value1 value2⟩
  · intro hangular
    exact ⟨valueNorm_modEq quantity value1, valueDiff_modEq quantity value1 value2,
      valueDiff_mem hangular value1 value2⟩

end SensorHub
