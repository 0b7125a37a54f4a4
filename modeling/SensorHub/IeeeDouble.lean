import SensorHub.Quantities
import SensorHub.Rounding

/-!
# Values taken from the wire

A floating point field of a packet can carry any bit pattern.  A decoded value
is therefore a number, one of the infinities or not a number, with the usual
rules for the few operations the program performs on it.  Their results are
rounded; without rounding they are those of exact numbers.

The wrapping loops need not end on such a value, so they run with a bound on the
number of passes.  Either some bound is enough, and every larger one gives the
same, or none is.
-/

namespace SensorHub

inductive IeeeDouble (K : Type*) where
  | finite (value : K)
  | posInf
  | negInf
  | nan
  deriving DecidableEq, Repr

/-- `while (condition) body`, cut off after a number of passes. -/
def whileLoop {σ : Type*} (condition : σ → Bool) (body : σ → σ) :
    ℕ → σ → Option σ
  | 0, state => if condition state then none else some state
  | fuel + 1, state =>
      if condition state then whileLoop condition body fuel (body state)
      else some state

/-! ## Loops with a bound on their passes -/

section Loops

variable {σ : Type*} {condition : σ → Bool} {body : σ → σ}

theorem whileLoop_of_not {state : σ}
    (hcondition : condition state = false) (fuel : ℕ) :
    whileLoop condition body fuel state = some state := by
  cases fuel <;> simp [whileLoop, hcondition]

theorem whileLoop_of_fixed {state : σ}
    (hcondition : condition state = true) (hbody : body state = state) (fuel : ℕ) :
    whileLoop condition body fuel state = none := by
  induction fuel with
  | zero => simp [whileLoop, hcondition]
  | succ fuel ih => rw [whileLoop, if_pos hcondition, hbody, ih]

/-- More passes than needed make no difference. -/
theorem whileLoop_of_le {fuel more : ℕ} (hle : fuel ≤ more) {state result : σ}
    (hresult : whileLoop condition body fuel state = some result) :
    whileLoop condition body more state = some result := by
  induction fuel generalizing state more with
  | zero =>
      have hdone : condition state = false := by
        by_contra hgoes
        rw [Bool.not_eq_false] at hgoes
        rw [whileLoop, if_pos hgoes] at hresult
        cases hresult
      rw [whileLoop_of_not hdone] at hresult ⊢
      exact hresult
  | succ fuel ih =>
      obtain ⟨more, rfl⟩ := Nat.exists_eq_add_of_le' (Nat.one_le_of_lt hle)
      rw [whileLoop] at hresult ⊢
      split_ifs with hgoes
      · rw [if_pos hgoes] at hresult
        exact ih (Nat.le_of_succ_le_succ hle) hresult
      · rwa [if_neg hgoes] at hresult

/-- A loop ends if every pass keeps the invariant and lowers the state by a
fixed amount at least. -/
theorem exists_whileLoop {K : Type*} [ExactDouble K] {invariant : σ → Prop} (height : σ → K)
    {gain : K} (hgain : 0 < gain)
    (hpass : ∀ state, invariant state → condition state = true →
      0 ≤ height state ∧ invariant (body state) ∧ height (body state) ≤ height state - gain)
    (state : σ) (hstate : invariant state) :
    ∃ fuel result, whileLoop condition body fuel state = some result ∧ invariant result := by
  obtain ⟨passes, hpasses⟩ := exists_nat_gt (height state / gain)
  rw [div_lt_iff₀ hgain] at hpasses
  induction passes generalizing state with
  | zero =>
      rw [Nat.cast_zero, zero_mul] at hpasses
      have hdone : condition state = false := by
        by_contra hgoes
        rw [Bool.not_eq_false] at hgoes
        exact absurd (hpass state hstate hgoes).1 (not_le.mpr hpasses)
      exact ⟨0, state, whileLoop_of_not hdone 0, hstate⟩
  | succ passes ih =>
      cases hgoes : condition state with
      | false => exact ⟨0, state, whileLoop_of_not hgoes 0, hstate⟩
      | true =>
          obtain ⟨-, hkept, hlower⟩ := hpass state hstate hgoes
          rw [Nat.cast_succ, add_one_mul] at hpasses
          obtain ⟨fuel, result, hresult, hinvariant⟩ :=
            ih (body state) hkept (by linarith)
          exact ⟨fuel + 1, result, by rw [whileLoop, if_pos hgoes, hresult], hinvariant⟩

end Loops

namespace IeeeDouble

variable {K : Type*} [ExactDouble K]

/-- The number with the given bit pattern, for a format with that many exponent
and fraction bits. -/
def ofBits (exponentBits fractionBits bits : ℕ) : IeeeDouble K :=
  let fraction := bits % 2 ^ fractionBits
  let exponent := bits / 2 ^ fractionBits % 2 ^ exponentBits
  let negative := bits / 2 ^ (fractionBits + exponentBits) % 2 = 1
  let bias : ℤ := 2 ^ (exponentBits - 1) - 1
  if exponent = 2 ^ exponentBits - 1 then
    if fraction = 0 then if negative then negInf else posInf else nan
  else
    let magnitude : K :=
      if exponent = 0 then
        (fraction : K) * 2 ^ (1 - bias - fractionBits)
      else
        ((2 ^ fractionBits + fraction : ℕ) : K) *
          2 ^ ((exponent : ℤ) - bias - fractionBits)
    finite (if negative then -magnitude else magnitude)

def scale (rounding : Rounding K) (factor : K) : IeeeDouble K → IeeeDouble K
  | finite value => finite (rounding.round (factor * value))
  | posInf => if 0 < factor then posInf else if factor < 0 then negInf else nan
  | negInf => if 0 < factor then negInf else if factor < 0 then posInf else nan
  | nan => nan

def shift (rounding : Rounding K) (summand : K) : IeeeDouble K → IeeeDouble K
  | finite value => finite (rounding.round (value + summand))
  | other => other

/-- `value >= border` -/
def atLeast (border : K) : IeeeDouble K → Bool
  | finite value => border ≤ value
  | posInf => true
  | negInf => false
  | nan => false

/-- `value < border` -/
def below (border : K) : IeeeDouble K → Bool
  | finite value => value < border
  | posInf => false
  | negInf => true
  | nan => false

/-- `value_norm` on a value from the wire, with at most `fuel` passes of each
loop. -/
def valueNorm (rounding : Rounding K) (fuel : ℕ) (quantity : Quantity)
    (value : IeeeDouble K) : Option (IeeeDouble K) :=
  match quantity with
  | .lo | .ro | .pi | .ya =>
      (whileLoop (atLeast mPi) (shift rounding (-(2 * mPi))) fuel value).bind
        (whileLoop (below (-mPi)) (shift rounding (2 * mPi)) fuel)
  | .hdg | .crs =>
      (whileLoop (atLeast (2 * mPi)) (shift rounding (-(2 * mPi))) fuel value).bind
        (whileLoop (below 0) (shift rounding (2 * mPi)) fuel)
  | _ => some value

/-! ## When wrapping ends -/

def isInfinite : IeeeDouble K → Bool
  | posInf => true
  | negInf => true
  | _ => false

variable {rounding : Rounding K}

theorem isInfinite_scale {factor : K} (hfactor : factor ≠ 0) (value : IeeeDouble K) :
    (value.scale rounding factor).isInfinite = value.isInfinite := by
  rcases lt_or_gt_of_ne hfactor with hneg | hpos
  · cases value <;> simp [scale, isInfinite, hneg, not_lt_of_gt hneg]
  · cases value <;> simp [scale, isInfinite, hpos]

@[simp] theorem isInfinite_shift (summand : K) (value : IeeeDouble K) :
    (value.shift rounding summand).isInfinite = value.isInfinite := by
  cases value <;> rfl

/-- The value that wrapping ends with. -/
def norm (quantity : Quantity) : IeeeDouble K → IeeeDouble K
  | finite value => finite (SensorHub.valueNorm quantity value)
  | other => other

/-- With enough passes the loop computes what the exact one does. -/
theorem exists_whileLoop_lowerBelow (border step : K) (hstep : 0 < step) (value : K) :
    ∃ enough, ∀ fuel ≥ enough,
      whileLoop (atLeast border) (shift .exact (-step)) fuel (finite value) =
        some (finite (lowerBelow border step hstep value)) := by
  induction value using lowerBelow.induct border step hstep with
  | case1 value hborder ih =>
      have hcondition : atLeast border (finite value) = true := decide_eq_true hborder
      obtain ⟨enough, henough⟩ := ih
      refine ⟨enough + 1, fun fuel hfuel => ?_⟩
      obtain ⟨fuel, rfl⟩ := Nat.exists_eq_add_of_le' hfuel
      have hnext := henough (fuel + enough) (Nat.le_add_left _ _)
      rw [← add_assoc, whileLoop, if_pos hcondition, lowerBelow,
        if_pos hborder, shift, ← sub_eq_add_neg]
      exact hnext
  | case2 value hborder =>
      have hcondition : atLeast border (finite value) = false := decide_eq_false hborder
      refine ⟨0, fun fuel _ => ?_⟩
      rw [whileLoop_of_not hcondition, lowerBelow, if_neg hborder]

theorem exists_whileLoop_raiseTo (border step : K) (hstep : 0 < step) (value : K) :
    ∃ enough, ∀ fuel ≥ enough,
      whileLoop (below border) (shift .exact step) fuel (finite value) =
        some (finite (raiseTo border step hstep value)) := by
  induction value using raiseTo.induct border step hstep with
  | case1 value hborder ih =>
      have hcondition : below border (finite value) = true := decide_eq_true hborder
      obtain ⟨enough, henough⟩ := ih
      refine ⟨enough + 1, fun fuel hfuel => ?_⟩
      obtain ⟨fuel, rfl⟩ := Nat.exists_eq_add_of_le' hfuel
      have hnext := henough (fuel + enough) (Nat.le_add_left _ _)
      rw [← add_assoc, whileLoop, if_pos hcondition, raiseTo,
        if_pos hborder, shift]
      exact hnext
  | case2 value hborder =>
      have hcondition : below border (finite value) = false := decide_eq_false hborder
      refine ⟨0, fun fuel _ => ?_⟩
      rw [whileLoop_of_not hcondition, raiseTo, if_neg hborder]

theorem exists_wrap (high low step : K) (hstep : 0 < step) (value : K) :
    ∃ enough, ∀ fuel ≥ enough,
      (whileLoop (atLeast high) (shift .exact (-step)) fuel (finite value)).bind
          (whileLoop (below low) (shift .exact step) fuel) =
        some (finite (raiseTo low step hstep (lowerBelow high step hstep value))) := by
  obtain ⟨first, hfirst⟩ := exists_whileLoop_lowerBelow high step hstep value
  obtain ⟨second, hsecond⟩ :=
    exists_whileLoop_raiseTo low step hstep (lowerBelow high step hstep value)
  refine ⟨max first second, fun fuel hfuel => ?_⟩
  rw [hfirst fuel (le_of_max_le_left hfuel), Option.bind_some,
    hsecond fuel (le_of_max_le_right hfuel)]

theorem wrap_nan (high low step : K) (fuel : ℕ) :
    (whileLoop (atLeast high) (shift rounding (-step)) fuel nan).bind
        (whileLoop (below low) (shift rounding step) fuel) = some nan := by
  rw [whileLoop_of_not rfl, Option.bind_some, whileLoop_of_not rfl]

theorem wrap_infinite (high low step : K) {value : IeeeDouble K}
    (hinfinite : value.isInfinite = true) (fuel : ℕ) :
    (whileLoop (atLeast high) (shift rounding (-step)) fuel value).bind
        (whileLoop (below low) (shift rounding step) fuel) = none := by
  cases value with
  | finite => cases hinfinite
  | nan => cases hinfinite
  | posInf => rw [whileLoop_of_fixed rfl rfl, Option.bind_none]
  | negInf => rw [whileLoop_of_not rfl, Option.bind_some, whileLoop_of_fixed rfl rfl]

/-- Angles are wrapped by both loops, between borders that depend on the
quantity. -/
theorem exists_borders {quantity : Quantity} (hangular : quantity.angular = true) :
    ∃ high low : K, 0 < high ∧ high ≤ 2 * mPi ∧ -mPi ≤ low ∧ low ≤ 0 ∧
      (∀ rounding fuel value, valueNorm rounding fuel quantity value =
        (whileLoop (atLeast high) (shift rounding (-(2 * mPi))) fuel value).bind
          (whileLoop (below low) (shift rounding (2 * mPi)) fuel)) ∧
      ∀ value, SensorHub.valueNorm quantity value =
        raiseTo low (2 * mPi) two_mPi_pos (lowerBelow high (2 * mPi) two_mPi_pos value) := by
  have hpi : (0 : K) < mPi := mPi_pos
  cases quantity <;> first
    | exact ⟨_, _, hpi, by linarith, le_rfl, by linarith, fun _ _ _ => rfl, fun _ => rfl⟩
    | exact ⟨_, _, two_mPi_pos, le_rfl, by linarith, le_rfl, fun _ _ _ => rfl, fun _ => rfl⟩
    | cases hangular

theorem valueNorm_eq_some {quantity : Quantity} (hquantity : quantity.angular = false)
    (fuel : ℕ) (value : IeeeDouble K) :
    valueNorm rounding fuel quantity value = some value := by
  cases quantity <;> first | rfl | cases hquantity

theorem valueNorm_of_infinite {quantity : Quantity} (hangular : quantity.angular = true)
    {value : IeeeDouble K} (hinfinite : value.isInfinite = true) (fuel : ℕ) :
    valueNorm rounding fuel quantity value = none := by
  obtain ⟨high, low, -, -, -, -, hloops, -⟩ := exists_borders (K := K) hangular
  rw [hloops, wrap_infinite high low _ hinfinite]

theorem valueNorm_of_le {fuel more : ℕ} (hle : fuel ≤ more) {quantity : Quantity}
    {value result : IeeeDouble K}
    (hresult : valueNorm rounding fuel quantity value = some result) :
    valueNorm rounding more quantity value = some result := by
  cases hangular : quantity.angular with
  | false => rwa [valueNorm_eq_some hangular] at hresult ⊢
  | true =>
      obtain ⟨high, low, -, -, -, -, hloops, -⟩ := exists_borders (K := K) hangular
      rw [hloops, Option.bind_eq_some_iff] at hresult ⊢
      obtain ⟨lowered, hlowered, hraised⟩ := hresult
      exact ⟨lowered, whileLoop_of_le hle hlowered, whileLoop_of_le hle hraised⟩

/-! ## Which values are wrapped -/

/-- Some number of passes is enough for the loops. -/
def Wraps (rounding : Rounding K) (quantity : Quantity) (value : IeeeDouble K) : Prop :=
  ∃ fuel, valueNorm rounding fuel quantity value ≠ none

theorem Wraps.exists_valueNorm {quantity : Quantity} {value : IeeeDouble K}
    (hwraps : value.Wraps rounding quantity) :
    ∃ result enough, ∀ fuel ≥ enough, valueNorm rounding fuel quantity value = some result := by
  obtain ⟨enough, hsome⟩ := hwraps
  obtain ⟨result, hresult⟩ := Option.ne_none_iff_exists'.mp hsome
  exact ⟨result, enough, fun fuel hfuel => valueNorm_of_le hfuel hresult⟩

theorem valueNorm_of_not_wraps {quantity : Quantity} {value : IeeeDouble K}
    (hnot : ¬value.Wraps rounding quantity) (fuel : ℕ) :
    valueNorm rounding fuel quantity value = none := by
  by_contra hsome
  exact hnot ⟨fuel, hsome⟩

theorem wraps_of_not_angular {quantity : Quantity} (hquantity : quantity.angular = false)
    (value : IeeeDouble K) : value.Wraps rounding quantity :=
  ⟨0, by simp [valueNorm_eq_some hquantity]⟩

/-- Without rounding every finite angle is wrapped, to the exact result. -/
theorem exists_valueNorm (quantity : Quantity) {value : IeeeDouble K}
    (hvalue : quantity.angular = true → value.isInfinite = false) :
    ∃ enough, ∀ fuel ≥ enough,
      valueNorm .exact fuel quantity value = some (norm quantity value) := by
  cases hangular : quantity.angular with
  | false =>
      have hnorm : norm quantity value = value := by
        cases value <;> simp [norm, valueNorm_of_not_angular hangular]
      refine ⟨0, fun fuel _ => ?_⟩
      rw [hnorm, valueNorm_eq_some hangular]
  | true =>
      obtain ⟨high, low, -, -, -, -, hloops, hexact⟩ := exists_borders (K := K) hangular
      cases value with
      | finite value =>
          obtain ⟨enough, henough⟩ := exists_wrap high low (2 * mPi) two_mPi_pos value
          refine ⟨enough, fun fuel hfuel => ?_⟩
          rw [hloops, henough fuel hfuel, norm, hexact]
      | nan => exact ⟨0, fun fuel _ => by rw [hloops, wrap_nan]; rfl⟩
      | posInf => cases hvalue hangular
      | negInf => cases hvalue hangular

/-- A finite number is not farther from zero than the bound, and no number is
infinite. -/
def Within (bound : K) : IeeeDouble K → Prop
  | finite value => |value| ≤ bound
  | nan => True
  | _ => False

instance (bound : K) : DecidablePred (Within bound)
  | finite value => inferInstanceAs (Decidable (|value| ≤ bound))
  | nan => isTrue trivial
  | posInf => isFalse id
  | negInf => isFalse id

/-- A finite number is a number of the format. -/
def Representable (rounding : Rounding K) : IeeeDouble K → Prop
  | finite value => value ∈ rounding.representable
  | _ => True

theorem representable_scale (factor : K) (value : IeeeDouble K) :
    (value.scale rounding factor).Representable rounding := by
  cases value with
  | finite value => exact rounding.round_mem _
  | nan => trivial
  | posInf | negInf =>
      simp only [scale]
      split_ifs <;> trivial

theorem representable_shift (summand : K) {value : IeeeDouble K}
    (hvalue : value.Representable rounding) :
    (value.shift rounding summand).Representable rounding := by
  cases value with
  | finite value => exact rounding.round_mem _
  | _ => exact hvalue

/-! ## Angles in `double` -/

theorem three_lt_mPi : (3 : ℚ) < mPi := by norm_num [mPi]

theorem mPi_lt_four : (mPi : ℚ) < 4 := by norm_num [mPi]

/-- Beyond 2^56 a whole turn is less than half of the distance to the next
number, so that the loops never end. -/
theorem shift_of_large {value step : ℚ} (hvalue : value ∈ Rounding.binary64.representable)
    (hlarge : 2 ^ 56 < |value|) (hstep : |step| = 2 * mPi) :
    shift .binary64 step (finite value) = finite value := by
  have hsmall : |step| < 2 ^ 3 := by
    rw [hstep]
    linarith [mPi_lt_four]
  exact congrArg finite (Rounding.round_add_of_large (by norm_num) hvalue hlarge hsmall)

theorem valueNorm_of_large {quantity : Quantity} (hangular : quantity.angular = true)
    {value : ℚ} (hvalue : value ∈ Rounding.binary64.representable)
    (hlarge : 2 ^ 56 < |value|) (fuel : ℕ) :
    valueNorm .binary64 fuel quantity (finite value) = none := by
  obtain ⟨high, low, hhigh, hturn, hlow, -, hloops, -⟩ := exists_borders (K := ℚ) hangular
  have hpi : (0 : ℚ) < 2 * mPi := two_mPi_pos
  have hsmall : (2 * mPi : ℚ) < 2 ^ 56 := by linarith [mPi_lt_four]
  have hfixed := fun (step : ℚ) (hstep : |step| = 2 * mPi) =>
    shift_of_large hvalue hlarge hstep
  rw [hloops]
  rcases lt_abs.mp hlarge with hpos | hneg
  · have hgoes : atLeast high (finite value) = true := decide_eq_true (by linarith)
    rw [whileLoop_of_fixed hgoes (hfixed _ (by rw [abs_neg, abs_of_pos hpi])), Option.bind_none]
  · have hdone : atLeast high (finite value) = false := decide_eq_false (by linarith)
    have hgoes : below low (finite value) = true := decide_eq_true (by linarith)
    rw [whileLoop_of_not hdone, Option.bind_some,
      whileLoop_of_fixed hgoes (hfixed _ (abs_of_pos hpi))]

/-- Up to 2^56 the result of a pass is off by 4 at most. -/
theorem abs_round_sub_le_four {value : ℚ} (hvalue : |value| ≤ 2 ^ 56) :
    |Rounding.binary64.round value - value| ≤ 4 := by
  have herror := Rounding.abs_round_sub_le (show 0 < 53 by norm_num)
    (show (-1074 : ℤ) ≤ (3 : ℕ) by norm_num) hvalue
  norm_num at herror
  exact herror

/-- A number that is not larger than 2^56. -/
def Moderate (value : IeeeDouble ℚ) : Prop :=
  ∃ number, value = finite number ∧ |number| ≤ 2 ^ 56

/-- How far a number is above a border. -/
def above (border : ℚ) : IeeeDouble ℚ → ℚ
  | finite value => value - border
  | _ => 0

theorem exists_lower {border : ℚ} (hborder : 0 < border) {value : IeeeDouble ℚ}
    (hvalue : value.Moderate) :
    ∃ fuel result, whileLoop (atLeast border) (shift .binary64 (-(2 * mPi))) fuel value =
      some result ∧ result.Moderate := by
  refine exists_whileLoop (above border) two_pos ?_ value hvalue
  rintro _ ⟨number, rfl, hnumber⟩ hgoes
  have hge : border ≤ number := of_decide_eq_true hgoes
  have hpi := three_lt_mPi
  have hpi' := mPi_lt_four
  have hle := (abs_le.mp hnumber).2
  have hround := abs_le.mp (abs_round_sub_le_four
    (show |number + -(2 * mPi)| ≤ 2 ^ 56 from abs_le.mpr ⟨by linarith, by linarith⟩))
  refine ⟨sub_nonneg.mpr hge, ⟨_, rfl, abs_le.mpr ⟨by linarith, by linarith⟩⟩, ?_⟩
  simp only [above, shift]
  linarith

theorem exists_raise {border : ℚ} (hborder : border ≤ 0) {value : IeeeDouble ℚ}
    (hvalue : value.Moderate) :
    ∃ fuel result, whileLoop (below border) (shift .binary64 (2 * mPi)) fuel value =
      some result ∧ result.Moderate := by
  refine exists_whileLoop (fun state => -above border state) two_pos ?_ value hvalue
  rintro _ ⟨number, rfl, hnumber⟩ hgoes
  have hlt : number < border := of_decide_eq_true hgoes
  have hpi := three_lt_mPi
  have hpi' := mPi_lt_four
  have hge := (abs_le.mp hnumber).1
  have hround := abs_le.mp (abs_round_sub_le_four
    (show |number + 2 * mPi| ≤ 2 ^ 56 from abs_le.mpr ⟨by linarith, by linarith⟩))
  refine ⟨?_, ⟨_, rfl, abs_le.mpr ⟨by linarith, by linarith⟩⟩, ?_⟩
  · simp only [above]
    linarith
  · simp only [above, shift]
    linarith

/-- In `double` an angle is wrapped iff it is not infinite and not larger than
2^56. -/
theorem wraps_binary64_iff {quantity : Quantity} (hangular : quantity.angular = true)
    {value : IeeeDouble ℚ} (hvalue : value.Representable .binary64) :
    value.Wraps .binary64 quantity ↔ value.Within (2 ^ 56) := by
  obtain ⟨high, low, hhigh, -, -, hlow, hloops, -⟩ := exists_borders (K := ℚ) hangular
  cases value with
  | nan => exact iff_of_true ⟨0, by simp [hloops, wrap_nan]⟩ trivial
  | posInf =>
      exact iff_of_false (fun ⟨fuel, hsome⟩ => hsome (valueNorm_of_infinite hangular rfl fuel)) id
  | negInf =>
      exact iff_of_false (fun ⟨fuel, hsome⟩ => hsome (valueNorm_of_infinite hangular rfl fuel)) id
  | finite value =>
      constructor
      · rintro ⟨fuel, hsome⟩
        by_contra hlarge
        exact hsome (valueNorm_of_large hangular hvalue (not_le.mp hlarge) fuel)
      · intro hwithin
        obtain ⟨first, lowered, hlowered, hstill⟩ := exists_lower hhigh ⟨value, rfl, hwithin⟩
        obtain ⟨second, result, hresult, -⟩ := exists_raise hlow hstill
        refine ⟨max first second, ?_⟩
        rw [hloops, whileLoop_of_le (le_max_left first second) hlowered, Option.bind_some,
          whileLoop_of_le (le_max_right first second) hresult]
        exact Option.some_ne_none result

end IeeeDouble

end SensorHub
