import SensorHub.Quantities

/-!
# Values in the range of an unsigned integer

`Base_scale::scale_to` maps the values between two limits to the range of an
unsigned type.  With a multiplier the limits are computed from it, and for a
signed type the top bit is inverted, which turns the result into two's
complement.  The top bit is computed as an `int` first, so there is none beyond
32 bits.
-/

namespace SensorHub.Scaling

variable {K : Type*} [ExactDouble K]

structure Scale (K : Type*) where
  min : K
  max : K
  multiplier : K
  offset : K
  signedType : Bool
  deriving DecidableEq, Repr

/-- `std::numeric_limits<T>::max()` for an unsigned type of that many bits. -/
def maxValue (w : ℕ) : ℕ := 2 ^ w - 1

def typeRange (w : ℕ) : K :=
  (maxValue w : K) - 0 + 1

/-- `1 << (digits - 1)`; a shift of an `int` by its width or more is not
defined. -/
def topBit (w : ℕ) : Option (BitVec w) :=
  if w - 1 < 32 then some (BitVec.ofInt w ((1#32) <<< (w - 1)).toInt) else none

namespace Scale

/-- The local variables `min` and `max`. -/
def limits (w : ℕ) (scale : Scale K) : K × K :=
  if scale.multiplier ≠ 0 then
    let range := typeRange w / scale.multiplier
    (scale.offset - range / 2, scale.offset + range / 2)
  else
    (scale.min, scale.max)

/-- A quotient by zero is no number. -/
def scaleTo (w : ℕ) (scale : Scale K) (value : K) : Option (BitVec w) :=
  let (min, max) := scale.limits w
  if max - min = 0 then none
  else
    let value := value - min
    let value := value / (max - min)
    let value := value * typeRange w
    let value := if value < 0 then 0 else value
    let value := if value ≥ (maxValue w : K) then (maxValue w : K) else value
    let result := BitVec.ofNat w ⌊value⌋₊
    if scale.signedType then (topBit w).map fun top => result ^^^ top else some result

end Scale

/-- `Base_scale::scale_to`, which returns 0 for a quantity without a scale. -/
def scaleTo (w : ℕ) (scales : Quantity → Option (Scale K)) (quantity : Quantity)
    (value : K) : Option (BitVec w) :=
  match scales quantity with
  | none => some 0
  | some scale => scale.scaleTo w value

/-! ## The result as a clamped integer -/

def clamp (low high number : ℤ) : ℤ :=
  max low (min number high)

theorem typeRange_eq (w : ℕ) : (typeRange w : K) = 2 ^ w := by
  rw [typeRange, maxValue, Nat.cast_sub Nat.one_le_two_pow]
  push_cast
  ring

theorem floor_clamped (w : ℕ) (value : K) :
    ((⌊if (if value < 0 then 0 else value) ≥ (maxValue w : K) then (maxValue w : K)
        else if value < 0 then 0 else value⌋₊ : ℕ) : ℤ) =
      clamp 0 (2 ^ w - 1) ⌊value⌋ := by
  have hmax : ((maxValue w : ℕ) : ℤ) = 2 ^ w - 1 := by
    rw [maxValue, Nat.cast_sub Nat.one_le_two_pow]
    push_cast
    rfl
  have hcast : ((maxValue w : ℕ) : K) = ((2 ^ w - 1 : ℤ) : K) := by
    rw [← hmax]
    push_cast
    rfl
  have hone : (1 : ℤ) ≤ 2 ^ w := one_le_pow₀ (by norm_num)
  unfold clamp
  by_cases hneg : value < 0
  · have hfloor : ⌊value⌋ < 0 := Int.floor_lt.mpr (by exact_mod_cast hneg)
    rw [if_pos hneg, max_eq_left (by omega)]
    split
    · next hzero =>
        have hmaxZero : maxValue w = 0 := by exact_mod_cast le_antisymm hzero (Nat.cast_nonneg _)
        rw [hmaxZero]
        simp
    · simp
  · rw [if_neg hneg]
    have hpos : 0 ≤ ⌊value⌋ := Int.floor_nonneg.mpr (not_lt.mp hneg)
    split
    · next hlarge =>
        rw [ge_iff_le, hcast] at hlarge
        have hfloor := Int.le_floor.mpr hlarge
        rw [Nat.floor_natCast, hmax]
        omega
    · next hsmall =>
        rw [ge_iff_le, not_le, hcast] at hsmall
        have hfloor := Int.floor_lt.mpr hsmall
        rw [Int.natCast_floor_eq_floor (not_lt.mp hneg)]
        omega

/-- Inverting the top bit is adding it. -/
theorem xor_top {n k : ℕ} (hn : n < 2 ^ (k + 1)) :
    n ^^^ 2 ^ k = (n + 2 ^ k) % 2 ^ (k + 1) := by
  have hsplit : n ^^^ 2 ^ k = 2 ^ k * (n / 2 ^ k ^^^ 1) + n % 2 ^ k := by
    rw [← Nat.div_add_mod (n ^^^ 2 ^ k) (2 ^ k), Nat.xor_div_two_pow, Nat.xor_mod_two_pow,
      Nat.div_self (Nat.two_pow_pos k), Nat.mod_self, Nat.xor_zero]
  have hdigit := Nat.div_add_mod n (2 ^ k)
  have hrest := Nat.mod_lt n (Nat.two_pow_pos k)
  rw [pow_succ] at hn ⊢
  have hquotient : n / 2 ^ k < 2 := Nat.div_lt_of_lt_mul hn
  generalize n / 2 ^ k = quotient at *
  interval_cases quotient
  · rw [Nat.mod_eq_of_lt (by omega), hsplit]
    simp only [Nat.zero_xor, mul_one]
    omega
  · have hsum : n + 2 ^ k = n % 2 ^ k + 2 ^ k * 2 := by omega
    rw [hsplit, hsum, Nat.add_mod_right, Nat.mod_eq_of_lt (by omega : n % 2 ^ k < 2 ^ k * 2)]
    simp

theorem topBit_eq {w : ℕ} (hpos : 0 < w) (hw : w ≤ 32) :
    topBit w = some (BitVec.intMin w) := by
  rw [topBit, if_pos (by omega), Option.some.injEq]
  interval_cases w <;> decide

theorem topBit_of_gt {w : ℕ} (hw : 32 < w) : topBit w = none := by
  rw [topBit, if_neg (by omega)]

/-- The offset binary number with its top bit inverted. -/
theorem xor_intMin {w : ℕ} (hpos : 0 < w) (number : ℤ) :
    BitVec.ofInt w number ^^^ BitVec.intMin w = BitVec.ofInt w (number - 2 ^ (w - 1)) := by
  obtain ⟨k, rfl⟩ : ∃ k, w = k + 1 := ⟨w - 1, by omega⟩
  rw [← BitVec.toNat_inj, BitVec.toNat_xor, BitVec.toNat_intMin_of_pos hpos,
    Nat.add_sub_cancel, xor_top (BitVec.isLt _), BitVec.toNat_ofInt, BitVec.toNat_ofInt]
  have hpower : ((2 ^ (k + 1) : ℕ) : ℤ) ≠ 0 := by positivity
  apply Int.ofNat_inj.mp
  rw [Int.natCast_mod, Int.natCast_add, Int.toNat_of_nonneg (Int.emod_nonneg _ hpower),
    Int.toNat_of_nonneg (Int.emod_nonneg _ hpower), Int.emod_add_emod]
  have hmod : number + ((2 ^ k : ℕ) : ℤ) = number - 2 ^ k + ((2 ^ (k + 1) : ℕ) : ℤ) := by
    push_cast
    ring
  rw [hmod, Int.add_emod_right]

namespace Scale

/-- The place of a value between the limits, in steps of the type. -/
def position (w : ℕ) (scale : Scale K) (value : K) : K :=
  (value - (scale.limits w).1) / ((scale.limits w).2 - (scale.limits w).1) * 2 ^ w

def offsetBinary (w : ℕ) (number : ℤ) : BitVec w :=
  BitVec.ofInt w (clamp 0 (2 ^ w - 1) number)

theorem scaleTo_of_eq {w : ℕ} {scale : Scale K}
    (hlimits : (scale.limits w).2 - (scale.limits w).1 = 0) (value : K) :
    scale.scaleTo w value = none :=
  if_pos hlimits

theorem scaleTo_of_ne {w : ℕ} {scale : Scale K}
    (hlimits : (scale.limits w).2 - (scale.limits w).1 ≠ 0) (value : K) :
    scale.scaleTo w value =
      if scale.signedType then
        (topBit w).map fun top => offsetBinary w ⌊scale.position w value⌋ ^^^ top
      else
        some (offsetBinary w ⌊scale.position w value⌋) := by
  unfold scaleTo
  simp only [if_neg hlimits, offsetBinary, position, ← floor_clamped, typeRange_eq,
    BitVec.ofInt_natCast]

theorem scaleTo_unsigned {w : ℕ} {scale : Scale K}
    (hlimits : (scale.limits w).2 - (scale.limits w).1 ≠ 0)
    (hsigned : scale.signedType = false) (value : K) :
    scale.scaleTo w value = some (offsetBinary w ⌊scale.position w value⌋) := by
  rw [scaleTo_of_ne hlimits, hsigned]
  rfl

end Scale

def twosComplement (w : ℕ) (number : ℤ) : BitVec w :=
  BitVec.ofInt w (clamp (-2 ^ (w - 1)) (2 ^ (w - 1) - 1) number)

theorem two_pow_pred {w : ℕ} (hpos : 0 < w) : (2 : ℤ) ^ w = 2 * 2 ^ (w - 1) := by
  rw [← pow_succ', Nat.sub_add_cancel hpos]

theorem offsetBinary_xor {w : ℕ} (hpos : 0 < w) (number : ℤ) :
    Scale.offsetBinary w number ^^^ BitVec.intMin w =
      twosComplement w (number - 2 ^ (w - 1)) := by
  have hpower := two_pow_pred hpos
  rw [Scale.offsetBinary, xor_intMin hpos, twosComplement]
  congr 1
  unfold clamp
  omega

namespace Scale

theorem scaleTo_signed {w : ℕ} {scale : Scale K} (hpos : 0 < w) (hw : w ≤ 32)
    (hlimits : (scale.limits w).2 - (scale.limits w).1 ≠ 0)
    (hsigned : scale.signedType = true) (value : K) :
    scale.scaleTo w value =
      some (twosComplement w (⌊scale.position w value⌋ - 2 ^ (w - 1))) := by
  rw [scaleTo_of_ne hlimits, if_pos hsigned, topBit_eq hpos hw, Option.map_some,
    offsetBinary_xor hpos]

theorem scaleTo_of_gt {w : ℕ} {scale : Scale K} (hw : 32 < w)
    (hsigned : scale.signedType = true) (value : K) : scale.scaleTo w value = none := by
  by_cases hlimits : (scale.limits w).2 - (scale.limits w).1 = 0
  · exact scaleTo_of_eq hlimits value
  · rw [scaleTo_of_ne hlimits, if_pos hsigned, topBit_of_gt hw, Option.map_none]

/-! ## The two ways of scaling -/

theorem limits_of_zero {w : ℕ} {scale : Scale K} (hmultiplier : scale.multiplier = 0) :
    scale.limits w = (scale.min, scale.max) :=
  if_neg (not_not.mpr hmultiplier)

theorem limits_of_ne {w : ℕ} {scale : Scale K} (hmultiplier : scale.multiplier ≠ 0) :
    scale.limits w = (scale.offset - 2 ^ w / scale.multiplier / 2,
      scale.offset + 2 ^ w / scale.multiplier / 2) := by
  rw [← typeRange_eq]
  exact if_pos hmultiplier

theorem width_of_ne {w : ℕ} {scale : Scale K} (hmultiplier : scale.multiplier ≠ 0) :
    (scale.limits w).2 - (scale.limits w).1 = 2 ^ w / scale.multiplier := by
  rw [limits_of_ne hmultiplier]
  ring

theorem cast_two_pow (n : ℕ) : (((2 : ℤ) ^ n : ℤ) : K) = 2 ^ n := by
  push_cast
  rfl

/-- Limits that are half of the range of a multiplier away from an offset. -/
theorem floor_position_eq {w : ℕ} {scale : Scale K} (hpos : 0 < w) {multiplier offset : K}
    (hmultiplier : multiplier ≠ 0)
    (hwidth : (scale.limits w).2 - (scale.limits w).1 = 2 ^ w / multiplier)
    (hlow : (scale.limits w).1 = offset - 2 ^ w / multiplier / 2) (value : K) :
    ⌊scale.position w value⌋ = ⌊(value - offset) * multiplier⌋ + 2 ^ (w - 1) := by
  have hpower : (2 : K) ^ w = 2 * 2 ^ (w - 1) := by
    rw [← pow_succ', Nat.sub_add_cancel hpos]
  have hne : (2 : K) ^ (w - 1) ≠ 0 := pow_ne_zero _ two_ne_zero
  rw [← Int.floor_add_intCast, cast_two_pow]
  congr 1
  rw [position, hwidth, hlow, hpower]
  field_simp
  ring

theorem floor_position_of_ne {w : ℕ} {scale : Scale K} (hpos : 0 < w)
    (hmultiplier : scale.multiplier ≠ 0) (value : K) :
    ⌊scale.position w value⌋ =
      ⌊(value - scale.offset) * scale.multiplier⌋ + 2 ^ (w - 1) :=
  floor_position_eq hpos hmultiplier (width_of_ne hmultiplier)
    (by rw [limits_of_ne hmultiplier]) value

end Scale

/-- Without multiplier a value between the limits is scaled to the unsigned
range; with one it is scaled to the signed range. -/
structure ScalesExactly (w : ℕ) (scale : Scale K) (scaled : K → Option (BitVec w)) :
    Prop where
  linear : scale.multiplier = 0 → scale.min < scale.max → scale.signedType = false →
    ∀ value, scaled value = some (BitVec.ofInt w (clamp 0 (2 ^ w - 1)
      ⌊(value - scale.min) / (scale.max - scale.min) * 2 ^ w⌋))
  monotone : scale.multiplier = 0 → scale.min < scale.max → scale.signedType = false →
    ∀ value value', value ≤ value' → ∃ result result', scaled value = some result ∧
      scaled value' = some result' ∧ result.toNat ≤ result'.toNat
  steps : scale.multiplier = 0 → scale.min < scale.max → scale.signedType = false →
    ∀ value, scale.min ≤ value → value < scale.max →
      ∃ result, scaled value = some result ∧
        scale.min + result.toNat * (scale.max - scale.min) / 2 ^ w ≤ value ∧
        value < scale.min + (result.toNat + 1) * (scale.max - scale.min) / 2 ^ w
  signed : scale.multiplier ≠ 0 → scale.signedType = true →
    ∀ value, scaled value =
      some (twosComplement w ⌊(value - scale.offset) * scale.multiplier⌋)

section Linear

variable {w : ℕ} {scale : Scale K}

theorem scaleTo_linear (hmultiplier : scale.multiplier = 0) (hlimits : scale.min < scale.max)
    (hsigned : scale.signedType = false) (value : K) :
    scale.scaleTo w value = some (Scale.offsetBinary w
      ⌊(value - scale.min) / (scale.max - scale.min) * 2 ^ w⌋) := by
  have hwidth : (scale.limits w).2 - (scale.limits w).1 ≠ 0 := by
    rw [Scale.limits_of_zero hmultiplier]
    exact sub_ne_zero.mpr hlimits.ne'
  rw [Scale.scaleTo_unsigned hwidth hsigned, Scale.position,
    Scale.limits_of_zero hmultiplier]

theorem toNat_offsetBinary (w : ℕ) (number : ℤ) :
    ((Scale.offsetBinary w number).toNat : ℤ) = clamp 0 (2 ^ w - 1) number := by
  have hone : (1 : ℤ) ≤ 2 ^ w := one_le_pow₀ (by norm_num)
  have hpower : ((2 ^ w : ℕ) : ℤ) = 2 ^ w := by push_cast; rfl
  have hrange : 0 ≤ clamp 0 (2 ^ w - 1) number ∧ clamp 0 (2 ^ w - 1) number < 2 ^ w := by
    unfold clamp
    omega
  rw [Scale.offsetBinary, BitVec.toNat_ofInt, hpower, Int.emod_eq_of_lt hrange.1 hrange.2,
    Int.toNat_of_nonneg hrange.1]

theorem toNat_offsetBinary_le {number number' : ℤ} (hle : number ≤ number') :
    (Scale.offsetBinary w number).toNat ≤ (Scale.offsetBinary w number').toNat := by
  have hfirst := toNat_offsetBinary w number
  have hsecond := toNat_offsetBinary w number'
  unfold clamp at hfirst hsecond
  omega

theorem scaleTo_steps (hmultiplier : scale.multiplier = 0) (hlimits : scale.min < scale.max)
    (hsigned : scale.signedType = false) {value : K} (hlow : scale.min ≤ value)
    (hhigh : value < scale.max) :
    ∃ result, scale.scaleTo w value = some result ∧
      scale.min + result.toNat * (scale.max - scale.min) / 2 ^ w ≤ value ∧
      value < scale.min + (result.toNat + 1) * (scale.max - scale.min) / 2 ^ w := by
  have hwidth : 0 < scale.max - scale.min := sub_pos.mpr hlimits
  have hpower : (0 : K) < 2 ^ w := pow_pos two_pos w
  set position := (value - scale.min) / (scale.max - scale.min) * 2 ^ w with hposition
  have hvalue : value = scale.min + position * (scale.max - scale.min) / 2 ^ w := by
    rw [hposition]
    field_simp
    ring
  have hnonneg : 0 ≤ ⌊position⌋ := by
    refine Int.floor_nonneg.mpr (mul_nonneg (div_nonneg ?_ hwidth.le) hpower.le)
    exact sub_nonneg.mpr hlow
  have hlt : ⌊position⌋ < 2 ^ w := by
    refine Int.floor_lt.mpr ?_
    push_cast
    refine mul_lt_of_lt_one_left hpower ((div_lt_one hwidth).mpr ?_)
    linarith
  have hresult : (((Scale.offsetBinary w ⌊position⌋).toNat : ℤ) : K) = (⌊position⌋ : ℤ) := by
    rw [toNat_offsetBinary]
    congr 1
    unfold clamp
    omega
  rw [Int.cast_natCast] at hresult
  refine ⟨_, scaleTo_linear hmultiplier hlimits hsigned value, ?_, ?_⟩
  · rw [hresult]
    refine le_trans ?_ hvalue.ge
    gcongr
    exact Int.floor_le position
  · rw [hresult]
    refine lt_of_eq_of_lt hvalue ?_
    gcongr
    exact Int.lt_floor_add_one position

end Linear

/-- The scales for which a result is defined are those without a sign bit beyond
an `int`, and the result is then the exact one. -/
theorem scalesExactly_iff (w : ℕ) (hpos : 0 < w) (scales : Quantity → Option (Scale K))
    (quantity : Quantity) (scale : Scale K) (hscale : scales quantity = some scale) :
    ScalesExactly w scale (scaleTo w scales quantity) ↔
      ¬(scale.multiplier ≠ 0 ∧ scale.signedType = true ∧ 32 < w) := by
  have hscaled : scaleTo w scales quantity = scale.scaleTo w := by
    funext value
    rw [scaleTo, hscale]
  rw [hscaled]
  constructor
  · rintro hexact ⟨hmultiplier, hsigned, hw⟩
    have hsome := hexact.signed hmultiplier hsigned 0
    rw [Scale.scaleTo_of_gt hw hsigned] at hsome
    cases hsome
  · intro hnot
    refine ⟨fun hmultiplier hlimits hsigned value =>
        scaleTo_linear hmultiplier hlimits hsigned value,
      fun hmultiplier hlimits hsigned value value' hle => ?_,
      fun hmultiplier hlimits hsigned value hlow hhigh =>
        scaleTo_steps hmultiplier hlimits hsigned hlow hhigh,
      fun hmultiplier hsigned value => ?_⟩
    · refine ⟨_, _, scaleTo_linear hmultiplier hlimits hsigned value,
        scaleTo_linear hmultiplier hlimits hsigned value', toNat_offsetBinary_le ?_⟩
      have hwidth : 0 < scale.max - scale.min := sub_pos.mpr hlimits
      gcongr
    · have hw : w ≤ 32 := by
        by_contra hlarge
        exact hnot ⟨hmultiplier, hsigned, not_le.mp hlarge⟩
      have hwidth : (scale.limits w).2 - (scale.limits w).1 ≠ 0 := by
        rw [Scale.width_of_ne hmultiplier]
        exact div_ne_zero (pow_ne_zero _ two_ne_zero) hmultiplier
      rw [Scale.scaleTo_signed hpos hw hwidth hsigned,
        Scale.floor_position_of_ne hpos hmultiplier, Int.add_sub_cancel]

def centi : Scale ℚ where
  min := 0
  max := 0
  multiplier := 100
  offset := 0
  signedType := true

theorem scalesExactly_iff_centi :
    scaleTo 16 (fun _ => some centi) .vx (-1) = some (-100#16) ∧
      (ScalesExactly 16 centi (scaleTo 16 (fun _ => some centi) .vx) ↔
        ¬(centi.multiplier ≠ 0 ∧ centi.signedType = true ∧ 32 < 16)) :=
  ⟨by decide +kernel, scalesExactly_iff 16 (by decide) (fun _ => some centi) .vx centi rfl⟩

theorem not_scalesExactly_64 :
    ¬∀ (w : ℕ), 0 < w → ∀ (scales : Quantity → Option (Scale ℚ)) (quantity : Quantity)
      (scale : Scale ℚ), scales quantity = some scale →
        ScalesExactly w scale (scaleTo w scales quantity) := by
  intro hall
  have hexact := hall 64 (by decide) (fun _ => some centi) .vx centi rfl
  have hsome := hexact.signed (by decide) rfl 1
  have hnone : scaleTo 64 (fun _ => some centi) .vx 1 = none :=
    Scale.scaleTo_of_gt (by decide : 32 < 64) (rfl : centi.signedType = true) 1
  rw [hnone] at hsome
  cases hsome

/-! ## Limits that stand for a multiplier and an offset -/

section Affine

variable {a b : K}

theorem le_clamp_iff {high number bound : ℤ} (hbound : 0 < bound) (hhigh : bound ≤ high) :
    bound ≤ clamp 0 high number ↔ bound ≤ number := by
  unfold clamp
  omega

/-- A line that reaches a bound exactly from there on reaches it there. -/
theorem affine_at_bound {bound : K} (hbound : 0 < bound)
    (hreach : ∀ t : K, bound ≤ a + b * t ↔ bound ≤ t) : a + b * bound = bound := by
  have hreached : bound ≤ a + b * bound := (hreach bound).mpr le_rfl
  have hstart : a < bound := by
    have hnot := mt (hreach 0).mp (not_le.mpr hbound)
    rwa [mul_zero, add_zero, not_le] at hnot
  have hslope : 0 < b := by
    by_contra hnot
    have hneg : b * bound ≤ 0 := mul_nonpos_of_nonpos_of_nonneg (not_lt.mp hnot) hbound.le
    linarith
  have hcross : bound ≤ (bound - a) / b := by
    rw [← hreach, mul_div_cancel₀ _ hslope.ne']
    linarith
  rw [le_div_iff₀ hslope] at hcross
  linarith

theorem affine_eq_of_clamp {high : ℤ} (hhigh : 2 ≤ high)
    (hall : ∀ t : K, clamp 0 high ⌊a + b * t⌋ = clamp 0 high ⌊t⌋) : a = 0 ∧ b = 1 := by
  have hreach : ∀ bound : ℤ, 0 < bound → bound ≤ high → ∀ t : K,
      (bound : K) ≤ a + b * t ↔ (bound : K) ≤ t := by
    intro bound hpos hle t
    rw [← Int.le_floor, ← Int.le_floor, ← le_clamp_iff hpos hle, hall, le_clamp_iff hpos hle]
  have hone := affine_at_bound (by norm_num) (hreach 1 (by norm_num) (by omega))
  have htwo := affine_at_bound (by norm_num) (hreach 2 (by norm_num) hhigh)
  push_cast at hone htwo
  constructor <;> linarith

theorem exists_outside (hslope : b ≠ 0) (least high : K) :
    ∃ t, least ≤ t ∧ (a + b * t < 0 ∨ high ≤ a + b * t) := by
  rcases lt_or_gt_of_ne hslope with hneg | hpos
  · refine ⟨max least ((-1 - a) / b), le_max_left _ _, .inl ?_⟩
    have hle := mul_le_mul_of_nonpos_left (le_max_right least ((-1 - a) / b)) hneg.le
    rw [mul_div_cancel₀ _ hslope] at hle
    linarith
  · refine ⟨max least ((high - a) / b), le_max_left _ _, .inr ?_⟩
    have hle := mul_le_mul_of_nonneg_left (le_max_right least ((high - a) / b)) hpos.le
    rw [mul_div_cancel₀ _ hslope] at hle
    linarith

end Affine

theorem twosComplement_eq_iff {w : ℕ} (hpos : 0 < w) (number number' : ℤ) :
    twosComplement w (number - 2 ^ (w - 1)) = twosComplement w (number' - 2 ^ (w - 1)) ↔
      clamp 0 (2 ^ w - 1) number = clamp 0 (2 ^ w - 1) number' := by
  rw [← offsetBinary_xor hpos, ← offsetBinary_xor hpos, BitVec.xor_left_inj,
    ← BitVec.toNat_inj, ← toNat_offsetBinary, ← toNat_offsetBinary, Nat.cast_inj]

/-- The greatest signed number is neither of the ends of the unsigned range. -/
theorem offsetBinary_ne_twosComplement {w : ℕ} (hw : 2 ≤ w) {number number' : ℤ}
    (houtside : number < 0 ∨ 2 ^ w - 1 ≤ number) (hlarge : 2 ^ (w - 1) ≤ number') :
    Scale.offsetBinary w number ≠ twosComplement w number' := by
  intro heq
  have hpower := two_pow_pred (by omega : 0 < w)
  have htwo : (2 : ℤ) ≤ 2 ^ (w - 1) := by
    have hle := pow_le_pow_right₀ (by norm_num : (1 : ℤ) ≤ 2) (by omega : 1 ≤ w - 1)
    simpa using hle
  have hsame : twosComplement w number' = Scale.offsetBinary w (2 ^ (w - 1) - 1) := by
    unfold twosComplement Scale.offsetBinary
    congr 1
    unfold clamp
    omega
  have hnat := congrArg (fun result : BitVec w => (result.toNat : ℤ)) (heq.trans hsame)
  simp only [toNat_offsetBinary] at hnat
  unfold clamp at hnat
  omega

namespace Scale

variable {w : ℕ} {scale : Scale K} {multiplier offset : K}

/-- The value that is to be scaled to a place in the range. -/
def placed (w : ℕ) (multiplier offset place : K) : K :=
  offset + (place - 2 ^ (w - 1)) / multiplier

theorem floor_placed (hmultiplier : multiplier ≠ 0) (place : K) :
    ⌊(placed w multiplier offset place - offset) * multiplier⌋ =
      ⌊place⌋ - 2 ^ (w - 1) := by
  rw [← Int.floor_sub_intCast, cast_two_pow, placed]
  congr 1
  field_simp
  ring

theorem position_placed (hmultiplier : multiplier ≠ 0)
    (hwidth : (scale.limits w).2 - (scale.limits w).1 ≠ 0) (place : K) :
    scale.position w (placed w multiplier offset place) =
      (offset - 2 ^ (w - 1) / multiplier - (scale.limits w).1) /
          ((scale.limits w).2 - (scale.limits w).1) * 2 ^ w +
        2 ^ w / (multiplier * ((scale.limits w).2 - (scale.limits w).1)) *
          place := by
  rw [position, placed]
  set width := (scale.limits w).2 - (scale.limits w).1
  field_simp
  ring

theorem width_ne_zero
    (hall : ∀ value, scale.scaleTo w value =
      some (twosComplement w ⌊(value - offset) * multiplier⌋)) :
    (scale.limits w).2 - (scale.limits w).1 ≠ 0 := by
  intro hzero
  have hnone := hall 0
  rw [scaleTo_of_eq hzero] at hnone
  cases hnone

/-- An unsigned result leaves the signed range somewhere. -/
theorem signedType_of_twosComplement (hw : 2 ≤ w) (hmultiplier : multiplier ≠ 0)
    (hall : ∀ value, scale.scaleTo w value =
      some (twosComplement w ⌊(value - offset) * multiplier⌋)) :
    scale.signedType = true := by
  have hwidth := width_ne_zero hall
  have hslope : (2 : K) ^ w /
      (multiplier * ((scale.limits w).2 - (scale.limits w).1)) ≠ 0 :=
    div_ne_zero (pow_ne_zero _ two_ne_zero) (mul_ne_zero hmultiplier hwidth)
  by_contra hsigned
  rw [Bool.not_eq_true] at hsigned
  obtain ⟨place, hlarge, houtside⟩ := exists_outside (a :=
    (offset - 2 ^ (w - 1) / multiplier - (scale.limits w).1) /
      ((scale.limits w).2 - (scale.limits w).1) * 2 ^ w) hslope (2 ^ w) (2 ^ w)
  rw [← position_placed hmultiplier hwidth] at houtside
  have heq := hall (placed w multiplier offset place)
  rw [scaleTo_unsigned hwidth hsigned, Option.some.injEq,
    floor_placed hmultiplier] at heq
  refine offsetBinary_ne_twosComplement hw ?_ ?_ heq
  · rcases houtside with hneg | hhigh
    · exact .inl (Int.floor_lt.mpr (by exact_mod_cast hneg))
    · right
      have hfloor : (2 : ℤ) ^ w ≤
          ⌊scale.position w (placed w multiplier offset place)⌋ :=
        Int.le_floor.mpr (by rwa [cast_two_pow])
      omega
  · have hfloor : (2 : ℤ) ^ w ≤ ⌊place⌋ :=
      Int.le_floor.mpr (by rwa [cast_two_pow])
    have hdouble := two_pow_pred (by omega : 0 < w)
    omega

theorem limits_of_twosComplement (hw : 2 ≤ w) (hle : w ≤ 32)
    (hmultiplier : multiplier ≠ 0) (hsigned : scale.signedType = true)
    (hall : ∀ value, scale.scaleTo w value =
      some (twosComplement w ⌊(value - offset) * multiplier⌋)) :
    (scale.limits w).2 - (scale.limits w).1 = 2 ^ w / multiplier ∧
      (scale.limits w).1 = offset - 2 ^ w / multiplier / 2 := by
  have hpos : 0 < w := by omega
  have hwidth := width_ne_zero hall
  have hhigh : (2 : ℤ) ≤ 2 ^ w - 1 := by
    have hfour := pow_le_pow_right₀ (by norm_num : (1 : ℤ) ≤ 2) hw
    norm_num at hfour
    omega
  obtain ⟨hstart, hone⟩ := affine_eq_of_clamp hhigh fun place => by
    have heq := hall (placed w multiplier offset place)
    rw [scaleTo_signed hpos hle hwidth hsigned, Option.some.injEq,
      floor_placed hmultiplier, position_placed hmultiplier hwidth,
      twosComplement_eq_iff hpos] at heq
    exact heq
  have hlow : offset - 2 ^ (w - 1) / multiplier - (scale.limits w).1 = 0 := by
    rcases mul_eq_zero.mp hstart with hquotient | hzero
    · exact (div_eq_zero_iff.mp hquotient).resolve_right hwidth
    · exact absurd hzero (pow_ne_zero _ two_ne_zero)
  have hhalf : (2 : K) ^ w / multiplier / 2 = 2 ^ (w - 1) / multiplier := by
    rw [div_right_comm, ← Nat.sub_add_cancel hpos, pow_succ,
      mul_div_cancel_right₀ _ two_ne_zero, Nat.add_sub_cancel]
  constructor
  · rw [div_eq_one_iff_eq (mul_ne_zero hmultiplier hwidth)] at hone
    rw [hone, mul_div_cancel_left₀ _ hmultiplier]
  · rw [hhalf]
    exact (sub_eq_zero.mp hlow).symm

/-- The signed result for a multiplier and an offset is given exactly by the
limits that belong to them. -/
theorem scaleTo_eq_twosComplement_iff (hw : 2 ≤ w) (hmultiplier : multiplier ≠ 0) :
    (∀ value, scale.scaleTo w value =
        some (twosComplement w ⌊(value - offset) * multiplier⌋)) ↔
      w ≤ 32 ∧ scale.signedType = true ∧
        (scale.limits w).2 - (scale.limits w).1 = 2 ^ w / multiplier ∧
        (scale.limits w).1 = offset - 2 ^ w / multiplier / 2 := by
  have hpos : 0 < w := by omega
  constructor
  · intro hall
    have hsigned := signedType_of_twosComplement hw hmultiplier hall
    have hle : w ≤ 32 := by
      by_contra hgt
      have hnone := hall 0
      rw [scaleTo_of_gt (not_le.mp hgt) hsigned] at hnone
      cases hnone
    exact ⟨hle, hsigned, limits_of_twosComplement hw hle hmultiplier hsigned hall⟩
  · rintro ⟨hle, hsigned, hwidth, hlow⟩ value
    have hne : (scale.limits w).2 - (scale.limits w).1 ≠ 0 := by
      rw [hwidth]
      exact div_ne_zero (pow_ne_zero _ two_ne_zero) hmultiplier
    rw [scaleTo_signed hpos hle hne hsigned,
      floor_position_eq hpos hmultiplier hwidth hlow, Int.add_sub_cancel]

end Scale

end SensorHub.Scaling
