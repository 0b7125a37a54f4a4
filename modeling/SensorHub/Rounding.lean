import Mathlib

/-!
# Rounding to the nearest

The result of an operation on floating point numbers is a representable number
which is nearest to the exact result.  Definitions that take their rounding as a
parameter are exact for `exact`, and in `binary` they compute what a binary
format computes.  Exponents are not bounded above: overflow has to be looked
after where it can occur.

Beyond a power of two the representable numbers are multiples of a power of two
themselves, so that adding less than half of it changes nothing.
-/

/-- A set of representable numbers, and a way to a nearest one of them. -/
structure Rounding (K : Type*) [Field K] [LinearOrder K] where
  representable : Set K
  zero_mem : 0 ∈ representable
  round : K → K
  round_mem : ∀ value, round value ∈ representable
  nearest : ∀ value, ∀ other ∈ representable, |round value - value| ≤ |other - value|

namespace Rounding

variable {K : Type*} [Field K] [LinearOrder K] [IsStrictOrderedRing K]

/-- No rounding at all. -/
def exact : Rounding K where
  representable := Set.univ
  zero_mem := Set.mem_univ _
  round := id
  round_mem := fun _ => Set.mem_univ _
  nearest := fun value other _ => by simp

@[simp] theorem round_exact (value : K) : (exact : Rounding K).round value = value := rfl

variable (rounding : Rounding K)

theorem round_of_mem {value : K} (hvalue : value ∈ rounding.representable) :
    rounding.round value = value := by
  have hnearest := rounding.nearest value value hvalue
  rw [sub_self, abs_zero, abs_nonpos_iff, sub_eq_zero] at hnearest
  exact hnearest

@[simp] theorem round_zero : rounding.round 0 = 0 :=
  rounding.round_of_mem rounding.zero_mem

theorem monotone_round : Monotone rounding.round := by
  intro low high hle
  by_contra hnot
  rw [not_le] at hnot
  -- each of the results is nearest, so the middle between them separates the values
  have hlow := rounding.nearest low _ (rounding.round_mem high)
  have hhigh := rounding.nearest high _ (rounding.round_mem low)
  rw [← sq_le_sq] at hlow hhigh
  have hproduct : (rounding.round low - rounding.round high) * (high - low) ≤ 0 := by
    linarith
  have heq : low = high :=
    hle.antisymm (sub_nonpos.mp (nonpos_of_mul_nonpos_right hproduct (sub_pos.mpr hnot)))
  rw [heq] at hnot
  exact lt_irrefl _ hnot

/-! ## To an integer -/

section Floor

variable [FloorRing K]

/-- The nearest integer, the even one of two. -/
def roundEven (value : K) : ℤ :=
  let rest := value - ⌊value⌋
  if rest < 1 / 2 then ⌊value⌋
  else if 1 / 2 < rest then ⌊value⌋ + 1
  else if ⌊value⌋ % 2 = 0 then ⌊value⌋
  else ⌊value⌋ + 1

theorem abs_roundEven_sub_le (value : K) (number : ℤ) :
    |(roundEven value : K) - value| ≤ |(number : K) - value| := by
  have hfloor := Int.floor_le value
  have hceil := Int.lt_floor_add_one value
  have hhalf : (2 : K) * (1 / 2) = 1 := by norm_num
  -- any integer is on one side of the gap which the value lies in
  have hsides : (number : K) ≤ ⌊value⌋ ∨ (⌊value⌋ : K) + 1 ≤ number := by
    rcases le_or_gt number ⌊value⌋ with hle | hlt
    · exact .inl (by exact_mod_cast hle)
    · exact .inr (by exact_mod_cast hlt)
  have hbelow : (1 / 2 : K) ≥ value - ⌊value⌋ →
      |(⌊value⌋ : K) - value| ≤ |(number : K) - value| := by
    intro hrest
    rw [abs_of_nonpos (by linarith)]
    rcases hsides with hle | hge
    · exact le_trans (by linarith) (neg_le_abs _)
    · exact le_trans (by linarith) (le_abs_self _)
  have habove : value - ⌊value⌋ ≥ 1 / 2 →
      |((⌊value⌋ + 1 : ℤ) : K) - value| ≤ |(number : K) - value| := by
    intro hrest
    push_cast
    rw [abs_of_nonneg (by linarith)]
    rcases hsides with hle | hge
    · exact le_trans (by linarith) (neg_le_abs _)
    · exact le_trans (by linarith) (le_abs_self _)
  unfold roundEven
  simp only
  split_ifs with hlow hhigh
  · exact hbelow hlow.le
  · exact habove hhigh.le
  · exact hbelow (not_lt.mp hhigh)
  · exact habove (not_lt.mp hlow)

theorem abs_roundEven_le {value : K} {bound : ℤ} (hvalue : |value| ≤ bound) :
    |roundEven value| ≤ bound := by
  obtain ⟨hlow, hhigh⟩ := abs_le.mp hvalue
  -- the bounds are integers themselves, so the result is not farther than they are
  have hbelow := abs_roundEven_sub_le value (-bound)
  have habove := abs_roundEven_sub_le value bound
  rw [Int.cast_neg, abs_of_nonpos (by linarith : -(bound : K) - value ≤ 0)] at hbelow
  rw [abs_of_nonneg (by linarith : (0 : K) ≤ bound - value)] at habove
  have hge : ((-bound : ℤ) : K) ≤ roundEven value := by
    push_cast
    linarith [neg_le_abs ((roundEven value : K) - value)]
  have hle : (roundEven value : K) ≤ bound := by
    linarith [le_abs_self ((roundEven value : K) - value)]
  exact abs_le.mpr ⟨by exact_mod_cast hge, by exact_mod_cast hle⟩

theorem abs_roundEven_sub_le_half (value : K) : |(roundEven value : K) - value| ≤ 1 / 2 := by
  have hfloor := Int.floor_le value
  have hceil := Int.lt_floor_add_one value
  rcases le_total (value - ⌊value⌋) (1 / 2) with hlow | hhigh
  · refine (abs_roundEven_sub_le value ⌊value⌋).trans ?_
    rw [abs_of_nonpos (by linarith)]
    linarith
  · refine (abs_roundEven_sub_le value (⌊value⌋ + 1)).trans ?_
    push_cast
    rw [abs_of_nonneg (by linarith)]
    linarith

/-! ## To a binary format -/

/-- The numbers with that many binary digits behind a power of two that is not
less than the least one. -/
def floats (digits : ℕ) (least : ℤ) : Set K :=
  {value | ∃ (mantissa exponent : ℤ), least ≤ exponent ∧ |mantissa| ≤ 2 ^ digits ∧
    value = mantissa * 2 ^ exponent}

/-- The exponent of the last digit of a number. -/
def lastPlace (digits : ℕ) (least : ℤ) (value : K) : ℤ :=
  max least (Int.log 2 |value| + 1 - digits)

def roundBinary (digits : ℕ) (least : ℤ) (value : K) : K :=
  roundEven (value / 2 ^ lastPlace digits least value) * 2 ^ lastPlace digits least value

theorem abs_roundBinary_sub_le (digits : ℕ) (least : ℤ) (value : K) (number : ℤ) :
    |roundBinary digits least value - value| ≤
      |number * 2 ^ lastPlace digits least value - value| := by
  set unit : K := 2 ^ lastPlace digits least value with hunit
  have hpos : 0 < unit := zpow_pos (by norm_num) _
  have hvalue : value = value / unit * unit := (div_mul_cancel₀ _ hpos.ne').symm
  have hnearest := mul_le_mul_of_nonneg_right
    (abs_roundEven_sub_le (value / unit) number) hpos.le
  rw [← abs_of_pos hpos, ← abs_mul, ← abs_mul, abs_of_pos hpos, sub_mul, sub_mul,
    ← hvalue] at hnearest
  exact hnearest

theorem abs_div_lastPlace_lt (digits : ℕ) (least : ℤ) (value : K) :
    |value / 2 ^ lastPlace digits least value| < 2 ^ digits := by
  have hunit : (0 : K) < 2 ^ lastPlace digits least value := zpow_pos (by norm_num) _
  have hvalue := Int.lt_zpow_succ_log_self (b := 2) (by norm_num) |value|
  rw [Nat.cast_ofNat] at hvalue
  rw [abs_div, abs_of_pos hunit, div_lt_iff₀ hunit, ← zpow_natCast,
    ← zpow_add₀ (by norm_num)]
  refine hvalue.trans_le (zpow_le_zpow_right₀ (by norm_num) ?_)
  have := le_max_right least (Int.log 2 |value| + 1 - digits)
  unfold lastPlace
  omega

theorem roundBinary_mem (digits : ℕ) (least : ℤ) (value : K) :
    roundBinary digits least value ∈ floats digits least := by
  refine ⟨_, _, le_max_left _ _, abs_roundEven_le ?_, rfl⟩
  push_cast
  exact (abs_div_lastPlace_lt digits least value).le

/-- A representable number is a multiple of the last place of a value, or it is
not farther from zero than a multiple which lies between zero and the value. -/
theorem abs_roundBinary_sub_le_of_mem {digits : ℕ} (hdigits : 0 < digits) (least : ℤ)
    (value : K) {other : K} (hother : other ∈ floats digits least) :
    |roundBinary digits least value - value| ≤ |other - value| := by
  rcases eq_or_ne value 0 with rfl | hne
  · simp [roundBinary, roundEven]
  obtain ⟨mantissa, exponent, hleast, hmantissa, rfl⟩ := hother
  have hmultiple := abs_roundBinary_sub_le digits least value
  set place := lastPlace digits least value with hplace
  rcases le_or_gt place exponent with hle | hlt
  · obtain ⟨shift, rfl⟩ := Int.le.dest hle
    have hnearest := hmultiple (mantissa * 2 ^ shift)
    rwa [Int.cast_mul, Int.cast_pow, Int.cast_ofNat, mul_assoc, ← zpow_natCast,
      ← zpow_add₀ (by norm_num), add_comm (shift : ℤ)] at hnearest
  · have hlog : place = Int.log 2 |value| + 1 - digits := by
      rw [hplace, lastPlace] at hlt ⊢
      omega
    have hpower := Int.zpow_log_le_self (b := 2) (by norm_num) (abs_pos.mpr hne)
    rw [Nat.cast_ofNat] at hpower
    -- the power of two below the value is a multiple of the last place
    have hscaled : ((2 ^ (digits - 1) : ℤ) : K) * 2 ^ place = 2 ^ Int.log 2 |value| := by
      rw [Int.cast_pow, Int.cast_ofNat, ← zpow_natCast, ← zpow_add₀ (by norm_num)]
      congr 1
      omega
    have hsmall : |(mantissa : K) * 2 ^ exponent| ≤ 2 ^ Int.log 2 |value| := by
      have hcast : |(mantissa : K)| ≤ 2 ^ digits := by exact_mod_cast hmantissa
      have hpos : (0 : K) < 2 ^ exponent := zpow_pos (by norm_num) _
      rw [abs_mul, abs_of_pos hpos]
      refine (mul_le_mul_of_nonneg_right hcast hpos.le).trans ?_
      rw [← zpow_natCast, ← zpow_add₀ (by norm_num)]
      exact zpow_le_zpow_right₀ (by norm_num) (by omega)
    rcases lt_or_gt_of_ne hne with hneg | hpos
    · rw [abs_of_neg hneg] at hpower
      refine (hmultiple (-2 ^ (digits - 1))).trans ?_
      rw [Int.cast_neg, neg_mul, hscaled, abs_of_neg hneg]
      rw [abs_of_neg hneg] at hsmall
      rw [abs_of_nonneg (by linarith)]
      exact le_trans (by linarith [(abs_le.mp hsmall).1]) (le_abs_self _)
    · rw [abs_of_pos hpos] at hpower
      refine (hmultiple (2 ^ (digits - 1))).trans ?_
      rw [hscaled, abs_of_pos hpos]
      rw [abs_of_pos hpos] at hsmall
      rw [abs_of_nonpos (by linarith)]
      exact le_trans (by linarith [(abs_le.mp hsmall).2]) (neg_le_abs _)

/-- A binary format, with ties to the even neighbour. -/
def binary (digits : ℕ) (hdigits : 0 < digits) (least : ℤ) : Rounding K where
  representable := floats digits least
  zero_mem := ⟨0, least, le_rfl, by simp, by simp⟩
  round := roundBinary digits least
  round_mem := roundBinary_mem digits least
  nearest := fun value _ hother => abs_roundBinary_sub_le_of_mem hdigits least value hother

/-! ## Large and small numbers -/

theorem exists_multiple {digits place : ℕ} {least : ℤ} {value : K}
    (hvalue : value ∈ floats digits least) (hlarge : 2 ^ (digits + place) < |value|) :
    ∃ number : ℤ, value = number * 2 ^ (place + 1) := by
  obtain ⟨mantissa, exponent, -, hmantissa, rfl⟩ := hvalue
  have hcast : |(mantissa : K)| ≤ 2 ^ digits := by exact_mod_cast hmantissa
  have hpower : (0 : K) < 2 ^ exponent := zpow_pos (by norm_num) _
  rw [abs_mul, abs_of_pos hpower, pow_add] at hlarge
  have hplace : (2 : K) ^ place < 2 ^ exponent := by
    have := hlarge.trans_le (mul_le_mul_of_nonneg_right hcast hpower.le)
    exact lt_of_mul_lt_mul_left this (by positivity)
  rw [← zpow_natCast, zpow_lt_zpow_iff_right₀ (by norm_num)] at hplace
  obtain ⟨shift, rfl⟩ := Int.le.dest (show (place : ℤ) + 1 ≤ exponent by omega)
  refine ⟨mantissa * 2 ^ shift, ?_⟩
  rw [Int.cast_mul, Int.cast_pow, Int.cast_ofNat, mul_assoc, ← zpow_natCast, ← zpow_natCast,
    ← zpow_add₀ (by norm_num)]
  congr 2
  push_cast
  ring

theorem eq_of_multiples {x y unit : K} (hunit : 0 < unit) {m n : ℤ} (hx : x = m * unit)
    (hy : y = n * unit) (hclose : |x - y| < unit) : x = y := by
  rw [hx, hy, ← sub_mul, abs_mul, abs_of_pos hunit, mul_lt_iff_lt_one_left hunit] at hclose
  have hsame : m = n := by
    rw [← sub_eq_zero, ← Int.abs_lt_one_iff]
    exact_mod_cast hclose
  rw [hx, hy, hsame]

/-- Nothing happens to a large number when a small one is added. -/
theorem round_add_of_large {digits : ℕ} (hdigits : 0 < digits) {least : ℤ} {place : ℕ}
    {value small : K} (hvalue : value ∈ floats digits least)
    (hlarge : 2 ^ (digits + place) < |value|) (hsmall : |small| < 2 ^ place) :
    (binary digits hdigits least).round (value + small) = value := by
  set result := (binary digits hdigits least).round (value + small) with hresult
  have hnearest := (binary digits hdigits least).nearest (value + small) value hvalue
  rw [← hresult, sub_add_cancel_left, abs_neg] at hnearest
  have hclose : |value - result| < 2 ^ (place + 1) := by
    have htriangle := abs_sub_le value (value + small) result
    rw [sub_add_cancel_left, abs_neg, abs_sub_comm (value + small)] at htriangle
    rw [pow_succ]
    linarith
  obtain ⟨number, hnumber⟩ := exists_multiple hvalue hlarge
  -- the next multiple towards zero is still beyond the power of two
  have hbeyond : 2 ^ (digits + place) + 2 ^ (place + 1) ≤ |value| := by
    have hunit : (0 : K) < 2 ^ (place + 1) := by positivity
    have hscaled : (2 : K) ^ (digits + place) = ((2 ^ (digits - 1) : ℤ) : K) * 2 ^ (place + 1) := by
      rw [Int.cast_pow, Int.cast_ofNat, ← pow_add]
      congr 1
      omega
    rw [hnumber, abs_mul, abs_of_pos hunit, hscaled] at hlarge ⊢
    have hnext := Int.add_one_le_of_lt (Int.cast_lt.mp
      ((lt_of_mul_lt_mul_right hlarge hunit.le).trans_eq (Int.cast_abs (R := K)).symm))
    rw [← add_one_mul]
    refine mul_le_mul_of_nonneg_right ?_ hunit.le
    exact_mod_cast hnext
  have hlargeResult : 2 ^ (digits + place) < |result| := by
    have htriangle := abs_sub_abs_le_abs_sub value result
    linarith
  obtain ⟨other, hother⟩ := exists_multiple
    ((binary digits hdigits least).round_mem (value + small)) hlargeResult
  exact (eq_of_multiples (by positivity) hnumber hother hclose).symm

/-- The error of a number that is not too large. -/
theorem abs_round_sub_le {digits : ℕ} (hdigits : 0 < digits) {least : ℤ} {place : ℕ}
    (hleast : least ≤ place) {value : K} (hvalue : |value| ≤ 2 ^ (digits + place)) :
    |(binary digits hdigits least).round value - value| ≤ 2 ^ place / 2 := by
  have hpower : (0 : K) < 2 ^ place := by positivity
  have hquotient : |value / 2 ^ place| ≤ ((2 ^ digits : ℤ) : K) := by
    rw [abs_div, abs_of_pos hpower, div_le_iff₀ hpower, Int.cast_pow, Int.cast_ofNat, ← pow_add]
    exact hvalue
  have hmem : (roundEven (value / 2 ^ place) : K) * 2 ^ place ∈ floats digits least :=
    ⟨_, place, hleast, abs_roundEven_le hquotient, by rw [zpow_natCast]⟩
  refine ((binary digits hdigits least).nearest value _ hmem).trans ?_
  have hhalf := mul_le_mul_of_nonneg_right
    (abs_roundEven_sub_le_half (value / 2 ^ place)) hpower.le
  rw [← abs_of_pos hpower, ← abs_mul, abs_of_pos hpower, sub_mul,
    div_mul_cancel₀ _ hpower.ne'] at hhalf
  linarith

/-- The format of `double`. -/
def binary64 : Rounding K :=
  binary 53 (by norm_num) (-1074)

end Floor

end Rounding
