import Mathlib.Tactic

/-!
# Weighted moments of a growing and shrinking sequence

A sequence of pairs `(weight, value)` has a total weight, a weighted mean and a
weighted variance.  This file proves the incremental laws: how mean and
variance change when one pair is appended and when the first pair is removed.
Both directions are stated with the running-update formulas, so that a program
which maintains mean and variance incrementally can be compared term by term.
-/

namespace WeightedMoments

variable {K : Type*} [Field K]

def total (pairs : List (K × K)) : K :=
  (pairs.map fun pair => pair.1).sum

/-- Weighted sum of an observable of the values. -/
def moment (observable : K → K) (pairs : List (K × K)) : K :=
  (pairs.map fun pair => observable pair.2 * pair.1).sum

def mean (pairs : List (K × K)) : K :=
  moment id pairs / total pairs

/-- Weighted mean square deviation from the weighted mean. -/
def variance (pairs : List (K × K)) : K :=
  moment (fun value => (value - mean pairs) ^ 2) pairs / total pairs

@[simp] theorem total_nil : total ([] : List (K × K)) = 0 := rfl

@[simp] theorem total_cons (pair : K × K) (pairs : List (K × K)) :
    total (pair :: pairs) = pair.1 + total pairs := by
  simp [total]

@[simp] theorem total_append (first second : List (K × K)) :
    total (first ++ second) = total first + total second := by
  simp [total]

@[simp] theorem moment_nil (observable : K → K) :
    moment observable ([] : List (K × K)) = 0 := rfl

@[simp] theorem moment_cons (observable : K → K) (pair : K × K)
    (pairs : List (K × K)) :
    moment observable (pair :: pairs) =
      observable pair.2 * pair.1 + moment observable pairs := by
  simp [moment]

@[simp] theorem moment_append (observable : K → K)
    (first second : List (K × K)) :
    moment observable (first ++ second) =
      moment observable first + moment observable second := by
  simp [moment]

/-- Expanding the square turns a centred second moment into raw moments. -/
theorem moment_sq_sub (centre : K) (pairs : List (K × K)) :
    moment (fun value => (value - centre) ^ 2) pairs =
      moment (fun value => value ^ 2) pairs
        - 2 * centre * moment id pairs + centre ^ 2 * total pairs := by
  induction pairs with
  | nil => simp
  | cons pair pairs ih =>
      simp only [moment_cons, total_cons, ih, id]
      ring

theorem moment_id_eq (pairs : List (K × K)) (htotal : total pairs ≠ 0) :
    moment id pairs = mean pairs * total pairs := by
  rw [mean, div_mul_cancel₀ _ htotal]

theorem moment_sq_eq (pairs : List (K × K)) (htotal : total pairs ≠ 0) :
    moment (fun value => value ^ 2) pairs =
      (variance pairs + mean pairs ^ 2) * total pairs := by
  have hvariance :
      variance pairs * total pairs =
        moment (fun value => (value - mean pairs) ^ 2) pairs := by
    rw [variance, div_mul_cancel₀ _ htotal]
  rw [moment_sq_sub, moment_id_eq pairs htotal] at hvariance
  linear_combination -hvariance

/-! ## Appending one pair -/

theorem mean_append_singleton (pairs : List (K × K)) (weight value : K)
    (htotal : total pairs ≠ 0) (hsum : weight + total pairs ≠ 0) :
    mean (pairs ++ [(weight, value)]) =
      mean pairs + (value - mean pairs) * weight / (weight + total pairs) := by
  have hid := moment_id_eq pairs htotal
  have hsum' : total pairs + weight ≠ 0 := by rwa [add_comm]
  rw [mean, moment_append, total_append, hid]
  simp only [moment_cons, moment_nil, total_cons, total_nil, id, add_zero]
  field_simp
  ring

theorem variance_append_singleton (pairs : List (K × K)) (weight value : K)
    (htotal : total pairs ≠ 0) :
    variance (pairs ++ [(weight, value)]) =
      (total pairs *
          (variance pairs +
            (mean pairs - mean (pairs ++ [(weight, value)])) ^ 2) +
        weight * (value - mean (pairs ++ [(weight, value)])) ^ 2) /
        (total pairs + weight) := by
  have hsq := moment_sq_eq pairs htotal
  have hid := moment_id_eq pairs htotal
  conv_lhs => rw [variance]
  rw [moment_append, moment_sq_sub, hsq, hid, total_append]
  simp only [moment_cons, moment_nil, total_cons, total_nil, add_zero]
  congr 1
  ring

/-! ## Removing the first pair -/

theorem mean_tail (pairs : List (K × K)) (weight value : K)
    (htotal : total pairs ≠ 0) (hsum : weight + total pairs ≠ 0) :
    mean pairs =
      mean ((weight, value) :: pairs) -
        (value - mean ((weight, value) :: pairs)) * weight / total pairs := by
  have hid := moment_id_eq pairs htotal
  have hmean :
      mean ((weight, value) :: pairs) =
        (value * weight + mean pairs * total pairs) /
          (weight + total pairs) := by
    rw [mean, moment_cons, total_cons, hid, id]
  rw [hmean]
  field_simp
  ring

theorem variance_tail (pairs : List (K × K)) (weight value : K)
    (htotal : total pairs ≠ 0) (hsum : weight + total pairs ≠ 0) :
    variance pairs =
      ((total pairs + weight) * variance ((weight, value) :: pairs) -
          weight * (value - mean ((weight, value) :: pairs)) ^ 2) /
          total pairs -
        (mean ((weight, value) :: pairs) - mean pairs) ^ 2 := by
  have hsq := moment_sq_eq pairs htotal
  have hid := moment_id_eq pairs htotal
  have hfull :
      variance ((weight, value) :: pairs) * (total pairs + weight) =
        (value - mean ((weight, value) :: pairs)) ^ 2 * weight +
          ((variance pairs + mean pairs ^ 2) * total pairs
            - 2 * mean ((weight, value) :: pairs) * (mean pairs * total pairs)
            + mean ((weight, value) :: pairs) ^ 2 * total pairs) := by
    rw [variance, total_cons, add_comm (total pairs) weight,
      div_mul_cancel₀ _ hsum, moment_cons, moment_sq_sub, hsq, hid]
  field_simp
  linear_combination -hfull

/-! ## Moving all values -/

def shift (offset : K) (pairs : List (K × K)) : List (K × K) :=
  pairs.map fun pair => (pair.1, pair.2 + offset)

@[simp] theorem total_shift (offset : K) (pairs : List (K × K)) :
    total (shift offset pairs) = total pairs := by
  simp [total, shift, Function.comp_def]

theorem mean_shift (offset : K) (pairs : List (K × K)) (htotal : total pairs ≠ 0) :
    mean (shift offset pairs) = mean pairs + offset := by
  have hmoment :
      moment id (shift offset pairs) = moment id pairs + offset * total pairs := by
    clear htotal
    induction pairs with
    | nil => simp [shift]
    | cons pair pairs ih =>
        have hshift : shift offset (pair :: pairs) =
            (pair.1, pair.2 + offset) :: shift offset pairs := rfl
        rw [hshift, moment_cons, moment_cons, total_cons, ih]
        simp only [id]
        ring
  rw [mean, total_shift, hmoment, add_div, mul_div_cancel_right₀ _ htotal, mean]

theorem variance_shift (offset : K) (pairs : List (K × K)) (htotal : total pairs ≠ 0) :
    variance (shift offset pairs) = variance pairs := by
  rw [variance, total_shift, mean_shift offset pairs htotal, variance]
  congr 1
  simp only [moment, shift, List.map_map, Function.comp_def, add_sub_add_right_eq_sub]

/-! ## Sign -/

section Ordered

variable [LinearOrder K] [IsStrictOrderedRing K]

theorem moment_nonneg {observable : K → K} (hobservable : ∀ x, 0 ≤ observable x)
    (pairs : List (K × K)) (hweights : ∀ pair ∈ pairs, 0 ≤ pair.1) :
    0 ≤ moment observable pairs := by
  apply List.sum_nonneg
  intro term hterm
  obtain ⟨pair, hpair, rfl⟩ := List.mem_map.mp hterm
  exact mul_nonneg (hobservable pair.2) (hweights pair hpair)

theorem total_nonneg (pairs : List (K × K))
    (hweights : ∀ pair ∈ pairs, 0 ≤ pair.1) : 0 ≤ total pairs := by
  apply List.sum_nonneg
  intro term hterm
  obtain ⟨pair, hpair, rfl⟩ := List.mem_map.mp hterm
  exact hweights pair hpair

theorem variance_nonneg (pairs : List (K × K))
    (hweights : ∀ pair ∈ pairs, 0 ≤ pair.1) : 0 ≤ variance pairs :=
  div_nonneg
    (moment_nonneg (fun _ => sq_nonneg _) pairs hweights)
    (total_nonneg pairs hweights)

theorem mean_mem_Icc {low high : K} {pairs : List (K × K)}
    (hweights : ∀ pair ∈ pairs, 0 ≤ pair.1) (htotal : 0 < total pairs)
    (hvalues : ∀ pair ∈ pairs, pair.2 ∈ Set.Icc low high) :
    mean pairs ∈ Set.Icc low high := by
  have hbounds : low * total pairs ≤ moment id pairs ∧
      moment id pairs ≤ high * total pairs := by
    clear htotal
    induction pairs with
    | nil => simp
    | cons pair pairs ih =>
        rw [List.forall_mem_cons] at hweights hvalues
        obtain ⟨hlow, hhigh⟩ := ih hweights.2 hvalues.2
        have hpairLow := mul_le_mul_of_nonneg_right hvalues.1.1 hweights.1
        have hpairHigh := mul_le_mul_of_nonneg_right hvalues.1.2 hweights.1
        simp only [moment_cons, total_cons, id, mul_add]
        exact ⟨add_le_add hpairLow hlow, add_le_add hpairHigh hhigh⟩
  exact ⟨(le_div_iff₀ htotal).mpr hbounds.1, (div_le_iff₀ htotal).mpr hbounds.2⟩

end Ordered

end WeightedMoments
