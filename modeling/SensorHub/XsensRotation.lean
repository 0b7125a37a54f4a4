import SensorHub.XsensData

/-!
# Converted vectors and orientations

The conversions of a body vector and of the orientation quaternion depend on
how the sensor is mounted.  Turning the axes over is half a turn about the first
axis, which is the rotation by the quaternion `i`.  Without the flip flag the
conversion of the orientation is the product by `i` from the left, and vectors
are kept; with the flag vectors are turned over and the orientation is
conjugated by `i`.  In both cases the rotation of a vector ends up turned over.
-/

namespace SensorHub.Xsens

/-! ## Rotation by a quaternion -/

section Rotation

variable {R : Type*} [CommRing R]

def ofVector (vector : R × R × R) : Quaternion R :=
  ⟨0, vector.1, vector.2.1, vector.2.2⟩

def vectorPart (q : Quaternion R) : R × R × R :=
  (q.imI, q.imJ, q.imK)

def conjugate (q v : Quaternion R) : Quaternion R :=
  q * v * star q

def rotate (q : Quaternion R) (vector : R × R × R) : R × R × R :=
  vectorPart (conjugate q (ofVector vector))

/-- The axes turned over. -/
def flipAxes (vector : R × R × R) : R × R × R :=
  (vector.1, -vector.2.1, -vector.2.2)

/-- Half a turn about the first axis. -/
def halfTurn : Quaternion R :=
  ⟨0, 1, 0, 0⟩

@[simp] theorem re_halfTurn : (halfTurn : Quaternion R).re = 0 := rfl

@[simp] theorem imI_halfTurn : (halfTurn : Quaternion R).imI = 1 := rfl

@[simp] theorem imJ_halfTurn : (halfTurn : Quaternion R).imJ = 0 := rfl

@[simp] theorem imK_halfTurn : (halfTurn : Quaternion R).imK = 0 := rfl

theorem conjugate_mul (p q v : Quaternion R) :
    conjugate (p * q) v = conjugate p (conjugate q v) := by
  unfold conjugate
  rw [star_mul]
  simp only [mul_assoc]

theorem star_halfTurn_mul : star halfTurn * (halfTurn : Quaternion R) = 1 := by
  rw [Quaternion.star_mul_self]
  simp [Quaternion.normSq_def']

theorem conjugate_halfTurn (v : Quaternion R) :
    conjugate halfTurn v = ⟨v.re, v.imI, -v.imJ, -v.imK⟩ := by
  apply Quaternion.ext <;> simp [conjugate]

/-- Conjugation by the half turn turns the vector part over. -/
theorem vectorPart_conjugate_halfTurn (v : Quaternion R) :
    vectorPart (conjugate halfTurn v) = flipAxes (vectorPart v) := by
  rw [conjugate_halfTurn]
  rfl

theorem ofVector_flipAxes (vector : R × R × R) :
    ofVector (flipAxes vector) = conjugate halfTurn (ofVector vector) := by
  rw [conjugate_halfTurn]
  rfl

theorem rotate_halfTurn_mul (q : Quaternion R) (vector : R × R × R) :
    rotate (halfTurn * q) vector = flipAxes (rotate q vector) := by
  unfold rotate
  rw [conjugate_mul, vectorPart_conjugate_halfTurn]

theorem rotate_conjugate_halfTurn (q : Quaternion R) (vector : R × R × R) :
    rotate (conjugate halfTurn q) (flipAxes vector) =
      flipAxes (rotate q vector) := by
  have hcancel :
      conjugate (conjugate halfTurn q) (conjugate halfTurn (ofVector vector)) =
        conjugate halfTurn (conjugate q (ofVector vector)) := by
    rw [← conjugate_mul, ← conjugate_mul]
    congr 1
    rw [conjugate, mul_assoc, star_halfTurn_mul, mul_one]
  unfold rotate
  rw [ofVector_flipAxes, hcancel, vectorPart_conjugate_halfTurn]

end Rotation

/-! ## The conversions -/

variable {K : Type} [ExactDouble K]

/-- Values which are not angles are only permuted and converted. -/
theorem DataValue.getValues_of_not_angular (kind : DataValue)
    (rounding : Rounding K) (fuel : ℕ) (data : List (IeeeDouble K))
    (hquantity : ∀ index < kind.dim,
      (Quantity.ofIndex (kind.quantity.index + index)).angular = false) :
    kind.getValues rounding fuel data =
      .values ((List.range kind.dim).map fun index =>
        ⟨kind.convert rounding index
            (data.getD (indexPermute kind.dim kind.flip index) .nan),
          Quantity.ofIndex (kind.quantity.index + index)⟩) := by
  refine kind.getValues_of_some fun index hindex => ?_
  rw [DataValue.valueAt, IeeeDouble.valueNorm_eq_some (hquantity index hindex)]
  rfl

/-- The data of a body vector, as sent by the sensor. -/
def vectorData (vector : K × K × K) : List (IeeeDouble K) :=
  [.finite vector.1, .finite vector.2.1, .finite vector.2.2]

/-- The data of an orientation, as sent by the sensor. -/
def quaternionData (q : Quaternion K) : List (IeeeDouble K) :=
  [.finite q.re, .finite q.imI, .finite q.imJ, .finite q.imK]

def consecutive (quantity : Quantity) (data : List (IeeeDouble K)) :
    List (QuantityValue (IeeeDouble K)) :=
  data.zipIdx.map fun entry =>
    ⟨entry.1, Quantity.ofIndex (quantity.index + entry.2)⟩

def mountedVector (flip : Bool) (vector : K × K × K) : K × K × K :=
  if flip then flipAxes vector else vector

def mountedQuaternion (flip : Bool) (q : Quaternion K) : Quaternion K :=
  if flip then conjugate halfTurn q else halfTurn * q

theorem rotate_mounted (flip : Bool) (q : Quaternion K) (vector : K × K × K) :
    rotate (mountedQuaternion flip q) (mountedVector flip vector) =
      flipAxes (rotate q vector) := by
  cases flip with
  | false => exact rotate_halfTurn_mul q vector
  | true => exact rotate_conjugate_halfTurn q vector

theorem getValues_vector (kind : DataValue) (fuel : ℕ) (vector : K × K × K)
    (hdim : kind.dim = 3) (hconverter : kind.converter = .identity)
    (hquantity : ∀ index < 3,
      (Quantity.ofIndex (kind.quantity.index + index)).angular = false) :
    kind.getValues .exact fuel (vectorData vector) =
      .values (consecutive kind.quantity
        (vectorData (mountedVector kind.flip vector))) := by
  rw [DataValue.getValues_of_not_angular kind .exact fuel _ (by rwa [hdim])]
  unfold DataValue.convert
  rw [hdim, hconverter]
  cases kind.flip <;>
    simp [vectorData, mountedVector, flipAxes, consecutive, List.range_succ,
      indexPermute, identityConvert, IeeeDouble.scale]

theorem getValues_quaternion (fuel : ℕ) (flip : Bool) (q : Quaternion K) :
    (quaternion flip).getValues .exact fuel (quaternionData q) =
      .values (consecutive .q1 (quaternionData (mountedQuaternion flip q))) := by
  rw [DataValue.getValues_of_not_angular _ .exact fuel _ (by cases flip <;> decide)]
  cases flip with
  | false =>
      simp [quaternion, DataValue.convert, quaternionData, mountedQuaternion,
        consecutive, List.range_succ, indexPermute, identityConvert,
        IeeeDouble.scale]
  | true =>
      simp [quaternion, DataValue.convert, quaternionData, mountedQuaternion,
        conjugate_halfTurn, consecutive, List.range_succ, indexPermute,
        identityConvert, IeeeDouble.scale]

/-- Converted vectors and orientations are consistent: the converted vector
rotated by the converted orientation is the rotated vector with its axes turned
over. -/
theorem rotate_converted (fuel : ℕ) (flip : Bool) (q : Quaternion K)
    (vector : K × K × K) :
    ∃ (q' : Quaternion K) (vector' : K × K × K),
      (quaternion flip).getValues .exact fuel (quaternionData q) =
          .values (consecutive .q1 (quaternionData q')) ∧
        (acceleration flip).getValues .exact fuel (vectorData vector) =
          .values (consecutive .ax (vectorData vector')) ∧
        (rateOfTurn flip).getValues .exact fuel (vectorData vector) =
          .values (consecutive .rr (vectorData vector')) ∧
        rotate q' vector' = flipAxes (rotate q vector) :=
  ⟨mountedQuaternion flip q, mountedVector flip vector,
    getValues_quaternion fuel flip q,
    getValues_vector (acceleration flip) fuel vector rfl rfl
      (by cases flip <;> decide),
    getValues_vector (rateOfTurn flip) fuel vector rfl rfl
      (by cases flip <;> decide),
    rotate_mounted flip q vector⟩

end SensorHub.Xsens
