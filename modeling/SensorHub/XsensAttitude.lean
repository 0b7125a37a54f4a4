import Mathlib.Analysis.SpecialFunctions.Trigonometric.Basic
import SensorHub.Wrapping
import SensorHub.XsensItems
import SensorHub.XsensRotation

/-!
# Converted angles and orientations

The attitude of the sensor is sent as Euler angles and as a quaternion.  The
quaternion of the angles is a product of rotations about the axes, by half of
each angle.  A half turn about the first axis passes through the rotations about
the other two by reversing them, and it adds half a turn to the rotation about
the first.  This is what the two conversions do, each in its own numbers.

Wrapping an angle by a whole turn changes the sign of its quaternion, which is
the same rotation.
-/

namespace SensorHub.Xsens

open Real (cos sin pi)

noncomputable section

/-! ## Rotations about the axes -/

def axisX : Quaternion ℝ := halfTurn

def axisY : Quaternion ℝ := ⟨0, 0, 1, 0⟩

def axisZ : Quaternion ℝ := ⟨0, 0, 0, 1⟩

def about (axis : Quaternion ℝ) (angle : ℝ) : Quaternion ℝ :=
  cos (angle / 2) • 1 + sin (angle / 2) • axis

def attitude (roll pitch yaw : ℝ) : Quaternion ℝ :=
  about axisZ yaw * about axisY pitch * about axisX roll

theorem axisX_mul_axisX : axisX * axisX = -1 := by
  apply Quaternion.ext <;> simp [axisX] <;> rfl

theorem axisX_mul_axisY : axisX * axisY = -(axisY * axisX) := by
  apply Quaternion.ext <;>
    simp only [Quaternion.re_mul, Quaternion.imI_mul, Quaternion.imJ_mul,
      Quaternion.imK_mul, Quaternion.re_neg, Quaternion.imI_neg,
      Quaternion.imJ_neg, Quaternion.imK_neg] <;>
    simp [axisX, axisY]

theorem axisX_mul_axisZ : axisX * axisZ = -(axisZ * axisX) := by
  apply Quaternion.ext <;>
    simp only [Quaternion.re_mul, Quaternion.imI_mul, Quaternion.imJ_mul,
      Quaternion.imK_mul, Quaternion.re_neg, Quaternion.imI_neg,
      Quaternion.imJ_neg, Quaternion.imK_neg] <;>
    simp [axisX, axisZ]

/-- A half turn about the first axis is part of the rotation about it. -/
theorem axisX_mul_about_axisX (angle : ℝ) :
    axisX * about axisX angle = about axisX (angle + pi) := by
  have hhalf : (angle + pi) / 2 = angle / 2 + pi / 2 := by ring
  rw [about, about, hhalf, Real.cos_add_pi_div_two, Real.sin_add_pi_div_two,
    mul_add, mul_smul_comm, mul_smul_comm, axisX_mul_axisX, mul_one, smul_neg,
    neg_smul, add_comm]

theorem about_axisX_mul_axisX (angle : ℝ) :
    about axisX angle * axisX = axisX * about axisX angle := by
  simp only [about, mul_add, add_mul, mul_smul_comm, smul_mul_assoc, mul_one,
    one_mul]

/-- It passes through a rotation about another axis by reversing it. -/
theorem axisX_mul_about {axis : Quaternion ℝ}
    (haxis : axisX * axis = -(axis * axisX)) (angle : ℝ) :
    axisX * about axis angle = about axis (-angle) * axisX := by
  simp only [about, neg_div, Real.cos_neg, Real.sin_neg, mul_add, add_mul,
    mul_smul_comm, smul_mul_assoc, haxis, neg_smul, smul_neg, neg_mul, mul_one,
    one_mul]

theorem axisX_mul_attitude (roll pitch yaw : ℝ) :
    axisX * attitude roll pitch yaw =
      attitude roll (-pitch) (-yaw) * axisX := by
  unfold attitude
  calc axisX * (about axisZ yaw * about axisY pitch * about axisX roll)
      = axisX * about axisZ yaw * about axisY pitch * about axisX roll := by
        simp only [mul_assoc]
    _ = about axisZ (-yaw) * (axisX * about axisY pitch) *
          about axisX roll := by
        rw [axisX_mul_about axisX_mul_axisZ, mul_assoc (about axisZ (-yaw))]
    _ = about axisZ (-yaw) * about axisY (-pitch) *
          (axisX * about axisX roll) := by
        rw [axisX_mul_about axisX_mul_axisY]
        simp only [mul_assoc]
    _ = about axisZ (-yaw) * about axisY (-pitch) * about axisX roll * axisX := by
        rw [← about_axisX_mul_axisX]
        simp only [mul_assoc]

theorem halfTurn_mul_attitude (roll pitch yaw : ℝ) :
    halfTurn * attitude roll pitch yaw =
      attitude (roll + pi) (-pitch) (-yaw) := by
  have hroll := axisX_mul_attitude roll pitch yaw
  rw [axisX] at hroll
  rw [hroll, attitude, mul_assoc, ← axisX, about_axisX_mul_axisX,
    axisX_mul_about_axisX, attitude]

theorem conjugate_halfTurn_attitude (roll pitch yaw : ℝ) :
    conjugate halfTurn (attitude roll pitch yaw) =
      attitude roll (-pitch) (-yaw) := by
  have hcancel : halfTurn * star halfTurn = (1 : Quaternion ℝ) := by
    rw [Quaternion.self_mul_star]
    simp [Quaternion.normSq_def']
  have hroll := axisX_mul_attitude roll pitch yaw
  rw [axisX] at hroll
  rw [conjugate, hroll, mul_assoc, hcancel, mul_one]

/-! ## Whole turns -/

/-- The quaternions of one rotation. -/
def SameRotation (p q : Quaternion ℝ) : Prop :=
  p = q ∨ p = -q

theorem SameRotation.mul {p p' q q' : Quaternion ℝ} (hp : SameRotation p p')
    (hq : SameRotation q q') : SameRotation (p * q) (p' * q') := by
  rcases hp with rfl | rfl <;> rcases hq with rfl | rfl <;>
    simp [SameRotation]

theorem about_of_modEq (axis : Quaternion ℝ) {x y : ℝ}
    (hmod : x ≡ y [PMOD 2 * pi]) :
    SameRotation (about axis x) (about axis y) := by
  obtain ⟨turns, rfl⟩ := AddCommGroup.modEq_iff_eq_add_zsmul.mp hmod
  have hhalf : (x + turns • (2 * pi)) / 2 = x / 2 + turns * pi := by
    rw [zsmul_eq_mul]
    ring
  rw [about, about, hhalf, Real.cos_add_int_mul_pi, Real.sin_add_int_mul_pi]
  rcases Int.even_or_odd turns with heven | hodd
  · left
    rw [heven.neg_one_zpow, one_mul, one_mul]
  · right
    rw [hodd.neg_one_zpow, neg_one_mul, neg_one_mul, neg_smul, neg_smul, neg_add,
      neg_neg, neg_neg]

theorem attitude_of_modEq {roll pitch yaw roll' pitch' yaw' : ℝ}
    (hroll : roll ≡ roll' [PMOD 2 * pi]) (hpitch : pitch ≡ pitch' [PMOD 2 * pi])
    (hyaw : yaw ≡ yaw' [PMOD 2 * pi]) :
    SameRotation (attitude roll pitch yaw) (attitude roll' pitch' yaw') :=
  ((about_of_modEq axisZ hyaw).mul (about_of_modEq axisY hpitch)).mul
    (about_of_modEq axisX hroll)

/-! ## The conversions of the attitude -/

def radians (degrees : ℝ) : ℝ :=
  pi / 180 * degrees

/-- The angles before they are wrapped. -/
def mountedAngles (flip : Bool) (angles : ℝ × ℝ × ℝ) : ℝ × ℝ × ℝ :=
  if flip then (radians angles.1, -radians angles.2.1, -radians angles.2.2)
  else (radians angles.1 + pi, -radians angles.2.1, -radians angles.2.2)

def wrappedAngles (angles : ℝ × ℝ × ℝ) : ℝ × ℝ × ℝ :=
  (valueNorm .ro angles.1, valueNorm .pi angles.2.1, valueNorm .ya angles.2.2)

theorem exactValues_eulerAngles (flip : Bool) (angles : ℝ × ℝ × ℝ) :
    (eulerAngles flip).exactValues (vectorData angles) =
      consecutive .ro (vectorData (wrappedAngles (mountedAngles flip angles))) := by
  have hro : Quantity.ofIndex Quantity.ro.index = .ro := rfl
  have hpi : Quantity.ofIndex (Quantity.ro.index + 1) = .pi := rfl
  have hya : Quantity.ofIndex (Quantity.ro.index + 2) = .ya := rfl
  have hturn : (mPi : ℝ) = pi := rfl
  cases flip <;>
    simp [eulerAngles, DataValue.exactValues, DataValue.convert, radConvert,
      DataValue.convertedAt, DataValue.raw, DataValue.quantityAt, consecutive, List.range_succ,
      vectorData, wrappedAngles, mountedAngles, indexPermute, identityConvert,
      IeeeDouble.scale, IeeeDouble.shift, IeeeDouble.norm, radians, hro, hpi,
      hya, hturn]

theorem attitude_mounted (flip : Bool) (roll pitch yaw : ℝ) :
    let angles := mountedAngles flip (roll, pitch, yaw)
    attitude angles.1 angles.2.1 angles.2.2 =
      mountedQuaternion flip
        (attitude (radians roll) (radians pitch) (radians yaw)) := by
  cases flip with
  | false => exact (halfTurn_mul_attitude _ _ _).symm
  | true => exact (conjugate_halfTurn_attitude _ _ _).symm

theorem eulerAngles_bounded (flip : Bool) (angles : ℝ × ℝ × ℝ) :
    (eulerAngles flip).AnglesBounded (vectorData angles) := by
  have hindex : ∀ index < 3,
      ((vectorData angles).getD index .nan).isInfinite = false := by
    intro index hindex
    interval_cases index <;> rfl
  intro index hlt _
  cases flip <;> exact hindex index hlt

/-- The converted angles and the converted orientation describe the same
attitude, for both mountings. -/
theorem attitude_converted (flip : Bool) (roll pitch yaw : ℝ) :
    ∃ (roll' pitch' yaw' : ℝ) (q' : Quaternion ℝ),
      (∃ enough, ∀ fuel ≥ enough,
        (eulerAngles flip).getValues .exact fuel (vectorData (roll, pitch, yaw)) =
          .values (consecutive .ro (vectorData (roll', pitch', yaw')))) ∧
        (∀ fuel, (quaternion flip).getValues .exact fuel
            (quaternionData
              (attitude (radians roll) (radians pitch) (radians yaw))) =
          .values (consecutive .q1 (quaternionData q'))) ∧
        SameRotation (attitude roll' pitch' yaw') q' := by
  let angles := mountedAngles flip (roll, pitch, yaw)
  obtain ⟨enough, henough⟩ :=
    (eulerAngles flip).exists_exactValues (eulerAngles_bounded flip (roll, pitch, yaw))
  refine ⟨valueNorm .ro angles.1, valueNorm .pi angles.2.1,
    valueNorm .ya angles.2.2, mountedQuaternion flip _, ⟨enough, ?_⟩,
    fun fuel => getValues_quaternion fuel flip _, ?_⟩
  · intro fuel hfuel
    rw [henough fuel hfuel, exactValues_eulerAngles]
    rfl
  · rw [← attitude_mounted]
    exact attitude_of_modEq (valueNorm_modEq _ _) (valueNorm_modEq _ _)
      (valueNorm_modEq _ _)

end

end SensorHub.Xsens
