import Mathlib

/-!
# Quantities, values and angle normalisation

The enumeration of quantities, the value types that carry a quantity and a time
stamp, and the two functions which wrap angular values.  Doubles are taken as
exact numbers: `ExactDouble` collects what the arithmetic of the program needs,
among it the constant `M_PI`, so that the same definitions run on the rationals
and speak about the reals.
-/

namespace SensorHub

/-- Exact numbers in the place of `double`, with the constant `M_PI`. -/
class ExactDouble (K : Type*) extends
    Field K, LinearOrder K, IsStrictOrderedRing K, FloorRing K where
  mPi : K
  mPi_pos : 0 < mPi

export ExactDouble (mPi mPi_pos)

/-- Numerals of several modules, named so that they are the same in all. -/
scoped instance two_atLeastTwo : Nat.AtLeastTwo 2 := ⟨le_rfl⟩

scoped instance halfTurn_atLeastTwo : Nat.AtLeastTwo 180 := ⟨by decide⟩

/-- The rationals, with the double nearest to pi. -/
instance : ExactDouble ℚ where
  mPi := 884279719003555 / 281474976710656
  mPi_pos := by norm_num

noncomputable instance : ExactDouble ℝ where
  mPi := Real.pi
  mPi_pos := Real.pi_pos

/-- Available quantities, in the order of the source enumeration. -/
inductive Quantity where
  | ut | la | lo | hg84 | hmsl | vog | vtw | hdg | crs | mn
  | mx | my | mz | x | y | z | vx | vy | vz | ax
  | ay | az | ro | pi | ya | q1 | q2 | q3 | q4 | rr
  | pr | yr | fax | fay | faz | du | hacc | vacc | sacc | cacc
  | racc | pacc | yacc | hdac | rax | ray | raz | rrr | rpr | ryr
  | rmx | rmy | rmz | gtmp | stmp | wtmp | atmp | etmp | otmp | vsup
  | isup | vset | vsig | frq | sts0 | sts1 | md0 | md1 | md2 | md3
  | cst0 | cst1 | cst2 | cst3 | cst4 | cst5 | cst6 | cst7
  | end_
  deriving DecidableEq, Repr

namespace Quantity

/-- The quantities before the end marker, in order. -/
def all : List Quantity :=
  [.ut, .la, .lo, .hg84, .hmsl, .vog, .vtw, .hdg, .crs, .mn,
   .mx, .my, .mz, .x, .y, .z, .vx, .vy, .vz, .ax,
   .ay, .az, .ro, .pi, .ya, .q1, .q2, .q3, .q4, .rr,
   .pr, .yr, .fax, .fay, .faz, .du, .hacc, .vacc, .sacc, .cacc,
   .racc, .pacc, .yacc, .hdac, .rax, .ray, .raz, .rrr, .rpr, .ryr,
   .rmx, .rmy, .rmz, .gtmp, .stmp, .wtmp, .atmp, .etmp, .otmp, .vsup,
   .isup, .vset, .vsig, .frq, .sts0, .sts1, .md0, .md1, .md2, .md3,
   .cst0, .cst1, .cst2, .cst3, .cst4, .cst5, .cst6, .cst7]

def ofIndex (index : ℕ) : Quantity :=
  all.getD index .end_

def index (quantity : Quantity) : ℕ :=
  all.idxOf quantity

theorem ofIndex_index (quantity : Quantity) :
    ofIndex quantity.index = quantity := by
  cases quantity <;> rfl

/-- The quantities which `value_norm` and `value_diff` wrap. -/
def angular : Quantity → Bool
  | .lo | .ro | .pi | .ya | .hdg | .crs => true
  | _ => false

end Quantity

structure StampedValue (K : Type*) where
  value : K
  stamp : K
  deriving DecidableEq, Repr

structure QuantityValue (K : Type*) where
  value : K
  quantity : Quantity
  deriving DecidableEq, Repr

structure StampedQuantity (K : Type*) extends StampedValue K where
  quantity : Quantity
  deriving DecidableEq, Repr

section Wrapping

variable {K : Type*} [ExactDouble K]

theorem floor_sub_step_lt {value border step : K} (hstep : 0 < step)
    (hborder : border ≤ value) :
    ⌊(value - step - border) / step + 1⌋₊ < ⌊(value - border) / step + 1⌋₊ := by
  have hquot :
      (value - border) / step = (value - step - border) / step + 1 := by
    field_simp
    ring
  have hnonneg : 0 ≤ (value - border) / step :=
    div_nonneg (sub_nonneg.mpr hborder) hstep.le
  rw [← hquot, Nat.floor_add_one hnonneg]
  exact Nat.lt_succ_self _

/-- `while (value >= border) value -= step` -/
def lowerBelow (border step : K) (hstep : 0 < step) (value : K) : K :=
  if border ≤ value then lowerBelow border step hstep (value - step) else value
termination_by ⌊(value - border) / step + 1⌋₊
decreasing_by exact floor_sub_step_lt hstep ‹_›

/-- `while (value < border) value += step` -/
def raiseTo (border step : K) (hstep : 0 < step) (value : K) : K :=
  if value < border then raiseTo border step hstep (value + step) else value
termination_by ⌊(-value - -border) / step + 1⌋₊
decreasing_by
  have hlt : ⌊(-value - step - -border) / step + 1⌋₊ <
      ⌊(-value - -border) / step + 1⌋₊ :=
    floor_sub_step_lt hstep (neg_le_neg (le_of_lt ‹_›))
  rwa [← neg_add'] at hlt

theorem two_mPi_pos : 0 < 2 * (mPi : K) :=
  mul_pos two_pos mPi_pos

/-- Wrap an angle into its customary interval; other quantities are kept. -/
def valueNorm (quantity : Quantity) (value : K) : K :=
  match quantity with
  | .lo | .ro | .pi | .ya =>
      raiseTo (-mPi) (2 * mPi) two_mPi_pos
        (lowerBelow mPi (2 * mPi) two_mPi_pos value)
  | .hdg | .crs =>
      raiseTo 0 (2 * mPi) two_mPi_pos
        (lowerBelow (2 * mPi) (2 * mPi) two_mPi_pos value)
  | _ => value

/-- Difference of two values, wrapped to half a turn for angles. -/
def valueDiff (quantity : Quantity) (value1 value2 : K) : K :=
  let result := value1 - value2
  match quantity with
  | .lo | .hdg | .crs | .ro | .pi | .ya =>
      raiseTo (-mPi) (2 * mPi) two_mPi_pos
        (lowerBelow mPi (2 * mPi) two_mPi_pos result)
  | _ => result

theorem valueNorm_of_not_angular {quantity : Quantity}
    (hquantity : quantity.angular = false) (value : K) :
    valueNorm quantity value = value := by
  cases quantity <;> first | rfl | cases hquantity

theorem valueDiff_of_not_angular {quantity : Quantity}
    (hquantity : quantity.angular = false) (value1 value2 : K) :
    valueDiff quantity value1 value2 = value1 - value2 := by
  cases quantity <;> first | rfl | cases hquantity

end Wrapping

end SensorHub
