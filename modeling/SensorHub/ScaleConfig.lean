import SensorHub.DecimalText
import SensorHub.Scaling

/-!
# The configuration of the scales

`Base_scale::load` looks up every setting in the configuration, then in a table
of defaults and then takes a default of the program.  The type that a text is
read as is that of the default, and for multipliers and offsets the default is
the `int` zero.  A multiplier that is not an `int` is therefore taken for none.

A configuration is a function from paths to texts.  Reading a `double` and a
`bool` from a text is left open.
-/

namespace SensorHub.Scaling

open DecimalText

variable {K : Type*} [ExactDouble K]

def quantityName : Quantity → String
  | .ut => "ut" | .la => "la" | .lo => "lo" | .hg84 => "hg84" | .hmsl => "hmsl" | .vog => "vog"
  | .vtw => "vtw" | .hdg => "hdg" | .crs => "crs" | .mn => "mn" | .mx => "mx" | .my => "my"
  | .mz => "mz" | .x => "x" | .y => "y" | .z => "z" | .vx => "vx" | .vy => "vy" | .vz => "vz"
  | .ax => "ax" | .ay => "ay" | .az => "az" | .ro => "ro" | .pi => "pi" | .ya => "ya"
  | .q1 => "q1" | .q2 => "q2" | .q3 => "q3" | .q4 => "q4" | .rr => "rr" | .pr => "pr"
  | .yr => "yr" | .fax => "fax" | .fay => "fay" | .faz => "faz" | .du => "du" | .hacc => "hacc"
  | .vacc => "vacc" | .sacc => "sacc" | .cacc => "cacc" | .racc => "racc" | .pacc => "pacc"
  | .yacc => "yacc" | .hdac => "hdac" | .rax => "rax" | .ray => "ray" | .raz => "raz"
  | .rrr => "rrr" | .rpr => "rpr" | .ryr => "ryr" | .rmx => "rmx" | .rmy => "rmy"
  | .rmz => "rmz" | .gtmp => "gtmp" | .stmp => "stmp" | .wtmp => "wtmp" | .atmp => "atmp"
  | .etmp => "etmp" | .otmp => "otmp" | .vsup => "vsup" | .isup => "isup" | .vset => "vset"
  | .vsig => "vsig" | .frq => "frq" | .sts0 => "sts0" | .sts1 => "sts1" | .md0 => "md0"
  | .md1 => "md1" | .md2 => "md2" | .md3 => "md3" | .cst0 => "cst0" | .cst1 => "cst1"
  | .cst2 => "cst2" | .cst3 => "cst3" | .cst4 => "cst4" | .cst5 => "cst5" | .cst6 => "cst6"
  | .cst7 => "cst7"
  | .end_ => ""

/-- The entries of the defaults, each with a minimum and a maximum. -/
def defConfigData : List (String × String × String) :=
  [("ut", "0", "4294967296"), ("la", "-3.1415926535897931", "3.1415926535897931"),
   ("lo", "-3.1415926535897931", "3.1415926535897931"), ("hdg", "0", "6.2831853071795862"),
   ("crs", "0", "6.2831853071795862"), ("ax", "-32.768", "32.768"), ("ay", "-32.768", "32.768"),
   ("az", "-32.768", "32.768"), ("vx", "-32.768", "32.768"), ("vy", "-32.768", "32.768"),
   ("vz", "-32.768", "32.768"), ("ro", "-3.1415926535897931", "3.1415926535897931"),
   ("pi", "-3.1415926535897931", "3.1415926535897931"),
   ("ya", "-3.1415926535897931", "3.1415926535897931"),
   ("rr", "-3.1415926535897931", "3.1415926535897931"),
   ("pr", "-3.1415926535897931", "3.1415926535897931"),
   ("yr", "-3.1415926535897931", "3.1415926535897931"), ("h1", "-327.68", "327.68"),
   ("h2", "-327.68", "327.68"), ("mx", "-0.00032768", "0.00032768"),
   ("my", "-0.00032768", "0.00032768"), ("mz", "-0.00032768", "0.00032768"),
   ("du", "0", "6553.6"), ("hg84", "-327.68", "327.68"), ("hmsl", "-327.68", "327.68"),
   ("hacc", "0", "655.36"), ("vacc", "0", "655.36"), ("sacc", "0", "655.36"),
   ("cacc", "0", "655.36"), ("racc", "0", "655.36"), ("pacc", "0", "655.36"),
   ("yacc", "0", "655.36"), ("hdac", "0", "655.36"), ("rax", "-32.768", "32.768"),
   ("ray", "-32.768", "32.768"), ("raz", "-32.768", "32.768"),
   ("rrr", "-3.1415926535897931", "3.1415926535897931"),
   ("rpr", "-3.1415926535897931", "3.1415926535897931"),
   ("ryr", "-3.1415926535897931", "3.1415926535897931"), ("rmx", "-0.00032768", "0.00032768"),
   ("rmy", "-0.00032768", "0.00032768"), ("rmz", "-0.00032768", "0.00032768"),
   ("gtmp", "0", "655.36"), ("stmp", "0", "655.36"), ("wtmp", "0", "655.36"),
   ("atmp", "0", "655.36"), ("etmp", "0", "6553.6"), ("otmp", "0", "655.36"), ("q1", "-1", "1"),
   ("q2", "-1", "1"), ("q3", "-1", "1"), ("q4", "-1", "1"), ("fax", "-32.768", "32.768"),
   ("fay", "-32.768", "32.768"), ("faz", "-32.768", "32.768"), ("du", "0.0", "6553.6"),
   ("hacc", "0.0", "655.36"), ("vacc", "0.0", "655.36"), ("sacc", "0.0", "655.36"),
   ("cacc", "0.0", "655.36"), ("racc", "0.0", "655.36"), ("pacc", "0.0", "655.36"),
   ("yacc", "0.0", "655.36"), ("hdac", "0.0", "655.36"), ("rax", "-32.768", "32.768"),
   ("ray", "-32.768", "32.768"), ("raz", "-32.768", "32.768"),
   ("rrr", "-3.1415926535897931", "3.1415926535897931"),
   ("rpr", "-3.1415926535897931", "3.1415926535897931"),
   ("ryr", "-3.1415926535897931", "3.1415926535897931"), ("rmx", "-0.00032768", "0.00032768"),
   ("rmy", "-0.00032768", "0.00032768"), ("rmz", "-0.00032768", "0.00032768"),
   ("gtmp", "0.0", "655.36"), ("stmp", "0.0", "655.36"), ("wtmp", "0.0", "655.36"),
   ("atmp", "0.0", "655.36"), ("etmp", "0.0", "6553.6"), ("otmp", "0.0", "655.36"),
   ("vsup", "0.0", "655.36"), ("isup", "0.0", "655.36"), ("vset", "-327.68", "327.68"),
   ("vsig", "-327.68", "327.68"), ("frq", "0.0", "655360.0"), ("sts0", "0.0", "65536.0"),
   ("sts1", "0.0", "65536.0"), ("md0", "0.0", "65536.0"), ("md1", "0.0", "65536.0"),
   ("md2", "0.0", "65536.0"), ("md3", "0.0", "65536.0"), ("cst0", "0.0", "65536.0"),
   ("cst1", "0.0", "65536.0"), ("cst2", "0.0", "65536.0"), ("cst3", "0.0", "65536.0"),
   ("cst4", "0.0", "65536.0"), ("cst5", "0.0", "65536.0"), ("cst6", "0.0", "65536.0"),
   ("cst7", "0.0", "65536.0")]

/-- The first entry of a name counts. -/
def defConfig (name type : String) : Option String :=
  (defConfigData.lookup name).bind fun limits =>
    if type = "min" then some limits.1 else if type = "max" then some limits.2 else none

section Load

/-- The text at a path as the type of the default, which is returned when there
is no such text. -/
def get {α : Type*} (read : String → Option α) (config : String → Option String)
    (path : String) (default : α) : α :=
  ((config path).bind read).getD default

def getDefConfig {α : Type*} (read : String → Option α) (quantity : Quantity)
    (type : String) (default : α) : α :=
  get read (defConfig (quantityName quantity)) type default

variable (readDouble : String → Option K) (readBool : String → Option Bool)
  (config : String → Option String)

def loadMin (quantity : Quantity) : K :=
  get readDouble config (quantityName quantity ++ "_min")
    (getDefConfig readDouble quantity "min" ((-32768 : ℤ) : K))

def loadMax (quantity : Quantity) : K :=
  get readDouble config (quantityName quantity ++ "_max")
    (getDefConfig readDouble quantity "max" ((32768 : ℤ) : K))

def loadMultiplier (quantity : Quantity) : ℤ :=
  get readInt config (quantityName quantity ++ "_scale")
    (getDefConfig readInt quantity "scale" 0)

def loadOffset (quantity : Quantity) : ℤ :=
  get readInt config (quantityName quantity ++ "_offset")
    (getDefConfig readInt quantity "offset" 0)

def loadSigned (quantity : Quantity) : Bool :=
  get readBool config (quantityName quantity ++ "_signed")
    (getDefConfig readBool quantity "signed" (decide (loadMultiplier config quantity ≠ 0)))

/-- `Base_scale::load`; the end marker is not among the quantities. -/
def load (quantity : Quantity) : Option (Scale K) :=
  if quantity = .end_ then none
  else some
    { min := loadMin readDouble config quantity
      max := loadMax readDouble config quantity
      multiplier := loadMultiplier config quantity
      offset := loadOffset config quantity
      signedType := loadSigned readBool config quantity }

end Load

/-! ## Multipliers and offsets -/

theorem getDefConfig_of_ne {α : Type*} (read : String → Option α) (quantity : Quantity)
    {type : String} (hmin : type ≠ "min") (hmax : type ≠ "max") (default : α) :
    getDefConfig read quantity type default = default := by
  have hnone : defConfig (quantityName quantity) type = none := by
    unfold defConfig
    cases defConfigData.lookup (quantityName quantity) with
    | none => rfl
    | some limits => rw [Option.bind_some, if_neg hmin, if_neg hmax]
  rw [getDefConfig, get, hnone]
  rfl

section Decimals

variable {readDouble : String → Option K} {readBool : String → Option Bool}
  {config : String → Option String} {quantity : Quantity} {decimal : Decimal}

theorem loadMultiplier_eq
    (htext : config (quantityName quantity ++ "_scale") = some decimal.text) :
    loadMultiplier config quantity = (readInt decimal.text).getD 0 := by
  rw [loadMultiplier, getDefConfig_of_ne _ _ (by decide) (by decide), get, htext,
    Option.bind_some]

theorem loadOffset_eq
    (htext : config (quantityName quantity ++ "_offset") = some decimal.text) :
    loadOffset config quantity = (readInt decimal.text).getD 0 := by
  rw [loadOffset, getDefConfig_of_ne _ _ (by decide) (by decide), get, htext,
    Option.bind_some]

theorem loadSigned_eq :
    loadSigned readBool config quantity =
      ((config (quantityName quantity ++ "_signed")).bind readBool).getD
        (decide (loadMultiplier config quantity ≠ 0)) := by
  rw [loadSigned, getDefConfig_of_ne _ _ (by decide) (by decide), get]

/-- The offset is read as it is written, or it is zero. -/
theorem loadOffset_eq_iff
    (htext : config (quantityName quantity ++ "_offset") = some decimal.text) :
    (loadOffset config quantity : K) = decimal.value ↔
      decimal.IsInt ∨ decimal.value (K := K) = 0 := by
  rw [loadOffset_eq htext]
  by_cases hint : decimal.IsInt
  · simp [Decimal.readInt_of_isInt hint, Decimal.value_of_isInt hint, hint]
  · simp [Decimal.readInt_of_not_isInt hint, hint, eq_comm]

end Decimals

/-- The configured settings of a quantity give its multiplier and offset, as
texts, the meaning of a signed scale: an `int` as multiplier, with an `int` or
zero as offset; or without a multiplier limits that come to the same. -/
def ReadsScale (w : ℕ) (readDouble : String → Option K) (readBool : String → Option Bool)
    (config : String → Option String) (quantity : Quantity)
    (multiplier offset : Decimal) : Prop :=
  let signed := (config (quantityName quantity ++ "_signed")).bind readBool
  (multiplier.IsInt ∧ (offset.IsInt ∨ offset.value (K := K) = 0) ∧ signed ≠ some false) ∨
    (¬multiplier.IsInt ∧ signed = some true ∧
      loadMax readDouble config quantity - loadMin readDouble config quantity =
        2 ^ w / multiplier.value ∧
      loadMin readDouble config quantity = offset.value - 2 ^ w / multiplier.value / 2)

/-- A decimal multiplier and a decimal offset have their meaning exactly when
they are read as such. -/
theorem load_iff (w : ℕ) (hw : 8 ≤ w) (readDouble : String → Option K)
    (readBool : String → Option Bool) (config : String → Option String)
    (quantity : Quantity) (hquantity : quantity ≠ .end_) (multiplier offset : Decimal)
    (hmultiplier : multiplier.value (K := K) ≠ 0)
    (hscale : config (quantityName quantity ++ "_scale") = some multiplier.text)
    (hoffset : config (quantityName quantity ++ "_offset") = some offset.text) :
    (∀ value : K, scaleTo w (load readDouble readBool config) quantity value =
        some (twosComplement w ⌊(value - offset.value) * multiplier.value⌋)) ↔
      w ≤ 32 ∧ ReadsScale w readDouble readBool config quantity multiplier offset := by
  have hpos : 0 < w := by omega
  set scale : Scale K :=
    { min := loadMin readDouble config quantity
      max := loadMax readDouble config quantity
      multiplier := loadMultiplier config quantity
      offset := loadOffset config quantity
      signedType := loadSigned readBool config quantity } with hloaded
  have hload : load readDouble readBool config quantity = some scale := if_neg hquantity
  simp only [scaleTo, hload]
  rw [Scale.scaleTo_eq_twosComplement_iff (by omega) hmultiplier]
  refine and_congr_right fun _ => ?_
  unfold ReadsScale
  by_cases hint : multiplier.IsInt
  · have hvalue : scale.multiplier = multiplier.value := by
      rw [Decimal.value_of_isInt hint, hloaded]
      simp only [loadMultiplier_eq hscale, Decimal.readInt_of_isInt hint, Option.getD_some]
    have hne : scale.multiplier ≠ 0 := hvalue ▸ hmultiplier
    have hwhole : loadMultiplier config quantity ≠ 0 := by
      intro hzero
      exact hne (by simp [hloaded, hzero])
    have hsigned : scale.signedType = true ↔
        (config (quantityName quantity ++ "_signed")).bind readBool ≠ some false := by
      rw [hloaded]
      simp only [loadSigned_eq, ne_eq, hwhole, not_false_eq_true, decide_true]
      cases (config (quantityName quantity ++ "_signed")).bind readBool with
      | none => simp
      | some signed => cases signed <;> simp
    have hlow : (scale.limits w).1 = offset.value - 2 ^ w / multiplier.value / 2 ↔
        offset.IsInt ∨ offset.value (K := K) = 0 := by
      rw [Scale.limits_of_ne hne, hvalue, sub_left_inj]
      exact loadOffset_eq_iff hoffset
    rw [Scale.width_of_ne hne, hvalue, hlow, hsigned]
    simp only [hint, true_and, not_true_eq_false, false_and, or_false]
    exact and_comm
  · have hwhole : loadMultiplier config quantity = 0 := by
      rw [loadMultiplier_eq hscale, Decimal.readInt_of_not_isInt hint, Option.getD_none]
    have hzero : scale.multiplier = 0 := by simp [hloaded, hwhole]
    have hsigned : scale.signedType = true ↔
        (config (quantityName quantity ++ "_signed")).bind readBool = some true := by
      rw [hloaded]
      simp only [loadSigned_eq, hwhole]
      cases (config (quantityName quantity ++ "_signed")).bind readBool with
      | none => simp
      | some signed => simp
    rw [Scale.limits_of_zero hzero, hsigned]
    simp only [hint, false_and, false_or, not_false_eq_true, true_and]
    exact Iff.rfl

def two : Decimal where
  sign := none
  digits := [2]
  digits_ne_nil := by decide
  fraction := none

def oneHalf : Decimal where
  sign := none
  digits := [0]
  digits_ne_nil := by decide
  fraction := some [5]

def settings (multiplier offset : Decimal) (path : String) : Option String :=
  if path = "vx_scale" then some multiplier.text
  else if path = "vx_offset" then some offset.text
  else none

/-- The texts among the defaults of a velocity. -/
def readVelocity (text : String) : Option ℚ :=
  if text = "-32.768" then some (-4096 / 125)
  else if text = "32.768" then some (4096 / 125)
  else none

def readFlag (text : String) : Option Bool :=
  if text = "true" then some true else if text = "false" then some false else none

theorem load_iff_two :
    (∀ value : ℚ, scaleTo 16 (load readVelocity readFlag (settings two two)) .vx value =
        some (twosComplement 16 ⌊(value - two.value) * two.value⌋)) ↔
      16 ≤ 32 ∧ ReadsScale 16 readVelocity readFlag (settings two two) .vx two two :=
  load_iff 16 (by decide) readVelocity readFlag (settings two two) .vx (by decide) two two
    (by decide +kernel) (by decide) (by decide)

/-- Half a step for each unit is taken for no multiplier at all. -/
theorem load_ne_oneHalf :
    ¬∀ (w : ℕ), 8 ≤ w → ∀ (readDouble : String → Option ℚ) (readBool : String → Option Bool)
      (config : String → Option String) (quantity : Quantity), quantity ≠ .end_ →
      ∀ multiplier offset : Decimal, multiplier.value (K := ℚ) ≠ 0 →
        config (quantityName quantity ++ "_scale") = some multiplier.text →
        config (quantityName quantity ++ "_offset") = some offset.text →
        ∀ value : ℚ, scaleTo w (load readDouble readBool config) quantity value =
          some (twosComplement w ⌊(value - offset.value) * multiplier.value⌋) := by
  intro hall
  have hvalue := hall 16 (by decide) readVelocity readFlag (settings oneHalf two) .vx
    (by decide) oneHalf two (by decide +kernel) (by decide) (by decide) 4
  revert hvalue
  decide +kernel

end SensorHub.Scaling
