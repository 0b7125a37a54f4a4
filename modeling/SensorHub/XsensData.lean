import SensorHub.Calendar
import SensorHub.IeeeDouble
import SensorHub.PacketParser
import SensorHub.X3

/-!
# Data items of the Xsens messages

The content of an `MtData2` message is a sequence of data items, each with an
identifier and a length.  The grammar tries the known item types in a fixed
order and skips everything else.  Every parsed item yields values when it is
visited; a date and time item may throw, and wrapping an angle need not end.
-/

namespace SensorHub.Xsens

/-- Number formats of the data values that are supported. -/
inductive SubFormat where
  | float
  | double
  deriving DecidableEq, Repr

namespace SubFormat

def code : SubFormat → ℕ
  | .float => 0x0000
  | .double => 0x0003

def size : SubFormat → ℕ
  | .float => 4
  | .double => 8

end SubFormat

inductive Converter where
  | identity
  | rad
  | tesla
  deriving DecidableEq, Repr

/-- The parameters of the generic data packet. -/
structure DataValue where
  dataId : ℕ
  coordSys : ℕ
  format : SubFormat
  dim : ℕ
  quantity : Quantity
  converter : Converter
  flip : Bool
  deriving DecidableEq, Repr

def coordSysEnu : ℕ := 0x0000

namespace DataValue

def did (kind : DataValue) : ℕ :=
  kind.dataId ||| kind.coordSys ||| kind.format.code

end DataValue

def acceleration (flip : Bool) : DataValue :=
  ⟨0x4020, coordSysEnu, .float, 3, .ax, .identity, flip⟩

def freeAcceleration (flip : Bool) : DataValue :=
  ⟨0x4030, coordSysEnu, .float, 3, .fax, .identity, flip⟩

def rateOfTurn (flip : Bool) : DataValue :=
  ⟨0x8020, coordSysEnu, .float, 3, .rr, .identity, flip⟩

def latLon : DataValue :=
  ⟨0x5040, coordSysEnu, .double, 2, .la, .rad, false⟩

def magneticFlux (flip : Bool) : DataValue :=
  ⟨0xC020, coordSysEnu, .float, 3, .mx, .tesla, flip⟩

def velocity (flip : Bool) : DataValue :=
  ⟨0xD010, coordSysEnu, .float, 3, .vx, .identity, flip⟩

def altitudeEllipsoid : DataValue :=
  ⟨0x5020, coordSysEnu, .float, 1, .hg84, .identity, false⟩

def altitudeMsl : DataValue :=
  ⟨0x5010, coordSysEnu, .float, 1, .hmsl, .identity, false⟩

def eulerAngles (flip : Bool) : DataValue :=
  ⟨0x2030, coordSysEnu, .float, 3, .ro, .rad, flip⟩

def quaternion (flip : Bool) : DataValue :=
  ⟨0x2010, coordSysEnu, .float, 4, .q1, .identity, flip⟩

structure DateTime where
  nano : ℕ
  year : ℕ
  month : ℕ
  day : ℕ
  hour : ℕ
  minute : ℕ
  second : ℕ
  flags : UInt8
  deriving DecidableEq, Repr

namespace DateTime

def did : ℕ := 0x1010
def len : UInt8 := 12
def validUtc : UInt8 := 0x04

end DateTime

/-- Identifier and length counter of a packet of no interest. -/
structure UnknownData where
  id : ℕ
  len : ℤ
  deriving DecidableEq, Repr

/-- The variant of all packet types. -/
inductive DataPacket (K : Type) where
  | unknown (packet : UnknownData)
  | dateTime (packet : DateTime)
  | dataValue (kind : DataValue) (data : List (IeeeDouble K))
  deriving DecidableEq, Repr

/-! ## Conversion to values -/

variable {K : Type} [ExactDouble K]

/-- How the results of operations are rounded, the calendar and the number of
passes granted to a wrapping loop. -/
structure Setting (K : Type) [ExactDouble K] where
  rounding : Rounding K
  calendar : Calendar
  fuel : ℕ

/-- `IdentityConverter<DIM, FLIP>::convert` with its specialisations. -/
def identityConvert (rounding : Rounding K) (dim : ℕ) (flip : Bool) (index : ℕ)
    (value : IeeeDouble K) (factor : K) : IeeeDouble K :=
  match dim, flip with
  | 3, true =>
      if index > 0 then value.scale rounding (-factor) else value.scale rounding factor
  | 4, true =>
      if index > 1 then value.scale rounding (-factor) else value.scale rounding factor
  | 4, false =>
      if index % 2 = 0 then value.scale rounding (-factor) else value.scale rounding factor
  | _, _ => value.scale rounding factor

/-- `RadConverter<DIM, FLIP>::convert`; orientation angles do not match the
device axes. -/
def radConvert (rounding : Rounding K) (dim : ℕ) (flip : Bool) (index : ℕ)
    (value : IeeeDouble K) : IeeeDouble K :=
  let factor := rounding.round (mPi / 180)
  match dim, flip with
  | 3, false =>
      let result := identityConvert rounding 3 true index value factor
      if index = 0 then result.shift rounding mPi else result
  | 3, true => identityConvert rounding 3 true index value factor
  | dim, flip => identityConvert rounding dim flip index value factor

/-- Gauss to Tesla -/
def teslaConvert (rounding : Rounding K) (dim : ℕ) (flip : Bool) (index : ℕ)
    (value : IeeeDouble K) : IeeeDouble K :=
  identityConvert rounding dim flip index value (rounding.round (1 / 10000))

def indexPermute (dim : ℕ) (flip : Bool) (index : ℕ) : ℕ :=
  match dim, flip with
  | 4, false => 2 * (index / 2) + (index + 1) % 2
  | _, _ => index

/-- What visiting one packet gives. -/
inductive PacketValues (K : Type) where
  | values (list : List (QuantityValue (IeeeDouble K)))
  | throws
  | hangs

namespace DataValue

def convert (rounding : Rounding K) (kind : DataValue) (index : ℕ) (value : IeeeDouble K) :
    IeeeDouble K :=
  match kind.converter with
  | .identity => identityConvert rounding kind.dim kind.flip index value 1
  | .rad => radConvert rounding kind.dim kind.flip index value
  | .tesla => teslaConvert rounding kind.dim kind.flip index value

/-- The converted value at one index, of the quantity that many places after
the first one. -/
def valueAt (rounding : Rounding K) (fuel : ℕ) (kind : DataValue)
    (data : List (IeeeDouble K)) (index : ℕ) : Option (QuantityValue (IeeeDouble K)) :=
  let quantity := Quantity.ofIndex (kind.quantity.index + index)
  let raw := data.getD (indexPermute kind.dim kind.flip index) .nan
  (IeeeDouble.valueNorm rounding fuel quantity (kind.convert rounding index raw)).map
    fun value => ⟨value, quantity⟩

def getValues (rounding : Rounding K) (fuel : ℕ) (kind : DataValue)
    (data : List (IeeeDouble K)) : PacketValues K :=
  match (List.range kind.dim).mapM (kind.valueAt rounding fuel data) with
  | some values => .values values
  | none => .hangs

theorem getValues_of_some (kind : DataValue) {rounding : Rounding K} {fuel : ℕ}
    {data : List (IeeeDouble K)}
    {value : ℕ → QuantityValue (IeeeDouble K)}
    (hvalues : ∀ index < kind.dim, kind.valueAt rounding fuel data index = some (value index)) :
    kind.getValues rounding fuel data = .values ((List.range kind.dim).map value) := by
  have hmap : ∀ indices : List ℕ, (∀ index ∈ indices, index < kind.dim) →
      indices.mapM (kind.valueAt rounding fuel data) = some (indices.map value) := by
    intro indices hindices
    induction indices with
    | nil => rfl
    | cons index indices ih =>
        rw [List.forall_mem_cons] at hindices
        rw [List.mapM_cons, hvalues index hindices.1, ih hindices.2]
        rfl
  rw [getValues, hmap _ fun index => List.mem_range.mp]

theorem getValues_of_none (kind : DataValue) {rounding : Rounding K} {fuel : ℕ}
    {data : List (IeeeDouble K)} {index : ℕ} (hindex : index < kind.dim)
    (hnone : kind.valueAt rounding fuel data index = none) :
    kind.getValues rounding fuel data = .hangs := by
  have hmap : ∀ indices : List ℕ, index ∈ indices →
      indices.mapM (kind.valueAt rounding fuel data) = none := by
    intro indices hmem
    induction indices with
    | nil => cases hmem
    | cons first indices ih =>
        rw [List.mapM_cons]
        rcases List.mem_cons.mp hmem with rfl | hmore
        · rw [hnone]
          rfl
        · rw [ih hmore]
          cases kind.valueAt rounding fuel data first <;> rfl
  rw [getValues, hmap _ (List.mem_range.mpr hindex)]

theorem valueAt_of_le (kind : DataValue) {rounding : Rounding K} {fuel more : ℕ}
    (hle : fuel ≤ more) {data : List (IeeeDouble K)} {index : ℕ}
    {value : QuantityValue (IeeeDouble K)}
    (hvalue : kind.valueAt rounding fuel data index = some value) :
    kind.valueAt rounding more data index = some value := by
  simp only [valueAt, Option.map_eq_some_iff] at hvalue ⊢
  obtain ⟨result, hresult, hvalue⟩ := hvalue
  exact ⟨result, IeeeDouble.valueNorm_of_le hle hresult, hvalue⟩

/-- When the loops end within some passes, more passes make no difference. -/
theorem getValues_of_le (kind : DataValue) {rounding : Rounding K} {fuel more : ℕ}
    (hle : fuel ≤ more) {data : List (IeeeDouble K)}
    (hends : kind.getValues rounding fuel data ≠ .hangs) :
    kind.getValues rounding more data = kind.getValues rounding fuel data := by
  have hsome : ∀ index, ∃ value, index < kind.dim →
      kind.valueAt rounding fuel data index = some value := by
    intro index
    by_cases hindex : index < kind.dim
    · cases hvalue : kind.valueAt rounding fuel data index with
      | none => exact absurd (kind.getValues_of_none hindex hvalue) hends
      | some value => exact ⟨value, fun _ => rfl⟩
    · exact ⟨⟨.nan, .end_⟩, fun h => absurd h hindex⟩
  choose value hvalue using hsome
  rw [kind.getValues_of_some hvalue,
    kind.getValues_of_some fun index hindex => kind.valueAt_of_le hle (hvalue index hindex)]

end DataValue

def DateTime.getValues (calendar : Calendar) (packet : DateTime) :
    PacketValues K :=
  if packet.flags &&& DateTime.validUtc ≠ 0 then
    match composeTimeValue (K := K) calendar packet.year packet.month
        packet.day packet.hour packet.minute packet.second
        (toSigned 32 packet.nano) with
    | some value => .values [⟨.finite value, .ut⟩]
    | none => .throws
  else
    .values []

def DataPacket.getValues (setting : Setting K) : DataPacket K → PacketValues K
  | .unknown _ => .values []
  | .dateTime packet => packet.getValues setting.calendar
  | .dataValue kind data => kind.getValues setting.rounding setting.fuel data

/-- Apply the visitor to each packet: the values pushed, and how the loop over
the packets ends. -/
def visit (setting : Setting K) (stamp : K) :
    List (DataPacket K) → List (StampedQuantity (IeeeDouble K)) × Outcome
  | [] => ([], .returned)
  | packet :: packets =>
      match packet.getValues setting with
      | .throws => ([], .threw)
      | .hangs => ([], .hung)
      | .values values =>
          let rest := visit setting stamp packets
          (values.map (fun value => ⟨⟨value.value, .finite stamp⟩, value.quantity⟩) ++
            rest.1, rest.2)

section MorePasses

variable {rounding : Rounding K} {calendar : Calendar} {fuel more : ℕ}

theorem DataPacket.getValues_of_le (hle : fuel ≤ more) {packet : DataPacket K}
    (hends : packet.getValues ⟨rounding, calendar, fuel⟩ ≠ .hangs) :
    packet.getValues ⟨rounding, calendar, more⟩ =
      packet.getValues ⟨rounding, calendar, fuel⟩ := by
  cases packet with
  | unknown => rfl
  | dateTime => rfl
  | dataValue kind data => exact kind.getValues_of_le hle hends

theorem visit_of_le (hle : fuel ≤ more) {stamp : K} {packets : List (DataPacket K)}
    (hends : (visit ⟨rounding, calendar, fuel⟩ stamp packets).2 ≠ .hung) :
    visit ⟨rounding, calendar, more⟩ stamp packets =
      visit ⟨rounding, calendar, fuel⟩ stamp packets := by
  induction packets with
  | nil => rfl
  | cons packet packets ih =>
      have hpacket : packet.getValues ⟨rounding, calendar, fuel⟩ ≠ .hangs := by
        intro hhangs
        rw [visit, hhangs] at hends
        exact hends rfl
      rw [visit, visit, DataPacket.getValues_of_le hle hpacket]
      cases hvalues : packet.getValues ⟨rounding, calendar, fuel⟩ with
      | throws => rfl
      | hangs => rfl
      | values list =>
          rw [visit, hvalues] at hends
          simp only [ih hends]

end MorePasses

/-! ## Grammar -/

open X3

/-- `big_bin_float` and `big_bin_double` -/
def bigBin (format : SubFormat) : X3.Parser Unit (IeeeDouble K) := do
  let bits ← big format.size
  X3.pure (match format with
    | .float => .ofBits 8 23 bits
    | .double => .ofBits 11 52 bits)

def DateTime.getParseRule : X3.Parser Unit DateTime := do
  bigLit 2 DateTime.did
  byteLit DateTime.len
  let nano ← big 4
  let year ← big 2
  let month ← byte
  let day ← byte
  let hour ← byte
  let minute ← byte
  let second ← byte
  let flags ← byte
  X3.pure ⟨nano, year, month.toNat, day.toNat, hour.toNat, minute.toNat,
    second.toNat, flags⟩

def DataValue.getParseRule (kind : DataValue) :
    X3.Parser Unit (List (IeeeDouble K)) := do
  bigLit 2 kind.did
  byteLit (UInt8.ofNat (kind.dim * kind.format.size))
  repeatN kind.dim (bigBin kind.format)

/-- The attribute `len` of an unknown packet, counted down by `more`. -/
def UnknownData.counter : Counter UnknownData where
  len := UnknownData.len
  setLen := fun packet len => { packet with len := len }
  len_setLen := fun _ _ => rfl
  setLen_setLen := fun _ _ _ => rfl
  setLen_len := fun _ => rfl

/-- Parse rule for data packets other than the ones of interest. -/
def unknownData : X3.Parser Unit UnknownData :=
  rule ⟨0, 0⟩ (do
    act (big 2) fun id packet => ({ packet with id := id }, true)
    act byte fun len packet => ({ packet with len := len.toNat }, true)
    UnknownData.counter.content fun _ packet => packet)

def dateTimeRule : X3.Parser Unit (DataPacket K) := do
  let packet ← DateTime.getParseRule
  X3.pure (.dateTime packet)

def dataValueRule (kind : DataValue) : X3.Parser Unit (DataPacket K) := do
  let data ← kind.getParseRule
  X3.pure (.dataValue kind data)

def unknownRule : X3.Parser Unit (DataPacket K) := do
  let packet ← unknownData
  X3.pure (.unknown packet)

/-- One item of `data_parser`, or of `flipped_parser` when `flip` is set. -/
def dataItem (flip : Bool) : X3.Parser Unit (DataPacket K) :=
  alt dateTimeRule <|
  alt (dataValueRule (acceleration flip)) <|
  alt (dataValueRule (freeAcceleration flip)) <|
  alt (dataValueRule (rateOfTurn flip)) <|
  alt (dataValueRule latLon) <|
  alt (dataValueRule (magneticFlux flip)) <|
  alt (dataValueRule (velocity flip)) <|
  alt (dataValueRule altitudeEllipsoid) <|
  alt (dataValueRule altitudeMsl) <|
  alt (dataValueRule (eulerAngles flip)) <|
  alt (dataValueRule (quaternion flip)) <|
  unknownRule

def dataParser : X3.Parser Unit (List (DataPacket K)) :=
  kleene (dataItem false)

def flippedParser : X3.Parser Unit (List (DataPacket K)) :=
  kleene (dataItem true)

end SensorHub.Xsens
