import SensorHub.Calendar
import SensorHub.PacketParser
import SensorHub.UbloxPacket
import SensorHub.X3

/-!
# Payloads of the u-blox messages

Four kinds of messages are decoded: navigation position, velocity and time,
navigation attitude, and calibrated and raw sensor measurements.  The grammar
starts at the class byte of the packet, so that class, identifier and length
select the kind.  Only the time of a navigation message may throw.
-/

namespace SensorHub.Ublox

open X3

namespace Command

def sync1 : UInt8 := 0xB5
def sync2 : UInt8 := 0x62
def clsNav : UInt8 := 0x01
def navAtt : UInt8 := 0x05
def navPvt : UInt8 := 0x07
def clsEsf : UInt8 := 0x10
def esfRaw : UInt8 := 0x03
def esfIns : UInt8 := 0x15

end Command

structure TimeData where
  itow : ℕ
  year : ℕ
  month : ℕ
  day : ℕ
  hour : ℕ
  min : ℕ
  sec : ℕ
  valid : UInt8
  tacc : ℕ
  nano : ℤ
  deriving DecidableEq, Repr

structure PositionData where
  lon : ℤ
  lat : ℤ
  height : ℤ
  hmsl : ℤ
  hacc : ℕ
  vacc : ℕ
  deriving DecidableEq, Repr

structure VelocityData where
  veln : ℤ
  vele : ℤ
  veld : ℤ
  gspeed : ℤ
  hmot : ℤ
  sacc : ℕ
  headacc : ℕ
  pdop : ℕ
  headveh : ℤ
  deriving DecidableEq, Repr

structure PayloadPvt where
  timeData : TimeData
  fixtype : UInt8
  flags : UInt8
  flags2 : UInt8
  numsv : UInt8
  positionData : PositionData
  velocityData : VelocityData
  magdec : ℤ
  magacc : ℕ
  deriving DecidableEq, Repr

structure PayloadAtt where
  itow : ℕ
  version : UInt8
  reserved1High : ℕ
  reserved1Low : UInt8
  roll : ℤ
  pitch : ℤ
  heading : ℤ
  accroll : ℕ
  accpitch : ℕ
  accheading : ℕ
  deriving DecidableEq, Repr

structure PayloadIns where
  bitfield0 : ℕ
  reserved1 : ℕ
  itow : ℕ
  xangrate : ℤ
  yangrate : ℤ
  zangrate : ℤ
  xaccel : ℤ
  yaccel : ℤ
  zaccel : ℤ
  deriving DecidableEq, Repr

/-- Data type and 24 bit value in one word, and a time tag. -/
structure SensorData where
  data : ℕ
  stag : ℕ
  deriving DecidableEq, Repr

structure PayloadRaw where
  length : ℕ
  reserved1 : ℕ
  sensorData : List SensorData
  deriving DecidableEq, Repr

/-- The variant of all payloads. -/
inductive Payload where
  | pvt (payload : PayloadPvt)
  | att (payload : PayloadAtt)
  | ins (payload : PayloadIns)
  | raw (payload : PayloadRaw)
  deriving DecidableEq, Repr

/-! ## Grammar -/

/-- A `little_dword` stored in a signed field. -/
def littleSigned : X3.Parser Unit ℤ := do
  let value ← little 4
  X3.pure (toSigned 32 value)

def TimeData.getParseRule : X3.Parser Unit TimeData := do
  let itow ← little 4
  let year ← little 2
  let month ← byte
  let day ← byte
  let hour ← byte
  let min ← byte
  let sec ← byte
  let valid ← byte
  let tacc ← little 4
  let nano ← littleSigned
  X3.pure ⟨itow, year, month.toNat, day.toNat, hour.toNat, min.toNat,
    sec.toNat, valid, tacc, nano⟩

def PositionData.getParseRule : X3.Parser Unit PositionData := do
  let lon ← littleSigned
  let lat ← littleSigned
  let height ← littleSigned
  let hmsl ← littleSigned
  let hacc ← little 4
  let vacc ← little 4
  X3.pure ⟨lon, lat, height, hmsl, hacc, vacc⟩

def VelocityData.getParseRule : X3.Parser Unit VelocityData := do
  let veln ← littleSigned
  let vele ← littleSigned
  let veld ← littleSigned
  let gspeed ← littleSigned
  let hmot ← littleSigned
  let sacc ← little 4
  let headacc ← little 4
  let pdop ← little 2
  let _ ← repeatN 6 byte
  let headveh ← littleSigned
  X3.pure ⟨veln, vele, veld, gspeed, hmot, sacc, headacc, pdop, headveh⟩

def SensorData.getParseRule : X3.Parser Unit SensorData := do
  let data ← little 4
  let stag ← little 4
  X3.pure ⟨data, stag⟩

def PayloadPvt.getParseRule : X3.Parser Unit PayloadPvt := do
  byteLit Command.clsNav
  byteLit Command.navPvt
  littleLit 2 92
  let timeData ← TimeData.getParseRule
  let fixtype ← byte
  let flags ← byte
  let flags2 ← byte
  let numsv ← byte
  let positionData ← PositionData.getParseRule
  let velocityData ← VelocityData.getParseRule
  let magdec ← little 2
  let magacc ← little 2
  X3.pure ⟨timeData, fixtype, flags, flags2, numsv, positionData, velocityData,
    toSigned 16 magdec, magacc⟩

def PayloadAtt.getParseRule : X3.Parser Unit PayloadAtt := do
  byteLit Command.clsNav
  byteLit Command.navAtt
  littleLit 2 32
  let itow ← little 4
  let version ← byte
  let reserved1High ← little 2
  let reserved1Low ← byte
  let roll ← littleSigned
  let pitch ← littleSigned
  let heading ← littleSigned
  let accroll ← little 4
  let accpitch ← little 4
  let accheading ← little 4
  X3.pure ⟨itow, version, reserved1High, reserved1Low, roll, pitch, heading,
    accroll, accpitch, accheading⟩

def PayloadIns.getParseRule : X3.Parser Unit PayloadIns := do
  byteLit Command.clsEsf
  byteLit Command.esfIns
  littleLit 2 36
  let bitfield0 ← little 4
  let reserved1 ← little 4
  let itow ← little 4
  let xangrate ← littleSigned
  let yangrate ← littleSigned
  let zangrate ← littleSigned
  let xaccel ← littleSigned
  let yaccel ← littleSigned
  let zaccel ← littleSigned
  X3.pure ⟨bitfield0, reserved1, itow, xangrate, yangrate, zangrate, xaccel,
    yaccel, zaccel⟩

def PayloadRaw.getParseRule : X3.Parser Unit PayloadRaw := do
  byteLit Command.clsEsf
  byteLit Command.esfRaw
  let length ← little 2
  let reserved1 ← little 4
  let sensorData ← kleene SensorData.getParseRule
  X3.pure ⟨length, reserved1, sensorData⟩

def navPvt : X3.Parser Unit Payload := do
  let payload ← PayloadPvt.getParseRule
  X3.pure (.pvt payload)

def navAtt : X3.Parser Unit Payload := do
  let payload ← PayloadAtt.getParseRule
  X3.pure (.att payload)

def esfIns : X3.Parser Unit Payload := do
  let payload ← PayloadIns.getParseRule
  X3.pure (.ins payload)

def esfRaw : X3.Parser Unit Payload := do
  let payload ← PayloadRaw.getParseRule
  X3.pure (.raw payload)

/-- `nav_pvt | nav_att | esf_ins | esf_raw` -/
def payloadParseRule : X3.Parser Unit Payload :=
  alt navPvt <| alt navAtt <| alt esfIns esfRaw

/-! ## Conversion to values -/

variable {K : Type} [ExactDouble K]

def unstamped (value : K) (quantity : Quantity) : StampedQuantity K :=
  ⟨⟨value, 0⟩, quantity⟩

namespace TimeData

def validFull : UInt8 := 0x04

/-- The time is only used when it is fully resolved; `none` when composing it
throws. -/
def addValues (calendar : Calendar) (data : TimeData) :
    Option (List (StampedQuantity K)) :=
  if data.valid &&& validFull ≠ 0 then
    (composeTimeValue calendar data.year data.month data.day data.hour
      data.min data.sec data.nano).map fun value => [unstamped value .ut]
  else
    some []

end TimeData

namespace PositionData

def addValuesHorizontal (data : PositionData) : List (StampedQuantity K) :=
  [unstamped (data.lat * (1 / 10000000) * mPi / 180) .la,
   unstamped (data.lon * (1 / 10000000) * mPi / 180) .lo,
   unstamped (data.hacc * (1 / 1000)) .hacc]

def addValuesVertical (data : PositionData) : List (StampedQuantity K) :=
  [unstamped (data.height * (1 / 1000)) .hg84,
   unstamped (data.hmsl * (1 / 1000)) .hmsl,
   unstamped (data.vacc * (1 / 1000)) .vacc]

end PositionData

namespace VelocityData

/-- The heading accuracy is reported for course and heading. -/
def addValues (data : VelocityData) : List (StampedQuantity K) :=
  [unstamped (data.gspeed * (1 / 1000)) .vog,
   unstamped (data.hmot * (1 / 100000) * mPi / 180) .crs,
   unstamped (data.sacc * (1 / 1000)) .sacc,
   unstamped (data.headacc * (1 / 100000) * mPi / 180) .cacc,
   unstamped (data.headveh * (1 / 100000) * mPi / 180) .hdg,
   unstamped (data.headacc * (1 / 100000) * mPi / 180) .hdac]

end VelocityData

namespace PayloadPvt

def fixtype2d : UInt8 := 2
def fixtype3d : UInt8 := 3
def fixtype3dDeadreck : UInt8 := 4
def flagsHeadvehValid : UInt8 := 0x20

def getValues (calendar : Calendar) (payload : PayloadPvt) :
    Option (List (StampedQuantity K)) :=
  (payload.timeData.addValues calendar).map fun time =>
    let horizontal :=
      if payload.fixtype = fixtype2d ∨ payload.fixtype = fixtype3d ∨
          payload.fixtype = fixtype3dDeadreck then
        payload.positionData.addValuesHorizontal ++
          if payload.fixtype ≠ fixtype2d then
            payload.positionData.addValuesVertical
          else
            []
      else
        []
    let velocity :=
      if payload.flags &&& flagsHeadvehValid ≠ 0 then
        payload.velocityData.addValues
      else
        []
    time ++ horizontal ++ velocity

end PayloadPvt

namespace PayloadAtt

/-- An angle is reported with its accuracy, if that is known and good. -/
def angleValues (angle : ℤ) (accuracy : ℕ) (limit : K)
    (quantity quantityAcc : Quantity) : List (StampedQuantity K) :=
  if accuracy ≠ 0 then
    let faccuracy := (accuracy : K) * (1 / 100000) * mPi / 180
    if faccuracy < limit then
      [unstamped (angle * (1 / 100000) * mPi / 180) quantity,
       unstamped faccuracy quantityAcc]
    else
      []
  else
    []

def getValues (payload : PayloadAtt) : List (StampedQuantity K) :=
  angleValues payload.roll payload.accroll (5 / 100) .ro .racc ++
    angleValues payload.pitch payload.accpitch (5 / 100) .pi .pacc ++
    angleValues payload.heading payload.accheading (10 / 100) .ya .yacc

end PayloadAtt

namespace PayloadIns

def rrValid : ℕ := 8
def prValid : ℕ := 9
def yrValid : ℕ := 10
def faxValid : ℕ := 11
def fayValid : ℕ := 12
def fazValid : ℕ := 13

/-- One value, if its bit in the bit field is set. -/
def validValue (payload : PayloadIns) (bit : ℕ) (value : K)
    (quantity : Quantity) : List (StampedQuantity K) :=
  if payload.bitfield0.testBit bit then [unstamped value quantity] else []

/-- The scales are written `10E-3` and `10E-2` in the source. -/
def getValues (payload : PayloadIns) : List (StampedQuantity K) :=
  payload.validValue rrValid
      ((payload.xangrate : K) * (10 / 1000) * mPi / 180) .rr ++
    payload.validValue prValid
      ((payload.yangrate : K) * (10 / 1000) * mPi / 180) .pr ++
    payload.validValue yrValid
      ((payload.zangrate : K) * (10 / 1000) * mPi / 180) .yr ++
    payload.validValue faxValid ((payload.xaccel : K) * (10 / 100)) .fax ++
    payload.validValue fayValid ((payload.yaccel : K) * (10 / 100)) .fay ++
    payload.validValue fazValid ((payload.zaccel : K) * (10 / 100)) .faz

end PayloadIns

namespace SensorData

def dataTypeRyr : ℕ := 5
def dataTypeGtmp : ℕ := 12
def dataTypeRpr : ℕ := 13
def dataTypeRrr : ℕ := 14
def dataTypeRax : ℕ := 16
def dataTypeRay : ℕ := 17
def dataTypeRaz : ℕ := 18

def getDataType (data : SensorData) : ℕ :=
  data.data / 2 ^ 24 % 2 ^ 8

/-- The measured value with its time before the reference tag. -/
def getValue (data : SensorData) (reftag : ℕ) : StampedQuantity K :=
  let shifted := data.data % 2 ^ 24 * 2 ^ 8
  let value : K := toSigned 32 shifted
  if reftag < data.stag then
    ⟨⟨0, 0⟩, .end_⟩
  else
    let offset : K := (reftag - data.stag : ℕ) * (1 / 100) / -256
    let rate := value / (4096 * 256 * 180) * mPi
    let dataType := data.getDataType
    if dataType = dataTypeRyr then
      ⟨⟨rate, offset⟩, .ryr⟩
    else if dataType = dataTypeRpr then
      ⟨⟨rate, offset⟩, .rpr⟩
    else if dataType = dataTypeRrr then
      ⟨⟨rate, offset⟩, .rrr⟩
    else if dataType = dataTypeRax then
      ⟨⟨value / (1024 * 256), offset⟩, .rax⟩
    else if dataType = dataTypeRay then
      ⟨⟨value / (1024 * 256), offset⟩, .ray⟩
    else if dataType = dataTypeRaz then
      ⟨⟨value / (1024 * 256), offset⟩, .raz⟩
    else if dataType = dataTypeGtmp then
      ⟨⟨value / (100 * 256), offset⟩, .gtmp⟩
    else
      ⟨⟨0, 0⟩, .end_⟩

end SensorData

/-- The time tag of the last measurement is the reference. -/
def PayloadRaw.getValues (payload : PayloadRaw) : List (StampedQuantity K) :=
  match payload.sensorData.getLast? with
  | none => []
  | some last =>
      (payload.sensorData.map fun data => data.getValue last.stag).filter
        fun value => value.quantity ≠ .end_

def Payload.getValues (calendar : Calendar) :
    Payload → Option (List (StampedQuantity K))
  | .pvt payload => payload.getValues calendar
  | .att payload => some payload.getValues
  | .ins payload => some payload.getValues
  | .raw payload => some payload.getValues

/-- Apply the visitor to a payload: the values pushed, or `none` when it
throws. -/
def Payload.visit (calendar : Calendar) (stamp : K) (payload : Payload) :
    Option (List (StampedQuantity K)) :=
  (payload.getValues calendar).map fun values =>
    values.map fun value => { value with stamp := value.stamp + stamp }

end SensorHub.Ublox
