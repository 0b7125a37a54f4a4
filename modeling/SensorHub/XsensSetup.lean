import SensorHub.Dialogues
import SensorHub.PortAnswers
import SensorHub.XsensCommand

/-!
# Setting up an MTi

The initialization of the sensor is a chain of requests in configuration mode.
The one for the output configuration may be refused, the sensor is then given
another one.  After every other failure the sensor is reset.

The sensor is a function from the messages written so far to the reads that
follow the last of them, unless writing it throws.
-/

namespace SensorHub.Xsens

open Dialogues
open PortDevice (CommandResult serialNo)

/-! ## Messages -/

namespace Command

def reqDid : UInt8 := 0x00
def deviceId : UInt8 := 0x01
def initbus : UInt8 := 0x02
def initBusResults : UInt8 := 0x03
def gotoMeasurement : UInt8 := 0x10
def gotoMeasurementAck : UInt8 := 0x11
def reqFirmwareRevision : UInt8 := 0x12
def firmwareRevision : UInt8 := 0x13
def reqProductCode : UInt8 := 0x1C
def productCode : UInt8 := 0x1D
def gotoConfig : UInt8 := 0x30
def gotoConfigAck : UInt8 := 0x31
def wakeup : UInt8 := 0x3E
def wakeupAck : UInt8 := 0x3F
def reset : UInt8 := 0x40
def resetAck : UInt8 := 0x41
def error : UInt8 := 0x42
def setOptionFlags : UInt8 := 0x48
def setOptionFlagsAck : UInt8 := 0x49
def setFilterProfile : UInt8 := 0x64
def setFilterProfileAck : UInt8 := 0x65
def setStringOutputType : UInt8 := 0x8E
def setStringOutputTypeAck : UInt8 := 0x8F
def reqOutputConfiguration : UInt8 := 0xC0
def reqOutputConfigurationAck : UInt8 := 0xC1
def setOutputConfiguration : UInt8 := 0xC0
def setOutputConfigurationAck : UInt8 := 0xC1

def sizeOffset : ℕ := 3
def dataOffset : ℕ := 4

/-- In-run compass calibration is set, the relative yaw is cleared. -/
def optionFlags : List UInt8 := [0x00, 0x00, 0x00, 0x80, 0x00, 0x00, 0x00, 0x10]

def errorResp : List UInt8 := [packetStart, sysCommand, error, 0x01]

def stringOutputType : List UInt8 := [0x00, 0x00]
def stringOutputType6 : List UInt8 := [0x00, 0x00, 0x00, 0x00, 0x00, 0x00]

def outputConfiguration : List UInt8 :=
  [0x10, 0x10, 0xFF, 0xFF, 0x40, 0x20, 0x00, 0x64, 0x40, 0x30, 0x00, 0x64,
   0x80, 0x20, 0x00, 0x64, 0x50, 0x43, 0x00, 0x0A, 0xC0, 0x20, 0x00, 0x0A,
   0xD0, 0x10, 0x00, 0x0A, 0x50, 0x20, 0x00, 0x0A, 0x50, 0x10, 0x00, 0x0A,
   0x20, 0x30, 0x00, 0x0A, 0x20, 0x10, 0x00, 0x0A]

def outputConfiguration630 : List UInt8 :=
  [0x40, 0x20, 0x00, 0x64, 0x40, 0x30, 0x00, 0x64, 0x80, 0x20, 0x00, 0x64,
   0xC0, 0x20, 0x00, 0x0A, 0x20, 0x30, 0x00, 0x0A, 0x20, 0x10, 0x00, 0x0A]

end Command

/-- A message to the sensor and the bytes which are waited for. -/
structure Request where
  mid : UInt8
  setting : List UInt8
  expected : List UInt8
  deriving DecidableEq, Repr

def Request.packet (request : Request) : List UInt8 :=
  Command.packet request.mid request.setting

/-- What has been written and what `exec_command` returned, if it did. -/
structure Exchange where
  request : Request
  success : Option Bool
  deriving DecidableEq, Repr

structure Sensor where
  /-- What is read while looking for a wakeup, unless that is an error. -/
  wakeup : Option (List UInt8)
  answers : List (List UInt8) → Option (List (List UInt8))

/-- The dialogue so far, the identifier of the device, and whether polling has
been started. -/
structure Session where
  exchanges : List Exchange
  id : String
  polling : Bool
  deriving DecidableEq, Repr

def Session.written (session : Session) : List (List UInt8) :=
  session.exchanges.map fun exchange => exchange.request.packet

def Session.record (session : Session) (exchange : Exchange) : Session :=
  { session with exchanges := session.exchanges ++ [exchange] }

/-! ## Initialization -/

section Setup

variable (sensor : Sensor)

def execCommand (request : Request) (data : Option (List UInt8)) (session : Session) :
    Option CommandResult × Session :=
  let result := PortDevice.execCommand
    (fun command => sensor.answers (session.written ++ [command]))
    request.packet request.expected Command.errorResp data
  (result, session.record ⟨request, result.map CommandResult.success⟩)

def exec (request : Request) (data : Option (List UInt8)) : Step Session := fun session =>
  let (result, session) := execCommand sensor request data session
  (result.map CommandResult.success, session)

def command (mid ack : UInt8) : Request :=
  ⟨mid, [], Command.packet ack []⟩

def setCommand (mid ack : UInt8) (setting : List UInt8) : Request :=
  ⟨mid, setting, Command.packetHead ack⟩

/-- The whole answer is compared. -/
def checkCommand (mid ack : UInt8) (setting : List UInt8) : Request :=
  ⟨mid, [], Command.packet ack setting⟩

def requestCommand (mid ack : UInt8) : Request :=
  ⟨mid, [], Command.packetHead ack⟩

def doCommand (mid ack : UInt8) : Step Session :=
  exec sensor (command mid ack) none

def doSet (mid ack : UInt8) (setting : List UInt8) : Step Session :=
  exec sensor (setCommand mid ack setting) none

def doCheck (mid ack : UInt8) (setting : List UInt8) : Step Session :=
  exec sensor (checkCommand mid ack setting) none

def doRequest (mid ack : UInt8) (response : Option (List UInt8)) : Step Session :=
  exec sensor (requestCommand mid ack) response

def gotoConfig : Step Session :=
  doCommand sensor Command.gotoConfig Command.gotoConfigAck

def gotoMeasurement : Step Session :=
  doCommand sensor Command.gotoMeasurement Command.gotoMeasurementAck

def reset : Step Session :=
  doCommand sensor Command.reset Command.resetAck

def initMt : Step Session :=
  doRequest sensor Command.initbus Command.initBusResults none

/-- The identifier from the response to `ReqDid`, if there is a size. -/
def identifier (response : List UInt8) : Option String :=
  if Command.sizeOffset < response.length then
    let size := (response.getD Command.sizeOffset 0).toNat
    if Command.sizeOffset + size < response.length then
      some ("xsens_" ++ serialNo ((response.drop Command.dataOffset).take size))
    else
      some "xsens_unknown_serial"
  else
    none

def requestIdentifier : Step Session := fun session =>
  match execCommand sensor (requestCommand Command.reqDid Command.deviceId)
      (some [UInt8.ofNat Command.sizeOffset]) session with
  | (none, session) => (none, session)
  | (some result, session) =>
      match identifier (result.data.getD []) with
      | none => (some false, session)
      | some id =>
          if result.success then (some true, { session with id := id }) else (some false, session)

def requestProductCode : Step Session :=
  doRequest sensor Command.reqProductCode Command.productCode
    (some [UInt8.ofNat Command.sizeOffset])

def requestFirmware : Step Session :=
  doRequest sensor Command.reqFirmwareRevision Command.firmwareRevision
    (some [UInt8.ofNat Command.sizeOffset])

inductive Model where
  | mtiG710 | mti670 | mti630
  deriving DecidableEq, Repr

namespace Model

def stringOutputType : Model → List UInt8
  | mtiG710 => Command.stringOutputType
  | mti670 => Command.stringOutputType6
  | mti630 => Command.stringOutputType6

def outputConfiguration : Model → List UInt8
  | mtiG710 => Command.outputConfiguration
  | mti670 => Command.outputConfiguration
  | mti630 => Command.outputConfiguration630

end Model

structure Mti where
  model : Model
  filterProfile : UInt8
  deriving DecidableEq, Repr

namespace Mti

/-- Only an MTi-G-710 sends wakeup messages, the answer to its
acknowledgement is swallowed. -/
def lookForWakeup (mti : Mti) : Step Session := fun session =>
  match mti.model, sensor.wakeup with
  | .mtiG710, some response =>
      if contains response (Command.packet Command.wakeup []) then
        let ack : Request := ⟨Command.wakeupAck, [], []⟩
        match sensor.answers (session.written ++ [ack.packet]) with
        | none => (none, session.record ⟨ack, none⟩)
        | some _ => (some true, session.record ⟨ack, some true⟩)
      else (some true, session)
  | _, _ => (some true, session)

def setOptionFlags : Step Session :=
  doSet sensor Command.setOptionFlags Command.setOptionFlagsAck Command.optionFlags

def setStringOutputType (mti : Mti) : Step Session :=
  doSet sensor Command.setStringOutputType Command.setStringOutputTypeAck
    mti.model.stringOutputType

def setFilterProfile (mti : Mti) : Step Session :=
  if mti.filterProfile ≠ 0 then
    doSet sensor Command.setFilterProfile Command.setFilterProfileAck [0x00, mti.filterProfile]
  else
    given true

def checkOutputConfiguration (mti : Mti) : Step Session :=
  doCheck sensor Command.reqOutputConfiguration Command.reqOutputConfigurationAck
    mti.model.outputConfiguration

def setOutputConfiguration (mti : Mti) : Step Session :=
  doSet sensor Command.setOutputConfiguration Command.setOutputConfigurationAck
    mti.model.outputConfiguration

def setUp (mti : Mti) : Step Session :=
  andThen (andThen (andThen (andThen (andThen (andThen (andThen (andThen (andThen
    (mti.lookForWakeup sensor)
    (gotoConfig sensor))
    (requestIdentifier sensor))
    (requestProductCode sensor))
    (requestFirmware sensor))
    (setOptionFlags sensor))
    (mti.setStringOutputType sensor))
    (mti.setFilterProfile sensor))
    (orElse (mti.checkOutputConfiguration sensor)
      (andThen (mti.setOutputConfiguration sensor) (initMt sensor))))
    (gotoMeasurement sensor)

def initializeDevice (mti : Mti) : Step Session := fun session =>
  match mti.setUp sensor session with
  | (some true, session) => (some true, { session with polling := true })
  | (some false, session) =>
      match reset sensor session with
      | (some _, session) => (some false, session)
      | thrown => thrown
  | thrown => thrown

end Mti

end Setup

/-! ## The dialogue -/

/-- What is known of the sensor from its answers. -/
inductive Mode where
  | unknown | config | measuring
  deriving DecidableEq, Repr

def Mode.after (mode : Mode) (exchange : Exchange) : Mode :=
  if exchange.request.mid = Command.gotoConfig then
    if exchange.success = some true then .config else .unknown
  else if exchange.request.mid = Command.gotoMeasurement then
    if exchange.success = some true then .measuring else .unknown
  else if exchange.request.mid = Command.reset then .unknown
  else mode

def modeAfter (exchanges : List Exchange) : Mode :=
  exchanges.foldl Mode.after .unknown

def acknowledged (exchanges : List Exchange) : List Request :=
  (exchanges.filter fun exchange => exchange.success = some true).map Exchange.request

/-- A request is followed by another one if it was acknowledged, may be refused,
or the other one is the reset. -/
def MayFollow (optional : Request) (earlier later : Exchange) : Prop :=
  earlier.success = some true ∨
    earlier.success = some false ∧
      (earlier.request = optional ∨
        later.request = command Command.reset Command.resetAck)

/-- Nothing follows a failure, and settings are written in configuration mode. -/
structure Orderly (optional : Request) (exchanges : List Exchange) : Prop where
  stops : exchanges.IsChain (MayFollow optional)
  configures : ∀ before exchange, before ++ [exchange] <+: exchanges →
    exchange.request.setting ≠ [] → modeAfter before = .config
  short : ∀ exchange ∈ exchanges, exchange.request.setting.length < 2 ^ 8

/-- The next request may follow. -/
structure Ready (optional : Request) (mode : Mode) (done : List Request)
    (session : Session) : Prop where
  orderly : Orderly optional session.exchanges
  mode : modeAfter session.exchanges = mode
  acknowledged : acknowledged session.exchanges = done
  goesOn : ∀ exchange ∈ session.exchanges.getLast?, exchange.success = some true ∨
    exchange.success = some false ∧ exchange.request = optional
  idle : session.polling = false

/-- The last request was refused, or it was answered without a size. -/
structure Refused (optional : Request) (session : Session) : Prop where
  orderly : Orderly optional session.exchanges
  last : ∃ before exchange, session.exchanges = before ++ [exchange] ∧
    (exchange.success = some false ∨ exchange.success = some true ∧
      exchange.request = requestCommand Command.reqDid Command.deviceId)
  idle : session.polling = false

/-- Writing the last message threw. -/
structure Thrown (optional : Request) (session : Session) : Prop where
  orderly : Orderly optional session.exchanges
  last : ∃ before request, session.exchanges = before ++ [⟨request, none⟩]
  idle : session.polling = false

def ending (optional : Request) (success : Session → Prop) : Outcomes Session :=
  ⟨success, Refused optional, Thrown optional⟩

theorem modeAfter_append (exchanges : List Exchange) (exchange : Exchange) :
    modeAfter (exchanges ++ [exchange]) = (modeAfter exchanges).after exchange := by
  rw [modeAfter, List.foldl_append]
  rfl

theorem acknowledged_append (exchanges : List Exchange) (exchange : Exchange) :
    acknowledged (exchanges ++ [exchange]) =
      acknowledged exchanges ++ acknowledged [exchange] := by
  simp [acknowledged]

theorem Orderly.record {optional : Request} {exchanges : List Exchange} {exchange : Exchange}
    (horderly : Orderly optional exchanges)
    (hfollows : ∀ earlier ∈ exchanges.getLast?, MayFollow optional earlier exchange)
    (hsetting : exchange.request.setting ≠ [] → modeAfter exchanges = .config)
    (hshort : exchange.request.setting.length < 2 ^ 8) :
    Orderly optional (exchanges ++ [exchange]) := by
  refine ⟨?_, ?_, ?_⟩
  · rw [List.isChain_append]
    refine ⟨horderly.stops, List.isChain_singleton _, ?_⟩
    intro earlier hearlier later hlater
    obtain rfl : exchange = later := by simpa using hlater
    exact hfollows earlier hearlier
  · intro before other hstarts
    rcases List.prefix_concat_iff.mp hstarts with hlast | hstarts
    · obtain ⟨rfl, hother⟩ := List.append_inj' hlast rfl
      rw [List.singleton_inj.mp hother]
      exact hsetting
    · exact horderly.configures before other hstarts
  · rw [List.forall_mem_append, List.forall_mem_singleton]
    exact ⟨horderly.short, hshort⟩

section Rules

variable {sensor : Sensor} {optional : Request} {mode : Mode} {done : List Request}
  {session : Session} {request : Request}

theorem Ready.record (hready : Ready optional mode done session) (success : Option Bool)
    (hsetting : request.setting ≠ [] → mode = .config)
    (hshort : request.setting.length < 2 ^ 8) :
    Orderly optional (session.record ⟨request, success⟩).exchanges := by
  refine hready.orderly.record ?_ (fun hset => hready.mode.trans (hsetting hset)) hshort
  intro earlier hearlier
  exact (hready.goesOn earlier hearlier).imp id fun h => ⟨h.1, Or.inl h.2⟩

theorem Ready.succeeds (hready : Ready optional mode done session)
    (hsetting : request.setting ≠ [] → mode = .config)
    (hshort : request.setting.length < 2 ^ 8) :
    Ready optional (mode.after ⟨request, some true⟩) (done ++ [request])
      (session.record ⟨request, some true⟩) where
  orderly := hready.record _ hsetting hshort
  mode := by
    rw [Session.record, modeAfter_append, hready.mode]
  acknowledged := by
    rw [Session.record, acknowledged_append, hready.acknowledged]
    rfl
  goesOn := by
    simp [Session.record]
  idle := hready.idle

theorem Ready.throws (hready : Ready optional mode done session)
    (hsetting : request.setting ≠ [] → mode = .config)
    (hshort : request.setting.length < 2 ^ 8) :
    Thrown optional (session.record ⟨request, none⟩) :=
  ⟨hready.record _ hsetting hshort, ⟨_, _, rfl⟩, hready.idle⟩

theorem Ready.fails (hready : Ready optional mode done session)
    (hsetting : request.setting ≠ [] → mode = .config)
    (hshort : request.setting.length < 2 ^ 8) :
    Refused optional (session.record ⟨request, some false⟩) :=
  ⟨hready.record _ hsetting hshort, ⟨_, _, rfl, Or.inl rfl⟩, hready.idle⟩

theorem exec_eq (sensor : Sensor) (request : Request) (data : Option (List UInt8))
    (session : Session) :
    ∃ success, exec sensor request data session =
      (success, session.record ⟨request, success⟩) :=
  ⟨_, rfl⟩

/-- A request which has to be acknowledged. -/
theorem triple_exec (data : Option (List UInt8))
    (hsetting : request.setting ≠ [] → mode = .config)
    (hshort : request.setting.length < 2 ^ 8) :
    Triple (Ready optional mode done) (exec sensor request data)
      (ending optional
        (Ready optional (mode.after ⟨request, some true⟩) (done ++ [request]))) := by
  intro session hready
  obtain ⟨success, hexec⟩ := exec_eq sensor request data session
  rw [hexec]
  rcases success with _ | _ | _
  · exact hready.throws hsetting hshort
  · exact hready.fails hsetting hshort
  · exact hready.succeeds hsetting hshort

/-- The request which may be refused. -/
theorem triple_optional (data : Option (List UInt8)) (hsetting : optional.setting = [])
    (hmode : ∀ success, mode.after ⟨optional, success⟩ = mode) :
    Triple (Ready optional mode done) (exec sensor optional data)
      { ending optional (Ready optional mode (done ++ [optional])) with
        failure := Ready optional mode done } := by
  intro session hready
  have hnone : optional.setting ≠ [] → mode = .config := fun hset => absurd hsetting hset
  have hshort : optional.setting.length < 2 ^ 8 := by
    simp [hsetting]
  obtain ⟨success, hexec⟩ := exec_eq sensor optional data session
  rw [hexec]
  rcases success with _ | _ | _
  · exact hready.throws hnone hshort
  · refine ⟨hready.record _ hnone hshort, ?_, ?_, ?_, hready.idle⟩
    · rw [Session.record, modeAfter_append, hready.mode, hmode]
    · rw [Session.record, acknowledged_append, hready.acknowledged]
      exact List.append_nil _
    · simp [Session.record]
  · have hnext := hready.succeeds hnone hshort
    rw [hmode] at hnext
    exact hnext

end Rules

theorem scan_packets {requests : List Request}
    (hshort : ∀ request ∈ requests, request.setting.length < 2 ^ 8) :
    framer.scan ((requests.map Request.packet).flatten) =
      (requests.map fun request => ⟨request.mid, request.setting, true⟩, []) := by
  induction requests with
  | nil => exact Framing.Framer.scan_of_none rfl
  | cons request requests ih =>
      obtain ⟨hfirst, hrest⟩ := List.forall_mem_cons.mp hshort
      have hnext := Command.nextFrame_packet request.mid hfirst
        ((requests.map Request.packet).flatten)
      rw [List.map_cons, List.flatten_cons, Framing.Framer.scan_of_some hnext, ih hrest]
      rfl

/-! ## Whole initializations -/

namespace Mti

def gotoConfigCommand : Request := command Command.gotoConfig Command.gotoConfigAck
def didRequest : Request := requestCommand Command.reqDid Command.deviceId
def busRequest : Request := requestCommand Command.initbus Command.initBusResults
def resetCommand : Request := command Command.reset Command.resetAck
def wakeupAck : Request := ⟨Command.wakeupAck, [], []⟩

def gotoMeasurementCommand : Request :=
  command Command.gotoMeasurement Command.gotoMeasurementAck

/-- The request for the output configuration, which may be refused. -/
def checkOutput (mti : Mti) : Request :=
  checkCommand Command.reqOutputConfiguration Command.reqOutputConfigurationAck
    mti.model.outputConfiguration

def setOutput (mti : Mti) : Request :=
  setCommand Command.setOutputConfiguration Command.setOutputConfigurationAck
    mti.model.outputConfiguration

def profileCommands (mti : Mti) : List Request :=
  if mti.filterProfile ≠ 0 then
    [setCommand Command.setFilterProfile Command.setFilterProfileAck [0x00, mti.filterProfile]]
  else []

/-- What has to be acknowledged before the output configuration. -/
def preparation (mti : Mti) : List Request :=
  [gotoConfigCommand, didRequest,
    requestCommand Command.reqProductCode Command.productCode,
    requestCommand Command.reqFirmwareRevision Command.firmwareRevision,
    setCommand Command.setOptionFlags Command.setOptionFlagsAck Command.optionFlags,
    setCommand Command.setStringOutputType Command.setStringOutputTypeAck
      mti.model.stringOutputType] ++ mti.profileCommands

/-- Either the output configuration was right or it has been set. -/
def Complete (mti : Mti) (woken : List Request) (requests : List Request) : Prop :=
  requests = woken ++ mti.preparation ++ [mti.checkOutput, gotoMeasurementCommand] ∨
    requests = woken ++ mti.preparation ++
      [mti.setOutput, busRequest, gotoMeasurementCommand]

variable (sensor : Sensor) (mti : Mti)

theorem outputConfiguration_length (model : Model) :
    model.outputConfiguration.length < 2 ^ 8 := by
  cases model <;> decide

theorem triple_requestIdentifier {optional : Request} {mode : Mode} {done : List Request}
    (hmode : mode.after ⟨didRequest, some true⟩ = mode) :
    Triple (Ready optional mode done) (requestIdentifier sensor)
      (ending optional (Ready optional mode (done ++ [didRequest]))) := by
  intro session hready
  have hnone : didRequest.setting ≠ [] → mode = .config := fun hset => absurd rfl hset
  have hshort : didRequest.setting.length < 2 ^ 8 := by
    decide
  have hnext := hready.succeeds hnone hshort
  rw [hmode] at hnext
  unfold requestIdentifier
  rcases hexec : execCommand sensor (requestCommand Command.reqDid Command.deviceId)
    (some [UInt8.ofNat Command.sizeOffset]) session with ⟨_ | ⟨success, data⟩, after⟩
  · have hafter : after = session.record ⟨didRequest, none⟩ := by
      have hrecord := congrArg Prod.snd hexec
      have hresult := congrArg Prod.fst hexec
      simp only [execCommand] at hrecord hresult
      rw [← hrecord, hresult]
      rfl
    rw [hafter]
    exact hready.throws hnone hshort
  · have hafter : after = session.record ⟨didRequest, some success⟩ := by
      have hrecord := congrArg Prod.snd hexec
      have hresult := congrArg Prod.fst hexec
      simp only [execCommand] at hrecord hresult
      rw [← hrecord, hresult]
      rfl
    subst hafter
    have hrefused : Refused optional (session.record ⟨didRequest, some success⟩) := by
      refine ⟨hready.record _ hnone hshort, ⟨_, _, rfl, ?_⟩, hready.idle⟩
      cases success with
      | false => exact Or.inl rfl
      | true => exact Or.inr ⟨rfl, rfl⟩
    cases hid : identifier (data.getD []) with
    | none =>
        simp only [hid]
        exact hrefused
    | some id =>
        cases success with
        | false =>
            simp only [hid, Bool.false_eq_true, if_false]
            exact hrefused
        | true =>
            simp only [hid, if_true]
            exact ⟨hnext.orderly, hnext.mode, hnext.acknowledged, hnext.goesOn, hnext.idle⟩

/-- What may have been acknowledged before the chain. -/
def wakeups (mti : Mti) : List (List Request) :=
  match mti.model with
  | .mtiG710 => [[], [wakeupAck]]
  | _ => [[]]

def Stage (mode : Mode) (done : List Request) (session : Session) : Prop :=
  ∃ woken, woken ∈ mti.wakeups ∧ Ready mti.checkOutput mode (woken ++ done) session

variable {sensor} {mti} {mode : Mode} {done : List Request}

theorem triple_stage {step : Step Session} {mode' : Mode} {request : Request}
    (hstep : ∀ done, Triple (Ready mti.checkOutput mode done) step
      (ending mti.checkOutput (Ready mti.checkOutput mode' (done ++ [request])))) :
    Triple (mti.Stage mode done) step
      (ending mti.checkOutput (mti.Stage mode' (done ++ [request]))) := by
  rintro session ⟨woken, hwoken, hready⟩
  have hlifted : Triple (Ready mti.checkOutput mode (woken ++ done)) step
      (ending mti.checkOutput (mti.Stage mode' (done ++ [request]))) := by
    refine (hstep _).mono ?_ (fun _ h => h) (fun _ h => h)
    intro after hafter
    rw [List.append_assoc] at hafter
    exact ⟨woken, hwoken, hafter⟩
  exact hlifted session hready

theorem triple_stage_exec (mti : Mti) {mode mode' : Mode} (done : List Request)
    {request : Request} (data : Option (List UInt8))
    (hmode : mode.after ⟨request, some true⟩ = mode')
    (hsetting : request.setting ≠ [] → mode = .config)
    (hshort : request.setting.length < 2 ^ 8) :
    Triple (mti.Stage mode done) (exec sensor request data)
      (ending mti.checkOutput (mti.Stage mode' (done ++ [request]))) := by
  subst hmode
  exact triple_stage fun _ => triple_exec data hsetting hshort

theorem triple_lookForWakeup (sensor : Sensor) (id : String) :
    Triple (fun session => session = ⟨[], id, false⟩) (mti.lookForWakeup sensor)
      (ending mti.checkOutput (mti.Stage .unknown [])) := by
  rintro session rfl
  have hstart : Ready mti.checkOutput .unknown [] ⟨[], id, false⟩ := by
    refine ⟨⟨List.isChain_nil, ?_, by simp⟩, rfl, rfl, by simp, rfl⟩
    intro before exchange hbegins
    exact absurd (List.prefix_nil.mp hbegins) (by simp)
  have hnone : wakeupAck.setting ≠ [] → Mode.unknown = .config :=
    fun hset => absurd rfl hset
  have hshort : wakeupAck.setting.length < 2 ^ 8 := by
    decide
  have hquiet : mti.Stage .unknown [] ⟨[], id, false⟩ := by
    refine ⟨[], ?_, hstart⟩
    unfold wakeups
    cases mti.model <;> simp
  unfold lookForWakeup
  cases hmodel : mti.model with
  | mti670 => exact hquiet
  | mti630 => exact hquiet
  | mtiG710 =>
      cases hwakeup : sensor.wakeup with
      | none => exact hquiet
      | some response =>
          simp only
          split
          · split
            · exact hstart.throws hnone hshort
            · refine ⟨[wakeupAck], ?_, hstart.succeeds hnone hshort⟩
              simp [wakeups, hmodel]
          · exact hquiet

theorem triple_stage_optional :
    Triple (mti.Stage .config done) (mti.checkOutputConfiguration sensor)
      { ending mti.checkOutput (mti.Stage .config (done ++ [mti.checkOutput])) with
        failure := mti.Stage .config done } := by
  rintro session ⟨woken, hwoken, hready⟩
  have hlifted : Triple (Ready mti.checkOutput .config (woken ++ done))
      (mti.checkOutputConfiguration sensor)
      { ending mti.checkOutput (mti.Stage .config (done ++ [mti.checkOutput])) with
        failure := mti.Stage .config done } := by
    refine (triple_optional none rfl (fun _ => rfl)).mono ?_ ?_ (fun _ h => h)
    · intro after hafter
      rw [List.append_assoc] at hafter
      exact ⟨woken, hwoken, hafter⟩
    · exact fun after hafter => ⟨woken, hwoken, hafter⟩
  exact hlifted session hready

theorem Stage.andThen {first second : Step Session} {before middle after : Session → Prop}
    (hfirst : Triple before first (ending mti.checkOutput middle))
    (hsecond : Triple middle second (ending mti.checkOutput after)) :
    Triple before (andThen first second) (ending mti.checkOutput after) :=
  Triple.andThen hfirst hsecond

theorem triple_setFilterProfile (sensor : Sensor) :
    Triple (mti.Stage .config done) (mti.setFilterProfile sensor)
      (ending mti.checkOutput (mti.Stage .config (done ++ mti.profileCommands))) := by
  unfold setFilterProfile profileCommands
  split
  · exact triple_stage_exec mti done none rfl (fun _ => rfl) (by simp [setCommand])
  · refine triple_given true fun session hstage => ?_
    rw [List.append_nil]
    exact hstage

/-- The output configuration is right or has been set. -/
theorem triple_output :
    Triple (mti.Stage .config done)
      (orElse (mti.checkOutputConfiguration sensor)
        (andThen (mti.setOutputConfiguration sensor) (initMt sensor)))
      (ending mti.checkOutput fun session =>
        mti.Stage .config (done ++ [mti.checkOutput]) session ∨
          mti.Stage .config (done ++ [mti.setOutput, busRequest]) session) := by
  have hset : Triple (mti.Stage .config done) (mti.setOutputConfiguration sensor)
      (ending mti.checkOutput (mti.Stage .config (done ++ [mti.setOutput]))) :=
    triple_stage_exec mti done none rfl (fun _ => rfl) (outputConfiguration_length mti.model)
  have hbus : Triple (mti.Stage .config (done ++ [mti.setOutput])) (initMt sensor)
      (ending mti.checkOutput
        (mti.Stage .config (done ++ [mti.setOutput] ++ [busRequest]))) :=
    triple_stage_exec mti _ none rfl (fun hset => absurd rfl hset) (by decide)
  refine Triple.orElse (triple_stage_optional.mono ?_ (fun _ h => h) (fun _ h => h))
    ((Stage.andThen hset hbus).mono ?_ (fun _ h => h) (fun _ h => h))
  · exact fun _ hstage => Or.inl hstage
  · intro session hstage
    rw [List.append_assoc] at hstage
    exact Or.inr hstage

theorem stringOutputType_length (model : Model) : model.stringOutputType.length < 2 ^ 8 := by
  cases model <;> decide

theorem triple_setUp (sensor : Sensor) (mti : Mti) (id : String) :
    Triple (fun session => session = ⟨[], id, false⟩) (mti.setUp sensor)
      (ending mti.checkOutput fun session =>
        mti.Stage .measuring (mti.preparation ++ [mti.checkOutput, gotoMeasurementCommand])
            session ∨
          mti.Stage .measuring
            (mti.preparation ++ [mti.setOutput, busRequest, gotoMeasurementCommand])
            session) := by
  have hgoto : Triple (mti.Stage .unknown []) (gotoConfig sensor)
      (ending mti.checkOutput (mti.Stage .config ([] ++ [gotoConfigCommand]))) :=
    triple_stage_exec mti _ none rfl (fun hset => absurd rfl hset) (by decide)
  have hcode : ∀ done, Triple (mti.Stage .config done) (requestProductCode sensor)
      (ending mti.checkOutput (mti.Stage .config
        (done ++ [requestCommand Command.reqProductCode Command.productCode]))) :=
    fun done => triple_stage_exec mti done _ rfl (fun hset => absurd rfl hset) (by decide)
  have hfirmware : ∀ done, Triple (mti.Stage .config done) (requestFirmware sensor)
      (ending mti.checkOutput (mti.Stage .config
        (done ++ [requestCommand Command.reqFirmwareRevision Command.firmwareRevision]))) :=
    fun done => triple_stage_exec mti done _ rfl (fun hset => absurd rfl hset) (by decide)
  have hflags : ∀ done, Triple (mti.Stage .config done) (setOptionFlags sensor)
      (ending mti.checkOutput (mti.Stage .config (done ++
        [setCommand Command.setOptionFlags Command.setOptionFlagsAck Command.optionFlags]))) :=
    fun done => triple_stage_exec mti done _ rfl (fun _ => rfl) (by decide)
  have hstring : ∀ done, Triple (mti.Stage .config done) (mti.setStringOutputType sensor)
      (ending mti.checkOutput (mti.Stage .config (done ++
        [setCommand Command.setStringOutputType Command.setStringOutputTypeAck
          mti.model.stringOutputType]))) :=
    fun done => triple_stage_exec mti done _ rfl (fun _ => rfl)
      (stringOutputType_length mti.model)
  have hmeasure : ∀ done, Triple (mti.Stage .config done) (gotoMeasurement sensor)
      (ending mti.checkOutput (mti.Stage .measuring (done ++ [gotoMeasurementCommand]))) :=
    fun done => triple_stage_exec mti done none rfl (fun hset => absurd rfl hset) (by decide)
  have hprepared := Stage.andThen (Stage.andThen (Stage.andThen (Stage.andThen
    (Stage.andThen (Stage.andThen (Stage.andThen (triple_lookForWakeup sensor id) hgoto)
      (triple_stage fun _ => triple_requestIdentifier sensor rfl))
      (hcode _)) (hfirmware _)) (hflags _)) (hstring _)) (triple_setFilterProfile sensor)
  refine Stage.andThen (Stage.andThen hprepared triple_output) (Triple.or ?_ ?_)
  · refine (hmeasure _).mono (fun session hstage => Or.inl ?_) (fun _ h => h) (fun _ h => h)
    rw [List.append_assoc] at hstage
    exact hstage
  · refine (hmeasure _).mono (fun session hstage => Or.inr ?_) (fun _ h => h) (fun _ h => h)
    rw [List.append_assoc] at hstage
    exact hstage

/-- The reset follows a failure. -/
theorem orderly_reset {optional : Request} {session : Session}
    (hrefused : Refused optional session) (success : Option Bool) :
    Orderly optional (session.record ⟨resetCommand, success⟩).exchanges := by
  obtain ⟨before, exchange, hlast, hwhy⟩ := hrefused.last
  have hshort : resetCommand.setting.length < 2 ^ 8 := by
    decide
  refine hrefused.orderly.record ?_ (fun hset => absurd rfl hset) hshort
  intro earlier hearlier
  obtain rfl : exchange = earlier := by simpa [hlast] using hearlier
  rcases hwhy with hfalse | ⟨htrue, -⟩
  · exact Or.inr ⟨hfalse, Or.inr rfl⟩
  · exact Or.inl htrue

/-- Whatever the sensor answers, settings are written in configuration mode only,
no message but the reset follows a failure other than that of the check of the
output configuration, and the sensor reads every message.  The initialization
succeeds, and polling starts, when all that is needed has been acknowledged in
order; after a failure the reset is the last message. -/
theorem initializeDevice_orderly (mti : Mti) (sensor : Sensor) (id : String) :
    let (result, session) := mti.initializeDevice sensor ⟨[], id, false⟩
    Orderly mti.checkOutput session.exchanges ∧
      framer.scan session.written.flatten =
        (session.exchanges.map fun exchange =>
          ⟨exchange.request.mid, exchange.request.setting, true⟩, []) ∧
      (session.polling = true ↔ result = some true) ∧
      match result with
      | some true => modeAfter session.exchanges = .measuring ∧
          ∃ woken ∈ mti.wakeups, mti.Complete woken (acknowledged session.exchanges)
      | some false => ∃ before exchange answer,
          session.exchanges = before ++ [exchange, ⟨resetCommand, some answer⟩] ∧
            (exchange.success = some false ∨ exchange.request = didRequest)
      | none => ∃ before request, session.exchanges = before ++ [⟨request, none⟩] := by
  have hread : ∀ {exchanges}, Orderly mti.checkOutput exchanges →
      framer.scan ((exchanges.map fun exchange => exchange.request.packet).flatten) =
        (exchanges.map fun exchange =>
          ⟨exchange.request.mid, exchange.request.setting, true⟩, []) := by
    intro exchanges horderly
    have hscan := @scan_packets (exchanges.map Exchange.request)
      (List.forall_mem_map.mpr horderly.short)
    simpa only [List.map_map, Function.comp_def] using hscan
  have hsetUp := triple_setUp sensor mti id ⟨[], id, false⟩ rfl
  unfold initializeDevice
  rcases hrun : mti.setUp sensor ⟨[], id, false⟩ with ⟨_ | _ | _, session⟩ <;>
    rw [hrun] at hsetUp
  · obtain ⟨horderly, hlast, hidle⟩ := hsetUp
    exact ⟨horderly, hread horderly, by simp [hidle], hlast⟩
  · have hrefused : Refused mti.checkOutput session := hsetUp
    obtain ⟨before, exchange, hlast, hwhy⟩ := hrefused.last
    have hidle := hrefused.idle
    have hexchange : exchange.success = some false ∨ exchange.request = didRequest :=
      hwhy.imp (fun hfalse => hfalse) And.right
    obtain ⟨success, hexec⟩ : ∃ success, reset sensor session =
        (success, session.record ⟨resetCommand, success⟩) := exec_eq _ _ none session
    have horderly := orderly_reset hrefused success
    simp only [hexec]
    cases success with
    | none =>
        refine ⟨horderly, hread horderly, by simp [Session.record, hidle], ?_⟩
        exact ⟨session.exchanges, resetCommand, rfl⟩
    | some answer =>
        refine ⟨horderly, hread horderly, by simp [Session.record, hidle], ?_⟩
        refine ⟨before, exchange, answer, ?_, hexchange⟩
        simp [Session.record, hlast]
  · rcases hsetUp with ⟨woken, hwoken, hready⟩ | ⟨woken, hwoken, hready⟩
    · refine ⟨hready.orderly, hread hready.orderly, by simp, hready.mode, woken, hwoken, ?_⟩
      left
      rw [List.append_assoc]
      exact hready.acknowledged
    · refine ⟨hready.orderly, hread hready.orderly, by simp, hready.mode, woken, hwoken, ?_⟩
      right
      rw [List.append_assoc]
      exact hready.acknowledged

end Mti

end SensorHub.Xsens
