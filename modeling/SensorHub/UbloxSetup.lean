import SensorHub.CommandChains
import SensorHub.UbloxPacket
import SensorHub.UbloxPayload

/-!
# Setting up a NEO-M8U

The initialization of the device is a chain of commands, spread over seven
functions.  One of them chooses between three commands with a conditional, in
which the command before it has become a part of the test.

The device is a function from the commands sent so far, each with the responses
that are waited for, to the success of the last one.
-/

namespace SensorHub.Ublox

open CommandChains

namespace DataPacket

/-- The constructors with class, identifier and payload. -/
def ofPayload (cls id : UInt8) (payload : List UInt8) : DataPacket :=
  let packet := (((⟨[], 0⟩ : DataPacket).addData cls).addData id).setLength
    (payload.length % 2 ^ 16)
  let packet := { packet with data := packet.data ++ payload }
  { packet with checksum := packet.calcChecksum }

/-- The checksum is written in the byte order of the host, low byte first. -/
def getPacket (packet : DataPacket) : List UInt8 :=
  [Command.sync1, Command.sync2] ++ packet.data ++
    [UInt8.ofNat (packet.checksum % 2 ^ 8), UInt8.ofNat (packet.checksum / 2 ^ 8)]

theorem data_ofPayload (cls id : UInt8) (payload : List UInt8) :
    (ofPayload cls id payload).data =
      cls :: id :: UInt8.ofNat (payload.length % 2 ^ 8) ::
        UInt8.ofNat (payload.length % 2 ^ 16 / 2 ^ 8) :: payload := by
  have hsize : payload.length % 2 ^ 16 % 2 ^ 8 = payload.length % 2 ^ 8 := by omega
  simp only [Nat.reducePow] at hsize
  simp [ofPayload, setLength, setDataByte, addData, hsize]

/-- The two length bytes. -/
theorem length_eq_lengthBytes {length : ℕ} (hlength : length < 2 ^ 16) :
    length = (UInt8.ofNat (length % 2 ^ 8)).toNat +
      256 * (UInt8.ofNat (length % 2 ^ 16 / 2 ^ 8)).toNat := by
  have hlow : (UInt8.ofNat (length % 2 ^ 8)).toNat = length % 2 ^ 8 :=
    UInt8.toNat_ofNat_of_lt' (Nat.mod_lt _ (by norm_num))
  have hhigh : (UInt8.ofNat (length % 2 ^ 16 / 2 ^ 8)).toNat =
      length % 2 ^ 16 / 2 ^ 8 :=
    UInt8.toNat_ofNat_of_lt' (by
      change length % 2 ^ 16 / 2 ^ 8 < 2 ^ 8
      omega)
  rw [hlow, hhigh]
  omega

theorem check_ofPayload (cls id : UInt8) {payload : List UInt8}
    (hpayload : payload.length < 2 ^ 16) :
    (ofPayload cls id payload).check = true := by
  have hlength := length_eq_lengthBytes hpayload
  refine (check_iff (data_ofPayload cls id payload) (by omega) _).mpr ?_
  exact calcChecksum_eq ⟨(ofPayload cls id payload).data, 0⟩

end DataPacket

/-! ## Commands -/

namespace Command

def clsAck : UInt8 := 0x05
def clsCfg : UInt8 := 0x06
def clsMon : UInt8 := 0x0A
def clsSec : UInt8 := 0x27

def ackNak : UInt8 := 0x00
def ackAck : UInt8 := 0x01
def monVer : UInt8 := 0x04
def secUniqid : UInt8 := 0x03

namespace Cfg

def prt : UInt8 := 0x00
def msg : UInt8 := 0x01
def rate : UInt8 := 0x08
def nav5 : UInt8 := 0x24
def gnss : UInt8 := 0x3E
def hnr : UInt8 := 0x5C
def pms : UInt8 := 0x86

/-- 115200 baud, with all protocols disabled. -/
def prtPayloadUart : List UInt8 :=
  [0x01, 0x00, 0x00, 0x00, 0xC0, 0x08, 0x00, 0x00, 0x00, 0xC2, 0x01, 0x00,
   0x00, 0x00, 0x00, 0x00, 0x00, 0x00, 0x00, 0x00]

/-- Only the UBX protocol. -/
def prtPayloadUsb : List UInt8 :=
  [0x03, 0x00, 0x00, 0x00, 0x00, 0x00, 0x00, 0x00, 0x00, 0x00, 0x00, 0x00,
   0x01, 0x00, 0x01, 0x00, 0x00, 0x00, 0x00, 0x00]

def ratePayload : List UInt8 := [0xF4, 0x01, 0x01, 0x00, 0x00, 0x00]

/-- The third byte is the dynamic model. -/
def nav5Payload : List UInt8 :=
  [0x47, 0x04, 0x05, 0x03, 0x00, 0x00, 0x00, 0x00, 0xFF, 0xFF, 0x00, 0x00,
   0x0A, 0x00, 0x00, 0x00, 0x00, 0x00, 0x00, 0x00, 0x00, 0x00, 0x00, 0x00,
   0x00, 0x00, 0x00, 0x00, 0x00, 0x00, 0x00, 0x00, 0x00, 0x00, 0x00, 0x00]

def gnssPayload : List UInt8 := [0x00, 0x00, 0xFF, 0x07]

def gnssBlock (gnssId minChannels maxChannels : UInt8) (enabled : Bool) : List UInt8 :=
  [gnssId, minChannels, maxChannels, 0x00,
   if enabled then 0x01 else 0x00, 0x00, 0x01, 0x00]

def gnssPayloadGps : List UInt8 := gnssBlock 0x00 0x08 0x10 true
def gnssPayloadSbas : List UInt8 := gnssBlock 0x01 0x01 0x03 true
def gnssPayloadGalileo : List UInt8 := gnssBlock 0x02 0x04 0x08 false
def gnssPayloadGalileoOn : List UInt8 := gnssBlock 0x02 0x04 0x08 true
def gnssPayloadBeidou : List UInt8 := gnssBlock 0x03 0x08 0x10 false
def gnssPayloadBeidouOn : List UInt8 := gnssBlock 0x03 0x08 0x10 true
def gnssPayloadImes : List UInt8 := gnssBlock 0x04 0x00 0x00 false
def gnssPayloadQzss : List UInt8 := gnssBlock 0x05 0x00 0x03 true
def gnssPayloadGlonass : List UInt8 := gnssBlock 0x06 0x08 0x0E false
def gnssPayloadGlonassOn : List UInt8 := gnssBlock 0x06 0x08 0x0E true

def hnrPayload : List UInt8 := [0x0A, 0x00, 0x00, 0x00]
def pmsPayload : List UInt8 := [0x00, 0x00, 0x00, 0x00, 0x00, 0x00, 0x00, 0x00]

end Cfg

def packetBytes (cls id : UInt8) (payload : List UInt8) : List UInt8 :=
  (DataPacket.ofPayload cls id payload).getPacket

def cfgPrtUsb : List UInt8 := packetBytes clsCfg Cfg.prt Cfg.prtPayloadUsb
def cfgPrtUart : List UInt8 := packetBytes clsCfg Cfg.prt Cfg.prtPayloadUart
def monVerCommand : List UInt8 := packetBytes clsMon monVer []
def cfgPms : List UInt8 := packetBytes clsCfg Cfg.pms Cfg.pmsPayload
def cfgHnr : List UInt8 := packetBytes clsCfg Cfg.hnr Cfg.hnrPayload
def cfgRate : List UInt8 := packetBytes clsCfg Cfg.rate Cfg.ratePayload

def gnssGlonassPayload : List UInt8 :=
  Cfg.gnssPayload ++ Cfg.gnssPayloadGps ++ Cfg.gnssPayloadSbas ++
    Cfg.gnssPayloadGalileo ++ Cfg.gnssPayloadBeidou ++ Cfg.gnssPayloadImes ++
    Cfg.gnssPayloadQzss ++ Cfg.gnssPayloadGlonassOn

def gnssGalileoPayload : List UInt8 :=
  Cfg.gnssPayload ++ Cfg.gnssPayloadGps ++ Cfg.gnssPayloadSbas ++
    Cfg.gnssPayloadGalileoOn ++ Cfg.gnssPayloadBeidou ++ Cfg.gnssPayloadImes ++
    Cfg.gnssPayloadQzss ++ Cfg.gnssPayloadGlonass

def gnssBeidouPayload : List UInt8 :=
  Cfg.gnssPayload ++ Cfg.gnssPayloadGps ++ Cfg.gnssPayloadSbas ++
    Cfg.gnssPayloadGalileo ++ Cfg.gnssPayloadBeidouOn ++ Cfg.gnssPayloadImes ++
    Cfg.gnssPayloadQzss ++ Cfg.gnssPayloadGlonass

def cfgGnssGlonass : List UInt8 := packetBytes clsCfg Cfg.gnss gnssGlonassPayload
def cfgGnssGalileo : List UInt8 := packetBytes clsCfg Cfg.gnss gnssGalileoPayload
def cfgGnssBeidou : List UInt8 := packetBytes clsCfg Cfg.gnss gnssBeidouPayload

def cfgMsgNavPvt : List UInt8 := packetBytes clsCfg Cfg.msg [clsNav, navPvt, 0x01]
def cfgMsgNavAtt : List UInt8 := packetBytes clsCfg Cfg.msg [clsNav, navAtt, 0x01]
def cfgMsgEsfIns : List UInt8 := packetBytes clsCfg Cfg.msg [clsEsf, esfIns, 0x01]
def cfgMsgEsfRaw : List UInt8 := packetBytes clsCfg Cfg.msg [clsEsf, esfRaw, 0x0A]

def secUniqidCommand : List UInt8 := packetBytes clsSec secUniqid []

end Command

namespace Response

open Command

def ack : List UInt8 := [sync1, sync2, clsAck, ackAck, 0x02, 0x00, clsCfg]
def nak : List UInt8 := [sync1, sync2, clsAck, ackNak, 0x02, 0x00, clsCfg]
def monVer : List UInt8 := [sync1, sync2, clsMon, Command.monVer]
def secUniqid : List UInt8 := [sync1, sync2, clsSec, Command.secUniqid]

end Response

/-! ## Initialization -/

inductive DynModel where
  | portable | unused | stationary | pedestrian | automotive | sea
  | airborne1g | airborne2g | airborne4g | wristWatch | bike
  deriving DecidableEq, Repr

def DynModel.value : DynModel → UInt8
  | .portable => 0
  | .unused => 1
  | .stationary => 2
  | .pedestrian => 3
  | .automotive => 4
  | .sea => 5
  | .airborne1g => 6
  | .airborne2g => 7
  | .airborne4g => 8
  | .wristWatch => 9
  | .bike => 10

inductive GnssType where
  | glonass | galileo | beidou
  deriving DecidableEq, Repr

structure NeoM8u where
  dynModel : DynModel
  gnssType : GnssType
  deriving DecidableEq, Repr

/-- What `exec_command` is called with. -/
structure Exchange where
  command : List UInt8
  expectedResponse : List UInt8
  errorResponse : List UInt8
  deriving DecidableEq, Repr

/-- A configuration command, which is acknowledged or not. -/
def configure (command : List UInt8) : Exchange :=
  ⟨command, Response.ack, Response.nak⟩

namespace NeoM8u

def setOptions (options : String → Option String) : NeoM8u where
  dynModel :=
    let s := (options "dyn_model").getD "portable"
    if s = "portable" then .portable
    else if s = "stationary" then .stationary
    else if s = "pedestrian" then .pedestrian
    else if s = "automotive" then .automotive
    else if s = "sea" then .sea
    else if s = "airborne_1g" then .airborne1g
    else if s = "airborne_2g" then .airborne2g
    else if s = "airborne_4g" then .airborne4g
    else if s = "wrist_watch" then .wristWatch
    else if s = "bike" then .bike
    else .portable
  gnssType :=
    let s := (options "gnss_type").getD "glonass"
    if s = "glonass" then .glonass
    else if s = "galileo" then .galileo
    else if s = "beidou" then .beidou
    else .glonass

variable (device : List Exchange → Bool)

def setupPorts : Action Exchange :=
  andThen (exec device (configure Command.cfgPrtUsb))
    (exec device (configure Command.cfgPrtUart))

def monVer : Exchange :=
  ⟨Command.monVerCommand, Response.monVer, Response.nak⟩

def requestVersion : Action Exchange :=
  exec device monVer

def secUniqid : Exchange :=
  ⟨Command.secUniqidCommand, Response.secUniqid, Response.nak⟩

def requestId : Action Exchange :=
  exec device secUniqid

def setupPowerManagement : Action Exchange :=
  exec device (configure Command.cfgPms)

def useGlonass : Action Exchange :=
  exec device (configure Command.cfgGnssGlonass)

def useGalileo : Action Exchange :=
  exec device (configure Command.cfgGnssGalileo)

def useBeidou : Action Exchange :=
  exec device (configure Command.cfgGnssBeidou)

/-- The payload with the dynamic model, which is a local variable. -/
def cfgNav5 (neo : NeoM8u) : Exchange :=
  configure (Command.packetBytes Command.clsCfg Command.Cfg.nav5
    (Command.Cfg.nav5Payload.set 2 neo.dynModel.value))

/-- `&&` binds stronger than the conditional. -/
def setupGnss (neo : NeoM8u) : Action Exchange :=
  ifElse
    (andThen (exec device neo.cfgNav5) (given (decide (neo.gnssType = .glonass))))
    (useGlonass device)
    (ifElse (given (decide (neo.gnssType = .galileo))) (useGalileo device)
      (ifElse (given (decide (neo.gnssType = .beidou))) (useBeidou device)
        (given false)))

def setupNavigationRate : Action Exchange :=
  andThen (exec device (configure Command.cfgRate))
    (exec device (configure Command.cfgHnr))

def setupMessages : Action Exchange :=
  andThen (andThen (andThen (exec device (configure Command.cfgMsgNavPvt))
    (exec device (configure Command.cfgMsgNavAtt)))
    (exec device (configure Command.cfgMsgEsfIns)))
    (exec device (configure Command.cfgMsgEsfRaw))

/-- The result and the commands sent. -/
def initializeDevice (neo : NeoM8u) : Bool × List Exchange :=
  andThen (andThen (andThen (andThen (andThen (andThen (setupPorts device)
    (requestVersion device)) (requestId device)) (setupPowerManagement device))
    (neo.setupGnss device)) (setupNavigationRate device)) (setupMessages device) []

/-- The commands before the choice of a satellite system. -/
def preparation : List Exchange :=
  [configure Command.cfgPrtUsb, configure Command.cfgPrtUart, monVer, secUniqid,
   configure Command.cfgPms]

/-- All commands of the preparation succeed and the navigation settings are
refused. -/
def RefusesNav5 (neo : NeoM8u) : Prop :=
  (∀ before exchange, before ++ [exchange] <+: preparation →
    device (before ++ [exchange]) = true) ∧
  device (preparation ++ [neo.cfgNav5]) = false

/-! ## Which initializations are orderly -/

/-- The commands after the choice of a satellite system. -/
def configuration : List Exchange :=
  [configure Command.cfgRate, configure Command.cfgHnr,
   configure Command.cfgMsgNavPvt, configure Command.cfgMsgNavAtt,
   configure Command.cfgMsgEsfIns, configure Command.cfgMsgEsfRaw]

variable {device} {neo : NeoM8u}

theorem initializeDevice_eq :
    neo.initializeDevice device =
      andThen (chain device preparation)
        (andThen (neo.setupGnss device) (chain device configuration)) [] := by
  simp only [initializeDevice, setupPorts, requestVersion, requestId,
    setupPowerManagement, setupNavigationRate, setupMessages, preparation,
    configuration, chain, andThen_given_true, andThen_assoc]

/-- The conditional is a chain for the first satellite system only. -/
theorem setupGnss_glonass (hgnss : neo.gnssType = .glonass) :
    neo.setupGnss device = chain device [neo.cfgNav5, configure Command.cfgGnssGlonass] := by
  funext sent
  rcases hnav5 : device (sent ++ [neo.cfgNav5]) with _ | _ <;>
    simp [setupGnss, useGlonass, chain, ifElse, andThen, given, exec, hgnss, hnav5]

def gnssCommand : GnssType → Exchange
  | .glonass => configure Command.cfgGnssGlonass
  | .galileo => configure Command.cfgGnssGalileo
  | .beidou => configure Command.cfgGnssBeidou

/-- For the others the command is sent whatever became of the navigation
settings. -/
theorem setupGnss_of_ne (device : List Exchange → Bool)
    (hgnss : neo.gnssType ≠ .glonass) (sent : List Exchange) :
    neo.setupGnss device sent =
      exec device (gnssCommand neo.gnssType) (sent ++ [neo.cfgNav5]) := by
  rcases hnav5 : device (sent ++ [neo.cfgNav5]) with _ | _ <;>
    cases hcase : neo.gnssType with
    | glonass => exact absurd hcase hgnss
    | galileo =>
        simp [setupGnss, useGalileo, gnssCommand, ifElse, andThen, given, exec,
          hcase, hnav5]
    | beidou =>
        simp [setupGnss, useBeidou, gnssCommand, ifElse, andThen, given, exec,
          hcase, hnav5]

theorem extends_setupGnss : Extends (neo.setupGnss device) := by
  have hnav5 := (extends_exec device neo.cfgNav5).andThen
    (extends_given (decide (neo.gnssType = .glonass)))
  have hother := (extends_given (decide (neo.gnssType = .galileo))).ifElse
    (extends_exec device (configure Command.cfgGnssGalileo))
    ((extends_given (decide (neo.gnssType = .beidou))).ifElse
      (extends_exec device (configure Command.cfgGnssBeidou)) (extends_given false))
  exact hnav5.ifElse (extends_exec device (configure Command.cfgGnssGlonass)) hother

theorem setupGnss_of_true (sent : List Exchange)
    (hnav5 : device (sent ++ [neo.cfgNav5]) = true) :
    neo.setupGnss device sent =
      chain device [neo.cfgNav5, gnssCommand neo.gnssType] sent := by
  by_cases hgnss : neo.gnssType = .glonass
  · rw [setupGnss_glonass hgnss, hgnss]
    rfl
  · have hexec : exec device neo.cfgNav5 sent = (true, sent ++ [neo.cfgNav5]) := by
      simp [exec, hnav5]
    rw [setupGnss_of_ne device hgnss, chain, andThen_of_true hexec]
    simp only [chain, andThen_given_true]

theorem orderlyAfter_setupGnss_iff (sent : List Exchange) :
    OrderlyAfter device sent
        (andThen (neo.setupGnss device) (chain device configuration) sent) ↔
      neo.gnssType = .glonass ∨ device (sent ++ [neo.cfgNav5]) = true := by
  have hrest : Orderly device (chain device configuration) := orderly_chain device _
  by_cases hgnss : neo.gnssType = .glonass
  · simp only [hgnss, true_or, iff_true, setupGnss_glonass hgnss]
    exact (orderly_chain device _).andThen hrest sent
  rcases hnav5 : device (sent ++ [neo.cfgNav5]) with _ | _
  · simp only [hgnss, Bool.false_eq_true, or_self, iff_false]
    refine not_orderlyAfter neo.cfgNav5 (gnssCommand neo.gnssType) hnav5 ?_
    rcases hresult : device
        (sent ++ [neo.cfgNav5] ++ [gnssCommand neo.gnssType]) with _ | _
    · have hfalse := setupGnss_of_ne device hgnss sent
      rw [exec, hresult] at hfalse
      rw [andThen_of_false hfalse]
    · have htrue := setupGnss_of_ne device hgnss sent
      rw [exec, hresult] at htrue
      rw [andThen_of_true htrue]
      exact (hrest _).starts
  · simp only [or_true, iff_true]
    have hfirst := setupGnss_of_true sent hnav5
    have hsetup := orderly_chain device [neo.cfgNav5, gnssCommand neo.gnssType] sent
    rw [← hfirst] at hsetup
    exact (orderlyAfter_andThen_iff hsetup hrest.extends).mpr fun _ => hrest _

theorem orderlyAfter_initializeDevice :
    OrderlyAfter device [] (neo.initializeDevice device) ↔
      ((chain device preparation []).1 = true →
        neo.gnssType = .glonass ∨ device (preparation ++ [neo.cfgNav5]) = true) := by
  have hextends : Extends
      (andThen (neo.setupGnss device) (chain device configuration)) :=
    extends_setupGnss.andThen (orderly_chain device _).extends
  rw [initializeDevice_eq,
    orderlyAfter_andThen_iff (orderly_chain device _ []) hextends]
  refine imp_congr_right fun htrue => ?_
  rw [chain_of_true htrue, List.nil_append, orderlyAfter_setupGnss_iff]

theorem not_orderly_of_refusesNav5 (hgnss : neo.gnssType ≠ .glonass)
    (hrefuses : neo.RefusesNav5 device) :
    ¬OrderlyAfter device [] (neo.initializeDevice device) := by
  intro horderly
  have hprepared := (chain_eq_true_iff device preparation []).mpr hrefuses.1
  rcases orderlyAfter_initializeDevice.mp horderly hprepared with hglonass | htrue
  · exact hgnss hglonass
  · rw [hrefuses.2] at htrue
    exact absurd htrue (by decide)

/-- The initialization is orderly unless it selects another satellite system
than the first after the navigation settings were refused. -/
theorem initializeDevice_orderly_iff (device : List Exchange → Bool) (neo : NeoM8u) :
    OrderlyAfter device [] (neo.initializeDevice device) ↔
      neo.gnssType = .glonass ∨ ¬neo.RefusesNav5 device := by
  constructor
  · intro horderly
    by_contra hnot
    rw [not_or, not_not] at hnot
    exact not_orderly_of_refusesNav5 hnot.1 hnot.2 horderly
  · intro hcondition
    refine orderlyAfter_initializeDevice.mpr fun hprepared => ?_
    refine hcondition.imp_right fun hnot => ?_
    by_contra hrefused
    exact hnot ⟨(chain_eq_true_iff device preparation []).mp hprepared,
      by simpa using hrefused⟩

/-- A device that only refuses the navigation settings is set up for another
satellite system all the same. -/
theorem not_initializeDevice_orderly :
    ¬∀ (device : List Exchange → Bool) (neo : NeoM8u),
      OrderlyAfter device [] (neo.initializeDevice device) := by
  intro hall
  refine not_orderly_of_refusesNav5 (by decide) ⟨?_, ?_⟩
    (hall (fun sent => decide (sent.length ≠ 6)) ⟨.portable, .galileo⟩)
  · intro before exchange hsent
    have hlength := hsent.length_le
    simp only [preparation, List.length_append, List.length_cons,
      List.length_nil] at hlength
    simp only [List.length_append, List.length_cons, List.length_nil,
      decide_eq_true_eq]
    omega
  · simp [preparation]

/-- Without an option for the satellite system, or with an unknown one, the
initialization is orderly. -/
theorem initializeDevice_orderly_of_options (device : List Exchange → Bool)
    {options : String → Option String} (hgalileo : options "gnss_type" ≠ some "galileo")
    (hbeidou : options "gnss_type" ≠ some "beidou") :
    OrderlyAfter device [] ((setOptions options).initializeDevice device) := by
  refine orderlyAfter_initializeDevice.mpr fun _ => .inl ?_
  cases hoption : options "gnss_type" with
  | none => simp [setOptions, hoption]
  | some name =>
      rw [hoption, ne_eq, Option.some.injEq] at hgalileo hbeidou
      simp [setOptions, hoption, hgalileo, hbeidou]

end NeoM8u

end SensorHub.Ublox
