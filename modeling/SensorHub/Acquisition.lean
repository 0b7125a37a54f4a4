import SensorHub.ProcessorParams
import SensorHub.SignalK
import SensorHub.UbloxPolling
import SensorHub.Wiring

/-!
# From the bytes of a device to registers

The registered classes of processors are put together with the configuration, the
devices and the register map.  What a statistics processor shows is then given by
the sections of the configuration and by the bytes that were read.

Square roots, patterns of doubles and conversions of numbers are parameters.
-/

namespace SensorHub.Acquisition

open EventRuns Framing

variable {K : Type} [ExactDouble K]

/-! ## The registered processors -/

structure Numerics (K : Type) where
  sqrt : K → K
  toBits : K → UInt64
  rounding : FloatText.Rounding K
  round : K → ℤ
  truncate : K → ℕ

/-- An object of a registered class. -/
inductive Instance (K : Type) where
  | statistics (stats : Statistics K)
  | accelerationHistory (history : AccelerationHistory K)
  | fusion
  | signalK (pusher : SignalK.Pusher K)
  | tcpPusher (pusher : TcpPusher)

def factories : List (String × Instance K) :=
  [("statistics", .statistics (.fresh 1)),
    ("acceleration_history",
      .accelerationHistory (.fresh 1 1 10 (AccelerationHistory.xDir ||| AccelerationHistory.yDir))),
    ("fusion", .fusion),
    ("signalk", .signalK .fresh),
    ("tcp_pusher", .tcpPusher .fresh)]

def createProcessor (type : String) : Option (Instance K) :=
  factories.lookup type

def statisticsSetter : ParamSetter (Statistics K) K where
  setNumber stats name value :=
    if name = "period".toList then { stats with period := value } else stats
  setText stats _ _ := stats

namespace Instance

def setParams (numerics : Numerics K) (processor : Instance K) (params : String) : Instance K :=
  match processor with
  | .statistics stats =>
      .statistics (statisticsSetter.setParams numerics.rounding stats params.toList)
  | .accelerationHistory history =>
      .accelerationHistory ((AccelerationHistory.setter numerics.truncate).setParams
        numerics.rounding history params.toList)
  | .tcpPusher pusher =>
      .tcpPusher ((TcpPusher.setter numerics.round).setParams numerics.rounding pusher
        params.toList)
  | .fusion => .fusion
  | .signalK pusher => .signalK pusher

def setFilter (processor : Instance K) (filter : String) : Instance K :=
  match processor with
  | .statistics stats => .statistics (stats.setFilter filter)
  | other => other

def insertValue (numerics : Numerics K) (processor : Instance K) (value : StampedQuantity K) :
    Instance K :=
  match processor with
  | .statistics stats => .statistics (stats.insertValue .exact value)
  | .accelerationHistory history =>
      .accelerationHistory (history.insertValue numerics.sqrt value)
  | .signalK pusher => .signalK (pusher.insertValue value)
  | .fusion => .fusion
  | .tcpPusher pusher => .tcpPusher pusher

def getModbusReg (numerics : Numerics K) (processor : Instance K) (index : ℕ)
    (scaler : Modbus.Scaler) : UInt16 :=
  match processor with
  | .statistics stats => stats.getModbusReg numerics.sqrt numerics.toBits index scaler
  | .accelerationHistory history => history.getModbusReg numerics.toBits index scaler
  | .fusion | .signalK _ | .tcpPusher _ => 0

end Instance

def registry (numerics : Numerics K) (hasDevice : String → Bool) :
    Wiring.Registry K (Instance K) where
  hasDevice := hasDevice
  createProcessor := createProcessor
  setParams := Instance.setParams numerics
  setFilter := Instance.setFilter
  insertValue := Instance.insertValue numerics

/-- The handler has the processors of the service as they are at the request. -/
def modbusHandler (numerics : Numerics K) (devices : List Modbus.Device) (scaler : Modbus.Scaler)
    (processors : List (Wiring.Processor (Instance K))) : Modbus.Handler where
  devices := devices
  processors := processors.map fun processor => ⟨processor.state.getModbusReg numerics⟩
  scaler := scaler

/-! ## Statistics processors -/

def periodCall : ParamCall K → Option K
  | .number name value => if name = "period".toList then some value else none
  | .text _ _ => none

/-- The last number that is given for the period. -/
def periodOf (rounding : FloatText.Rounding K) (params : String) : K :=
  ((paramCalls rounding params.toList).filterMap periodCall).getLastD 1

omit [ExactDouble K] in
theorem foldl_call_fresh (calls : List (ParamCall K)) (period : K) :
    calls.foldl statisticsSetter.call (Statistics.fresh period) =
      Statistics.fresh ((calls.filterMap periodCall).getLastD period) := by
  induction calls generalizing period with
  | nil => rfl
  | cons call calls ih =>
      cases call with
      | text name value => exact ih period
      | number name value =>
          by_cases hname : name = "period".toList
          · have hcall : statisticsSetter.call (Statistics.fresh period) (.number name value) =
                Statistics.fresh value :=
              if_pos hname
            have hperiod : periodCall (.number name value) = some value := if_pos hname
            rw [List.foldl_cons, hcall, ih, List.filterMap_cons_some hperiod, List.getLastD_cons]
          · have hcall : statisticsSetter.call (Statistics.fresh period) (.number name value) =
                Statistics.fresh period :=
              if_neg hname
            have hperiod : periodCall (.number name value) = none := if_neg hname
            rw [List.foldl_cons, hcall, ih, List.filterMap_cons_none hperiod]

theorem newProcessor_statistics {numerics : Numerics K} {hasDevice : String → Bool}
    {fields : Wiring.Section} (htype : fields "type" = some "statistics")
    {processor : Wiring.Processor (Instance K)}
    (hprocessor : Wiring.newProcessor (registry numerics hasDevice) fields = some processor) :
    processor.state = .statistics
      ((Statistics.fresh
        (periodOf numerics.rounding (Wiring.getText fields "parameters" ""))).setFilter
          (Wiring.getText fields "filter" "")) := by
  have hcreated : createProcessor (K := K)
      (Wiring.getText fields "type" "missing_processor_type") =
        some (.statistics (.fresh 1)) := by
    rw [Wiring.getText, htype, Option.getD_some]
    rfl
  simp only [Wiring.newProcessor, registry, hcreated, Option.map_some, Option.some.injEq]
    at hprocessor
  rw [← hprocessor]
  simp only [Instance.setParams, Instance.setFilter, ParamSetter.setParams, foldl_call_fresh,
    periodOf]

theorem foldl_insertValue_statistics (numerics : Numerics K) (stats : Statistics K)
    (values : List (StampedQuantity K)) :
    values.foldl (Instance.insertValue numerics) (.statistics stats) =
      .statistics (stats.insertValues .exact values) := by
  induction values generalizing stats with
  | nil => rfl
  | cons value values ih => exact ih (stats.insertValue .exact value)

/-- The statistic of the values a processor of the configuration is given. -/
def shownStatistic (numerics : Numerics K) (fields : Wiring.Section) (quantity : Quantity)
    (values : List (StampedQuantity K)) : Option (Statistic K) :=
  windowStatistic (periodOf numerics.rounding (Wiring.getText fields "parameters" ""))
    (acceptedThrough (Wiring.getText fields "filter" "") quantity values)

section Shown

variable {O : Type} {numerics : Numerics K} {hasDevice : String → Bool}
  {translator : Wiring.Translator O} {cfg : Wiring.Config}
  {service final : Wiring.Service O (Instance K)} {events : List (ℕ × StampedQuantity K)}
  {i : ℕ} {unitId : UInt8} {quantity : Quantity}

/-- What the registers of a statistics processor show after a run. -/
theorem registers_of_times
    (hsetup : Wiring.setup translator (registry numerics hasDevice) cfg = some service)
    (hrun : run (Wiring.step (registry numerics hasDevice)) service events = some final)
    (hi : (i : ℤ) < cfg.processorCount.getD 0)
    (htype : cfg.processor i "type" = some "statistics")
    (hperiod : 0 ≤ periodOf numerics.rounding
      (Wiring.getText (cfg.processor i) "parameters" "")) {times : ℕ → ℕ}
    (htimes : ∀ number device, service.devices[number]? = some device →
      (Wiring.deviceNames (cfg.processor i)).count (Wiring.deviceName cfg number) = times number)
    (hquantity : quantity ∈ Quantity.all) (hangular : quantity.angular = false)
    (hunit : Modbus.Handler.unitIndex unitId = i)
    (devices : List Modbus.Device) (scaler : Modbus.Scaler) :
    outputRegisters (modbusHandler numerics devices scaler final.processors) unitId
        (5 * quantity.index) 5 =
      statisticRegisters numerics.sqrt numerics.toBits scaler quantity
        (shownStatistic numerics (cfg.processor i) quantity (Wiring.given times events)) := by
  obtain ⟨processor, hcreated, hprocessor, hcounts⟩ := Wiring.setup_processor hsetup hi
  have hfinal := Wiring.run_processor hrun
    (fun number device hdevice => (hcounts number device hdevice).trans
      (htimes number device hdevice))
  have hshown : (modbusHandler numerics devices scaler final.processors).processors[
      Modbus.Handler.unitIndex unitId]? =
        some ⟨(configured (periodOf numerics.rounding
          (Wiring.getText (cfg.processor i) "parameters" ""))
            (Wiring.getText (cfg.processor i) "filter" "")
              (Wiring.given times events)).getModbusReg numerics.sqrt numerics.toBits⟩ := by
    have hstate : ((Wiring.given times events).foldl (Instance.insertValue numerics)
        processor.state) = .statistics (configured (periodOf numerics.rounding
          (Wiring.getText (cfg.processor i) "parameters" ""))
            (Wiring.getText (cfg.processor i) "filter" "") (Wiring.given times events)) := by
      rw [newProcessor_statistics htype hcreated, foldl_insertValue_statistics, configured]
    rw [modbusHandler, List.getElem?_map, hunit, hfinal, hprocessor, Option.map_some,
      Option.map_some]
    simp only [registry, hstate]
    rfl
  rw [outputRegisters_eq hshown, shownStatistic,
    ← statistics_configured hperiod _ hangular (Wiring.given times events)]
  exact registers_statistic numerics.sqrt numerics.toBits _ scaler hquantity

def exactNumerics : Numerics ℚ where
  sqrt := AccelerationHistory.rootOfSquares
  toBits x := .ofInt x.floor
  rounding := exactRounding
  round := Rat.floor
  truncate x := x.floor.toNat

def wholeScaler : Modbus.Scaler :=
  ⟨fun _ bits => bits.toUInt32, fun _ bits => bits.toUInt16⟩

def knownDevice (type : String) : Bool :=
  type = "ublox"

end Shown

/-- A device with a statistics processor, and another device without one. -/
def rotationConfig : Wiring.Config where
  deviceCount := some 2
  processorCount := some 1
  device := fun number =>
    some fun key =>
      if key = "type" then some "ublox"
      else if key = "name" then some (if number = 0 then "gps" else "imu")
      else none
  processor := fun _ key =>
    if key = "type" then some "statistics"
    else if key = "device" then some "imu"
    else if key = "parameters" then some "period=60"
    else none

/-- The rotation rate of the packet, after a value of the other device. -/
def rotationEvents : List (ℕ × StampedQuantity ℚ) :=
  [(0, ⟨⟨3, 2⟩, .vog⟩), (1, ⟨⟨4421398595017775 / 2533274790395904, 2⟩, .rr⟩)]

end SensorHub.Acquisition
