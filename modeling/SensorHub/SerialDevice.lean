import SensorHub.EventRuns

/-!
# Connecting a device over a serial port

`Serial::open` reads its settings from the connection string, opens the device
and sets four options; any step may throw.  `Port_device::connect` opens the
port and initializes the device, and closes the port when the initialization
fails, but not when `Serial::open` throws after the device was opened.

The port is open exactly while the device is connected, as long as this does
not happen.
-/

namespace SensorHub.SerialDevice

open EventRuns

/-! ## The settings -/

inductive Parity where
  | none
  | odd
  | even
  deriving DecidableEq, Repr

inductive StopBits where
  | one
  | onePointFive
  | two
  deriving DecidableEq, Repr

inductive SerialOption where
  | baudRate (value : ℕ)
  | characterSize (value : ℕ)
  | parity (value : Parity)
  | stopBits (value : StopBits)
  deriving DecidableEq, Repr

structure Settings where
  device : List Char
  baudRate : ℕ
  dataBits : ℕ
  parity : Parity
  stopBits : StopBits
  deriving DecidableEq, Repr

def isSpace (c : Char) : Bool :=
  c == ' ' || (9 ≤ c.toNat && c.toNat ≤ 13)

/-- The longest prefix that is a decimal number; `none` when there is none or
it does not fit a `long`. -/
def stol (text : List Char) : Option ℤ :=
  let signed := text.dropWhile isSpace
  let unsigned :=
    if signed.head? = some '-' ∨ signed.head? = some '+' then signed.tail
    else signed
  let digits := unsigned.takeWhile Char.isDigit
  let magnitude : ℤ :=
    digits.foldl (fun value digit => 10 * value + (digit.toNat - 48)) 0
  let value := if signed.head? = some '-' then -magnitude else magnitude
  if digits = [] ∨ value < -2 ^ 63 ∨ 2 ^ 63 ≤ value then none else some value

def toUnsigned (value : ℤ) : ℕ :=
  (value % 2 ^ 32).toNat

/-- The constructor of the character size option throws outside 5 to 8. -/
def characterSize (value : ℤ) : Option ℕ :=
  if 5 ≤ toUnsigned value ∧ toUnsigned value ≤ 8 then some (toUnsigned value)
  else none

def parityOf (text : List Char) : Option Parity :=
  if text = ['E'] then some .even
  else if text = ['O'] then some .odd
  else if text = ['N'] then some .none
  else none

def stopBitsOf (text : List Char) : Option StopBits :=
  if text = ['1', '.', '5'] then some .onePointFive
  else if text = ['2'] then some .two
  else if text = ['1'] then some .one
  else none

/-- The settings in a connection string `device:baud:bits:parity:stop` whose
last fields may be missing; `none` where the source throws. -/
def settings (deviceStr : String) : Option Settings := do
  let fields := deviceStr.toList.splitOn ':'
  guard (1 ≤ fields.length ∧ fields.length ≤ 5)
  let baudRate ← stol (fields.getD 1 ['9', '6', '0', '0'])
  let dataBits ← stol (fields.getD 2 ['8'])
  let dataBits ← characterSize dataBits
  let parity ← parityOf (fields.getD 3 ['N'])
  let stopBits ← stopBitsOf (fields.getD 4 ['1'])
  return ⟨fields.getD 0 [], toUnsigned baudRate, dataBits, parity, stopBits⟩

example : settings "/dev/ttyUSB0:115200:8:E" =
    some ⟨"/dev/ttyUSB0".toList, 115200, 8, .even, .one⟩ := by
  decide

/-! ## The port -/

/-- The port with the options set since it was opened. -/
structure SerialPort where
  isOpen : Bool
  options : List SerialOption
  deriving DecidableEq, Repr

def SerialPort.closed : SerialPort := ⟨false, []⟩

/-- Which steps of opening the port succeed. -/
structure OpenOutcome where
  deviceOpened : Bool
  baudRateSet : Bool
  dataBitsSet : Bool
  paritySet : Bool
  stopBitsSet : Bool
  deriving DecidableEq, Repr

def OpenOutcome.optionsSet (outcome : OpenOutcome) : Prop :=
  outcome.baudRateSet = true ∧ outcome.dataBitsSet = true ∧
    outcome.paritySet = true ∧ outcome.stopBitsSet = true

namespace SerialPort

/-- The open function of the base class, which throws for an open port.  The
result says whether the call returned. -/
def openDevice (port : SerialPort) (opened : Bool) : SerialPort × Bool :=
  if port.isOpen then (port, false)
  else if opened then (⟨true, []⟩, true)
  else (port, false)

/-- Set options one after the other, until one of the calls throws. -/
def setOptions (port : SerialPort) :
    List (SerialOption × Bool) → SerialPort × Bool
  | [] => (port, true)
  | (option, set) :: more =>
      if set then
        ({ port with options := port.options ++ [option] }).setOptions more
      else
        (port, false)

/-- `Serial::open`.  An exception leaves the port as it is at that point. -/
def openSerial (port : SerialPort) (deviceStr : String)
    (outcome : OpenOutcome) : SerialPort × Bool :=
  match settings deviceStr with
  | none => (port, false)
  | some settings =>
      match port.openDevice outcome.deviceOpened with
      | (port', false) => (port', false)
      | (port', true) =>
          port'.setOptions
            [(.baudRate settings.baudRate, outcome.baudRateSet),
              (.characterSize settings.dataBits, outcome.dataBitsSet),
              (.parity settings.parity, outcome.paritySet),
              (.stopBits settings.stopBits, outcome.stopBitsSet)]

end SerialPort

/-! ## The device -/

inductive InitializeOutcome where
  | succeeded
  | failed
  | threw
  deriving DecidableEq, Repr

structure PortDevice where
  port : SerialPort
  connected : Bool
  deriving DecidableEq, Repr

inductive Call where
  | connect (deviceStr : String) (opening : OpenOutcome)
      (initialization : InitializeOutcome)
  | disconnect
  deriving DecidableEq, Repr

namespace PortDevice

def fresh : PortDevice := ⟨.closed, false⟩

/-- `Device::connect`; the result says whether the call returned. -/
def connectDevice (device : PortDevice) (initialization : InitializeOutcome) :
    PortDevice × Bool :=
  match initialization with
  | .succeeded => ({ device with connected := true }, true)
  | .failed => (device, false)
  | .threw => (device, false)

def connect (device : PortDevice) (deviceStr : String) (opening : OpenOutcome)
    (initialization : InitializeOutcome) : PortDevice :=
  if device.connected then
    device
  else
    match device.port.openSerial deviceStr opening with
    | (port, false) => { device with port := port }
    | (port, true) =>
        match ({ device with port := port }).connectDevice initialization with
        | (device', true) => device'
        | (device', false) => { device' with port := .closed }

/-- Closing the port always succeeds. -/
def disconnect (device : PortDevice) : PortDevice :=
  if device.connected then ⟨.closed, false⟩ else device

def call (device : PortDevice) : Call → PortDevice
  | .connect deviceStr opening initialization =>
      device.connect deviceStr opening initialization
  | .disconnect => device.disconnect

def step (device : PortDevice) (call : Call) : Option PortDevice :=
  some (device.call call)

/-- The device is connected iff its port is open. -/
def Consistent (device : PortDevice) : Prop :=
  device.connected = device.port.isOpen

instance (device : PortDevice) : Decidable device.Consistent :=
  inferInstanceAs (Decidable (_ = _))

end PortDevice

/-- Connecting does not fail between opening the device and the end of
`Serial::open`: with an unconnected device, a closed port and valid settings,
either the device cannot be opened or all four options can be set. -/
def Call.OpensCleanly (device : PortDevice) : Call → Prop
  | .connect deviceStr opening _ =>
      device.connected = false → device.port.isOpen = false →
        settings deviceStr ≠ none → opening.deviceOpened = true →
          opening.optionsSet
  | .disconnect => True

namespace SerialPort

theorem setOptions_isOpen (port : SerialPort)
    (options : List (SerialOption × Bool)) :
    (port.setOptions options).1.isOpen = port.isOpen := by
  induction options generalizing port with
  | nil => rfl
  | cons option options ih =>
      obtain ⟨option, set⟩ := option
      cases set with
      | false => rfl
      | true => exact ih _

theorem setOptions_returned (port : SerialPort)
    (options : List (SerialOption × Bool)) :
    (port.setOptions options).2 = options.all Prod.snd := by
  induction options generalizing port with
  | nil => rfl
  | cons option options ih =>
      obtain ⟨option, set⟩ := option
      cases set with
      | false => rfl
      | true => simpa [setOptions] using ih _

theorem openSerial_cases {port : SerialPort} (hclosed : port.isOpen = false)
    (deviceStr : String) (opening : OpenOutcome) :
    let result := port.openSerial deviceStr opening
    (settings deviceStr ≠ none ∧ opening.deviceOpened = true ∧
        result.1.isOpen = true ∧ (result.2 = true ↔ opening.optionsSet)) ∨
      (¬(settings deviceStr ≠ none ∧ opening.deviceOpened = true) ∧
        result = (port, false)) := by
  intro result
  cases hsettings : settings deviceStr with
  | none => exact .inr ⟨by simp, by simp [result, openSerial, hsettings]⟩
  | some values =>
      cases hopened : opening.deviceOpened with
      | false =>
          refine .inr ⟨by simp, ?_⟩
          simp [result, openSerial, hsettings, openDevice, hclosed, hopened]
      | true =>
          refine .inl ⟨by simp, rfl, ?_, ?_⟩
          · simp [result, openSerial, hsettings, openDevice, hclosed, hopened,
              setOptions_isOpen]
          · simp [result, openSerial, hsettings, openDevice, hclosed, hopened,
              setOptions_returned, OpenOutcome.optionsSet]

end SerialPort

namespace PortDevice

/-- After a call on a consistent device, it is consistent again exactly when the
call did not fail between opening the device and the end of `Serial::open`. -/
theorem call_consistent_iff {device : PortDevice}
    (hconsistent : device.Consistent) (call : Call) :
    (device.call call).Consistent ↔ call.OpensCleanly device := by
  unfold Consistent at hconsistent
  cases call with
  | disconnect =>
      refine iff_of_true ?_ trivial
      cases hconnected : device.connected <;>
        simp [PortDevice.call, disconnect, hconnected, Consistent,
          ← hconsistent, SerialPort.closed]
  | connect deviceStr opening initialization =>
      cases hconnected : device.connected with
      | true =>
          simp [PortDevice.call, connect, hconnected, Consistent,
            ← hconsistent, Call.OpensCleanly]
      | false =>
          have hclosed : device.port.isOpen = false := by
            rw [← hconsistent, hconnected]
          simp only [Call.OpensCleanly, hconnected, hclosed, forall_const]
          rcases SerialPort.openSerial_cases hclosed deviceStr opening with
            ⟨hsettings, hopened, hopen, hreturned⟩ | ⟨hnot, hresult⟩
          · -- the device was opened, so everything depends on the options
            simp only [hsettings, hopened, ne_eq, not_false_eq_true,
              forall_const, ← hreturned]
            cases hopening : device.port.openSerial deviceStr opening with
            | mk port returned =>
                rw [hopening] at hopen hreturned
                simp only at hopen
                cases returned with
                | false =>
                    refine iff_of_false ?_ (by simp)
                    simp [PortDevice.call, connect, hconnected, hopening,
                      Consistent, hopen]
                | true =>
                    refine iff_of_true ?_ rfl
                    cases initialization <;>
                      simp [PortDevice.call, connect, hconnected, hopening,
                        connectDevice, Consistent, hopen, SerialPort.closed]
          · refine iff_of_true ?_ fun hsettings hopened =>
              absurd ⟨hsettings, hopened⟩ hnot
            simp [PortDevice.call, connect, hconnected, hresult, Consistent,
              hclosed]

/-- An unconnected device with an open port cannot be opened, and there is
nothing to disconnect. -/
theorem call_of_open {device : PortDevice} (hconnected : device.connected = false)
    (hopen : device.port.isOpen = true) (call : Call) :
    device.call call = device := by
  cases call with
  | disconnect => simp [PortDevice.call, disconnect, hconnected]
  | connect deviceStr opening initialization =>
      have hopening :
          device.port.openSerial deviceStr opening = (device.port, false) := by
        cases hsettings : settings deviceStr <;>
          simp [SerialPort.openSerial, hsettings, SerialPort.openDevice, hopen]
      simp only [PortDevice.call, connect, hconnected, hopening,
        Bool.false_eq_true, if_false]
      rw [← hconnected]

/-- It stays like that for good. -/
theorem run_of_open {device : PortDevice} (hconnected : device.connected = false)
    (hopen : device.port.isOpen = true) (calls : List Call) :
    run step device calls = some device := by
  induction calls with
  | nil => rfl
  | cons call calls ih =>
      rw [run_cons, step, call_of_open hconnected hopen]
      exact ih

end PortDevice

/-- After every call of a sequence the device is connected iff the port is open,
exactly when no call fails between opening the device and the end of
`Serial::open`. -/
theorem connected_eq_open_iff (calls : List Call) :
    Throughout PortDevice.step .fresh calls PortDevice.Consistent ↔
      AllSteps PortDevice.step .fresh calls
        fun device call => call.OpensCleanly device := by
  have htotal : ∀ device call, ∃ next, PortDevice.step device call = some next :=
    fun device call => ⟨device.call call, rfl⟩
  obtain ⟨final, hrun⟩ := exists_run htotal .fresh calls
  have hnext : ∀ {device next : PortDevice} {call : Call},
      device.step call = some next → device.call call = next :=
    fun hstep => Option.some.inj hstep
  refine throughout_iff_allSteps PortDevice.Consistent hrun rfl
    ?_ (fun _ hconsistent => hconsistent) ?_
  · intro device call next hconsistent hcleanly hstep
    rw [← hnext hstep]
    exact (PortDevice.call_consistent_iff hconsistent call).mpr hcleanly
  · intro device call next hconsistent hnot hstep hafter
    rw [← hnext hstep] at hafter
    exact hnot ((PortDevice.call_consistent_iff hconsistent call).mp hafter)

/-- A baud rate which the device refuses leaves the port open. -/
theorem port_open_after_refused_option :
    ¬∀ calls : List Call,
        Throughout PortDevice.step .fresh calls PortDevice.Consistent := by
  intro hall
  let refused : OpenOutcome := ⟨true, false, true, true, true⟩
  let calls := [Call.connect "/dev/ttyUSB0:12345" refused .succeeded]
  have hafter := hall calls calls (List.prefix_refl calls) ⟨⟨true, []⟩, false⟩
    (by decide)
  exact absurd hafter (by decide)

end SensorHub.SerialDevice
