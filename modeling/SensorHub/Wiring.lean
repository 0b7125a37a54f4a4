import SensorHub.EventRuns
import SensorHub.ProcessorOutput

/-!
# Wiring processors to devices

The sections of the configuration name the devices of a processor.  A processor is
one object which all its devices share; a device passes its values to the
processors in the order in which they were added, also twice if one was added
twice.

The property tree and the registries are outside: the tree with its conversions of
text, the registries as functions from the name of a type to a new instance.
-/

namespace SensorHub.Wiring

open EventRuns

variable {K O P : Type*}

/-! ## Configuration -/

/-- A child of the property tree. -/
abbrev Section := String → Option String

structure Config where
  deviceCount : Option ℤ
  processorCount : Option ℤ
  /-- A section that is missing throws. -/
  device : ℕ → Option Section
  /-- A section that is missing has no fields. -/
  processor : ℕ → Section

/-- The conversions of the property tree, `none` where they fail. -/
structure Translator (O : Type*) where
  toInt : String → Option ℤ
  toBool : String → Option Bool
  readJson : String → Option O

/-- The registered types, and the virtual functions of processors. -/
structure Registry (K P : Type*) where
  hasDevice : String → Bool
  createProcessor : String → Option P
  setParams : P → String → P
  setFilter : P → String → P
  insertValue : P → StampedQuantity K → P

structure DeviceSettings (O : Type*) where
  type : String
  name : String
  enabled : Bool
  connectionString : String
  options : O
  enableLogging : Bool
  maxLogFiles : ℤ
  maxLogSize : ℤ
  useAsTimeSource : Bool

/-- A device with the processors added to it, as positions in the list of
processors. -/
structure Device (O : Type*) where
  settings : DeviceSettings O
  processors : List ℕ

structure Processor (P : Type*) where
  name : String
  state : P

structure Service (O P : Type*) where
  devices : List (Device O)
  processors : List (Processor P)

/-- `get` with a default for text. -/
def getText (fields : Section) (key default : String) : String :=
  (fields key).getD default

def getInt (translator : Translator O) (fields : Section) (key : String) (default : ℤ) : ℤ :=
  ((fields key).bind translator.toInt).getD default

def getBool (translator : Translator O) (fields : Section) (key : String) (default : Bool) : Bool :=
  ((fields key).bind translator.toBool).getD default

def setupDevice (translator : Translator O) (registry : Registry K P) (fields : Section) :
    Option (Device O) :=
  let type := getText fields "type" "missing_device_type"
  if registry.hasDevice type then
    (translator.readJson (getText fields "options" "{}")).map fun options =>
      { settings :=
          { type := type
            name := getText fields "name" "missing_device_name"
            enabled := getBool translator fields "enabled" false
            connectionString := getText fields "connection_string" "missing_connection_string"
            options := options
            enableLogging := getBool translator fields "enable_logging" false
            maxLogFiles := getInt translator fields "max_log_files" 32
            maxLogSize := getInt translator fields "max_log_size" (64 * 1024 * 1024)
            useAsTimeSource := getBool translator fields "use_as_time_source" false }
        processors := [] }
  else none

def setupDevices (translator : Translator O) (registry : Registry K P) (cfg : Config) :
    Option (List (Device O)) :=
  (List.range (cfg.deviceCount.getD 0).toNat).mapM fun i =>
    (cfg.device i).bind (setupDevice translator registry)

namespace Device

def addProcessor (device : Device O) (processor : ℕ) : Device O :=
  { device with processors := device.processors ++ [processor] }

end Device

/-- The loop over the names in a section and over the devices. -/
def attach (deviceNames : List String) (processor : ℕ) (devices : List (Device O)) :
    List (Device O) :=
  deviceNames.foldl (fun devices deviceName =>
    devices.map fun device =>
      if device.settings.name = deviceName then device.addProcessor processor else device) devices

def newProcessor (registry : Registry K P) (fields : Section) : Option (Processor P) :=
  (registry.createProcessor (getText fields "type" "missing_processor_type")).map fun processor =>
    { name := getText fields "name" "missing_processor_name"
      state := registry.setFilter
        (registry.setParams processor (getText fields "parameters" "")) (getText fields "filter" "") }

def deviceNames (fields : Section) : List String :=
  filterFields (getText fields "device" "missing_processor_device")

def setupProcessor (registry : Registry K P) (service : Service O P) (fields : Section) :
    Option (Service O P) :=
  (newProcessor registry fields).map fun processor =>
    { devices := attach (deviceNames fields) service.processors.length service.devices
      processors := service.processors ++ [processor] }

def setupProcessors (registry : Registry K P) (cfg : Config) (service : Service O P) :
    Option (Service O P) :=
  (List.range (cfg.processorCount.getD 0).toNat).foldlM (fun service i =>
    setupProcessor registry service (cfg.processor i)) service

def setup (translator : Translator O) (registry : Registry K P) (cfg : Config) :
    Option (Service O P) :=
  (setupDevices translator registry cfg).bind fun devices =>
    setupProcessors registry cfg ⟨devices, []⟩

/-! ## Values -/

/-- The part of `Device::insert_value` that passes the value on. -/
def pass (registry : Registry K P) (value : StampedQuantity K) (processors : List (Processor P))
    (pointer : ℕ) : List (Processor P) :=
  processors.modify pointer fun processor =>
    { processor with state := registry.insertValue processor.state value }

/-- A device, by its number, gets a value. -/
def step (registry : Registry K P) (service : Service O P)
    (event : ℕ × StampedQuantity K) : Option (Service O P) :=
  (service.devices[event.1]?).map fun device =>
    { service with
      processors := device.processors.foldl (pass registry event.2) service.processors }

/-! ## What the configuration connects -/

theorem attach_eq (names : List String) (processor : ℕ) (devices : List (Device O)) :
    attach names processor devices =
      devices.map fun device =>
        { device with
          processors := device.processors ++
            List.replicate (names.count device.settings.name) processor } := by
  induction names generalizing devices with
  | nil => simp [attach]
  | cons name names ih =>
      have hrest := ih (devices.map fun device =>
        if device.settings.name = name then device.addProcessor processor else device)
      rw [attach] at hrest ⊢
      rw [List.foldl_cons, hrest, List.map_map]
      refine List.map_congr_left fun device _ => ?_
      by_cases hname : device.settings.name = name
      · simp [hname, Device.addProcessor, List.replicate_succ]
      · have hcount : (name :: names).count device.settings.name =
            names.count device.settings.name := List.count_cons_of_ne (Ne.symm hname)
        simp [hname, hcount]

/-- How often a section names a device. -/
def mentions (fields : Option Section) (deviceName : String) : ℕ :=
  (fields.map fun fields => (deviceNames fields).count deviceName).getD 0

/-- The processors of the sections so far, each added to the devices it names. -/
structure Wired (registry : Registry K P) (devices : List (Device O)) (sections : List Section)
    (service : Service O P) : Prop where
  settings : service.devices.map Device.settings = devices.map Device.settings
  created : List.Forall₂ (fun fields processor => newProcessor registry fields = some processor)
    sections service.processors
  mentioned : ∀ device ∈ service.devices, ∀ i,
    device.processors.count i = mentions sections[i]? device.settings.name

theorem Wired.setupProcessor {registry : Registry K P} {devices : List (Device O)}
    {sections : List Section} {service next : Service O P} {fields : Section}
    (hwired : Wired registry devices sections service)
    (hnext : setupProcessor registry service fields = some next) :
    Wired registry devices (sections ++ [fields]) next := by
  simp only [Wiring.setupProcessor, Option.map_eq_some_iff] at hnext
  obtain ⟨processor, hprocessor, rfl⟩ := hnext
  have hlength := hwired.created.length_eq
  refine ⟨?_, ?_, ?_⟩
  · rw [attach_eq, ← hwired.settings, List.map_map]
    rfl
  · exact List.rel_append hwired.created (List.Forall₂.cons hprocessor List.Forall₂.nil)
  · intro device hdevice i
    rw [attach_eq] at hdevice
    obtain ⟨before, hbefore, rfl⟩ := List.mem_map.mp hdevice
    rw [List.count_append, hwired.mentioned before hbefore, List.count_replicate, ← hlength]
    rcases Nat.lt_trichotomy i sections.length with hlt | rfl | hgt
    · rw [List.getElem?_append_left hlt, if_neg (by simpa using hlt.ne'), Nat.add_zero]
    · simp [mentions]
    · rw [List.getElem?_eq_none (by omega), List.getElem?_eq_none (by simp; omega),
        if_neg (by simpa using hgt.ne)]
      rfl

theorem Wired.foldlM {registry : Registry K P} {devices : List (Device O)}
    {before : List Section} {service final : Service O P} (more : List Section)
    (hwired : Wired registry devices before service)
    (hfinal : more.foldlM (Wiring.setupProcessor registry) service = some final) :
    Wired registry devices (before ++ more) final := by
  induction more generalizing before service with
  | nil =>
      obtain rfl : service = final := by simpa using hfinal
      simpa using hwired
  | cons fields more ih =>
      rw [List.foldlM_cons] at hfinal
      obtain ⟨next, hnext, hfinal⟩ := Option.bind_eq_some_iff.mp hfinal
      have hlater := ih (hwired.setupProcessor hnext) hfinal
      rwa [List.append_assoc] at hlater

/-! ## What a processor is given -/

theorem getElem?_pass (registry : Registry K P) (value : StampedQuantity K)
    (pointers : List ℕ) (processors : List (Processor P)) (i : ℕ) :
    (pointers.foldl (pass registry value) processors)[i]? =
      processors[i]?.map fun processor =>
        { processor with
          state := (List.replicate (pointers.count i) value).foldl registry.insertValue
            processor.state } := by
  induction pointers generalizing processors with
  | nil => simp
  | cons pointer pointers ih =>
      rw [List.foldl_cons, ih, pass, List.getElem?_modify]
      by_cases hpointer : pointer = i
      · subst hpointer
        cases processors[pointer]? <;> simp [List.replicate_succ]
      · have hcount : (pointer :: pointers).count i = pointers.count i :=
          List.count_cons_of_ne hpointer
        cases processors[i]? <;> simp [hpointer, hcount]

/-- The values a processor is given in a run: those of the devices it is added to,
as often as it is. -/
def given (times : ℕ → ℕ) (events : List (ℕ × StampedQuantity K)) : List (StampedQuantity K) :=
  events.flatMap fun event => List.replicate (times event.1) event.2

theorem given_indicator (number : ℕ) (events : List (ℕ × StampedQuantity K)) :
    given (fun other => if other = number then 1 else 0) events =
      (events.filter fun event => event.1 = number).map Prod.snd := by
  induction events with
  | nil => rfl
  | cons event events ih =>
      rw [given] at ih ⊢
      by_cases hnumber : event.1 = number <;> simp [hnumber, ih]

theorem run_processor {registry : Registry K P} {service final : Service O P}
    {events : List (ℕ × StampedQuantity K)}
    (hrun : run (step registry) service events = some final) {i : ℕ} {times : ℕ → ℕ}
    (htimes : ∀ number device, service.devices[number]? = some device →
      device.processors.count i = times number) :
    final.processors[i]? = service.processors[i]?.map fun processor =>
      { processor with state := (given times events).foldl registry.insertValue processor.state } := by
  induction events generalizing service with
  | nil =>
      obtain rfl : service = final := by simpa using hrun
      simp [given]
  | cons event events ih =>
      rw [run_cons, Option.bind_eq_some_iff] at hrun
      obtain ⟨next, hnext, hrun⟩ := hrun
      simp only [step, Option.map_eq_some_iff] at hnext
      obtain ⟨device, hdevice, rfl⟩ := hnext
      rw [ih hrun htimes, getElem?_pass, Option.map_map, htimes _ device hdevice]
      cases service.processors[i]? <;> simp [given]

/-- The name of a device in the configuration. -/
def deviceName (cfg : Config) (number : ℕ) : String :=
  ((cfg.device number).map fun fields => getText fields "name" "missing_device_name").getD ""

theorem forall₂_of_mapM {α β : Type*} {f : α → Option β} {list : List α} {results : List β}
    (hresults : list.mapM f = some results) :
    List.Forall₂ (fun element result => f element = some result) list results := by
  induction list generalizing results with
  | nil =>
      obtain rfl : [] = results := by simpa using hresults
      exact List.Forall₂.nil
  | cons element list ih =>
      rw [List.mapM_cons] at hresults
      obtain ⟨result, hresult, hresults⟩ := Option.bind_eq_some_iff.mp hresults
      obtain ⟨more, hmore, hresults⟩ := Option.bind_eq_some_iff.mp hresults
      obtain rfl : result :: more = results := by simpa using hresults
      exact List.Forall₂.cons hresult (ih hmore)

theorem setupDevices_name {translator : Translator O} {registry : Registry K P} {cfg : Config}
    {devices : List (Device O)} (hdevices : setupDevices translator registry cfg = some devices)
    {number : ℕ} {device : Device O} (hdevice : devices[number]? = some device) :
    device.settings.name = deviceName cfg number ∧ device.processors = [] := by
  have hall := forall₂_of_mapM hdevices
  obtain ⟨hnumber, hget⟩ := List.getElem?_eq_some_iff.mp hdevice
  have hmade := hall.get (hall.length_eq.symm ▸ hnumber) hnumber
  simp only [List.get_eq_getElem, List.getElem_range, hget] at hmade
  obtain ⟨fields, hfields, hmade⟩ := Option.bind_eq_some_iff.mp hmade
  simp only [setupDevice] at hmade
  split at hmade
  · obtain ⟨options, -, rfl⟩ := Option.map_eq_some_iff.mp hmade
    refine ⟨?_, rfl⟩
    rw [deviceName, hfields]
    rfl
  · cases hmade

theorem wired_of_setup {translator : Translator O} {registry : Registry K P} {cfg : Config}
    {service : Service O P} (hsetup : setup translator registry cfg = some service) :
    ∃ devices, setupDevices translator registry cfg = some devices ∧
      Wired registry devices
        ((List.range (cfg.processorCount.getD 0).toNat).map cfg.processor) service := by
  obtain ⟨devices, hdevices, hprocessors⟩ := Option.bind_eq_some_iff.mp hsetup
  have hstart : Wired registry devices [] ⟨devices, []⟩ := by
    refine ⟨rfl, List.Forall₂.nil, ?_⟩
    intro device hdevice i
    obtain ⟨number, hnumber⟩ := List.mem_iff_getElem?.mp hdevice
    rw [(setupDevices_name hdevices hnumber).2]
    rfl
  have hwired := hstart.foldlM ((List.range (cfg.processorCount.getD 0).toNat).map cfg.processor)
    (by rwa [List.foldlM_map])
  exact ⟨devices, hdevices, hwired⟩

theorem setup_device {translator : Translator O} {registry : Registry K P} {cfg : Config}
    {service : Service O P} (hsetup : setup translator registry cfg = some service) {number : ℕ}
    {device : Device O} (hdevice : service.devices[number]? = some device) :
    (number : ℤ) < cfg.deviceCount.getD 0 ∧ device.settings.name = deviceName cfg number := by
  obtain ⟨devices, hdevices, hwired⟩ := wired_of_setup hsetup
  have hsettings := congrArg (fun list => list[number]?) hwired.settings
  simp only [List.getElem?_map, hdevice, Option.map_some] at hsettings
  obtain ⟨other, hother, hsame⟩ := Option.map_eq_some_iff.mp hsettings.symm
  refine ⟨?_, ?_⟩
  · have hlength := (forall₂_of_mapM hdevices).length_eq
    rw [List.length_range] at hlength
    obtain ⟨hnumber, -⟩ := List.getElem?_eq_some_iff.mp hother
    omega
  · rw [← (setupDevices_name hdevices hother).1, hsame]

/-- The processor of a section is in its place and has been added to the devices
with the names in the section. -/
theorem setup_processor {translator : Translator O} {registry : Registry K P} {cfg : Config}
    {service : Service O P} (hsetup : setup translator registry cfg = some service) {i : ℕ}
    (hi : (i : ℤ) < cfg.processorCount.getD 0) :
    ∃ processor, newProcessor registry (cfg.processor i) = some processor ∧
      service.processors[i]? = some processor ∧
      ∀ number device, service.devices[number]? = some device →
        device.processors.count i =
          (deviceNames (cfg.processor i)).count (deviceName cfg number) := by
  obtain ⟨devices, -, hwired⟩ := wired_of_setup hsetup
  have hsection : ((List.range (cfg.processorCount.getD 0).toNat).map cfg.processor)[i]? =
      some (cfg.processor i) := by
    have hlt : i < (cfg.processorCount.getD 0).toNat := by omega
    simp [hlt]
  obtain ⟨processor, hprocessor, hcreated⟩ : ∃ processor,
      service.processors[i]? = some processor ∧
        newProcessor registry (cfg.processor i) = some processor := by
    obtain ⟨hlt, hget⟩ := List.getElem?_eq_some_iff.mp hsection
    have hlt' := hwired.created.length_eq ▸ hlt
    have hcreated := hwired.created.get hlt hlt'
    simp only [List.get_eq_getElem] at hcreated
    rw [hget] at hcreated
    exact ⟨_, List.getElem?_eq_getElem hlt', hcreated⟩
  refine ⟨processor, hcreated, hprocessor, ?_⟩
  intro number device hdevice
  rw [hwired.mentioned device (List.mem_of_getElem? hdevice), hsection,
    (setup_device hsetup hdevice).2]
  rfl

/-- Two devices and a statistics processor for both, which names the first twice. -/
def twoDevices : Config where
  deviceCount := some 2
  processorCount := some 1
  device := fun number =>
    some fun key =>
      if key = "type" then some "ublox"
      else if key = "name" then some (if number = 0 then "gps" else "imu")
      else none
  processor := fun _ key =>
    if key = "type" then some "statistics"
    else if key = "device" then some "gps,imu,gps"
    else none

def statisticsRegistry : Registry ℚ (Statistics ℚ) where
  hasDevice := fun type => type = "ublox"
  createProcessor := fun type => if type = "statistics" then some (.fresh 1) else none
  setParams := fun stats _ => stats
  setFilter := Statistics.setFilter
  insertValue := Statistics.insertValue .exact

def noOptions : Translator Unit := ⟨fun _ => none, fun _ => none, fun _ => some ()⟩

end SensorHub.Wiring
