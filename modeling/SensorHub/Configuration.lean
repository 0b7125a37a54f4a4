import SensorHub.EventRuns
import SensorHub.Wiring

/-!
# The configuration

The configuration is a property tree that is read from a file once.  Every key
the service knows is then set to what the file says or to its default, also when
the text in the file cannot be converted.  Other keys stay as they are.

The tree and the reader of files are outside.  Of the tree only the laws of its
operations are used, for paths of a section and a key.
-/

namespace SensorHub.Configuration

open EventRuns

/-! ## Property trees -/

abbrev KeyPath := String × String

/-- `get_child` of a section is there if the section is. -/
structure PropertyTree (T : Type*) where
  empty : T
  get : T → KeyPath → Option String
  hasChild : T → String → Bool
  put : T → KeyPath → String → T
  get_empty : ∀ path, get empty path = none
  get_put : ∀ tree path value path',
    get (put tree path value) path' = if path' = path then some value else get tree path'
  hasChild_put : ∀ tree path value child,
    hasChild (put tree path value) child = (child == path.1 || hasChild tree child)

def IsInt (value : ℤ) : Prop :=
  -2 ^ 31 ≤ value ∧ value < 2 ^ 31

instance (value : ℤ) : Decidable (IsInt value) :=
  inferInstanceAs (Decidable (_ ∧ _))

/-- The translators read what they write. -/
structure Conversions (O : Type*) extends Wiring.Translator O where
  ofInt : ℤ → String
  ofBool : Bool → String
  toInt_isInt : ∀ raw value, toInt raw = some value → IsInt value
  toInt_ofInt : ∀ value, IsInt value → toInt (ofInt value) = some value
  toBool_ofBool : ∀ value, toBool (ofBool value) = some value

inductive Value where
  | bool (value : Bool)
  | int (value : ℤ)
  | text (value : String)
  deriving DecidableEq, Repr

def Value.Fits : Value → Prop
  | .int value => IsInt value
  | _ => True

instance : (value : Value) → Decidable value.Fits
  | .int value => inferInstanceAs (Decidable (IsInt value))
  | .bool _ | .text _ => inferInstanceAs (Decidable True)

section Trees

variable {T O : Type*} (properties : PropertyTree T) (conversions : Conversions O)

/-- What `get` with a default returns, as `put` writes it. -/
def Value.resolve (default : Value) (raw : Option String) : String :=
  match default with
  | .bool default => conversions.ofBool ((raw.bind conversions.toBool).getD default)
  | .int default => conversions.ofInt ((raw.bind conversions.toInt).getD default)
  | .text default => raw.getD default

def setDefault (tree : T) (key : KeyPath) (default : Value) : T :=
  properties.put tree key (default.resolve conversions (properties.get tree key))

def defaults : List (KeyPath × Value) :=
  [(("logging", "level"), .text "info"),
   (("logging", "device_log_dir"), .text ""),
   (("http", "enabled"), .bool true),
   (("http", "address"), .text "localhost"),
   (("http", "port"), .int 16080),
   (("http", "css"), .text "html { font-family: sans-serif; background-color: #85b0d0; }"),
   (("modbus", "enabled"), .bool true),
   (("modbus", "port"), .int 16502),
   (("devices", "count"), .int 2),
   (("device0", "type"), .text "xsens_mti_g_710_usb"),
   (("device0", "name"), .text "MTi-G-710"),
   (("device0", "enabled"), .bool false),
   (("device0", "connection_string"), .text "auto"),
   (("device0", "enable_logging"), .bool false),
   (("device0", "use_as_time_source"), .bool false),
   (("device0", "options"), .text "{}"),
   (("device1", "type"), .text "ublox_neo_m8u_serial"),
   (("device1", "name"), .text "NEO-M8U"),
   (("device1", "enabled"), .bool false),
   (("device1", "connection_string"), .text "auto"),
   (("device1", "enable_logging"), .bool false),
   (("device1", "use_as_time_source"), .bool false),
   (("device1", "options"), .text r#"{ "dyn_model": "sea", "gnss_type": "glonass" }"#),
   (("processors", "count"), .int 6),
   (("processor0", "type"), .text "acceleration_history"),
   (("processor0", "name"), .text "Xsens-Acceleration-Peaks"),
   (("processor0", "parameters"),
    .text "value_threshold=0.4,duration_threshold=0.5,item_count=5,direction=3"),
   (("processor0", "device"), .text "MTi-G-710"),
   (("processor1", "type"), .text "statistics"),
   (("processor1", "name"), .text "Xsens-1-Sec-Statistics"),
   (("processor1", "parameters"), .text "period=1.0"),
   (("processor1", "device"), .text "MTi-G-710"),
   (("processor2", "type"), .text "statistics"),
   (("processor2", "name"), .text "Xsens-10-Sec-Statistics"),
   (("processor2", "parameters"), .text "period=10"),
   (("processor2", "device"), .text "MTi-G-710"),
   (("processor2", "filter"), .text "hmsl,ro,pi,ya,vy,vz"),
   (("processor3", "type"), .text "statistics"),
   (("processor3", "name"), .text "Xsens-1-Min-Statistics"),
   (("processor3", "parameters"), .text "period=60"),
   (("processor3", "device"), .text "MTi-G-710"),
   (("processor3", "filter"), .text "hmsl,ro,pi,ya,vy,vz"),
   (("processor4", "type"), .text "statistics"),
   (("processor4", "name"), .text "Xsens-10-Min-Statistics"),
   (("processor4", "parameters"), .text "period=600"),
   (("processor4", "device"), .text "MTi-G-710"),
   (("processor4", "filter"), .text "hmsl,ro,pi,ya,vy,vz"),
   (("processor5", "type"), .text "fusion"),
   (("processor5", "name"), .text "Ublox-Fusion"),
   (("processor5", "parameters"), .text "period=0.2"),
   (("processor5", "device"), .text "NEO-M8U")]

def setDefaults (tree : T) : T :=
  defaults.foldl (fun tree entry => setDefault properties conversions tree entry.1 entry.2) tree

end Trees

/-! ## The process -/

/-- What is at a path: nothing, what the reader throws at, or a tree. -/
inductive File (T : Type*) where
  | missing
  | malformed
  | tree (content : T)

/-- `file_` of `Config_file`, unless that is empty, and the instance of `Config`, its
tree with the path it has been loaded from.  The files that were read and those
that were written are kept for the statements. -/
structure Process (T P : Type*) where
  file : Option P
  config : Option (T × P)
  read : List T
  saved : List (P × T)

/-- The calls from outside, with the files that are there at that time. -/
inductive Event (T P : Type*) where
  | setConfigFile (path : Option P) (reload : Bool) (files : P → File T)
  | getConfig (files : P → File T)
  | updateConfig (files : P → File T) (written : Bool)

section Runs

variable {T O P : Type*} (properties : PropertyTree T) (conversions : Conversions O)
  (defaultFile : P)

namespace Process

def fresh : Process T P :=
  ⟨none, none, [], []⟩

def configFile (process : Process T P) : P :=
  process.file.getD defaultFile

/-- `load` with a path that is not the one loaded; the reader replaces the tree
or throws. -/
def loadFile (files : P → File T) (process : Process T P) (tree : T) (path : P) : Process T P :=
  match files path with
  | .malformed => process
  | .missing =>
      { process with config := some (setDefaults properties conversions tree, path) }
  | .tree content =>
      { process with
        config := some (setDefaults properties conversions content, path)
        read := process.read ++ [content] }

/-- The constructor loads, and an instance whose constructor throws is not
there. -/
def getInstance (files : P → File T) (process : Process T P) : Process T P :=
  match process.config with
  | some _ => process
  | none =>
      process.loadFile properties conversions files properties.empty
        (process.configFile defaultFile)

def load [DecidableEq P] (files : P → File T) (process : Process T P) : Process T P :=
  match process.config with
  | none => process
  | some (tree, loaded) =>
      let path := process.configFile defaultFile
      if path = loaded then process
      else process.loadFile properties conversions files tree path

def save (process : Process T P) : Process T P :=
  match process.config with
  | none => process
  | some (tree, _) =>
      { process with saved := process.saved ++ [(process.configFile defaultFile, tree)] }

def step [DecidableEq P] (process : Process T P) : Event T P → Option (Process T P)
  | .setConfigFile path reload files =>
      let process := { process with file := path }
      if reload then
        some ((process.getInstance properties conversions defaultFile files).load properties
          conversions defaultFile files)
      else some process
  | .getConfig files => some (process.getInstance properties conversions defaultFile files)
  | .updateConfig files written =>
      let process := process.getInstance properties conversions defaultFile files
      some (if written then process.save defaultFile else process)

end Process

/-! ## What the tree says -/

/-- What a key has after the defaults. -/
def effective (tree : T) (path : KeyPath) : Option String :=
  match defaults.lookup path with
  | some default => some (default.resolve conversions (properties.get tree path))
  | none => properties.get tree path

/-- The text is read as a value of the type of the default. -/
def Value.Reads (default : Value) (raw : String) : Prop :=
  match default with
  | .bool _ => ∃ value, conversions.toBool raw = some value
  | .int _ => ∃ value, conversions.toInt raw = some value
  | .text _ => True

theorem isInt_getD {default : ℤ} (hfits : IsInt default) (raw : Option String) :
    IsInt ((raw.bind conversions.toInt).getD default) := by
  cases hvalue : raw.bind conversions.toInt with
  | none => exact hfits
  | some value =>
      obtain ⟨text, -, hvalue⟩ := Option.bind_eq_some_iff.mp hvalue
      exact conversions.toInt_isInt text value hvalue

theorem resolve_reads {default : Value} (hfits : default.Fits) (raw : Option String) :
    default.Reads conversions (default.resolve conversions raw) := by
  cases default with
  | bool default => exact ⟨_, conversions.toBool_ofBool _⟩
  | int default => exact ⟨_, conversions.toInt_ofInt _ (isInt_getD conversions hfits raw)⟩
  | text default => exact trivial

/-- What has been written by `put` is read and written again. -/
theorem resolve_resolve {default : Value} (hfits : default.Fits) (raw : Option String) :
    default.resolve conversions (some (default.resolve conversions raw)) =
      default.resolve conversions raw := by
  cases default with
  | bool default => simp [Value.resolve, conversions.toBool_ofBool]
  | int default =>
      simp [Value.resolve, conversions.toInt_ofInt _ (isInt_getD conversions hfits raw)]
  | text default => rfl

theorem fits_defaults : ∀ entry ∈ defaults, entry.2.Fits := by
  decide +kernel

theorem defaults_nodup : (defaults.map Prod.fst).Nodup := by
  decide +kernel

theorem lookup_defaults : ∀ entry ∈ defaults, defaults.lookup entry.1 = some entry.2 := by
  decide +kernel

theorem fits_of_lookup {path : KeyPath} {default : Value}
    (hlookup : defaults.lookup path = some default) : default.Fits := by
  obtain ⟨before, after, hsplit, -⟩ := List.lookup_eq_some_iff.mp hlookup
  exact fits_defaults (path, default) (by rw [hsplit]; simp)

/-- Setting defaults one by one sets each key once. -/
theorem get_foldl_setDefault {entries : List (KeyPath × Value)}
    (hnodup : (entries.map Prod.fst).Nodup) (tree : T) (path : KeyPath) :
    properties.get (entries.foldl (fun tree entry =>
        setDefault properties conversions tree entry.1 entry.2) tree) path =
      match entries.lookup path with
      | some default => some (default.resolve conversions (properties.get tree path))
      | none => properties.get tree path := by
  induction entries generalizing tree with
  | nil => rfl
  | cons entry entries ih =>
      obtain ⟨key, default⟩ := entry
      obtain ⟨hnot, hnodup'⟩ := List.nodup_cons.mp hnodup
      rw [List.foldl_cons, ih hnodup', setDefault, properties.get_put]
      by_cases hpath : path = key
      · subst hpath
        have hlater : entries.lookup path = none := by
          rw [List.lookup_eq_none_iff]
          intro entry hentry
          have hne : path ≠ entry.1 := by
            rintro rfl
            exact hnot (List.mem_map.mpr ⟨entry, hentry, rfl⟩)
          simpa using hne
        simp [hlater]
      · have hother : (path == key) = false := by
          simpa using hpath
        simp [List.lookup_cons, hother, hpath]

theorem get_setDefaults (tree : T) (path : KeyPath) :
    properties.get (setDefaults properties conversions tree) path =
      effective properties conversions tree path :=
  get_foldl_setDefault properties conversions defaults_nodup tree path

/-- The defaults change nothing in the tree. -/
def Complete (tree : T) : Prop :=
  ∀ path, effective properties conversions tree path = properties.get tree path

/-- A tree to which the defaults have been applied is complete. -/
theorem complete_of_effective {tree base : T}
    (hget : ∀ path, properties.get tree path = effective properties conversions base path) :
    Complete properties conversions tree := by
  intro path
  rw [hget, effective, hget]
  unfold effective
  cases hlookup : defaults.lookup path with
  | none => rfl
  | some default =>
      simp only [resolve_resolve conversions (fits_of_lookup hlookup)]

/-- The tree is what the last file that was read makes of it. -/
structure Loaded (process : Process T P) : Prop where
  config_eq : ∀ tree loaded, process.config = some (tree, loaded) → ∀ path,
    properties.get tree path =
      effective properties conversions (process.read.getLastD properties.empty) path
  empty_of_none : process.config = none → process.read = []
  saved_complete : ∀ saved ∈ process.saved, Complete properties conversions saved.2

variable {properties conversions defaultFile}

theorem loaded_fresh : Loaded properties conversions (Process.fresh : Process T P) :=
  ⟨fun _ _ hconfig => by simp [Process.fresh] at hconfig, fun _ => rfl,
    fun _ hsaved => by simp [Process.fresh] at hsaved⟩

/-- Loading keeps what the last file has said, or takes what the new one says. -/
theorem Loaded.loadFile {process : Process T P} (hloaded : Loaded properties conversions process)
    (files : P → File T) {tree : T} (path : P)
    (htree : ∀ path, effective properties conversions tree path =
      effective properties conversions (process.read.getLastD properties.empty) path) :
    Loaded properties conversions
      (process.loadFile properties conversions files tree path) := by
  unfold Process.loadFile
  split
  · exact hloaded
  · refine ⟨?_, fun hconfig => by simp at hconfig, hloaded.saved_complete⟩
    rintro tree' loaded ⟨⟩ path'
    rw [get_setDefaults, htree]
  · next content hcontent =>
    refine ⟨?_, fun hconfig => by simp at hconfig, hloaded.saved_complete⟩
    rintro tree' loaded ⟨⟩ path'
    rw [get_setDefaults]
    simp

theorem Loaded.getInstance {process : Process T P}
    (hloaded : Loaded properties conversions process) (files : P → File T) :
    Loaded properties conversions
      (process.getInstance properties conversions defaultFile files) := by
  unfold Process.getInstance
  cases hconfig : process.config with
  | some config => exact hloaded
  | none =>
      apply hloaded.loadFile
      intro path
      rw [hloaded.empty_of_none hconfig]
      rfl

theorem Loaded.load [DecidableEq P] {process : Process T P}
    (hloaded : Loaded properties conversions process)
    (files : P → File T) :
    Loaded properties conversions (process.load properties conversions defaultFile files) := by
  unfold Process.load
  cases hconfig : process.config with
  | none => exact hloaded
  | some config =>
      obtain ⟨tree, loaded⟩ := config
      simp only
      split
      · exact hloaded
      · apply hloaded.loadFile
        intro path
        have hget := hloaded.config_eq tree loaded hconfig
        rw [complete_of_effective properties conversions hget path, hget]

theorem Loaded.save {process : Process T P} (hloaded : Loaded properties conversions process) :
    Loaded properties conversions (process.save defaultFile) := by
  unfold Process.save
  cases hconfig : process.config with
  | none => exact hloaded
  | some config =>
      obtain ⟨tree, loaded⟩ := config
      refine ⟨?_, fun hnone => hloaded.empty_of_none (hconfig.trans hnone), ?_⟩
      · rintro tree' loaded' ⟨⟩
        exact hloaded.config_eq tree loaded hconfig
      · intro saved hsaved
        rcases List.mem_append.mp hsaved with hbefore | hnow
        · exact hloaded.saved_complete saved hbefore
        · rw [List.mem_singleton.mp hnow]
          exact complete_of_effective properties conversions
            (hloaded.config_eq tree loaded hconfig)

theorem Loaded.step [DecidableEq P] {process next : Process T P} {event : Event T P}
    (hloaded : Loaded properties conversions process)
    (hstep : process.step properties conversions defaultFile event = some next) :
    Loaded properties conversions next := by
  cases event with
  | setConfigFile path reload files =>
      have hfile : Loaded properties conversions { process with file := path } :=
        ⟨hloaded.config_eq, hloaded.empty_of_none, hloaded.saved_complete⟩
      simp only [Process.step] at hstep
      split at hstep
      · obtain rfl := Option.some.inj hstep
        exact (hfile.getInstance files).load files
      · obtain rfl := Option.some.inj hstep
        exact hfile
  | getConfig files =>
      obtain rfl := Option.some.inj hstep
      exact hloaded.getInstance files
  | updateConfig files written =>
      obtain rfl := Option.some.inj hstep
      split
      · exact (hloaded.getInstance files).save
      · exact hloaded.getInstance files

end Runs

/-- In any run the configuration is what the last file that was read says, with
the defaults where it says nothing or nothing that can be converted.  Every key
of the defaults then reads as a value of its type.  A tree that has been written
to a file is complete: loading it changes nothing. -/
theorem configuration_runs {T O P : Type*} [DecidableEq P] (properties : PropertyTree T)
    (conversions : Conversions O) (defaultFile : P) {events : List (Event T P)}
    {final : Process T P}
    (hrun : run (Process.step properties conversions defaultFile) .fresh events = some final) :
    (∀ tree loaded, final.config = some (tree, loaded) →
      (∀ path, properties.get tree path =
        effective properties conversions (final.read.getLastD properties.empty) path) ∧
      ∀ entry ∈ defaults, ∃ raw, properties.get tree entry.1 = some raw ∧
        entry.2.Reads conversions raw) ∧
    ∀ saved ∈ final.saved, Complete properties conversions saved.2 := by
  have hthroughout : Throughout (Process.step properties conversions defaultFile) .fresh events
      (Loaded properties conversions) := by
    refine throughout_of_steps loaded_fresh ?_
    intro _ event _ process next _ _ hstep hloaded
    exact hloaded.step hstep
  have hloaded := hthroughout events List.prefix_rfl final hrun
  refine ⟨?_, hloaded.saved_complete⟩
  intro tree loaded hconfig
  have hget := hloaded.config_eq tree loaded hconfig
  refine ⟨hget, ?_⟩
  intro entry hentry
  rw [hget, effective, lookup_defaults entry hentry]
  exact ⟨_, rfl, resolve_reads conversions (fits_defaults entry hentry) _⟩

/-! ## What is connected by default -/

section Connections

variable {T O K S : Type*} (properties : PropertyTree T) (conversions : Conversions O)

def sectionName (kind : String) (i : ℕ) : String :=
  kind ++ toString i

/-- What `setup_devices` and `setup_processors` read. -/
def wiring (tree : T) : Wiring.Config where
  deviceCount := (properties.get tree ("devices", "count")).bind conversions.toInt
  processorCount := (properties.get tree ("processors", "count")).bind conversions.toInt
  device i :=
    if properties.hasChild tree (sectionName "device" i) then
      some fun key => properties.get tree (sectionName "device" i, key)
    else none
  processor i key := properties.get tree (sectionName "processor" i, key)

/-- The keys that connect processors to devices. -/
def connectingKeys : List KeyPath :=
  [("devices", "count"), ("processors", "count"), ("device0", "name"), ("device1", "name")] ++
    (List.range 6).map fun i => (sectionName "processor" i, "device")

def defaultDevice (i : ℕ) : ℕ :=
  if i < 5 then 0 else 1

def defaultName (number : ℕ) : String :=
  if number = 0 then "MTi-G-710" else "NEO-M8U"

theorem hasChild_foldl_setDefault (entries : List (KeyPath × Value)) (tree : T) (child : String) :
    properties.hasChild (entries.foldl (fun tree entry =>
        setDefault properties conversions tree entry.1 entry.2) tree) child =
      (entries.any (fun entry => child == entry.1.1) || properties.hasChild tree child) := by
  induction entries generalizing tree with
  | nil => rfl
  | cons entry entries ih =>
      rw [List.foldl_cons, ih, setDefault, properties.hasChild_put, List.any_cons]
      cases child == entry.1.1 <;> simp

theorem defaults_connect :
    (∀ number < 2, defaults.any (fun entry => sectionName "device" number == entry.1.1) = true ∧
      defaults.lookup (sectionName "device" number, "name") = some (.text (defaultName number)) ∧
      (sectionName "device" number, "name") ∈ connectingKeys) ∧
    ∀ i < 6,
      defaults.lookup (sectionName "processor" i, "device") =
        some (.text (defaultName (defaultDevice i))) ∧
      (sectionName "processor" i, "device") ∈ connectingKeys := by
  decide +kernel

theorem defaultDevice_lt (i : ℕ) : defaultDevice i < 2 := by
  unfold defaultDevice
  split <;> omega

theorem deviceNames_default :
    ∀ number < 2, filterFields (defaultName number) = [defaultName number] := by
  decide +kernel

theorem count_defaultName {number : ℕ} (hnumber : number < 2) (i : ℕ) :
    [defaultName (defaultDevice i)].count (defaultName number) =
      if number = defaultDevice i then 1 else 0 := by
  have hnames : ∀ first < 2, ∀ second < 2,
      [defaultName first].count (defaultName second) = if second = first then 1 else 0 := by
    decide +kernel
  exact hnames _ (defaultDevice_lt i) _ hnumber

variable {properties conversions} {base : T}

/-- A key of the defaults the tree says nothing about has its default. -/
theorem get_setDefaults_silent {path : KeyPath} {default : Value}
    (hlookup : defaults.lookup path = some default) (hsilent : properties.get base path = none) :
    properties.get (setDefaults properties conversions base) path =
      some (default.resolve conversions none) := by
  rw [get_setDefaults, effective, hlookup, hsilent]

theorem toInt_setDefaults_silent {path : KeyPath} {default : ℤ}
    (hlookup : defaults.lookup path = some (.int default))
    (hsilent : properties.get base path = none) :
    (properties.get (setDefaults properties conversions base) path).bind conversions.toInt =
      some default := by
  rw [get_setDefaults_silent hlookup hsilent]
  exact conversions.toInt_ofInt default (fits_of_lookup hlookup)

variable (hsilent : ∀ path ∈ connectingKeys, properties.get base path = none)

include hsilent

theorem deviceName_default {number : ℕ} (hnumber : number < 2) :
    Wiring.deviceName (wiring properties conversions (setDefaults properties conversions base))
      number = defaultName number := by
  obtain ⟨hany, hlookup, hkey⟩ := defaults_connect.1 number hnumber
  have hchild : properties.hasChild (setDefaults properties conversions base)
      (sectionName "device" number) = true := by
    rw [setDefaults, hasChild_foldl_setDefault, hany, Bool.true_or]
  simp only [Wiring.deviceName, wiring, hchild, if_true, Option.map_some, Option.getD_some,
    Wiring.getText]
  rw [get_setDefaults_silent hlookup (hsilent _ hkey)]
  rfl

theorem deviceNames_wiring {i : ℕ} (hi : i < 6) :
    Wiring.deviceNames
      ((wiring properties conversions (setDefaults properties conversions base)).processor i) =
        [defaultName (defaultDevice i)] := by
  obtain ⟨hlookup, hkey⟩ := defaults_connect.2 i hi
  simp only [Wiring.deviceNames, Wiring.getText, wiring]
  rw [get_setDefaults_silent hlookup (hsilent _ hkey)]
  exact deviceNames_default _ (defaultDevice_lt i)

end Connections

/-! ## Sections, decimal numbers and words -/

/-- The section a path begins with is there with the path. -/
def sections : PropertyTree (List (KeyPath × String)) where
  empty := []
  get tree path := tree.lookup path
  hasChild tree child := tree.any fun entry => child == entry.1.1
  put tree path value := (path, value) :: tree
  get_empty _ := rfl
  get_put tree path value path' := by
    by_cases hpath : path' = path
    · simp [hpath]
    · have hother : (path' == path) = false := by
        simpa using hpath
      simp [List.lookup_cons, hother, hpath]
  hasChild_put _ _ _ _ := rfl

def readDigits (digits : List Char) : Option ℕ :=
  if digits ≠ [] ∧ digits.all Char.isDigit then some (Nat.ofDigitChars 10 digits 0) else none

def readDecimal : List Char → Option ℤ
  | '-' :: digits => (readDigits digits).map fun value : ℕ => -(value : ℤ)
  | digits => (readDigits digits).map fun value : ℕ => (value : ℤ)

def decimal (value : ℤ) : List Char :=
  if value < 0 then '-' :: Nat.toDigits 10 value.natAbs else Nat.toDigits 10 value.natAbs

theorem readDigits_toDigits (value : ℕ) : readDigits (Nat.toDigits 10 value) = some value := by
  have hdigits : (Nat.toDigits 10 value).all Char.isDigit := by
    rw [List.all_eq_true]
    intro digit hdigit
    exact Nat.isDigit_of_mem_toDigits (by omega) (by omega) hdigit
  rw [readDigits, if_pos ⟨Nat.toDigits_ne_nil, hdigits⟩, Nat.ofDigitChars_ten_toDigits]

theorem readDecimal_decimal (value : ℤ) : readDecimal (decimal value) = some value := by
  unfold decimal
  split
  · next hneg =>
    rw [readDecimal, readDigits_toDigits, Option.map_some]
    congr 1
    omega
  · next hneg =>
    have hfirst : ∀ digits, Nat.toDigits 10 value.natAbs ≠ '-' :: digits := by
      intro digits hdigits
      have hdigit : Char.isDigit '-' :=
        Nat.isDigit_of_mem_toDigits (b := 10) (by omega) (by omega)
          (hdigits ▸ List.mem_cons_self)
      exact absurd hdigit (by decide)
    rw [readDecimal.eq_2 _ hfirst, readDigits_toDigits, Option.map_some]
    congr 1
    omega

def decimals : Conversions Unit where
  toInt raw := (readDecimal raw.toList).filter (IsInt ·)
  toBool raw :=
    if raw = "1" ∨ raw = "true" then some true
    else if raw = "0" ∨ raw = "false" then some false
    else none
  readJson raw := if raw = "" then none else some ()
  ofInt value := String.ofList (decimal value)
  ofBool value := if value then "true" else "false"
  toInt_isInt raw value hvalue := by
    simpa using (Option.filter_eq_some_iff.mp hvalue).2
  toInt_ofInt value hvalue := by
    rw [String.toList_ofList, readDecimal_decimal]
    simpa using hvalue
  toBool_ofBool value := by
    cases value <;> decide

/-- A file with a truth value and a word that is no number. -/
def enabledDevice : List (KeyPath × String) :=
  [(("device0", "enabled"), "1"), (("http", "port"), "http")]

def enabling : List (Event (List (KeyPath × String)) String) :=
  [.getConfig fun _ => .missing,
    .setConfigFile (some "device.conf") true fun _ => .tree enabledDevice,
    .updateConfig (fun _ => .malformed) true]

theorem configuration_runs_enabled :
    ∃ final tree,
      run (Process.step sections decimals "sensor_hub.conf") .fresh enabling = some final ∧
      final.config = some (tree, "device.conf") ∧
      final.saved = [("device.conf", tree)] ∧
      sections.get tree ("device0", "enabled") = some "true" ∧
      sections.get tree ("http", "port") = some "16080" ∧
      Complete sections decimals tree := by
  obtain ⟨final, hrun⟩ : ∃ final,
      run (Process.step sections decimals "sensor_hub.conf") .fresh enabling = some final :=
    ⟨_, rfl⟩
  have hruns := configuration_runs sections decimals "sensor_hub.conf" hrun
  obtain rfl := Option.some.inj hrun
  obtain ⟨hconfig, hsaved⟩ := hruns
  refine ⟨_, _, rfl, rfl, rfl, ?_, ?_, hsaved _ (List.mem_singleton.mpr rfl)⟩
  · rw [(hconfig _ _ rfl).1]
    decide +kernel
  · rw [(hconfig _ _ rfl).1]
    decide +kernel

/-- Every registered type counts the values of a processor. -/
def counting : Wiring.Registry ℚ ℕ where
  hasDevice := fun type => type ∈ ["xsens_mti_g_710_usb", "ublox_neo_m8u_serial"]
  createProcessor := fun type =>
    if type ∈ ["acceleration_history", "statistics", "fusion"] then some 0 else none
  setParams := fun count _ => count
  setFilter := fun count _ => count
  insertValue := fun count _ => count + 1

end SensorHub.Configuration
