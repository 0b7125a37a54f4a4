import SensorHub.Quantities

/-!
# Reading input registers

The registers of a unit are laid out in three regions: scaled values of a device
from 0, samples of a device as plain doubles from 10000, and the output of a
processor from 20000.  The handler chooses a region from the start of a request
and walks on from there, so that a request which crosses a border does not read
what is stored behind it.

Doubles are the patterns of their 64 bits.  A quantity that is cast from a number
is kept as the number, since not every number names a quantity.
-/

namespace SensorHub.Modbus

/-- `Base_scale::scale_to` for both sizes. -/
structure Scaler where
  scaleTo32 : Quantity → UInt64 → UInt32
  scaleTo16 : Quantity → UInt64 → UInt16

/-- The sample cache, the last sample of a quantity at the end. -/
structure Device where
  data : Quantity → List (StampedValue UInt64)

structure Processor where
  getModbusReg : ℕ → Scaler → UInt16

structure Handler where
  devices : List Device
  processors : List Processor
  scaler : Scaler

def plainBaseAddress : ℕ := 10000
def processorBaseAddress : ℕ := 20000

def endCode : ℕ := Quantity.all.length

/-- `static_cast<Quantity>`, where that is an enumerator. -/
def castQuantity (code : ℕ) : Option Quantity :=
  (Quantity.all ++ [.end_])[code]?

namespace Device

def getSample (device : Device) (code : ℕ) : Option (StampedValue UInt64) :=
  (castQuantity code).bind fun quantity => (device.data quantity).getLast?

def getValue (device : Device) (quantity : Quantity) : Option UInt64 :=
  (device.data quantity).getLast?.map StampedValue.value

end Device

/-! ## The three maps -/

def zero : StampedValue UInt64 := ⟨0, 0⟩

/-- One of the eight registers of a sample, the high ones first. -/
def sampleRegister (sample : StampedValue UInt64) (off : ℕ) : UInt16 :=
  let shft := (3 - off % 4) * 16
  let value := if off / 4 = 0 then sample.value else sample.stamp
  UInt16.ofNat (value.toNat / 2 ^ shft % 2 ^ 16)

/-- The loop of `plain_map` over the values of the response. -/
def plainLoop (device : Device) (curq : ℕ) (sample : StampedValue UInt64) :
    ℕ → List UInt16 → List UInt16
  | _, [] => []
  | regIndex, _ :: values =>
      let newq := regIndex / 8
      if newq ≠ curq then
        let sample := (device.getSample newq).getD zero
        sampleRegister sample (regIndex % 8) ::
          plainLoop device newq sample (regIndex + 1) values
      else
        sampleRegister sample (regIndex % 8) ::
          plainLoop device curq sample (regIndex + 1) values

def plainMap (device : Device) (regIndex : ℕ) (values : List UInt16) :
    List UInt16 :=
  plainLoop device endCode zero regIndex values

/-- The numbers of the version, at the dots. -/
def version : List ℕ := [0, 5, 5, 0]

/-- The last number is left out. -/
def versionRegister : UInt16 :=
  version.dropLast.foldl (fun ver number => ver * 100 + UInt16.ofNat number) 0

/-- The half of a 32 bit value in the first or the second of two registers. -/
def halfRegister (first : Bool) (value : UInt32) : UInt16 :=
  if first then UInt16.ofNat (value.toNat / 2 ^ 16)
  else UInt16.ofNat (value.toNat % 2 ^ 16)

/-- What `base_map` writes to a register, if anything. -/
def baseRegister (scaler : Scaler) (device : Device) (regIndex : ℕ) :
    Option UInt16 :=
  let half (quantity : Quantity) (first : ℕ) :=
    (device.getValue quantity).map fun value =>
      halfRegister (regIndex = first) (scaler.scaleTo32 quantity value)
  match regIndex with
  | 0 => some versionRegister
  | 1 | 2 => half .ut 1
  | 3 | 4 => half .la 3
  | 5 | 6 => half .lo 5
  | _ =>
      (castQuantity (regIndex - 4)).bind fun quantity =>
        (device.getValue quantity).map (scaler.scaleTo16 quantity)

def baseMap (scaler : Scaler) (device : Device) : ℕ → List UInt16 → List UInt16
  | _, [] => []
  | regIndex, value :: values =>
      (baseRegister scaler device regIndex).getD value ::
        baseMap scaler device (regIndex + 1) values

def processorMap (scaler : Scaler) (processor : Processor) :
    ℕ → List UInt16 → List UInt16
  | _, [] => []
  | regIndex, _ :: values =>
      processor.getModbusReg regIndex scaler ::
        processorMap scaler processor (regIndex + 1) values

namespace Handler

/-- Unit ID 255 means "not used" -> assume device 0 -/
def unitIndex (unitId : UInt8) : ℕ :=
  if unitId = 0xFF then 0 else unitId.toNat

def handle (handler : Handler) (unitId : UInt8) (address count : ℕ) :
    List UInt16 :=
  let values := List.replicate count 0
  if processorBaseAddress ≤ address then
    match handler.processors[unitIndex unitId]? with
    | some processor =>
        processorMap handler.scaler processor (address - processorBaseAddress) values
    | none => values
  else
    match handler.devices[unitIndex unitId]? with
    | some device =>
        if plainBaseAddress ≤ address then
          plainMap device (address - plainBaseAddress) values
        else
          baseMap handler.scaler device address values
    | none => values

end Handler

/-! ## Single registers -/

theorem castQuantity_of_gt {code : ℕ} (hcode : endCode < code) :
    castQuantity code = none := by
  refine List.getElem?_eq_none ?_
  rw [List.length_append]
  exact hcode

theorem Device.getSample_of_gt (device : Device) {code : ℕ} (hcode : endCode < code) :
    device.getSample code = none := by
  rw [Device.getSample, castQuantity_of_gt hcode, Option.bind_none]

theorem sampleRegister_zero (off : ℕ) : sampleRegister zero off = 0 := by
  have hvalue : (if off / 4 = 0 then zero.value else zero.stamp) = 0 := by
    split <;> rfl
  rw [sampleRegister, hvalue, UInt64.toNat_zero, Nat.zero_div, Nat.zero_mod]
  rfl

def Device.sampleAt (device : Device) (regIndex : ℕ) : UInt16 :=
  sampleRegister ((device.getSample (regIndex / 8)).getD zero) (regIndex % 8)

theorem Device.sampleAt_of_gt (device : Device) {regIndex : ℕ}
    (hcode : endCode < regIndex / 8) : device.sampleAt regIndex = 0 := by
  rw [sampleAt, getSample_of_gt device hcode, Option.getD_none, sampleRegister_zero]

/-- With the sample of the last quantity in the cache every register is read
from its own sample. -/
theorem getElem?_plainLoop (device : Device) {curq : ℕ}
    {sample : StampedValue UInt64} (hcache : sample = (device.getSample curq).getD zero)
    (regIndex : ℕ) (values : List UInt16) {i : ℕ} (hi : i < values.length) :
    (plainLoop device curq sample regIndex values)[i]? =
      some (device.sampleAt (regIndex + i)) := by
  induction values generalizing curq sample regIndex i with
  | nil => exact absurd hi (Nat.not_lt_zero i)
  | cons value values ih =>
      rw [plainLoop]
      split
      · cases i with
        | zero => rfl
        | succ i =>
            rw [List.getElem?_cons_succ, ih rfl _ (Nat.lt_of_succ_lt_succ hi)]
            congr 2
            omega
      · next hcurq =>
        rw [not_not] at hcurq
        cases i with
        | zero =>
            rw [hcache, ← hcurq]
            rfl
        | succ i =>
            rw [List.getElem?_cons_succ, ih hcache _ (Nat.lt_of_succ_lt_succ hi)]
            congr 2
            omega

/-- The cache starts with an empty sample for the end marker. -/
theorem getElem?_plainMap_of_eq (device : Device) {regIndex : ℕ}
    (hcode : regIndex / 8 = endCode) (values : List UInt16) {i : ℕ}
    (hi : i < values.length) :
    (plainMap device regIndex values)[i]? = some 0 := by
  unfold plainMap
  induction values generalizing regIndex i with
  | nil => exact absurd hi (Nat.not_lt_zero i)
  | cons value values ih =>
      rw [plainLoop, if_neg (not_not.mpr hcode)]
      cases i with
      | zero => rw [List.getElem?_cons_zero, sampleRegister_zero]
      | succ i =>
          rw [List.getElem?_cons_succ]
          have hmore := Nat.lt_of_succ_lt_succ hi
          rcases (by omega : (regIndex + 1) / 8 = endCode ∨
              endCode < (regIndex + 1) / 8) with hnext | hnext
          · exact ih hnext hmore
          -- behind the end marker there are no samples
          cases values with
          | nil => exact absurd hmore (Nat.not_lt_zero i)
          | cons value' values =>
              rw [plainLoop, if_pos hnext.ne', Device.getSample_of_gt device hnext,
                Option.getD_none]
              cases i with
              | zero => rw [List.getElem?_cons_zero, sampleRegister_zero]
              | succ i =>
                  rw [List.getElem?_cons_succ, getElem?_plainLoop device
                    (by rw [Device.getSample_of_gt device hnext]; rfl) _ _
                    (Nat.lt_of_succ_lt_succ hmore),
                    Device.sampleAt_of_gt device (by omega)]

theorem getElem?_plainMap_of_ne (device : Device) {regIndex : ℕ}
    (hcode : regIndex / 8 ≠ endCode) (values : List UInt16) {i : ℕ}
    (hi : i < values.length) :
    (plainMap device regIndex values)[i]? = some (device.sampleAt (regIndex + i)) := by
  cases values with
  | nil => exact absurd hi (Nat.not_lt_zero i)
  | cons value values =>
      rw [plainMap, plainLoop, if_pos hcode]
      cases i with
      | zero => rfl
      | succ i =>
          rw [List.getElem?_cons_succ,
            getElem?_plainLoop device rfl _ _ (Nat.lt_of_succ_lt_succ hi)]
          congr 2
          omega

theorem getElem?_baseMap (scaler : Scaler) (device : Device) (regIndex : ℕ)
    {count i : ℕ} (hi : i < count) :
    (baseMap scaler device regIndex (List.replicate count 0))[i]? =
      some ((baseRegister scaler device (regIndex + i)).getD 0) := by
  induction count generalizing regIndex i with
  | zero => exact absurd hi (Nat.not_lt_zero i)
  | succ count ih =>
      rw [List.replicate_succ, baseMap]
      cases i with
      | zero => rfl
      | succ i =>
          rw [List.getElem?_cons_succ, ih _ (Nat.lt_of_succ_lt_succ hi)]
          congr 3
          omega

theorem getElem?_processorMap (scaler : Scaler) (processor : Processor) (regIndex : ℕ)
    (values : List UInt16) {i : ℕ} (hi : i < values.length) :
    (processorMap scaler processor regIndex values)[i]? =
      some (processor.getModbusReg (regIndex + i) scaler) := by
  induction values generalizing regIndex i with
  | nil => exact absurd hi (Nat.not_lt_zero i)
  | cons value values ih =>
      rw [processorMap]
      cases i with
      | zero => rfl
      | succ i =>
          rw [List.getElem?_cons_succ, ih _ (Nat.lt_of_succ_lt_succ hi)]
          congr 2
          omega

/-- No quantity is so far behind the end marker. -/
theorem baseRegister_of_plain (scaler : Scaler) (device : Device) {regIndex : ℕ}
    (hplain : plainBaseAddress ≤ regIndex) :
    baseRegister scaler device regIndex = none := by
  have hcode : castQuantity (regIndex - 4) = none := by
    refine castQuantity_of_gt ?_
    have hend : endCode = 78 := rfl
    unfold plainBaseAddress at hplain
    omega
  unfold baseRegister
  simp only []
  split <;> first
    | (exfalso; revert hplain; decide)
    | rw [hcode, Option.bind_none]

namespace Handler

/-! ## Which registers depend on the request -/

def plainCode (address : ℕ) : ℕ :=
  (address - plainBaseAddress) / 8

/-- What is stored for an address in the region of scaled values, of plain
doubles and of processor output; zero without such a unit. -/
def scaledAt (handler : Handler) (unitId : UInt8) (address : ℕ) : UInt16 :=
  match handler.devices[unitIndex unitId]? with
  | some device => (baseRegister handler.scaler device address).getD 0
  | none => 0

def plainAt (handler : Handler) (unitId : UInt8) (address : ℕ) : UInt16 :=
  match handler.devices[unitIndex unitId]? with
  | some device => device.sampleAt (address - plainBaseAddress)
  | none => 0

def outputAt (handler : Handler) (unitId : UInt8) (address : ℕ) : UInt16 :=
  match handler.processors[unitIndex unitId]? with
  | some processor =>
      processor.getModbusReg (address - processorBaseAddress) handler.scaler
  | none => 0

/-- The register at `address` in an answer that starts at `start`. -/
def registerFrom (handler : Handler) (unitId : UInt8) (start address : ℕ) : UInt16 :=
  if processorBaseAddress ≤ start then handler.outputAt unitId address
  else if plainBaseAddress ≤ start then
    if plainCode start = endCode then 0 else handler.plainAt unitId address
  else handler.scaledAt unitId address

theorem getElem?_handle (handler : Handler) (unitId : UInt8) (address : ℕ)
    {count i : ℕ} (hi : i < count) :
    (handler.handle unitId address count)[i]? =
      some (handler.registerFrom unitId address (address + i)) := by
  have hvalues : i < (List.replicate count (0 : UInt16)).length := by
    rwa [List.length_replicate]
  have hzero : (List.replicate count (0 : UInt16))[i]? = some 0 := by
    rw [List.getElem?_replicate, if_pos hi]
  unfold handle registerFrom
  by_cases houtput : processorBaseAddress ≤ address
  · rw [if_pos houtput]
    simp only [houtput, if_true, outputAt]
    cases handler.processors[unitIndex unitId]? with
    | none => exact hzero
    | some processor =>
        have hindex : address - processorBaseAddress + i =
            address + i - processorBaseAddress := (Nat.sub_add_comm houtput).symm
        simp only []
        rw [getElem?_processorMap _ _ _ _ hvalues, hindex]
  simp only [houtput, if_false]
  by_cases hplain : plainBaseAddress ≤ address
  · simp only [hplain, if_true, plainAt]
    cases handler.devices[unitIndex unitId]? with
    | none => simpa using hzero
    | some device =>
        simp only []
        by_cases hcode : plainCode address = endCode
        · rw [getElem?_plainMap_of_eq device hcode _ hvalues, if_pos hcode]
        · have hindex : address - plainBaseAddress + i =
              address + i - plainBaseAddress := (Nat.sub_add_comm hplain).symm
          rw [getElem?_plainMap_of_ne device hcode _ hvalues, if_neg hcode, hindex]
  · simp only [hplain, if_false, scaledAt]
    cases handler.devices[unitIndex unitId]? with
    | none => exact hzero
    | some device => exact getElem?_baseMap _ _ _ hi

/-- What has to be zero for a register to be the same in an answer that starts
before it and in one that starts at it.  No device delivers samples of the end
marker. -/
structure ReadsAlike (handler : Handler) (unitId : UInt8) (start address : ℕ) :
    Prop where
  plain : start < plainBaseAddress → plainBaseAddress ≤ address →
    address < processorBaseAddress → plainCode address ≠ endCode →
      handler.plainAt unitId address = 0
  marker : plainBaseAddress ≤ start → address < processorBaseAddress →
    plainCode start ≠ endCode → plainCode address = endCode →
      handler.plainAt unitId address = 0
  output : start < processorBaseAddress → processorBaseAddress ≤ address →
    handler.outputAt unitId address = 0

theorem scaledAt_of_plain (handler : Handler) (unitId : UInt8) {address : ℕ}
    (hplain : plainBaseAddress ≤ address) : handler.scaledAt unitId address = 0 := by
  unfold scaledAt
  cases handler.devices[unitIndex unitId]? with
  | none => rfl
  | some device =>
      simp only []
      rw [baseRegister_of_plain _ _ hplain, Option.getD_none]

theorem plainAt_of_gt (handler : Handler) (unitId : UInt8) {address : ℕ}
    (hcode : endCode < plainCode address) : handler.plainAt unitId address = 0 := by
  unfold plainAt
  cases handler.devices[unitIndex unitId]? with
  | none => rfl
  | some device => exact device.sampleAt_of_gt hcode

theorem plainBase_lt_processorBase : plainBaseAddress < processorBaseAddress := by
  decide

theorem plainAt_of_output (handler : Handler) (unitId : UInt8) {address : ℕ}
    (houtput : processorBaseAddress ≤ address) : handler.plainAt unitId address = 0 := by
  refine handler.plainAt_of_gt unitId ?_
  have hlast : endCode < plainCode processorBaseAddress := by decide
  exact hlast.trans_le (Nat.div_le_div_right (Nat.sub_le_sub_right houtput _))

theorem registerFrom_of_output (handler : Handler) (unitId : UInt8) {start address : ℕ}
    (hstart : start < processorBaseAddress) (houtput : processorBaseAddress ≤ address) :
    handler.registerFrom unitId start address = 0 := by
  rw [registerFrom, if_neg (Nat.not_le.mpr hstart)]
  split
  · split
    · rfl
    · exact handler.plainAt_of_output unitId houtput
  · exact handler.scaledAt_of_plain unitId (plainBase_lt_processorBase.le.trans houtput)

theorem registerFrom_scaled_eq_iff (handler : Handler) (unitId : UInt8)
    {start address : ℕ} (hstart : start < plainBaseAddress)
    (haddress : address < processorBaseAddress) :
    handler.registerFrom unitId start address =
        handler.registerFrom unitId address address ↔
      (plainBaseAddress ≤ address → plainCode address ≠ endCode →
        handler.plainAt unitId address = 0) := by
  have hbefore := Nat.not_le.mpr (hstart.trans plainBase_lt_processorBase)
  rw [registerFrom, if_neg hbefore, if_neg (Nat.not_le.mpr hstart), registerFrom,
    if_neg (Nat.not_le.mpr haddress)]
  by_cases hplain : plainBaseAddress ≤ address
  · rw [if_pos hplain, handler.scaledAt_of_plain unitId hplain]
    by_cases hcode : plainCode address = endCode
    · simp [hcode]
    · simp [hplain, hcode, eq_comm]
  · simp [hplain]

theorem registerFrom_plain_eq_iff (handler : Handler) (unitId : UInt8)
    {start address : ℕ} (hstart : plainBaseAddress ≤ start) (hle : start ≤ address)
    (haddress : address < processorBaseAddress) :
    handler.registerFrom unitId start address =
        handler.registerFrom unitId address address ↔
      (plainCode start ≠ endCode → plainCode address = endCode →
        handler.plainAt unitId address = 0) := by
  rw [registerFrom, if_neg (Nat.not_le.mpr (hle.trans_lt haddress)), if_pos hstart,
    registerFrom, if_neg (Nat.not_le.mpr haddress), if_pos (hstart.trans hle)]
  by_cases hcode : plainCode start = endCode
  · rcases eq_or_ne (plainCode address) endCode with heq | hne
    · simp [hcode, heq]
    · have hcodes : plainCode start ≤ plainCode address :=
        Nat.div_le_div_right (Nat.sub_le_sub_right hle _)
      have hgt : endCode < plainCode address :=
        lt_of_le_of_ne (hcode ▸ hcodes) hne.symm
      simp [hcode, hne, handler.plainAt_of_gt unitId hgt]
  · by_cases hmarker : plainCode address = endCode <;> simp [hcode, hmarker]

theorem registerFrom_eq_iff (handler : Handler) (unitId : UInt8) {start address : ℕ}
    (hle : start ≤ address) :
    handler.registerFrom unitId start address =
        handler.registerFrom unitId address address ↔
      handler.ReadsAlike unitId start address := by
  have hborders := plainBase_lt_processorBase
  rcases Nat.lt_or_ge address processorBaseAddress with haddress | houtput
  · rcases Nat.lt_or_ge start plainBaseAddress with hstart | hstart
    · rw [registerFrom_scaled_eq_iff handler unitId hstart haddress]
      exact ⟨fun hzero =>
          ⟨fun _ hplain _ => hzero hplain,
            fun hplain => absurd hplain (Nat.not_le.mpr hstart),
            fun _ houtput => absurd houtput (Nat.not_le.mpr haddress)⟩,
        fun halike hplain => halike.plain hstart hplain haddress⟩
    · rw [registerFrom_plain_eq_iff handler unitId hstart hle haddress]
      exact ⟨fun hzero =>
          ⟨fun hscaled => absurd hstart (Nat.not_le.mpr hscaled), fun _ _ => hzero,
            fun _ houtput => absurd houtput (Nat.not_le.mpr haddress)⟩,
        fun halike => halike.marker hstart haddress⟩
  · have hsingle : handler.registerFrom unitId address address =
        handler.outputAt unitId address := by
      rw [registerFrom, if_pos houtput]
    rcases Nat.lt_or_ge start processorBaseAddress with hstart | hstart
    · rw [handler.registerFrom_of_output unitId hstart houtput, hsingle]
      exact ⟨fun hzero =>
          ⟨fun _ _ hbefore => absurd houtput (Nat.not_le.mpr hbefore),
            fun _ hbefore => absurd houtput (Nat.not_le.mpr hbefore),
            fun _ _ => hzero.symm⟩,
        fun halike => (halike.output hstart houtput).symm⟩
    · rw [hsingle, registerFrom, if_pos hstart]
      exact ⟨fun _ =>
          ⟨fun hscaled => absurd hstart (Nat.not_le.mpr (hscaled.trans hborders)),
            fun _ hbefore => absurd houtput (Nat.not_le.mpr hbefore),
            fun hbefore => absurd hstart (Nat.not_le.mpr hbefore)⟩,
        fun _ => rfl⟩

/-- A register of an answer is the one that is read alone exactly when what the
request cannot see behind a border is zero. -/
theorem handle_single_iff (handler : Handler) (unitId : UInt8) (address : ℕ)
    {count i : ℕ} (hi : i < count) :
    (handler.handle unitId address count)[i]? =
        (handler.handle unitId (address + i) 1)[0]? ↔
      handler.ReadsAlike unitId address (address + i) := by
  rw [getElem?_handle handler unitId address hi,
    getElem?_handle handler unitId (address + i) Nat.one_pos, Option.some.injEq,
    Nat.add_zero]
  exact registerFrom_eq_iff handler unitId (Nat.le_add_right address i)

/-- A device with the value 1 for the first quantity. -/
def oneDevice : Handler where
  devices := [⟨fun quantity => if quantity = .ut then [⟨0x3FF0000000000000, 0⟩] else []⟩]
  processors := []
  scaler := ⟨fun _ _ => 0, fun _ _ => 0⟩

theorem handle_single_iff_border :
    1 < 2 ∧
      ((oneDevice.handle 0 9999 2)[1]? = (oneDevice.handle 0 (9999 + 1) 1)[0]? ↔
        oneDevice.ReadsAlike 0 9999 (9999 + 1)) :=
  ⟨by decide, handle_single_iff oneDevice 0 9999 (by decide)⟩

/-- The first plain register is 0 in an answer that starts one register before
it. -/
theorem handle_ne_single :
    ¬∀ (handler : Handler) (unitId : UInt8) (address count i : ℕ), i < count →
      address + i ≤ 65535 →
        (handler.handle unitId address count)[i]? =
          (handler.handle unitId (address + i) 1)[0]? := by
  intro hall
  have hsame := hall oneDevice 0 9999 2 1 (by decide) (by decide)
  revert hsame
  decide

end Handler

/-! ## The registers of a sample -/

/-- The number in a row of registers, the most significant one first. -/
def joined (registers : List UInt16) : ℕ :=
  registers.foldl (fun number register => number * 2 ^ 16 + register.toNat) 0

theorem castQuantity_index (quantity : Quantity) :
    castQuantity quantity.index = some quantity := by
  cases quantity <;> rfl

theorem index_lt_endCode {quantity : Quantity} (hquantity : quantity ≠ .end_) :
    quantity.index < endCode := by
  revert hquantity
  cases quantity <;> decide

/-- Cutting a number of 64 bits into words and joining them again. -/
theorem joined_words (number : UInt64) :
    joined [UInt16.ofNat (number.toNat / 2 ^ 48 % 2 ^ 16),
        UInt16.ofNat (number.toNat / 2 ^ 32 % 2 ^ 16),
        UInt16.ofNat (number.toNat / 2 ^ 16 % 2 ^ 16),
        UInt16.ofNat (number.toNat / 2 ^ 0 % 2 ^ 16)] = number.toNat := by
  have hword : ∀ part : ℕ, (UInt16.ofNat (part % 2 ^ 16)).toNat = part % 2 ^ 16 :=
    fun part => UInt16.toNat_ofNat_of_lt' (Nat.mod_lt _ (by norm_num))
  have hnumber := number.toNat_lt
  simp only [joined, List.foldl_cons, List.foldl_nil, hword]
  omega

theorem joined_value (sample : StampedValue UInt64) :
    joined ((List.range 4).map (sampleRegister sample)) = sample.value.toNat :=
  joined_words sample.value

theorem joined_stamp (sample : StampedValue UInt64) :
    joined ((List.range 4).map fun off => sampleRegister sample (4 + off)) =
      sample.stamp.toNat :=
  joined_words sample.stamp

/-- The registers of one sample in a response, from the one numbered `first`. -/
theorem take_drop_plainMap (device : Device) {regIndex code first size : ℕ}
    {values : List UInt16} (hcode : code < endCode) (hfirst : first + size ≤ 8)
    (hbefore : regIndex ≤ 8 * code) (hafter : 8 * code + 8 ≤ regIndex + values.length) :
    ((plainMap device regIndex values).drop (8 * code + first - regIndex)).take size =
      (List.range size).map fun off =>
        sampleRegister ((device.getSample code).getD zero) (first + off) := by
  have hstart : regIndex / 8 ≠ endCode := by omega
  refine List.ext_getElem? fun off => ?_
  rw [List.getElem?_take, List.getElem?_map]
  rcases Nat.lt_or_ge off size with hoff | hoff
  · rw [if_pos hoff, List.getElem?_drop, List.getElem?_range hoff,
      getElem?_plainMap_of_ne device hstart values (by omega), Device.sampleAt]
    have hregister : regIndex + (8 * code + first - regIndex + off) =
        8 * code + (first + off) := by omega
    have hquantity : (8 * code + (first + off)) / 8 = code := by omega
    have hword : (8 * code + (first + off)) % 8 = first + off := by omega
    rw [hregister, hquantity, hword]
    rfl
  · rw [if_neg (Nat.not_lt.mpr hoff), List.getElem?_eq_none (by simpa using hoff)]
    rfl

/-- The eight registers of a quantity hold the value and the stamp of its last
sample, wherever the request starts. -/
theorem plainMap_sample (device : Device) (regIndex : ℕ) (values : List UInt16)
    {quantity : Quantity} (hquantity : quantity ≠ .end_)
    (hbefore : regIndex ≤ 8 * quantity.index)
    (hafter : 8 * quantity.index + 8 ≤ regIndex + values.length) :
    let registers := (plainMap device regIndex values).drop
      (8 * quantity.index - regIndex)
    match (device.data quantity).getLast? with
    | some sample =>
        joined (registers.take 4) = sample.value.toNat ∧
          joined ((registers.drop 4).take 4) = sample.stamp.toNat
    | none => registers.take 8 = List.replicate 8 0 := by
  intro registers
  have hcode := index_lt_endCode hquantity
  have hsample : device.getSample quantity.index =
      (device.data quantity).getLast? := by
    rw [Device.getSample, castQuantity_index, Option.bind_some]
  have hfirst := fun size (hsize : 0 + size ≤ 8) =>
    take_drop_plainMap device hcode hsize hbefore hafter
  have hsecond := take_drop_plainMap device hcode (show 4 + 4 ≤ 8 by omega)
    hbefore hafter
  rw [hsample] at hfirst hsecond
  cases hlast : (device.data quantity).getLast? with
  | some sample =>
      simp only [hlast, Option.getD_some, Nat.zero_add, Nat.add_zero] at hfirst hsecond
      constructor
      · rw [hfirst 4 (by omega)]
        exact joined_value sample
      · have hdrop : 8 * quantity.index + 4 - regIndex =
            8 * quantity.index - regIndex + 4 := by omega
        rw [hdrop] at hsecond
        rw [List.drop_drop, hsecond]
        exact joined_stamp sample
  | none =>
      simp only [hlast, Option.getD_none, sampleRegister_zero, Nat.add_zero] at hfirst
      rw [hfirst 8 (by omega)]
      rfl

/-- The first two quantities in a request for 20 registers from the third one on;
only the second lies within it. -/
theorem plainMap_sample_second :
    let device : Device :=
      ⟨fun quantity => if quantity = .la then [⟨0x3FF0000000000000, 1⟩] else []⟩
    let registers := (plainMap device 2 (List.replicate 20 0)).drop 6
    joined (registers.take 4) = 0x3FF0000000000000 ∧
      joined ((registers.drop 4).take 4) = 1 :=
  plainMap_sample ⟨fun quantity => if quantity = .la then [⟨0x3FF0000000000000, 1⟩] else []⟩
    2 (List.replicate 20 0) (show Quantity.la ≠ .end_ by decide) (by decide) (by decide)

end SensorHub.Modbus
