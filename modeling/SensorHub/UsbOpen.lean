import SensorHub.Tools

/-!
# Opening a USB device

`Lib_usb::open` closes what was open and goes through the list of devices.  It
tries each device with the given ids from the `seq`-th one on: it opens a handle,
gets the descriptors and claims the interfaces.  When one of these fails it undoes
what it has done for this device and goes on with the next one.

The outcomes of the calls to libusb are data of the devices.  A handle is told by
its number, since libusb may use the address of a closed one again.
-/

namespace SensorHub.UsbOpen

/-! ## Devices and calls -/

/-- What a function of libusb returns: zero for success or a negative error. -/
structure Result where
  code : ℤ
  nonpos : code ≤ 0
  deriving DecidableEq

namespace Result

def success : Result := ⟨0, by decide⟩

/-- `LIBUSB_ERROR_BUSY` -/
def busy : Result := ⟨-6, by decide⟩

def Succeeds (result : Result) : Prop :=
  result.code = 0

instance (result : Result) : Decidable result.Succeeds :=
  inferInstanceAs (Decidable (_ = _))

theorem not_neg_iff (result : Result) : ¬result.code < 0 ↔ result.Succeeds := by
  have hnonpos := result.nonpos
  simp only [Succeeds]
  omega

end Result

/-- A device on the list, with the result of each call about it. -/
structure Device where
  deviceDescriptor : Result
  idVendor : UInt16
  idProduct : UInt16
  openResult : Result
  /-- The descriptor once more, asked for through the handle. -/
  handleDescriptor : Result
  activeConfig : Result
  /-- Claiming the interfaces of the active configuration. -/
  claims : List Result
  deriving DecidableEq

inductive Call where
  | getDeviceList
  | freeDeviceList
  | openDevice (handle position : ℕ)
  | closeDevice (handle : ℕ)
  | getActiveConfig (handle : ℕ)
  | freeConfig (handle : ℕ)
  | setAutoDetach (handle : ℕ)
  | claimInterface (handle i : ℕ)
  | releaseInterface (handle i : ℕ)
  deriving DecidableEq, Repr

def Call.opens : Call → Option ℕ
  | .openDevice handle _ => some handle
  | _ => none

def Call.closes : Call → Option ℕ
  | .closeDevice handle => some handle
  | _ => none

/-- The handles opened by the calls, in order. -/
def opened (calls : List Call) : List ℕ :=
  calls.filterMap Call.opens

def closed (calls : List Call) : List ℕ :=
  calls.filterMap Call.closes

def openHandles (calls : List Call) : List ℕ :=
  (opened calls).filter fun handle => handle ∉ closed calls

/-! ## The class of the source -/

structure UsbDescriptors where
  handle : ℕ
  interfaceCount : ℕ
  deriving DecidableEq, Repr

/-- The two pointers of a `Lib_usb`, and the calls so far that took or gave back
something. -/
structure LibUsb where
  device : Option ℕ
  descriptors : Option UsbDescriptors
  calls : List Call
  deriving DecidableEq, Repr

/-- The constructor of `Usb_descriptors`; there is no result where it throws. -/
def Device.usbDescriptors (device : Device) (handle : ℕ) : Option UsbDescriptors :=
  if device.handleDescriptor.code ≠ 0 then none
  else if device.activeConfig.code ≠ 0 then none
  else some ⟨handle, device.claims.length⟩

/-- The loop over the interfaces, from interface `i` on. -/
def claimInterfaces (handle i : ℕ) : List Result → List Call × Bool
  | [] => ([], true)
  | result :: results =>
      if result.code ≠ 0 then ([], false)
      else
        let (calls, claimed) := claimInterfaces handle (i + 1) results
        (.claimInterface handle i :: calls, claimed)

namespace LibUsb

def initial : LibUsb where
  device := none
  descriptors := none
  calls := []

def call (lib : LibUsb) (calls : List Call) : LibUsb :=
  { lib with calls := lib.calls ++ calls }

/-- `descriptors_ = nullptr` -/
def resetDescriptors (lib : LibUsb) : LibUsb :=
  match lib.descriptors with
  | none => lib
  | some descriptors =>
      { lib.call [.freeConfig descriptors.handle] with descriptors := none }

/-- `libusb_close(device_); device_ = nullptr` -/
def closeDevice (lib : LibUsb) (handle : ℕ) : LibUsb :=
  { lib.call [.closeDevice handle] with device := none }

/-- A failure to release an interface is only logged. -/
def close (lib : LibUsb) : LibUsb :=
  match lib.device with
  | none => lib
  | some handle =>
      match lib.descriptors with
      | none => lib.closeDevice handle
      | some descriptors =>
          let releases :=
            (List.range descriptors.interfaceCount).map (.releaseInterface handle)
          ((lib.call releases).resetDescriptors).closeDevice handle

/-- What the loop does with a device that it tries to open; the flag says that
the loop ends here. -/
def tryDevice (lib : LibUsb) (position : ℕ) (device : Device) : LibUsb × Bool :=
  if device.openResult.code < 0 then (lib, false)
  else
    let handle := (opened lib.calls).length
    let lib := { lib.call [.openDevice handle position] with device := some handle }
    match device.usbDescriptors handle with
    | none =>
        -- `descriptor_failure`
        (lib.closeDevice handle, false)
    | some descriptors =>
        let (claims, claimed) := claimInterfaces handle 0 device.claims
        let lib :=
          { lib.call ([.getActiveConfig handle, .setAutoDetach handle] ++ claims) with
            descriptors := some descriptors }
        if claimed then (lib, true)
        else
          -- `interface_failure`
          (lib.resetDescriptors.closeDevice handle, false)

/-- The loop over the devices.  From a number that is not negative the counter does
not overflow. -/
def search (vendorId productId : ℤ) : LibUsb → ℕ → ℤ → List Device → LibUsb
  | lib, _, _, [] => lib
  | lib, position, seq, device :: devices =>
      if device.deviceDescriptor.code < 0 then
        search vendorId productId lib (position + 1) seq devices
      else if (device.idVendor.toNat : ℤ) = vendorId ∧
          (device.idProduct.toNat : ℤ) = productId then
        let seq := seq - 1
        if seq < 0 then
          let (lib, found) := lib.tryDevice position device
          if found then lib
          else search vendorId productId lib (position + 1) seq devices
        else search vendorId productId lib (position + 1) seq devices
      else search vendorId productId lib (position + 1) seq devices

/-- `Lib_usb::open(int, int, int)`; there is no list if getting it fails. -/
def openIds (lib : LibUsb) (list : Option (List Device)) (vendorId productId seq : ℤ) :
    LibUsb × Bool :=
  let lib := lib.close
  match list with
  | none => (lib, false)
  | some devices =>
      let lib := (lib.call [.getDeviceList]).search vendorId productId 0 seq devices
      let lib := lib.call [.freeDeviceList]
      (lib, lib.device.isSome)

end LibUsb

/-! ## The device that should be selected -/

namespace Device

def Matches (vendorId productId : ℤ) (device : Device) : Prop :=
  device.deviceDescriptor.Succeeds ∧ (device.idVendor.toNat : ℤ) = vendorId ∧
    (device.idProduct.toNat : ℤ) = productId

instance (vendorId productId : ℤ) : DecidablePred (Matches vendorId productId) :=
  fun _ => inferInstanceAs (Decidable (_ ∧ _ ∧ _))

structure Usable (device : Device) : Prop where
  opens : device.openResult.Succeeds
  descriptor : device.handleDescriptor.Succeeds
  config : device.activeConfig.Succeeds
  interfaces : ∀ claim ∈ device.claims, claim.Succeeds

theorem usable_iff (device : Device) :
    device.Usable ↔ device.openResult.Succeeds ∧ device.handleDescriptor.Succeeds ∧
      device.activeConfig.Succeeds ∧ ∀ claim ∈ device.claims, claim.Succeeds :=
  ⟨fun h => ⟨h.1, h.2, h.3, h.4⟩, fun h => ⟨h.1, h.2.1, h.2.2.1, h.2.2.2⟩⟩

instance : DecidablePred Usable :=
  fun device => decidable_of_iff' _ device.usable_iff

end Device

variable {vendorId productId seq : ℤ} {devices : List Device} {position : ℕ}

/-- A usable device with these ids, at or after the `seq`-th one with them. -/
def Candidate (vendorId productId seq : ℤ) (devices : List Device) (position : ℕ) : Prop :=
  ∃ device, devices[position]? = some device ∧
    device.Matches vendorId productId ∧ device.Usable ∧
    seq ≤ (devices.take position).countP fun before => before.Matches vendorId productId

def Selected (vendorId productId seq : ℤ) (devices : List Device) (position : ℕ) : Prop :=
  Candidate vendorId productId seq devices position ∧
    ∀ earlier < position, ¬Candidate vendorId productId seq devices earlier

theorem exists_selected (hcandidate : Candidate vendorId productId seq devices position) :
    ∃ first, Selected vendorId productId seq devices first :=
  exists_first hcandidate

@[simp] theorem not_candidate_nil : ¬Candidate vendorId productId seq [] position := by
  rintro ⟨device, hdevice, -⟩
  simp at hdevice

theorem candidate_zero_iff {device : Device} :
    Candidate vendorId productId seq (device :: devices) 0 ↔
      device.Matches vendorId productId ∧ device.Usable ∧ seq ≤ 0 := by
  simp [Candidate]

theorem candidate_succ_iff {device : Device} :
    Candidate vendorId productId seq (device :: devices) (position + 1) ↔
      Candidate vendorId productId
        (if device.Matches vendorId productId then seq - 1 else seq) devices position := by
  by_cases hmatches : device.Matches vendorId productId
  · simp [Candidate, hmatches]
  · simp [Candidate, hmatches]

theorem selected_succ_iff {device : Device}
    (hnot : ¬Candidate vendorId productId seq (device :: devices) 0) :
    Selected vendorId productId seq (device :: devices) position ↔
      ∃ before, position = before + 1 ∧
        Selected vendorId productId
          (if device.Matches vendorId productId then seq - 1 else seq) devices before := by
  rw [Selected, first_succ_iff _ hnot]
  simp only [Selected, candidate_succ_iff]

/-! ## Handles -/

@[simp] theorem opened_append (before after : List Call) :
    opened (before ++ after) = opened before ++ opened after :=
  List.filterMap_append

@[simp] theorem closed_append (before after : List Call) :
    closed (before ++ after) = closed before ++ closed after :=
  List.filterMap_append

/-- The calls neither open nor close a handle. -/
def Silent (calls : List Call) : Prop :=
  opened calls = [] ∧ closed calls = []

theorem silent_of_forall {calls : List Call}
    (hcalls : ∀ call ∈ calls, call.opens = none ∧ call.closes = none) : Silent calls :=
  ⟨List.filterMap_eq_nil_iff.mpr fun call hcall => (hcalls call hcall).1,
    List.filterMap_eq_nil_iff.mpr fun call hcall => (hcalls call hcall).2⟩

theorem silent_releases (handle interfaceCount : ℕ) :
    Silent ((List.range interfaceCount).map (.releaseInterface handle)) := by
  apply silent_of_forall
  intro call hcall
  obtain ⟨i, -, rfl⟩ := List.mem_map.mp hcall
  exact ⟨rfl, rfl⟩

theorem silent_claimInterfaces (handle i : ℕ) (claims : List Result) :
    Silent (claimInterfaces handle i claims).1 := by
  induction claims generalizing i with
  | nil => exact ⟨rfl, rfl⟩
  | cons claim claims ih =>
      by_cases hclaim : claim.code = 0
      · simpa [claimInterfaces, hclaim, Silent, opened, closed, Call.opens, Call.closes]
          using ih (i + 1)
      · simp [claimInterfaces, hclaim, Silent, opened, closed]

theorem claimInterfaces_iff (handle i : ℕ) (claims : List Result) :
    (claimInterfaces handle i claims).2 = true ↔ ∀ claim ∈ claims, claim.Succeeds := by
  induction claims generalizing i with
  | nil => simp [claimInterfaces]
  | cons claim claims ih =>
      by_cases hclaim : claim.code = 0
      · simp [claimInterfaces, hclaim, Result.Succeeds, ih]
      · simp [claimInterfaces, hclaim, Result.Succeeds]

/-- The handles are numbered as they are opened, and each is closed once but the
one in use. -/
structure Consistent (device : Option ℕ) (calls : List Call) : Prop where
  numbered : opened calls = List.range (opened calls).length
  device_lt : ∀ handle, device = some handle → handle < (opened calls).length
  closed_once : ∀ handle, (closed calls).count handle =
    if handle < (opened calls).length ∧ device ≠ some handle then 1 else 0

namespace Consistent

variable {device : Option ℕ} {calls more : List Call} {handle : ℕ}

theorem initial : Consistent none [] := by
  constructor <;> simp [opened, closed]

theorem silent (hcalls : Consistent device calls) (hmore : Silent more) :
    Consistent device (calls ++ more) := by
  obtain ⟨hopened, hclosed⟩ := hmore
  constructor <;> simp only [opened_append, closed_append, hopened, hclosed,
    List.append_nil]
  · exact hcalls.numbered
  · exact hcalls.device_lt
  · exact hcalls.closed_once

theorem openDevice (hcalls : Consistent none calls) (position : ℕ) :
    Consistent (some (opened calls).length)
      (calls ++ [.openDevice (opened calls).length position]) := by
  have hopened : opened (calls ++ [.openDevice (opened calls).length position]) =
      opened calls ++ [(opened calls).length] := by
    rw [opened_append]
    rfl
  have hclosed : closed (calls ++ [.openDevice (opened calls).length position]) =
      closed calls := by
    rw [closed_append]
    exact List.append_nil _
  constructor
  · rw [hopened, List.length_append, List.length_singleton, List.range_succ,
      ← hcalls.numbered]
  · intro handle hdevice
    rw [Option.some_inj] at hdevice
    rw [hopened, List.length_append, List.length_singleton]
    omega
  · intro handle
    rw [hclosed, hcalls.closed_once, hopened, List.length_append, List.length_singleton]
    simp only [ne_eq, reduceCtorEq, not_false_eq_true, and_true, Option.some_inj]
    congr 1
    rw [eq_iff_iff]
    omega

theorem closeDevice (hcalls : Consistent (some handle) calls) :
    Consistent none (calls ++ [.closeDevice handle]) := by
  have hopened : opened (calls ++ [.closeDevice handle]) = opened calls := by
    rw [opened_append]
    exact List.append_nil _
  have hclosed : closed (calls ++ [.closeDevice handle]) = closed calls ++ [handle] := by
    rw [closed_append]
    rfl
  have hlt := hcalls.device_lt handle rfl
  constructor
  · rw [hopened]
    exact hcalls.numbered
  · simp
  · intro other
    rw [hclosed, List.count_append, hcalls.closed_once, hopened, List.count_singleton]
    by_cases hother : handle = other
    · subst hother
      simp [hlt]
    · simp [hother]

theorem openHandles_eq (hcalls : Consistent device calls) :
    openHandles calls = device.toList := by
  have hclosed : ∀ handle ∈ List.range (opened calls).length,
      decide (handle ∉ closed calls) = decide (device = some handle) := by
    intro handle hhandle
    have hcount := hcalls.closed_once handle
    rw [List.mem_range] at hhandle
    rw [decide_eq_decide, ← List.count_eq_zero, hcount]
    simp [hhandle]
  rw [openHandles, hcalls.numbered, List.filter_congr hclosed]
  cases hdevice : device with
  | none => simp
  | some handle =>
      have hlt := hcalls.device_lt handle hdevice
      simp only [Option.some_inj, eq_comm (a := handle), List.filter_eq,
        List.count_range, if_pos hlt, Option.toList_some, List.replicate_one]

theorem length_le_of_mem_opened (hcalls : Consistent device (calls ++ more))
    (hhandle : handle ∈ opened more) : (opened calls).length ≤ handle := by
  have hdrop := congrArg (List.drop (opened calls).length) hcalls.numbered
  rw [opened_append, List.drop_left, List.length_append, List.range_eq_range',
    List.drop_range'] at hdrop
  rw [hdrop, List.mem_range'_1] at hhandle
  omega

end Consistent

/-! ## What the functions do -/

namespace LibUsb

structure Idle (lib : LibUsb) : Prop where
  device : lib.device = none
  descriptors : lib.descriptors = none
  consistent : Consistent none lib.calls

structure InUse (lib : LibUsb) (handle : ℕ) : Prop where
  device : lib.device = some handle
  descriptors : lib.descriptors.isSome = true
  consistent : Consistent (some handle) lib.calls

theorem idle_initial : initial.Idle := ⟨rfl, rfl, .initial⟩

variable {lib : LibUsb} {handle position : ℕ}

theorem Idle.call (hidle : lib.Idle) {calls : List Call} (hcalls : Silent calls) :
    (lib.call calls).Idle :=
  ⟨hidle.device, hidle.descriptors, hidle.consistent.silent hcalls⟩

theorem InUse.call (huse : lib.InUse handle) {calls : List Call} (hcalls : Silent calls) :
    (lib.call calls).InUse handle :=
  ⟨huse.device, huse.descriptors, huse.consistent.silent hcalls⟩

theorem InUse.idle_release (huse : lib.InUse handle) :
    (lib.resetDescriptors.closeDevice handle).Idle ∧
      lib.calls <+: (lib.resetDescriptors.closeDevice handle).calls := by
  obtain ⟨descriptors, hdescriptors⟩ := Option.isSome_iff_exists.mp huse.descriptors
  have hfree : Silent [.freeConfig descriptors.handle] := ⟨rfl, rfl⟩
  simp only [resetDescriptors, hdescriptors, closeDevice, LibUsb.call]
  refine ⟨⟨rfl, rfl, (huse.consistent.silent hfree).closeDevice⟩, ?_⟩
  rw [List.append_assoc]
  exact List.prefix_append _ _

theorem InUse.close (huse : lib.InUse handle) :
    lib.close.Idle ∧ lib.calls <+: lib.close.calls := by
  obtain ⟨descriptors, hdescriptors⟩ := Option.isSome_iff_exists.mp huse.descriptors
  have hreleases := silent_releases handle descriptors.interfaceCount
  obtain ⟨hidle, hcalls⟩ := (huse.call hreleases).idle_release
  simp only [LibUsb.close, huse.device, hdescriptors]
  exact ⟨hidle, (List.prefix_append _ _).trans hcalls⟩

theorem Idle.close (hidle : lib.Idle) : lib.close = lib := by
  simp only [LibUsb.close, hidle.device]

theorem usbDescriptors_eq (device : Device) (handle : ℕ) :
    device.usbDescriptors handle =
      if device.handleDescriptor.Succeeds ∧ device.activeConfig.Succeeds then
        some ⟨handle, device.claims.length⟩
      else none := by
  by_cases hdescriptor : device.handleDescriptor.code = 0 <;>
    by_cases hconfig : device.activeConfig.code = 0 <;>
      simp [Device.usbDescriptors, Result.Succeeds, hdescriptor, hconfig]

/-- The state after the claims, for a device that opens and has its descriptors. -/
def holding (lib : LibUsb) (position : ℕ) (device : Device) : LibUsb :=
  let handle := (opened lib.calls).length
  { device := some handle
    descriptors := some ⟨handle, device.claims.length⟩
    calls := lib.calls ++ [.openDevice handle position] ++
      ([.getActiveConfig handle, .setAutoDetach handle] ++
        (claimInterfaces handle 0 device.claims).1) }

theorem Idle.holding_inUse (hidle : lib.Idle) (position : ℕ) (device : Device) :
    (lib.holding position device).InUse (opened lib.calls).length := by
  have hclaims := silent_claimInterfaces (opened lib.calls).length 0 device.claims
  refine ⟨rfl, rfl, (hidle.consistent.openDevice position).silent ?_⟩
  exact ⟨hclaims.1, hclaims.2⟩

theorem calls_holding (lib : LibUsb) (position : ℕ) (device : Device) :
    lib.calls ++ [.openDevice (opened lib.calls).length position] <+:
      (lib.holding position device).calls :=
  List.prefix_append _ _

theorem tryDevice_of_descriptors {device : Device}
    (hopen : device.openResult.Succeeds) (hdescriptor : device.handleDescriptor.Succeeds)
    (hconfig : device.activeConfig.Succeeds) :
    lib.tryDevice position device =
      if ∀ claim ∈ device.claims, claim.Succeeds then (lib.holding position device, true)
      else
        ((lib.holding position device).resetDescriptors.closeDevice
          (opened lib.calls).length, false) := by
  have hnonneg := device.openResult.not_neg_iff.mpr hopen
  have hdescriptors : device.usbDescriptors (opened lib.calls).length =
      some ⟨(opened lib.calls).length, device.claims.length⟩ := by
    rw [usbDescriptors_eq, if_pos ⟨hdescriptor, hconfig⟩]
  have hclaimed := claimInterfaces_iff (opened lib.calls).length 0 device.claims
  simp only [tryDevice, if_neg hnonneg, hdescriptors, hclaimed]
  rfl

theorem tryDevice_of_usable (hidle : lib.Idle) {device : Device} (husable : device.Usable)
    (position : ℕ) :
    (lib.tryDevice position device).2 = true ∧
      (lib.tryDevice position device).1.InUse (opened lib.calls).length ∧
      lib.calls ++ [.openDevice (opened lib.calls).length position] <+:
        (lib.tryDevice position device).1.calls := by
  rw [tryDevice_of_descriptors husable.opens husable.descriptor husable.config,
    if_pos husable.interfaces]
  exact ⟨rfl, hidle.holding_inUse position device, calls_holding lib position device⟩

/-- Whatever fails, nothing of the device is left. -/
theorem tryDevice_of_not_usable (hidle : lib.Idle) {device : Device}
    (hnot : ¬device.Usable) (position : ℕ) :
    (lib.tryDevice position device).2 = false ∧
      (lib.tryDevice position device).1.Idle ∧
      lib.calls <+: (lib.tryDevice position device).1.calls := by
  by_cases hopen : device.openResult.code < 0
  · simp only [tryDevice, if_pos hopen]
    exact ⟨trivial, hidle, List.prefix_rfl⟩
  by_cases hdescriptors : device.handleDescriptor.Succeeds ∧ device.activeConfig.Succeeds
  · rw [Result.not_neg_iff] at hopen
    have hclaims : ¬∀ claim ∈ device.claims, claim.Succeeds := fun hinterfaces =>
      hnot ⟨hopen, hdescriptors.1, hdescriptors.2, hinterfaces⟩
    obtain ⟨hreleased, hcalls⟩ := (hidle.holding_inUse position device).idle_release
    rw [tryDevice_of_descriptors hopen hdescriptors.1 hdescriptors.2, if_neg hclaims]
    refine ⟨rfl, hreleased, ?_⟩
    exact ((List.prefix_append _ _).trans (calls_holding lib position device)).trans hcalls
  · have hopened := hidle.consistent.openDevice position
    simp only [tryDevice, if_neg hopen, usbDescriptors_eq, if_neg hdescriptors]
    refine ⟨trivial, ⟨rfl, hidle.descriptors, hopened.closeDevice⟩, ?_⟩
    simp only [closeDevice, LibUsb.call, List.append_assoc]
    exact List.prefix_append _ _

/-! ## The search -/

/-- What a search has done: the device at the first candidate is in use, or
nothing is if there is no candidate. -/
structure Searched (vendorId productId seq : ℤ) (devices : List Device) (start : ℕ)
    (lib after : LibUsb) : Prop where
  calls : lib.calls <+: after.calls
  selected : ∀ position, Selected vendorId productId seq devices position →
    ∃ handle, after.InUse handle ∧
      .openDevice handle (start + position) ∈ after.calls.drop lib.calls.length
  none_selected : (∀ position, ¬Candidate vendorId productId seq devices position) →
    after.Idle

variable {vendorId productId seq : ℤ} {devices : List Device} {start : ℕ}
  {next after : LibUsb}

theorem Searched.cons {device : Device}
    (hnot : ¬Candidate vendorId productId seq (device :: devices) 0)
    (hcalls : lib.calls <+: next.calls)
    (hrest : Searched vendorId productId
      (if device.Matches vendorId productId then seq - 1 else seq) devices (start + 1)
      next after) :
    Searched vendorId productId seq (device :: devices) start lib after where
  calls := hcalls.trans hrest.calls
  selected := by
    intro position hselected
    obtain ⟨before, rfl, hbefore⟩ := (selected_succ_iff hnot).mp hselected
    obtain ⟨handle, huse, hopen⟩ := hrest.selected before hbefore
    refine ⟨handle, huse, ?_⟩
    rw [← Nat.add_assoc, Nat.add_right_comm]
    exact (List.drop_sublist_drop_left _ hcalls.length_le).subset hopen
  none_selected := by
    intro hnone
    refine hrest.none_selected fun position => ?_
    rw [← candidate_succ_iff]
    exact hnone (position + 1)

theorem searched_of_usable {device : Device} {handle : ℕ}
    (hcandidate : Candidate vendorId productId seq (device :: devices) 0)
    (huse : after.InUse handle)
    (hcalls : lib.calls ++ [.openDevice handle start] <+: after.calls) :
    Searched vendorId productId seq (device :: devices) start lib after where
  calls := (List.prefix_append _ _).trans hcalls
  selected := by
    intro position hselected
    have hzero : position = 0 := by
      by_contra hne
      exact hselected.2 0 (by omega) hcandidate
    subst hzero
    obtain ⟨more, hmore⟩ := hcalls
    refine ⟨handle, huse, ?_⟩
    rw [← hmore, List.append_assoc, List.drop_left]
    exact List.mem_cons_self
  none_selected := fun hnone => absurd hcandidate (hnone 0)

theorem search_cons_of_not_matches {device : Device}
    (hmatches : ¬device.Matches vendorId productId) :
    lib.search vendorId productId start seq (device :: devices) =
      lib.search vendorId productId (start + 1) seq devices := by
  by_cases hdescriptor : device.deviceDescriptor.code < 0
  · simp only [search, if_pos hdescriptor]
  · have hids : ¬((device.idVendor.toNat : ℤ) = vendorId ∧
        (device.idProduct.toNat : ℤ) = productId) := by
      rw [Result.not_neg_iff] at hdescriptor
      exact fun hids => hmatches ⟨hdescriptor, hids⟩
    simp only [search, if_neg hdescriptor, if_neg hids]

theorem search_cons_of_matches {device : Device}
    (hmatches : device.Matches vendorId productId) :
    lib.search vendorId productId start seq (device :: devices) =
      if seq - 1 < 0 then
        let result := lib.tryDevice start device
        if result.2 then result.1
        else result.1.search vendorId productId (start + 1) (seq - 1) devices
      else lib.search vendorId productId (start + 1) (seq - 1) devices := by
  have hdescriptor := device.deviceDescriptor.not_neg_iff.mpr hmatches.1
  simp only [search, if_neg hdescriptor, if_pos hmatches.2]

theorem search_spec (hidle : lib.Idle) (start : ℕ) (seq : ℤ) (devices : List Device) :
    Searched vendorId productId seq devices start lib
      (lib.search vendorId productId start seq devices) := by
  induction devices generalizing lib start seq with
  | nil =>
      refine ⟨List.prefix_rfl, fun position hselected => ?_, fun _ => hidle⟩
      exact absurd hselected.1 not_candidate_nil
  | cons device devices ih =>
      by_cases hmatches : device.Matches vendorId productId
      · rw [search_cons_of_matches hmatches]
        by_cases hseq : seq - 1 < 0
        · rw [if_pos hseq]
          by_cases husable : device.Usable
          · obtain ⟨hfound, huse, hcalls⟩ := tryDevice_of_usable hidle husable start
            simp only [hfound, if_true]
            refine searched_of_usable ?_ huse hcalls
            exact candidate_zero_iff.mpr ⟨hmatches, husable, by omega⟩
          · obtain ⟨hfound, hnext, hcalls⟩ := tryDevice_of_not_usable hidle husable start
            simp only [hfound, Bool.false_eq_true, if_false]
            refine .cons (fun hzero => ?_) hcalls ?_
            · exact husable (candidate_zero_iff.mp hzero).2.1
            · rw [if_pos hmatches]
              exact ih hnext (start + 1) (seq - 1)
        · rw [if_neg hseq]
          refine .cons (fun hzero => ?_) List.prefix_rfl ?_
          · have hle := (candidate_zero_iff.mp hzero).2.2
            omega
          · rw [if_pos hmatches]
            exact ih hidle (start + 1) (seq - 1)
      · rw [search_cons_of_not_matches hmatches]
        refine .cons (fun hzero => ?_) List.prefix_rfl ?_
        · exact hmatches (candidate_zero_iff.mp hzero).1
        · rw [if_neg hmatches]
          exact ih hidle (start + 1) seq

theorem Searched.extend {before : LibUsb} {calls : List Call}
    (hsearched : Searched vendorId productId seq devices start lib after)
    (hbefore : before.calls <+: lib.calls) (hcalls : Silent calls) :
    Searched vendorId productId seq devices start before (after.call calls) where
  calls := (hbefore.trans hsearched.calls).trans (List.prefix_append _ _)
  selected := by
    intro position hselected
    obtain ⟨handle, huse, hopen⟩ := hsearched.selected position hselected
    refine ⟨handle, huse.call hcalls, ?_⟩
    have hdrop := List.drop_subset_drop_left after.calls hbefore.length_le hopen
    rw [LibUsb.call, List.drop_append_of_le_length]
    · exact List.mem_append_left _ hdrop
    · exact hbefore.length_le.trans hsearched.calls.length_le
  none_selected := fun hnone => (hsearched.none_selected hnone).call hcalls

theorem Searched.cases (hsearched : Searched vendorId productId seq devices start lib after) :
    (∃ position handle, Selected vendorId productId seq devices position ∧
        after.InUse handle ∧
        .openDevice handle (start + position) ∈ after.calls.drop lib.calls.length) ∨
      ((∀ position, ¬Selected vendorId productId seq devices position) ∧ after.Idle) := by
  by_cases hcandidate : ∃ position, Candidate vendorId productId seq devices position
  · obtain ⟨position, hposition⟩ := hcandidate
    obtain ⟨first, hfirst⟩ := exists_selected hposition
    obtain ⟨handle, huse, hopen⟩ := hsearched.selected first hfirst
    exact .inl ⟨first, handle, hfirst, huse, hopen⟩
  · rw [not_exists] at hcandidate
    refine .inr ⟨fun position hselected => ?_, hsearched.none_selected hcandidate⟩
    exact hcandidate position hselected.1

/-! ## Opening -/

/-- The states between calls: nothing is open, or one device is in use. -/
def Ready (lib : LibUsb) : Prop :=
  lib.Idle ∨ ∃ handle, lib.InUse handle

theorem Ready.consistent (hready : lib.Ready) : Consistent lib.device lib.calls := by
  rcases hready with hidle | ⟨handle, huse⟩
  · exact hidle.device ▸ hidle.consistent
  · exact huse.device ▸ huse.consistent

theorem Ready.paired (hready : lib.Ready) :
    lib.device.isSome = lib.descriptors.isSome := by
  rcases hready with hidle | ⟨handle, huse⟩
  · rw [hidle.device, hidle.descriptors]
    rfl
  · rw [huse.device, huse.descriptors]
    rfl

theorem Ready.close (hready : lib.Ready) :
    lib.close.Idle ∧ lib.calls <+: lib.close.calls := by
  rcases hready with hidle | ⟨handle, huse⟩
  · rw [hidle.close]
    exact ⟨hidle, List.prefix_rfl⟩
  · exact huse.close

theorem openIds_searched (hready : lib.Ready) (list : Option (List Device))
    (vendorId productId seq : ℤ) :
    Searched vendorId productId seq (list.getD []) 0 lib
      (lib.openIds list vendorId productId seq).1 := by
  obtain ⟨hidle, hcalls⟩ := hready.close
  cases list with
  | none =>
      refine ⟨hcalls, fun position hselected => ?_, fun _ => hidle⟩
      exact absurd hselected.1 not_candidate_nil
  | some devices =>
      have hlist : Silent [.getDeviceList] := ⟨rfl, rfl⟩
      have hfree : Silent [.freeDeviceList] := ⟨rfl, rfl⟩
      exact (search_spec (hidle.call hlist) 0 seq devices).extend
        (hcalls.trans (List.prefix_append _ _)) hfree

theorem openIds_returned (hready : lib.Ready) (list : Option (List Device))
    (vendorId productId seq : ℤ) :
    (lib.openIds list vendorId productId seq).2 =
      (lib.openIds list vendorId productId seq).1.device.isSome := by
  cases list with
  | none =>
      obtain ⟨hidle, -⟩ := hready.close
      simp only [openIds, hidle.device]
      rfl
  | some devices => rfl

theorem Searched.ready (hsearched : Searched vendorId productId seq devices start lib after) :
    after.Ready := by
  rcases hsearched.cases with ⟨position, handle, -, huse, -⟩ | ⟨-, hidle⟩
  · exact .inr ⟨handle, huse⟩
  · exact .inl hidle

/-- What a call of `open` should do, given the selected position of the list. -/
structure Opens (before : LibUsb) (selected : ℕ → Prop) (after : LibUsb) (returned : Bool) :
    Prop where
  calls : before.calls <+: after.calls
  returned_iff : returned = true ↔ ∃ position, selected position
  selected_open : ∀ position, selected position → ∃ handle, after.device = some handle ∧
    .openDevice handle position ∈ after.calls.drop before.calls.length
  device_returned : after.device.isSome = returned
  only_open : openHandles after.calls = after.device.toList
  closed_before : ∀ handle ∈ openHandles before.calls,
    (closed (after.calls.drop before.calls.length)).count handle = 1
  closed_others : ∀ handle ∈ opened (after.calls.drop before.calls.length),
    after.device ≠ some handle →
      (closed (after.calls.drop before.calls.length)).count handle = 1
  paired : after.device.isSome = after.descriptors.isSome

/-- In a consistent log, the calls since an earlier one close what was open, unless
it still is, and what was opened and is not in use. -/
theorem count_closed_since {before calls : List Call} {used device : Option ℕ}
    (hbefore : Consistent used before) (hcalls : Consistent device (before ++ calls))
    {handle : ℕ} (hhandle : handle ∈ openHandles before ++ opened calls)
    (hdevice : device ≠ some handle) : (closed calls).count handle = 1 := by
  have hcount := hcalls.closed_once handle
  rw [closed_append, List.count_append, hbefore.closed_once, opened_append,
    List.length_append] at hcount
  rcases List.mem_append.mp hhandle with hopen | hopened
  · rw [hbefore.openHandles_eq, Option.mem_toList] at hopen
    have hlt := hbefore.device_lt handle hopen
    rw [if_neg (by simp [Option.mem_def.mp hopen]), if_pos ⟨by omega, hdevice⟩] at hcount
    omega
  · have hle := hcalls.length_le_of_mem_opened hopened
    have hlt : handle < (opened before).length + (opened calls).length := by
      have hmem : handle ∈ opened (before ++ calls) := by
        rw [opened_append]
        exact List.mem_append_right _ hopened
      rw [hcalls.numbered, List.mem_range, opened_append, List.length_append] at hmem
      exact hmem
    rw [if_neg (by omega), if_pos ⟨hlt, hdevice⟩] at hcount
    omega

theorem Searched.opens {before : LibUsb} {returned : Bool} (hready : before.Ready)
    (hsearched : Searched vendorId productId seq devices 0 before after)
    (hreturned : returned = after.device.isSome) :
    Opens before (Selected vendorId productId seq devices) after returned := by
  obtain ⟨calls, hcalls⟩ := hsearched.calls
  have hsince : after.calls.drop before.calls.length = calls := by
    rw [← hcalls, List.drop_left]
  have hafter := hsearched.ready.consistent
  rw [← hcalls] at hafter
  -- the handle in use is a new one
  have hfresh : ∀ handle ∈ openHandles before.calls, after.device ≠ some handle := by
    intro handle hopen hdevice
    rw [hready.consistent.openHandles_eq, Option.mem_toList] at hopen
    have hlt := hready.consistent.device_lt handle hopen
    rcases hsearched.cases with ⟨position, opened, -, huse, hmem⟩ | ⟨-, hidle⟩
    · rw [huse.device, Option.some_inj] at hdevice
      subst hdevice
      rw [hsince] at hmem
      have hle := hafter.length_le_of_mem_opened (List.mem_filterMap.mpr ⟨_, hmem, rfl⟩)
      omega
    · simp [hidle.device] at hdevice
  constructor
  · exact hsearched.calls
  · rw [hreturned]
    rcases hsearched.cases with ⟨position, handle, hselected, huse, -⟩ | ⟨hnone, hidle⟩
    · simp only [huse.device, Option.isSome_some, true_iff]
      exact ⟨position, hselected⟩
    · simp [hidle.device, hnone]
  · intro position hselected
    obtain ⟨handle, huse, hopen⟩ := hsearched.selected position hselected
    rw [Nat.zero_add] at hopen
    exact ⟨handle, huse.device, hopen⟩
  · exact hreturned.symm
  · exact hsearched.ready.consistent.openHandles_eq
  · intro handle hopen
    rw [hsince]
    exact count_closed_since hready.consistent hafter (List.mem_append_left _ hopen)
      (hfresh handle hopen)
  · intro handle hopened hdevice
    rw [hsince] at hopened ⊢
    exact count_closed_since hready.consistent hafter (List.mem_append_right _ hopened)
      hdevice
  · exact hsearched.ready.paired

/-! ## Runs -/

inductive Operation where
  | openIds (list : Option (List Device)) (vendorId productId seq : ℤ)
  | close

def step (lib : LibUsb) : Operation → LibUsb
  | .openIds list vendorId productId seq => (lib.openIds list vendorId productId seq).1
  | .close => lib.close

def run (operations : List Operation) : LibUsb :=
  operations.foldl step initial

theorem Ready.step (hready : lib.Ready) (operation : Operation) :
    (lib.step operation).Ready := by
  cases operation with
  | openIds list vendorId productId seq =>
      exact (openIds_searched hready list vendorId productId seq).ready
  | close => exact .inl hready.close.1

theorem ready_run (operations : List Operation) : (run operations).Ready := by
  induction operations using List.reverseRecOn with
  | nil => exact .inl idle_initial
  | append_singleton operations operation ih =>
      rw [run, List.foldl_append]
      exact ih.step operation

/-- After any calls, `open` selects the first usable device at or after the
`seq`-th one with these ids, and closes all other handles. -/
theorem openIds_selects (operations : List Operation) (list : Option (List Device))
    (vendorId productId : ℤ) (seq : ℕ) :
    let before := run operations
    let result := before.openIds list vendorId productId seq
    Opens before (Selected vendorId productId seq (list.getD [])) result.1 result.2 := by
  intro before result
  have hready := ready_run operations
  exact (openIds_searched hready list vendorId productId seq).opens hready
    (openIds_returned hready list vendorId productId seq)

end LibUsb

end SensorHub.UsbOpen
