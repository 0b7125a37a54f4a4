import SensorHub.FloatText
import SensorHub.UsbOpen

/-!
# Connection strings of USB devices

A connection string has the ids of a device in hexadecimal, separated by a colon,
and maybe a sequence number behind a comma.  Of the overloads of `Lib_usb::open`
the one for the ids, and the one for the text of the ids with a number, return
whether they have opened a device; only the one for a connection string throws.

`get_usb_connection_string` tries four numbers and waits for that exception, but
it calls an overload that returns its result.  So it always settles on the number
zero, which is right exactly when a device with these ids is free.
-/

namespace SensorHub.UsbOpen

open DecimalText (isSpace splitSign)
open FloatText (isHexDigit ofDigits)

/-! ## Numbers in texts -/

inductive Error where
  | invalidArgument
  | outOfRange
  | usbException (what : String)
  deriving DecidableEq, Repr

/-- The digits at the start of a text, in base 16 or 10. -/
def leadingDigits (base : ℕ) (text : List Char) : List Char :=
  if base = 16 then
    match text with
    | '0' :: x :: rest =>
        if (x = 'x' ∨ x = 'X') ∧ rest.head?.any isHexDigit then
          rest.takeWhile isHexDigit
        else text.takeWhile isHexDigit
    | _ => text.takeWhile isHexDigit
  else text.takeWhile Char.isDigit

/-- The conversion to a number that fits in that many bits. -/
def readNumber (bits base : ℕ) (text : List Char) : Except Error ℤ :=
  let (negative, rest) := splitSign (text.dropWhile isSpace)
  let digits := leadingDigits base rest
  if digits = [] then .error .invalidArgument
  else
    let magnitude : ℤ := ofDigits base digits
    let number := if negative then -magnitude else magnitude
    if -2 ^ (bits - 1) ≤ number ∧ number < 2 ^ (bits - 1) then .ok number
    else .error .outOfRange

/-- `std::stol` in base 16 -/
def stol (text : List Char) : Except Error ℤ :=
  readNumber 64 16 text

def stoi (text : List Char) : Except Error ℤ :=
  readNumber 32 10 text

/-- Conversion of a `long` to an `int`. -/
def toInt (number : ℤ) : ℤ :=
  number.bmod (2 ^ 32)

/-! ## The overloads for texts -/

namespace LibUsb

/-- `Lib_usb::open(const std::string&, int)` -/
def openText (lib : LibUsb) (list : Option (List Device)) (deviceStr : List Char)
    (seq : ℤ) : LibUsb × Except Error Bool :=
  match deviceStr.splitOn ':' with
  | [vendor, product] =>
      match stol vendor with
      | .error error => (lib, .error error)
      | .ok vendorId =>
          match stol product with
          | .error error => (lib, .error error)
          | .ok productId =>
              let (lib, result) :=
                lib.openIds list (toInt vendorId) (toInt productId) seq
              (lib, .ok result)
  | _ => (lib, .ok false)

/-- `Lib_usb::open(const std::string&)` -/
def openConnection (lib : LibUsb) (list : Option (List Device)) (deviceStr : List Char) :
    LibUsb × Except Error Unit :=
  let (lib, result) :=
    match deviceStr.splitOn ',' with
    | [device] => lib.openText list device 0
    | [device, number] =>
        match stoi number with
        | .error error => (lib, .error error)
        | .ok seq => lib.openText list device seq
    | _ => (lib, .ok false)
  match result with
  | .error error => (lib, .error error)
  | .ok false => (lib, .error (.usbException "USB open failure"))
  | .ok true => (lib, .ok ())

end LibUsb

def connectionString (vendorProduct : List Char) (i : ℕ) : List Char :=
  vendorProduct ++ ',' :: (Nat.repr i).toList

def notFound : List Char :=
  "usb_connection_string_not_found".toList

/-- The loop of `get_usb_connection_string` over the numbers left. -/
def tryNumbers (list : Option (List Device)) (vendorProduct : List Char) :
    LibUsb → List ℕ → LibUsb × Except Error (List Char)
  | usb, [] => (usb, .ok notFound)
  | usb, i :: numbers =>
      match usb.openText list vendorProduct i with
      | (usb, .ok _) => (usb.close, .ok (connectionString vendorProduct i))
      | (usb, .error (.usbException _)) => tryNumbers list vendorProduct usb numbers
      | (usb, .error error) => (usb, .error error)

/-- The devices answer each time in the same way: they stay free or in use. -/
def getUsbConnectionString (devices : List Device) (vendorProduct : List Char) :
    Except Error (List Char) :=
  (tryNumbers (some devices) vendorProduct .initial (List.range 4)).2

/-! ## Well-formed texts -/

/-- Two texts of numbers, separated by a colon, with the ids they stand for. -/
def WellFormed (vendorProduct : List Char) (vendorId productId : ℤ) : Prop :=
  ∃ vendor product vendorNumber productNumber,
    vendorProduct.splitOn ':' = [vendor, product] ∧
      stol vendor = .ok vendorNumber ∧ toInt vendorNumber = vendorId ∧
      stol product = .ok productNumber ∧ toInt productNumber = productId

def OpensAt (devices : List Device) (vendorProduct : List Char) (i : ℕ) : Prop :=
  (LibUsb.initial.openText (some devices) vendorProduct i).2 = .ok true

/-- The connection string for the least number that opens, if one does. -/
def IsRight (devices : List Device) (vendorProduct : List Char)
    (result : Except Error (List Char)) : Prop :=
  (∃ i < 4, OpensAt devices vendorProduct i ∧
      (∀ j < i, ¬OpensAt devices vendorProduct j) ∧
      result = .ok (connectionString vendorProduct i)) ∨
    (∀ i < 4, ¬OpensAt devices vendorProduct i) ∧ result = .ok notFound

/-! ## Texts of ids -/

section HexDigits

variable {digits : List Char} (hdigits : ∀ c ∈ digits, isHexDigit c = true)

include hdigits

theorem leadingDigits_of_isHexDigit : leadingDigits 16 digits = digits := by
  have htake : digits.takeWhile isHexDigit = digits := List.takeWhile_eq_self_iff.mpr hdigits
  simp only [leadingDigits, if_true]
  split
  · rename_i x rest
    have hx : ¬((x = 'x' ∨ x = 'X') ∧ rest.head?.any isHexDigit = true) := by
      rintro ⟨rfl | rfl, -⟩ <;> simp [isHexDigit] at hdigits
    rw [if_neg hx, htake]
  · exact htake

theorem ofDigits_lt_of_isHexDigit (hlength : digits.length ≤ 4) :
    ofDigits 16 digits < 16 ^ 4 := by
  have hlt := FloatText.ofDigits_lt_pow (show 1 < 16 by decide) fun c hc =>
    FloatText.digitValue_lt_of_isHexDigit (hdigits c hc)
  exact hlt.trans_le (Nat.pow_le_pow_right (by decide) hlength)

theorem stol_of_isHexDigit (hne : digits ≠ []) (hlength : digits.length ≤ 4) :
    stol digits = .ok (ofDigits 16 digits) := by
  have hspaces : digits.dropWhile isSpace = digits := by
    apply DecimalText.dropWhile_isSpace
    intro c hc
    by_contra hspace
    simp only [isSpace, Bool.or_eq_true, decide_eq_true_eq, Bool.not_eq_false] at hspace
    rcases hspace with ((((rfl | rfl) | rfl) | rfl) | rfl) | rfl <;>
      exact absurd (hdigits _ hc) (by decide)
  have hsign : splitSign digits = (false, digits) := by
    apply FloatText.splitSign_signChars none
    intro c hc
    have hdigit := hdigits c (List.mem_of_mem_head? hc)
    constructor <;> rintro rfl <;> revert hdigit <;> decide
  have hlt := ofDigits_lt_of_isHexDigit hdigits hlength
  simp only [stol, readNumber, hspaces, hsign, leadingDigits_of_isHexDigit hdigits, if_neg hne,
    Bool.false_eq_true, if_false]
  rw [if_pos (by omega)]

end HexDigits

/-- An id of sixteen bits in hexadecimal. -/
structure IsId (text : List Char) : Prop where
  ne_nil : text ≠ []
  length_le : text.length ≤ 4
  isHexDigit : ∀ c ∈ text, isHexDigit c = true

theorem IsId.toInt_eq {text : List Char} (hid : IsId text) :
    toInt (ofDigits 16 text) = ofDigits 16 text := by
  have hlt := ofDigits_lt_of_isHexDigit hid.isHexDigit hid.length_le
  rw [toInt, Int.bmod_eq_of_le] <;> omega

theorem IsId.colon_not_mem {text : List Char} (hid : IsId text) : ':' ∉ text := by
  intro hcolon
  exact absurd (hid.isHexDigit ':' hcolon) (by decide)

theorem wellFormed_of_isId {vendor product : List Char} (hvendor : IsId vendor)
    (hproduct : IsId product) :
    WellFormed (vendor ++ ':' :: product) (ofDigits 16 vendor) (ofDigits 16 product) := by
  refine ⟨vendor, product, ofDigits 16 vendor, ofDigits 16 product, ?_, ?_, hvendor.toInt_eq,
    ?_, hproduct.toInt_eq⟩
  · rw [List.splitOn_append_cons_self, List.splitOn_eq_singleton hvendor.colon_not_mem,
      List.splitOn_eq_singleton hproduct.colon_not_mem]
    rfl
  · exact stol_of_isHexDigit hvendor.isHexDigit hvendor.ne_nil hvendor.length_le
  · exact stol_of_isHexDigit hproduct.isHexDigit hproduct.ne_nil hproduct.length_le

/-! ## The result -/

variable {devices : List Device} {vendorProduct : List Char} {vendorId productId : ℤ}

theorem openText_of_wellFormed (hformed : WellFormed vendorProduct vendorId productId)
    (lib : LibUsb) (list : Option (List Device)) (seq : ℤ) :
    lib.openText list vendorProduct seq =
      ((lib.openIds list vendorId productId seq).1,
        .ok (lib.openIds list vendorId productId seq).2) := by
  obtain ⟨vendor, product, vendorNumber, productNumber, hsplit, hvendor, rfl, hproduct,
    rfl⟩ := hformed
  simp only [LibUsb.openText, hsplit, hvendor, hproduct]

/-- For a well-formed text no overload throws, so the first number is taken. -/
theorem getUsbConnectionString_of_wellFormed
    (hformed : WellFormed vendorProduct vendorId productId) (devices : List Device) :
    getUsbConnectionString devices vendorProduct =
      .ok (connectionString vendorProduct 0) := by
  have hnumbers : List.range 4 = [0, 1, 2, 3] := rfl
  simp only [getUsbConnectionString, hnumbers, tryNumbers, openText_of_wellFormed hformed]

theorem opensAt_iff (hformed : WellFormed vendorProduct vendorId productId)
    (devices : List Device) (i : ℕ) :
    OpensAt devices vendorProduct i ↔
      ∃ position, Candidate vendorId productId i devices position := by
  have hready : LibUsb.initial.Ready := .inl LibUsb.idle_initial
  have hopens := (LibUsb.openIds_searched hready (some devices) vendorId productId i).opens
    hready (LibUsb.openIds_returned hready (some devices) vendorId productId i)
  have hreturned := hopens.returned_iff
  simp only [Option.getD_some] at hreturned
  simp only [OpensAt, openText_of_wellFormed hformed, Except.ok.injEq, hreturned]
  constructor
  · rintro ⟨position, hselected⟩
    exact ⟨position, hselected.1⟩
  · rintro ⟨position, hcandidate⟩
    exact exists_selected hcandidate

theorem exists_candidate_zero_iff :
    (∃ position, Candidate vendorId productId 0 devices position) ↔
      ∃ device ∈ devices, device.Matches vendorId productId ∧ device.Usable := by
  constructor
  · rintro ⟨position, device, hdevice, hmatches, husable, -⟩
    exact ⟨device, List.mem_of_getElem? hdevice, hmatches, husable⟩
  · rintro ⟨device, hmem, hmatches, husable⟩
    obtain ⟨position, hdevice⟩ := List.mem_iff_getElem?.mp hmem
    exact ⟨position, device, hdevice, hmatches, husable, by omega⟩

theorem OpensAt.zero (hformed : WellFormed vendorProduct vendorId productId) {i : ℕ}
    (hopens : OpensAt devices vendorProduct i) : OpensAt devices vendorProduct 0 := by
  rw [opensAt_iff hformed] at hopens ⊢
  obtain ⟨position, device, hdevice, hmatches, husable, -⟩ := hopens
  exact ⟨position, device, hdevice, hmatches, husable, by omega⟩

theorem connectionString_ne_notFound (vendorProduct : List Char) (i : ℕ) :
    connectionString vendorProduct i ≠ notFound := by
  intro heq
  have hcomma : ',' ∈ notFound := by
    rw [← heq]
    exact List.mem_append_right _ List.mem_cons_self
  revert hcomma
  decide

theorem isRight_zero_iff (hformed : WellFormed vendorProduct vendorId productId)
    (devices : List Device) :
    IsRight devices vendorProduct (getUsbConnectionString devices vendorProduct) ↔
      OpensAt devices vendorProduct 0 := by
  rw [getUsbConnectionString_of_wellFormed hformed]
  constructor
  · rintro (⟨i, -, hopens, -⟩ | ⟨-, hresult⟩)
    · exact hopens.zero hformed
    · rw [Except.ok.injEq] at hresult
      exact absurd hresult (connectionString_ne_notFound vendorProduct 0)
  · intro hopens
    refine .inl ⟨0, by decide, hopens, ?_, rfl⟩
    intro j hj
    omega

/-- The connection string is right exactly when a device with these ids is free. -/
theorem connection_string_right_iff (devices : List Device) (vendorProduct : List Char)
    (vendorId productId : ℤ) (hformed : WellFormed vendorProduct vendorId productId) :
    IsRight devices vendorProduct (getUsbConnectionString devices vendorProduct) ↔
      ∃ device ∈ devices, device.Matches vendorId productId ∧ device.Usable := by
  rw [isRight_zero_iff hformed, opensAt_iff hformed, Nat.cast_zero,
    exists_candidate_zero_iff]

theorem wellFormed_xsens : WellFormed "2639:0017".toList 0x2639 0x17 := by
  have hvendor : IsId "2639".toList := ⟨by decide, by decide, List.all_eq_true.mp rfl⟩
  have hproduct : IsId "0017".toList := ⟨by decide, by decide, List.all_eq_true.mp rfl⟩
  exact wellFormed_of_isId hvendor hproduct

/-- A device with the ids of the sensor, which is free or refuses its interface. -/
def sensor (claim : Result) : Device where
  deviceDescriptor := .success
  idVendor := 0x2639
  idProduct := 0x17
  openResult := .success
  handleDescriptor := .success
  activeConfig := .success
  claims := [claim]

/-- The free sensor behind one in use. -/
theorem right_of_free_sensor :
    IsRight [sensor .busy, sensor .success] "2639:0017".toList
      (getUsbConnectionString [sensor .busy, sensor .success] "2639:0017".toList) := by
  refine (connection_string_right_iff _ _ 0x2639 0x17 wellFormed_xsens).mpr ?_
  exact ⟨sensor .success, by simp, by decide, by decide⟩

/-- A single sensor in use gets a connection string all the same. -/
theorem not_right_of_busy_sensor :
    ¬∀ (devices : List Device) (vendorProduct : List Char) (vendorId productId : ℤ),
        WellFormed vendorProduct vendorId productId →
          IsRight devices vendorProduct (getUsbConnectionString devices vendorProduct) := by
  intro hall
  have hright := hall [sensor .busy] "2639:0017".toList 0x2639 0x17 wellFormed_xsens
  rw [isRight_zero_iff wellFormed_xsens, opensAt_iff wellFormed_xsens, Nat.cast_zero,
    exists_candidate_zero_iff] at hright
  revert hright
  decide

/-! ## Opening by the connection string -/

theorem stoi_repr {i : ℕ} (hi : i < 4) : stoi (Nat.repr i).toList = .ok (i : ℤ) := by
  interval_cases i <;> decide

theorem openConnection_connectionString
    (hformed : WellFormed vendorProduct vendorId productId) (hcomma : ',' ∉ vendorProduct)
    (lib : LibUsb) (list : Option (List Device)) {i : ℕ} (hi : i < 4) :
    lib.openConnection list (connectionString vendorProduct i) =
      ((lib.openIds list vendorId productId i).1,
        if (lib.openIds list vendorId productId i).2 then .ok ()
        else .error (.usbException "USB open failure")) := by
  have hnumber : ',' ∉ (Nat.repr i).toList := by
    interval_cases i <;> decide
  have hsplit : (connectionString vendorProduct i).splitOn ',' =
      [vendorProduct, (Nat.repr i).toList] := by
    rw [connectionString, List.splitOn_append_cons_self, List.splitOn_eq_singleton hcomma,
      List.splitOn_eq_singleton hnumber]
    rfl
  simp only [LibUsb.openConnection, hsplit, stoi_repr hi, openText_of_wellFormed hformed]
  cases (lib.openIds list vendorId productId i).2 <;> rfl

/-- The connection string is right exactly when the device can be opened by it. -/
theorem openConnection_iff_isRight
    (hformed : WellFormed vendorProduct vendorId productId) (hcomma : ',' ∉ vendorProduct)
    (devices : List Device) :
    (LibUsb.initial.openConnection (some devices) (connectionString vendorProduct 0)).2 =
        .ok () ↔
      IsRight devices vendorProduct (getUsbConnectionString devices vendorProduct) := by
  rw [isRight_zero_iff hformed, OpensAt, openText_of_wellFormed hformed,
    openConnection_connectionString hformed hcomma _ _ (by decide)]
  cases (LibUsb.initial.openIds (some devices) vendorId productId (0 : ℕ)).2 <;> simp

end SensorHub.UsbOpen
