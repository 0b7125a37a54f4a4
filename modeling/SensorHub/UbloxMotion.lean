import SensorHub.UbloxFields
import SensorHub.UbloxRoundTrip

/-!
# Values of the motion sensors

The calibrated measurements of one packet share the stamp of the packet, and a
bit field says which of them are valid.  Their scales are written `10E-3` and
`10E-2` in the source, ten times the scales that are stated beside the fields.

The raw measurements of a packet have time tags of 32 bits, which are compared
with the tag of the last one as plain numbers.  So a measurement is lost when
the counter has started again after it was taken.
-/

namespace SensorHub.Ublox

open X3

variable {K : Type} [ExactDouble K]

/-- Selections from one list agree iff they agree on each element, when the one
is defined wherever the other is. -/
theorem filterMap_eq_iff {α β : Type*} {first second : α → Option β} {items : List α}
    (hdefined : ∀ item ∈ items, first item ≠ none → second item ≠ none) :
    items.filterMap first = items.filterMap second ↔
      ∀ item ∈ items, first item = second item := by
  have hlength : ∀ items : List α, (∀ item ∈ items, first item ≠ none → second item ≠ none) →
      (items.filterMap first).length ≤ (items.filterMap second).length := by
    intro items hdefined
    induction items with
    | nil => exact le_rfl
    | cons item items ih =>
        rw [List.forall_mem_cons] at hdefined
        have htail := ih hdefined.2
        cases hfirst : first item <;> cases hsecond : second item
        · simpa [hfirst, hsecond] using htail
        · simpa [hfirst, hsecond] using htail.trans (Nat.le_succ _)
        · exact absurd hsecond (hdefined.1 (by simp [hfirst]))
        · simpa [hfirst, hsecond] using htail
  induction items with
  | nil => simp
  | cons item items ih =>
      rw [List.forall_mem_cons] at hdefined
      have htail := hlength items hdefined.2
      have hrest : items.filterMap first = items.filterMap second ↔
          ∀ item ∈ items, first item = second item := ih hdefined.2
      rw [List.forall_mem_cons, ← hrest]
      cases hfirst : first item <;> cases hsecond : second item
      · simp [hfirst, hsecond]
      · -- what only the second one selects makes its list longer
        simp only [List.filterMap_cons, hfirst, hsecond, reduceCtorEq, false_and, iff_false]
        intro heq
        rw [heq, List.length_cons] at htail
        omega
      · exact absurd hsecond (hdefined.1 (by simp [hfirst]))
      · simp [hfirst, hsecond]

/-! ## Calibrated measurements -/

/-- Validity bit, offset and quantity of each measurement. -/
def insFields : List (ℕ × ℕ × Quantity) :=
  [(8, 12, .rr), (9, 16, .pr), (10, 20, .yr), (11, 24, .fax), (12, 28, .fay), (13, 32, .faz)]

/-- The valid measurements in some units. -/
def insValues (unit : Quantity → K) (stamp : K) (payload : List UInt8) :
    List (StampedQuantity K) :=
  insFields.filterMap fun (bit, offset, quantity) =>
    if (littleAt 4 0 payload).testBit bit then
      some ⟨⟨signedAt offset payload * unit quantity, stamp⟩, quantity⟩
    else
      none

/-- Thousandths of a degree and hundredths of a metre, each per second or per
second squared. -/
def insScale : Quantity → K
  | .rr | .pr | .yr => radians (decimal 3 1)
  | _ => decimal 2 1

/-- The scales in the code. -/
def insScaleUsed : Quantity → K
  | .rr | .pr | .yr => radians (decimal 2 1)
  | _ => decimal 1 1

theorem insScaleUsed_ne {field : ℕ × ℕ × Quantity} (hfield : field ∈ insFields) :
    (insScaleUsed field.2.2 : K) ≠ insScale field.2.2 := by
  have hhalf : (mPi : K) / 180 ≠ 0 := div_ne_zero mPi_pos.ne' (by norm_num)
  have hrate : (radians (decimal 2 1) : K) ≠ radians (decimal 3 1) := by
    rw [radians, radians]
    exact fun heq => absurd (mul_right_cancel₀ hhalf heq) (by norm_num [decimal])
  have haccel : (decimal 1 1 : K) ≠ decimal 2 1 := by
    norm_num [decimal]
  simp only [insFields, List.mem_cons, List.not_mem_nil, or_false] at hfield
  rcases hfield with rfl | rfl | rfl | rfl | rfl | rfl <;> first
    | exact hrate
    | exact haccel

theorem stamped_validValue (stamp value : K) (payload : PayloadIns) (bit : ℕ)
    (quantity : Quantity) :
    stamped stamp (payload.validValue bit value quantity) =
      (if payload.bitfield0.testBit bit then some ⟨⟨value, stamp⟩, quantity⟩
        else none : Option (StampedQuantity K)).toList := by
  rw [PayloadIns.validValue]
  split
  · rw [stamped_unstamped_cons, stamped_nil, Option.toList_some]
  · rfl

theorem stamped_getValues (stamp : K) (payload : List UInt8) :
    stamped stamp (PayloadIns.fieldsAt payload).getValues =
      insValues insScaleUsed stamp payload := by
  have hrate : ∀ number : ℤ,
      (number : K) * (10 / 1000) * mPi / 180 = number * radians (decimal 2 1) := by
    intro number
    rw [radians, decimal]
    norm_num
    ring
  have haccel : ∀ number : ℤ, (number : K) * (10 / 100) = number * decimal 1 1 := by
    intro number
    rw [decimal]
    norm_num
  simp only [PayloadIns.getValues, stamped_append, stamped_validValue, hrate, haccel,
    insValues, insFields, List.filterMap_eq_flatMap_toList, List.flatMap_cons,
    List.flatMap_nil, List.append_nil, List.append_assoc, insScaleUsed, PayloadIns.fieldsAt,
    PayloadIns.rrValid, PayloadIns.prValid, PayloadIns.yrValid, PayloadIns.faxValid,
    PayloadIns.fayValid, PayloadIns.fazValid]

/-- A handled message with calibrated measurements pushes them in the stated
scales iff all that are valid are zero.  The queue grows by what the handled
messages push. -/
theorem esfIns_pushed_iff (calendar : Calendar) (parser : UbloxParser K) (stamp : K)
    {handling : Handling K}
    (hhandling : handling ∈ (parser.parse calendar stamp).handled)
    (hpacket : handling.message.IsPacket 0x10 0x15 36) :
    let parsed := parser.parse calendar stamp
    (handling.pushed = insValues insScale stamp handling.message.payload ↔
      ∀ bit offset quantity, (bit, offset, quantity) ∈ insFields →
        (littleAt 4 0 handling.message.payload).testBit bit = true →
          signedAt offset handling.message.payload = 0) ∧
      parsed.parser.values = parser.values ++ parsed.handled.flatMap Handling.pushed := by
  refine ⟨?_, (UbloxParser.parse_pushed calendar stamp parser).2⟩
  have hpushed := (UbloxParser.parse_pushed calendar stamp parser).1 handling hhandling
  rw [hpushed, pushed_of_esfIns hpacket, stamped_getValues, insValues, insValues,
    filterMap_eq_iff (by simp)]
  constructor
  · intro hequal bit offset quantity hfield hvalid
    have hvalue := hequal _ hfield
    simp only [if_pos hvalid, Option.some.injEq, StampedQuantity.mk.injEq,
      StampedValue.mk.injEq, and_true, mul_eq_mul_left_iff, Int.cast_eq_zero] at hvalue
    exact hvalue.resolve_left (insScaleUsed_ne hfield)
  · rintro hzero ⟨bit, offset, quantity⟩ hfield
    simp only
    split
    · next hvalid => rw [hzero bit offset quantity hfield hvalid, Int.cast_zero, zero_mul,
        zero_mul]
    · rfl

def rollRate (low : UInt8) : List UInt8 :=
  [0x00, 0x01, 0x00, 0x00] ++ List.replicate 8 0 ++ [low, 0, 0, 0] ++ List.replicate 20 0

theorem exists_handling_rollRate (low : UInt8) :
    ∃ handling ∈ (UbloxParser.parse .gregorian
        ⟨(DataPacket.ofPayload 0x10 0x15 (rollRate low)).getPacket, []⟩ (5 : ℚ)).handled,
      handling.message = ⟨0x10, 0x15, rollRate low, true⟩ := by
  have hnext := DataPacket.nextMessage_getPacket 0x10 0x15
    (show (rollRate low).length < 2 ^ 16 by simp [rollRate]) []
  rw [List.append_nil] at hnext
  obtain ⟨handling, more, hhandled, hmessage⟩ := @UbloxParser.exists_handling ℚ _ .gregorian 5
    ⟨(DataPacket.ofPayload 0x10 0x15 (rollRate low)).getPacket, []⟩ _ _ hnext
  exact ⟨handling, hhandled ▸ List.mem_cons_self, hmessage⟩

theorem esfIns_pushed_iff_zero :
    ∃ handling ∈ (UbloxParser.parse .gregorian
        ⟨(DataPacket.ofPayload 0x10 0x15 (rollRate 0)).getPacket, []⟩ (5 : ℚ)).handled,
      handling.pushed = [⟨⟨0, 5⟩, .rr⟩] := by
  obtain ⟨handling, hhandling, hmessage⟩ := exists_handling_rollRate 0
  refine ⟨handling, hhandling, ?_⟩
  rw [(esfIns_pushed_iff .gregorian _ 5 hhandling
    (by rw [hmessage]; exact ⟨rfl, rfl, rfl, rfl⟩)).1.mpr ?_]
  · rw [hmessage]
    decide +kernel
  · rw [hmessage]
    intro bit offset quantity hfield hvalid
    simp only [insFields, List.mem_cons, List.not_mem_nil, or_false, Prod.mk.injEq] at hfield
    rcases hfield with ⟨rfl, rfl, -⟩ | ⟨rfl, rfl, -⟩ | ⟨rfl, rfl, -⟩ | ⟨rfl, rfl, -⟩ |
      ⟨rfl, rfl, -⟩ | ⟨rfl, rfl, -⟩ <;> decide +kernel

/-- One thousandth of a degree per second is pushed as one hundredth. -/
theorem not_esfIns_pushed :
    ¬∀ (calendar : Calendar) (parser : UbloxParser ℚ) (stamp : ℚ),
      ∀ handling ∈ (parser.parse calendar stamp).handled,
        handling.message.IsPacket 0x10 0x15 36 →
          handling.pushed = insValues insScale stamp handling.message.payload := by
  intro hall
  obtain ⟨handling, hhandling, hmessage⟩ := exists_handling_rollRate 1
  have hclaimed := hall .gregorian _ 5 handling hhandling
    (by rw [hmessage]; exact ⟨rfl, rfl, rfl, rfl⟩)
  have hpushed := (UbloxParser.parse_pushed .gregorian 5 _).1 handling hhandling
  rw [hpushed, hmessage, pushed_of_esfIns ⟨rfl, rfl, rfl, rfl⟩, stamped_getValues] at hclaimed
  exact absurd hclaimed (by decide +kernel)

/-! ## Raw measurements -/

namespace SensorData

/-- Value and quantity of a measurement, from its type and its field: degrees
per second in units of 1/4096, metres per second squared in units of 1/1024 and
hundredths of a degree centigrade. -/
def measuredValue (dataType : ℕ) (field : ℤ) : Option (K × Quantity) :=
  let rate : K := radians (field / (4096 : ℕ))
  let acceleration : K := field / (1024 : ℕ)
  match dataType with
  | 5 => some (rate, .ryr)
  | 12 => some (decimal 2 field, .gtmp)
  | 13 => some (rate, .rpr)
  | 14 => some (rate, .rrr)
  | 16 => some (acceleration, .rax)
  | 17 => some (acceleration, .ray)
  | 18 => some (acceleration, .raz)
  | _ => none

/-- The measurement with its time before the last one, whose tag is given. -/
def measured (data : SensorData) (lastTag : ℕ) : Option (StampedQuantity K) :=
  let ticks : ℤ := ((lastTag : ℤ) - data.stag) % 2 ^ 32
  (measuredValue data.getDataType (toSigned 24 (data.data % 2 ^ 24))).map
    fun (value, quantity) => ⟨⟨value, -(decimal 2 ticks / (256 : ℕ))⟩, quantity⟩

def IsKnown (data : SensorData) : Prop :=
  data.getDataType ∈ [5, 12, 13, 14, 16, 17, 18]

theorem measuredValue_eq_none_iff {dataType : ℕ} {field : ℤ} :
    (measuredValue dataType field : Option (K × Quantity)) = none ↔
      dataType ∉ [5, 12, 13, 14, 16, 17, 18] := by
  unfold measuredValue
  split <;> simp_all

/-- The shift by one byte multiplies the signed field. -/
theorem toSigned_shifted (field : ℕ) :
    toSigned 32 (field * 2 ^ 8) = toSigned 24 field * 2 ^ 8 := by
  simp only [toSigned, Int.bmod_def]
  push_cast
  split <;> split <;> omega

theorem getValue_of_lt {data : SensorData} {lastTag : ℕ} (hlt : lastTag < data.stag) :
    (data.getValue lastTag : StampedQuantity K).quantity = .end_ := by
  rw [getValue]
  simp only [if_pos hlt]

/-- Up to the tag of the last measurement the code computes what was measured. -/
theorem getValue_of_le {data : SensorData} {lastTag : ℕ} (hle : data.stag ≤ lastTag)
    (hlast : lastTag < 2 ^ 32) :
    (data.getValue lastTag : StampedQuantity K) =
      (data.measured lastTag).getD ⟨⟨0, 0⟩, .end_⟩ := by
  have hticks : ((lastTag : ℤ) - data.stag) % 2 ^ 32 = (lastTag - data.stag : ℕ) := by
    rw [Int.emod_eq_of_lt] <;> omega
  have hoffset : ∀ ticks : ℕ,
      (ticks : K) * (1 / 100) / -256 = -(decimal 2 (ticks : ℤ) / (256 : ℕ)) := by
    intro ticks
    rw [decimal]
    norm_num
    ring
  have hrate : ∀ field : ℤ, ((field * 2 ^ 8 : ℤ) : K) / (4096 * 256 * 180) * mPi =
      radians ((field : K) / (4096 : ℕ)) := by
    intro field
    rw [radians]
    push_cast
    ring
  have hacceleration : ∀ field : ℤ, ((field * 2 ^ 8 : ℤ) : K) / (1024 * 256) =
      (field : K) / (1024 : ℕ) := by
    intro field
    push_cast
    ring
  have htemperature : ∀ field : ℤ, ((field * 2 ^ 8 : ℤ) : K) / (100 * 256) =
      decimal 2 field := by
    intro field
    rw [decimal]
    push_cast
    ring
  simp only [getValue, measured, if_neg (not_lt.mpr hle), toSigned_shifted, hticks, hoffset,
    hrate, hacceleration, htemperature, dataTypeRyr, dataTypeRpr, dataTypeRrr, dataTypeRax,
    dataTypeRay, dataTypeRaz, dataTypeGtmp]
  by_cases hknown : data.IsKnown
  · rw [IsKnown] at hknown
    generalize data.getDataType = dataType at hknown ⊢
    simp only [List.mem_cons, List.not_mem_nil, or_false] at hknown
    rcases hknown with rfl | rfl | rfl | rfl | rfl | rfl | rfl <;> rfl
  · rw [measuredValue_eq_none_iff.mpr hknown]
    simp only [IsKnown, List.mem_cons, List.not_mem_nil, or_false, not_or] at hknown
    simp [hknown]

theorem measured_eq_none_iff {data : SensorData} {lastTag : ℕ} :
    (data.measured lastTag : Option (StampedQuantity K)) = none ↔ ¬data.IsKnown := by
  rw [measured, Option.map_eq_none_iff, measuredValue_eq_none_iff, IsKnown]

theorem quantity_of_measured {data : SensorData} {lastTag : ℕ} {value : StampedQuantity K}
    (hmeasured : data.measured lastTag = some value) : value.quantity ≠ .end_ := by
  obtain ⟨pair, hpair, rfl⟩ := Option.map_eq_some_iff.mp hmeasured
  revert hpair
  unfold measuredValue
  split <;> rintro ⟨⟩ <;> exact Quantity.noConfusion

def kept (data : SensorData) (lastTag : ℕ) : Option (StampedQuantity K) :=
  let value := data.getValue lastTag
  if value.quantity ≠ .end_ then some value else none

/-- A measurement is kept as it was measured iff its tag is not above the last
one or its type has no quantity. -/
theorem kept_eq_measured_iff {data : SensorData} {lastTag : ℕ} (hlast : lastTag < 2 ^ 32) :
    (data.kept lastTag : Option (StampedQuantity K)) = data.measured lastTag ↔
      (data.IsKnown → data.stag ≤ lastTag) := by
  rcases Nat.lt_or_ge lastTag data.stag with hlt | hle
  · have hkept : (data.kept lastTag : Option (StampedQuantity K)) = none := by
      rw [kept, if_neg (not_not_intro (getValue_of_lt hlt))]
    rw [hkept, eq_comm, measured_eq_none_iff]
    exact ⟨fun hnot hknown => absurd hknown hnot,
      fun hle hknown => absurd (hle hknown) (not_le.mpr hlt)⟩
  · refine iff_of_true ?_ fun _ => hle
    rw [kept, getValue_of_le hle hlast]
    cases hmeasured : (data.measured lastTag : Option (StampedQuantity K)) with
    | none => rfl
    | some value => simp [quantity_of_measured hmeasured]

end SensorData

/-- What was measured, with the last measurement as the reference. -/
def PayloadRaw.measurements (payload : PayloadRaw) : List (StampedQuantity K) :=
  match payload.sensorData.getLast? with
  | none => []
  | some last => payload.sensorData.filterMap fun data => data.measured last.stag

theorem PayloadRaw.getValues_eq {payload : PayloadRaw} {last : SensorData}
    (hlast : payload.sensorData.getLast? = some last) :
    (payload.getValues : List (StampedQuantity K)) =
      payload.sensorData.filterMap fun data => data.kept last.stag := by
  simp only [getValues, hlast]
  rw [← List.filterMap_eq_filter, List.filterMap_map]
  refine List.filterMap_congr fun data _ => ?_
  simp [Option.guard, SensorData.kept]

/-- All measurements are returned iff no tag of one with a quantity is above the
tag of the last one. -/
theorem PayloadRaw.getValues_eq_iff (payload : PayloadRaw)
    (htags : ∀ data ∈ payload.sensorData, data.stag < 2 ^ 32) :
    (payload.getValues : List (StampedQuantity K)) = payload.measurements ↔
      ∀ last ∈ payload.sensorData.getLast?, ∀ data ∈ payload.sensorData,
        data.IsKnown → data.stag ≤ last.stag := by
  cases hlast : payload.sensorData.getLast? with
  | none => simp [getValues, measurements, hlast]
  | some last =>
      have hlastTag := htags last (List.mem_of_getLast? hlast)
      rw [getValues_eq hlast, measurements, hlast, filterMap_eq_iff]
      · simp only [SensorData.kept_eq_measured_iff hlastTag, Option.mem_some_iff,
          forall_eq']
      · intro data _ hkept hmeasured
        have hunknown := SensorData.measured_eq_none_iff.mp hmeasured
        rw [(SensorData.kept_eq_measured_iff hlastTag).mpr
          fun hknown => absurd hknown hunknown] at hkept
        exact hkept hmeasured

/-- A temperature of minus one hundredth of a degree, 256 ticks before another. -/
theorem PayloadRaw.getValues_eq_iff_two :
    (PayloadRaw.mk 8 0 [⟨0x0CFFFFFF, 0⟩, ⟨0x0C000001, 256⟩]).getValues =
      [⟨⟨-1 / 100, -1 / 100⟩, .gtmp⟩, (⟨⟨1 / 100, 0⟩, .gtmp⟩ : StampedQuantity ℚ)] := by
  rw [(PayloadRaw.getValues_eq_iff (K := ℚ) ⟨8, 0, [⟨0x0CFFFFFF, 0⟩, ⟨0x0C000001, 256⟩]⟩
    (by decide)).mpr (by simp)]
  decide +kernel

/-- A temperature taken one tick before the counter starts again is lost. -/
theorem PayloadRaw.not_getValues_eq :
    ¬∀ payload : PayloadRaw, (∀ data ∈ payload.sensorData, data.stag < 2 ^ 32) →
      (∀ last ∈ payload.sensorData.getLast?, ∀ data ∈ payload.sensorData,
        ((last.stag : ℤ) - data.stag) % 2 ^ 32 < 2 ^ 31) →
        (payload.getValues : List (StampedQuantity ℚ)) = payload.measurements := by
  intro hall
  have hclaimed := hall ⟨8, 0, [⟨0x0C000001, 0xFFFFFFFF⟩, ⟨0x0C000001, 0⟩]⟩ (by decide)
    (by simp)
  exact absurd hclaimed (by decide +kernel)

end SensorHub.Ublox
