import SensorHub.UbloxFields
import SensorHub.UbloxRoundTrip

/-!
# Values of a navigation message

What is pushed for a navigation message of 92 bytes, with every value read at
its offset in the payload.  Three bytes decide about it: the time is pushed when
it is fully resolved, the position when there is a fix, without heights when the
fix has two dimensions, and the velocity when the heading is valid.

Scales are decimal: millimetres, ten millionths of a degree for the position,
hundred thousandths of a degree for directions.
-/

namespace SensorHub.Ublox

open X3

variable {K : Type} [ExactDouble K]

/-- The values of the message, from the bytes of its payload. -/
def navPvtValues (time stamp : K) (payload : List UInt8) : List (StampedQuantity K) :=
  (if (byteAt 11 payload).toNat.testBit 2 then [⟨⟨time, stamp⟩, .ut⟩] else []) ++
    (if byteAt 20 payload ∈ [2, 3, 4] then
      [⟨⟨radians (decimal 7 (signedAt 28 payload)), stamp⟩, .la⟩,
       ⟨⟨radians (decimal 7 (signedAt 24 payload)), stamp⟩, .lo⟩,
       ⟨⟨decimal 3 (littleAt 4 40 payload), stamp⟩, .hacc⟩]
    else []) ++
    (if byteAt 20 payload ∈ [3, 4] then
      [⟨⟨decimal 3 (signedAt 32 payload), stamp⟩, .hg84⟩,
       ⟨⟨decimal 3 (signedAt 36 payload), stamp⟩, .hmsl⟩,
       ⟨⟨decimal 3 (littleAt 4 44 payload), stamp⟩, .vacc⟩]
    else []) ++
    if (byteAt 21 payload).toNat.testBit 5 then
      [⟨⟨decimal 3 (signedAt 60 payload), stamp⟩, .vog⟩,
       ⟨⟨radians (decimal 5 (signedAt 64 payload)), stamp⟩, .crs⟩,
       ⟨⟨decimal 3 (littleAt 4 68 payload), stamp⟩, .sacc⟩,
       ⟨⟨radians (decimal 5 (littleAt 4 72 payload)), stamp⟩, .cacc⟩,
       ⟨⟨radians (decimal 5 (signedAt 84 payload)), stamp⟩, .hdg⟩,
       ⟨⟨radians (decimal 5 (littleAt 4 72 payload)), stamp⟩, .hdac⟩]
    else []

/-- The time in the payload. -/
def navPvtTime (calendar : Calendar) (payload : List UInt8) : Option K :=
  composeTimeValue calendar (littleAt 2 4 payload) (byteAt 6 payload).toNat
    (byteAt 7 payload).toNat (byteAt 8 payload).toNat (byteAt 9 payload).toNat
    (byteAt 10 payload).toNat (signedAt 16 payload)

theorem and_ne_zero_iff {byte mask : UInt8} {bit : ℕ} (hmask : mask.toNat = 2 ^ bit) :
    byte &&& mask ≠ 0 ↔ byte.toNat.testBit bit = true := by
  have hand : (byte &&& mask).toNat = (byte.toNat.testBit bit).toNat * 2 ^ bit := by
    rw [UInt8.toNat_and, hmask, Nat.and_two_pow]
  rw [ne_eq, ← UInt8.toNat_inj, hand, UInt8.toNat_zero]
  cases byte.toNat.testBit bit <;> simp

theorem decimal_three (number : ℤ) : (decimal 3 number : K) = number * (1 / 1000) := by
  rw [decimal, mul_one_div]
  norm_num

theorem radians_decimal_five (number : ℤ) :
    (radians (decimal 5 number) : K) = number * (1 / 100000) * mPi / 180 := by
  rw [radians, decimal, mul_div_assoc, mul_one_div]
  norm_num

theorem radians_decimal_seven (number : ℤ) :
    (radians (decimal 7 number) : K) = number * (1 / 10000000) * mPi / 180 := by
  rw [radians, decimal, mul_div_assoc, mul_one_div]
  norm_num

/-! ## The three groups -/

section Groups

variable (stamp : K) (payload : List UInt8)

theorem addValues_time {calendar : Calendar} {time : K}
    (htime : (byteAt 11 payload).toNat.testBit 2 = true →
      navPvtTime calendar payload = some time) :
    (PayloadPvt.fieldsAt payload).timeData.addValues calendar =
      some (if (byteAt 11 payload).toNat.testBit 2 then [unstamped time .ut] else []) := by
  have hmask : byteAt 11 payload &&& TimeData.validFull ≠ 0 ↔
      (byteAt 11 payload).toNat.testBit 2 = true := and_ne_zero_iff rfl
  change (TimeData.fieldsAt 0 payload).addValues calendar = _
  by_cases hvalid : (byteAt 11 payload).toNat.testBit 2 = true
  · have hcompose := htime hvalid
    rw [navPvtTime] at hcompose
    rw [if_pos hvalid, TimeData.addValues]
    simp only [TimeData.fieldsAt, Nat.zero_add, if_pos (hmask.mpr hvalid), hcompose,
      Option.map_some]
  · rw [if_neg hvalid, TimeData.addValues]
    simp only [TimeData.fieldsAt, Nat.zero_add, if_neg (hmask.not.mpr hvalid)]

theorem stamped_time (time : K) (valid : Bool) :
    stamped stamp (if valid then [unstamped time .ut] else []) =
      if valid then [⟨⟨time, stamp⟩, .ut⟩] else [] := by
  cases valid with
  | false => rfl
  | true => rw [if_pos rfl, if_pos rfl, stamped_unstamped_cons, stamped_nil]

theorem stamped_position :
    stamped stamp
        (if (PayloadPvt.fieldsAt payload).fixtype = PayloadPvt.fixtype2d ∨
            (PayloadPvt.fieldsAt payload).fixtype = PayloadPvt.fixtype3d ∨
            (PayloadPvt.fieldsAt payload).fixtype = PayloadPvt.fixtype3dDeadreck then
          (PayloadPvt.fieldsAt payload).positionData.addValuesHorizontal ++
            if (PayloadPvt.fieldsAt payload).fixtype ≠ PayloadPvt.fixtype2d then
              (PayloadPvt.fieldsAt payload).positionData.addValuesVertical
            else
              []
        else
          []) =
      (if byteAt 20 payload ∈ [2, 3, 4] then
        [⟨⟨radians (decimal 7 (signedAt 28 payload)), stamp⟩, .la⟩,
         ⟨⟨radians (decimal 7 (signedAt 24 payload)), stamp⟩, .lo⟩,
         ⟨⟨decimal 3 (littleAt 4 40 payload), stamp⟩, .hacc⟩]
      else []) ++
      if byteAt 20 payload ∈ [3, 4] then
        [⟨⟨decimal 3 (signedAt 32 payload), stamp⟩, .hg84⟩,
         ⟨⟨decimal 3 (signedAt 36 payload), stamp⟩, .hmsl⟩,
         ⟨⟨decimal 3 (littleAt 4 44 payload), stamp⟩, .vacc⟩]
      else [] := by
  have hfixtype : (PayloadPvt.fieldsAt payload).fixtype = byteAt 20 payload := rfl
  have hhorizontal :
      stamped stamp (PayloadPvt.fieldsAt payload).positionData.addValuesHorizontal =
      [⟨⟨radians (decimal 7 (signedAt 28 payload)), stamp⟩, .la⟩,
       ⟨⟨radians (decimal 7 (signedAt 24 payload)), stamp⟩, .lo⟩,
       ⟨⟨decimal 3 (littleAt 4 40 payload), stamp⟩, .hacc⟩] := by
    simp only [PositionData.addValuesHorizontal, PayloadPvt.fieldsAt, PositionData.fieldsAt,
      stamped_unstamped_cons, stamped_nil, radians_decimal_seven, decimal_three,
      Int.cast_natCast, Nat.reduceAdd]
  have hvertical :
      stamped stamp (PayloadPvt.fieldsAt payload).positionData.addValuesVertical =
      [⟨⟨decimal 3 (signedAt 32 payload), stamp⟩, .hg84⟩,
       ⟨⟨decimal 3 (signedAt 36 payload), stamp⟩, .hmsl⟩,
       ⟨⟨decimal 3 (littleAt 4 44 payload), stamp⟩, .vacc⟩] := by
    simp only [PositionData.addValuesVertical, PayloadPvt.fieldsAt, PositionData.fieldsAt,
      stamped_unstamped_cons, stamped_nil, decimal_three, Int.cast_natCast, Nat.reduceAdd]
  rw [hfixtype]
  by_cases hflat : byteAt 20 payload = PayloadPvt.fixtype2d
  · have hposition : PayloadPvt.fixtype2d ∈ [2, 3, 4] := by decide
    have hheight : PayloadPvt.fixtype2d ∉ [3, 4] := by decide
    rw [if_pos (.inl hflat), if_neg (not_not_intro hflat), List.append_nil, hhorizontal,
      hflat, if_pos hposition, if_neg hheight, List.append_nil]
  · have hfixes : byteAt 20 payload = PayloadPvt.fixtype3d ∨
        byteAt 20 payload = PayloadPvt.fixtype3dDeadreck ↔ byteAt 20 payload ∈ [3, 4] := by
      rw [List.mem_cons, List.mem_singleton]
      rfl
    by_cases hspatial : byteAt 20 payload ∈ [3, 4]
    · rw [if_pos (.inr (hfixes.mpr hspatial)), if_pos hflat,
        if_pos (List.mem_cons_of_mem _ hspatial), if_pos hspatial, stamped_append,
        hhorizontal, hvertical]
    · have hnone : byteAt 20 payload ∉ [2, 3, 4] :=
        fun hmem => (List.mem_cons.mp hmem).elim hflat hspatial
      rw [if_neg (not_or_intro hflat (hfixes.not.mpr hspatial)), if_neg hnone,
        if_neg hspatial]
      rfl

theorem stamped_velocity :
    stamped stamp
        (if (PayloadPvt.fieldsAt payload).flags &&& PayloadPvt.flagsHeadvehValid ≠ 0 then
          (PayloadPvt.fieldsAt payload).velocityData.addValues
        else
          []) =
      if (byteAt 21 payload).toNat.testBit 5 then
        [⟨⟨decimal 3 (signedAt 60 payload), stamp⟩, .vog⟩,
         ⟨⟨radians (decimal 5 (signedAt 64 payload)), stamp⟩, .crs⟩,
         ⟨⟨decimal 3 (littleAt 4 68 payload), stamp⟩, .sacc⟩,
         ⟨⟨radians (decimal 5 (littleAt 4 72 payload)), stamp⟩, .cacc⟩,
         ⟨⟨radians (decimal 5 (signedAt 84 payload)), stamp⟩, .hdg⟩,
         ⟨⟨radians (decimal 5 (littleAt 4 72 payload)), stamp⟩, .hdac⟩]
      else [] := by
  have hmask : (PayloadPvt.fieldsAt payload).flags &&& PayloadPvt.flagsHeadvehValid ≠ 0 ↔
      (byteAt 21 payload).toNat.testBit 5 = true := and_ne_zero_iff rfl
  by_cases hvalid : (byteAt 21 payload).toNat.testBit 5 = true
  · rw [if_pos (hmask.mpr hvalid), if_pos hvalid]
    simp only [VelocityData.addValues, PayloadPvt.fieldsAt, VelocityData.fieldsAt,
      stamped_unstamped_cons, stamped_nil, decimal_three, radians_decimal_five,
      Int.cast_natCast, Nat.reduceAdd]
  · rw [if_neg (hmask.not.mpr hvalid), if_neg hvalid, stamped_nil]

end Groups

/-- Every navigation message of 92 bytes that a call handles and that passes the
check pushes the values at their offsets in its payload.  The queue grows by what
the handled messages push. -/
theorem navPvt_pushed (calendar : Calendar) (parser : UbloxParser K) (stamp : K)
    {handling : Handling K}
    (hhandling : handling ∈ (parser.parse calendar stamp).handled)
    (hpacket : handling.message.IsPacket 0x01 0x07 92) (time : K)
    (htime : (byteAt 11 handling.message.payload).toNat.testBit 2 = true →
      navPvtTime calendar handling.message.payload = some time) :
    let parsed := parser.parse calendar stamp
    handling.pushed = navPvtValues time stamp handling.message.payload ∧
      parsed.parser.values = parser.values ++ parsed.handled.flatMap Handling.pushed := by
  refine ⟨?_, (UbloxParser.parse_pushed calendar stamp parser).2⟩
  have hpushed := (UbloxParser.parse_pushed calendar stamp parser).1 handling hhandling
  have hvisit := pushed_of_navPvt hpacket calendar stamp
  simp only [Payload.visit, Payload.getValues, PayloadPvt.getValues,
    addValues_time handling.message.payload htime, Option.map_some, Option.getD_some]
    at hvisit
  refine (hpushed.trans hvisit).trans ?_
  rw [← stamped, stamped_append, stamped_append, stamped_time, stamped_position,
    stamped_velocity, navPvtValues, ← List.append_assoc]

/-- A fix in two dimensions, at one degree north and two degrees east. -/
def flatFix : List UInt8 :=
  List.replicate 20 0 ++ [2, 0, 0, 0] ++ [0x00, 0x2D, 0x31, 0x01, 0x80, 0x96, 0x98, 0x00] ++
    List.replicate 8 0 ++ [0xB8, 0x0B, 0, 0] ++ List.replicate 48 0

/-- A parser with this message in its buffer and a latitude in its queue. -/
def flatFixParser : UbloxParser ℚ where
  buffer := (DataPacket.ofPayload 0x01 0x07 flatFix).getPacket
  values := [⟨⟨7, 4⟩, .la⟩]

theorem navPvt_pushed_flatFix :
    (∃ handling ∈ (flatFixParser.parse .gregorian 5).handled, handling.pushed =
        [⟨⟨radians 1, 5⟩, .la⟩, ⟨⟨radians 2, 5⟩, .lo⟩, ⟨⟨3, 5⟩, .hacc⟩]) ∧
      (flatFixParser.parse .gregorian 5).parser.values =
        [⟨⟨7, 4⟩, .la⟩] ++
          (flatFixParser.parse .gregorian 5).handled.flatMap Handling.pushed := by
  have hnext : nextMessage flatFixParser.buffer = some (⟨0x01, 0x07, flatFix, true⟩, []) := by
    rw [← DataPacket.nextMessage_getPacket 0x01 0x07
      (show flatFix.length < 2 ^ 16 by decide) [], List.append_nil]
    rfl
  obtain ⟨handling, more, hhandled, hmessage⟩ :=
    UbloxParser.exists_handling .gregorian 5 hnext
  have hhandling : handling ∈ (flatFixParser.parse .gregorian 5).handled :=
    hhandled ▸ List.mem_cons_self
  obtain ⟨hpushed, hvalues⟩ := navPvt_pushed .gregorian flatFixParser 5 hhandling
    (by rw [hmessage]; exact ⟨rfl, rfl, rfl, rfl⟩) 0
    (by rw [hmessage]; exact fun hvalid => absurd hvalid (by decide))
  refine ⟨⟨handling, hhandling, ?_⟩, hvalues⟩
  rw [hpushed, hmessage]
  decide +kernel

end SensorHub.Ublox
