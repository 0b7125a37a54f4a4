import SensorHub.UbloxSetup
import SensorHub.UbloxStream

/-!
# Packets written and read back

A packet made from its class, identifier and payload goes through other setters
than one which the parser fills, with the length and the checksum cut into
bytes on the way.  The first pass over its bytes fills the same packet.
-/

namespace SensorHub.Ublox

open X3 Framing

namespace DataPacket

theorem checksum_lt (cls id : UInt8) (payload : List UInt8) :
    (ofPayload cls id payload).checksum < 2 ^ 16 := by
  change calcChecksum _ < 2 ^ 16
  rw [calcChecksum_eq]
  omega

/-- What the direct reading finds at the head of the bytes of a packet. -/
theorem nextMessage_getPacket (cls id : UInt8) {payload : List UInt8}
    (hpayload : payload.length < 2 ^ 16) (rest : List UInt8) :
    nextMessage ((ofPayload cls id payload).getPacket ++ rest) =
      some (⟨cls, id, payload, true⟩, rest) := by
  set packet := ofPayload cls id payload with hpacket
  have hdata : packet.data = (Message.mk cls id payload true).bytes :=
    data_ofPayload cls id payload
  have hchecksum : packet.checksum < 2 ^ 16 := checksum_lt cls id payload
  have hlength := length_eq_lengthBytes hpayload
  have hpair := length_eq_lengthBytes hchecksum
  rw [Nat.mod_eq_of_lt hchecksum] at hpair
  refine nextMessage_eq_some_iff.mpr ⟨_, _,
    UInt8.ofNat (packet.checksum % 2 ^ 8), UInt8.ofNat (packet.checksum / 2 ^ 8),
    hlength, ?_, ?_⟩
  · have hcheck := check_ofPayload cls id hpayload
    have hmatches := check_eq_fletcherMatches (hdata.trans rfl) hlength
      (UInt8.ofNat (packet.checksum % 2 ^ 8)) (UInt8.ofNat (packet.checksum / 2 ^ 8))
    rw [← hpair, Nat.mod_eq_of_lt hchecksum] at hmatches
    rw [← hpacket] at hcheck
    have hbytes : (Message.mk cls id payload true).bytes = packet.data := hdata.symm
    simp only [Message.bytes] at hbytes
    simp only [hbytes]
    exact hcheck.symm.trans hmatches
  · simp only [getPacket, hdata, Message.bytes]
    simp [afterPreamble]

end DataPacket

/-- The first pass of `parse` takes exactly the bytes of the packet off the
buffer and fills a packet that passes the check with what was written.  The call
goes on as one with the bytes behind the packet, unless its payload throws. -/
theorem parse_getPacket {K : Type} [ExactDouble K] (calendar : Calendar)
    (parser : UbloxParser K) (stamp : K) (cls id : UInt8)
    {payload rest : List UInt8} (hpayload : payload.length ≤ 65535)
    (hbuffer : parser.buffer =
      (DataPacket.ofPayload cls id payload).getPacket ++ rest) :
    ∃ vars, packetRule .start parser.buffer = (vars, some ((), rest)) ∧
      vars.packet.check = true ∧
      vars.packet.getCls = cls ∧ vars.packet.getId = id ∧
      vars.packet.getLength = payload.length ∧
      vars.packet.payload = payload ∧
      let message : Message := ⟨cls, id, payload, true⟩
      let parsed := parser.parse calendar stamp
      let later := ({ parser with buffer := rest }).parse calendar stamp
      (∃ handling more, parsed.handled = handling :: more ∧ handling.message = message) ∧
        if message.throws K calendar then
          parsed.messages = [message] ∧ parsed.parser.buffer = rest
        else
          parsed.messages = message :: later.messages ∧
            parsed.parser.buffer = later.parser.buffer := by
  have hsize : payload.length < 2 ^ 16 := by omega
  have hnext : nextMessage parser.buffer = some (⟨cls, id, payload, true⟩, rest) := by
    rw [hbuffer, DataPacket.nextMessage_getPacket cls id hsize rest]
  have hspec := packetRule_spec (show PacketVars.start.packet = .fresh from rfl)
    parser.buffer
  rw [hnext] at hspec
  obtain ⟨vars, hrule, hmessage, hdata⟩ := hspec
  simp only [DataPacket.message, Message.mk.injEq] at hmessage
  obtain ⟨hcls, hid, hcontent, hcheck⟩ := hmessage
  have hlength : vars.packet.getLength = payload.length := by
    rw [DataPacket.length_eq_lengthBytes hsize]
    simp only [DataPacket.getLength, DataPacket.getDataByte, hdata, Message.bytes,
      List.getD_cons_succ, List.getD_cons_zero]
    ring
  exact ⟨vars, hrule, hcheck, hcls, hid, hlength, hcontent,
    UbloxParser.exists_handling calendar stamp hnext,
    UbloxParser.parse_of_next calendar stamp hnext⟩

/-- A payload that contains the preamble, with the beginning of another message
behind the packet. -/
theorem parse_getPacket_preamble :
    let bytes := (DataPacket.ofPayload 0x06 0x3E [0xB5, 0x62]).getPacket
    bytes = [0xB5, 0x62, 0x06, 0x3E, 0x02, 0x00, 0xB5, 0x62, 0x5D, 0x2E] ∧
      (∃ vars, packetRule .start (bytes ++ [0xB5]) = (vars, some ((), [0xB5])) ∧
        vars.packet.check = true ∧ vars.packet.payload = [0xB5, 0x62]) ∧
      (UbloxParser.parse .gregorian ⟨bytes ++ [0xB5], []⟩ (0 : ℚ)).parser.buffer = [0xB5] := by
  intro bytes
  refine ⟨by decide, ?_⟩
  obtain ⟨vars, hrule, hcheck, -, -, -, hcontent, -, hleft⟩ :=
    parse_getPacket (K := ℚ) .gregorian ⟨bytes ++ [0xB5], []⟩ 0 0x06 0x3E
      (show [0xB5, 0x62].length ≤ 65535 by decide) rfl
  refine ⟨⟨vars, hrule, hcheck, hcontent⟩, ?_⟩
  have hreturns : Message.throws ℚ .gregorian ⟨0x06, 0x3E, [0xB5, 0x62], true⟩ = false := by
    decide +kernel
  rw [if_neg (by rw [hreturns]; exact Bool.false_ne_true)] at hleft
  exact hleft.2.trans (by decide +kernel)

end SensorHub.Ublox
