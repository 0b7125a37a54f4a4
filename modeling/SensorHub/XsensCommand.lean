import SensorHub.XsensStream

/-!
# Commands to the sensor

`command::packet` writes messages of the format which the parser reads.  The
checksum is computed by subtracting the bytes behind the first one, and
verified by adding them up.
-/

namespace SensorHub.Xsens

open X3

namespace Command

/-- Subtract every byte from the second on. -/
def checksum (data : List UInt8) : UInt8 :=
  data.tail.foldl (fun result byte => result - byte) 0

def packetHead (mid : UInt8) : List UInt8 :=
  [packetStart, sysCommand] ++ [mid]

def packet (mid : UInt8) (command : List UInt8) : List UInt8 :=
  let result := packetHead mid ++ [UInt8.ofNat command.length] ++ command
  result ++ [checksum result]

theorem foldl_sub_toNat (data : List UInt8) (start : UInt8) :
    ((data.foldl (fun result byte => result - byte) start).toNat +
      (data.map UInt8.toNat).sum) % 256 = start.toNat := by
  induction data generalizing start with
  | nil =>
      have hstart := start.toNat_lt
      simp only [List.foldl_nil, List.map_nil, List.sum_nil, Nat.add_zero]
      omega
  | cons byte data ih =>
      have hrest := ih (start - byte)
      have hstart := start.toNat_lt
      have hbyte := byte.toNat_lt
      rw [UInt8.toNat_sub] at hrest
      simp only [List.foldl_cons, List.map_cons, List.sum_cons]
      omega

/-- The checksum completes the sum over the bytes behind the first one. -/
theorem checksum_sum (first : UInt8) (data : List UInt8) :
    ((data.map UInt8.toNat).sum + (checksum (first :: data)).toNat) % 256 = 0 := by
  have hsum := foldl_sub_toNat data 0
  rw [Nat.add_comm]
  exact hsum

theorem nextFrame_packet (mid : UInt8) {payload : List UInt8}
    (hpayload : payload.length < 2 ^ 8) (rest : List UInt8) :
    nextFrame (packet mid payload ++ rest) = some (⟨mid, payload, true⟩, rest) := by
  have hlength : (UInt8.ofNat payload.length).toNat = payload.length :=
    UInt8.toNat_ofNat_of_lt' hpayload
  have hsum := checksum_sum packetStart
    (sysCommand :: mid :: UInt8.ofNat payload.length :: payload)
  set chk := checksum
    (packetStart :: sysCommand :: mid :: UInt8.ofNat payload.length :: payload) with hchk
  have hpacket : packet mid payload ++ rest =
      packetStart :: sysCommand ::
        (mid :: UInt8.ofNat payload.length :: payload ++ chk :: rest) := by
    simp [packet, packetHead, hchk]
  refine nextFrame_eq_some_iff.mpr ⟨UInt8.ofNat payload.length, chk, hlength.symm, ?_, ?_⟩
  · have hsys : sysCommand.toNat = 0xFF := rfl
    simp only [List.map_cons, List.sum_cons, hsys] at hsum
    rw [sumIsZero, eq_comm, decide_eq_true_eq]
    simp only
    omega
  · rw [hpacket]
    exact if_pos ⟨rfl, rfl⟩

end Command

/-- `parse_single` takes exactly the bytes of a command off the buffer, finds its
identifier and its data, and verifies its checksum. -/
theorem parseSingle_packet {K : Type} [ExactDouble K] (setting : Setting K)
    (parser : XsensParser K) (stamp : K) (mid : UInt8) {payload rest : List UInt8}
    (hpayload : payload.length ≤ 255)
    (hbuffer : parser.buffer = Command.packet mid payload ++ rest) :
    (∃ vars, packetRule .start parser.buffer = (vars, some ((), rest)) ∧
      vars.mid = mid ∧ vars.data = payload ∧ vars.sum = 0) ∧
      ∃ handling next, parser.parseSingle setting stamp = some (handling, next) ∧
        handling.frame = ⟨mid, payload, true⟩ ∧ next.buffer = rest := by
  have hnext : nextFrame parser.buffer = some (⟨mid, payload, true⟩, rest) := by
    rw [hbuffer]
    exact Command.nextFrame_packet mid (by omega) rest
  constructor
  · have hspec := packetRule_spec parser.buffer
    rw [hnext] at hspec
    obtain ⟨vars, hrule, hframe⟩ := hspec
    simp only [Frame.mk.injEq] at hframe
    obtain ⟨hmid, hdata, hsum⟩ := hframe
    exact ⟨vars, hrule, hmid.symm, hdata.symm, beq_iff_eq.mp hsum.symm⟩
  · have hsingle := XsensParser.parseSingle_eq setting parser stamp
    rw [hnext] at hsingle
    exact ⟨_, _, hsingle, XsensParser.handleFrame_frame setting _ stamp _,
      (XsensParser.handleFrame_buffer setting _ stamp _).1⟩

/-- A payload that contains the preamble. -/
theorem parseSingle_packet_preamble :
    Command.packet 0x48 [0xFA, 0xFF] = [0xFA, 0xFF, 0x48, 0x02, 0xFA, 0xFF, 0xBE] ∧
      ∃ handling next,
        (⟨Command.packet 0x48 [0xFA, 0xFF] ++ [0xFA], [], [], true⟩ :
          XsensParser ℚ).parseSingle ⟨.binary64, .gregorian, 0⟩ 0 = some (handling, next) ∧
          handling.frame = ⟨0x48, [0xFA, 0xFF], true⟩ ∧ next.buffer = [0xFA] :=
  ⟨by decide, (parseSingle_packet ⟨.binary64, .gregorian, 0⟩
    ⟨Command.packet 0x48 [0xFA, 0xFF] ++ [0xFA], [], [], true⟩ 0 0x48
    (show [0xFA, 0xFF].length ≤ 255 by decide) rfl).2⟩

end SensorHub.Xsens
