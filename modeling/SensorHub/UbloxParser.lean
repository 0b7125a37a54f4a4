import SensorHub.Framing
import SensorHub.UbloxPayload

/-!
# The u-blox packet parser

`Ublox_parser::parse` fills one `Data_packet` while it looks for a message,
checks it, passes its payload to the visitor and clears it for the next
message, until no complete message is left.  It finds what a direct reading of
the stream finds, `nextMessage`, because a cleared packet is as good as a new
one.
-/

namespace SensorHub.Ublox

open X3 Framing

/-- A message as it was found in the stream. -/
structure Message where
  cls : UInt8
  id : UInt8
  payload : List UInt8
  checked : Bool
  deriving DecidableEq, Repr

def Message.bytes (message : Message) : List UInt8 :=
  message.cls :: message.id ::
    UInt8.ofNat (message.payload.length % 2 ^ 8) ::
    UInt8.ofNat (message.payload.length % 2 ^ 16 / 2 ^ 8) :: message.payload

/-- What a filled packet says about the message. -/
def DataPacket.message (packet : DataPacket) : Message where
  cls := packet.getCls
  id := packet.getId
  payload := packet.payload
  checked := packet.check

/-- Local variables of `parse`, changed by the semantic actions. -/
structure PacketVars where
  packet : DataPacket
  len : ℤ

namespace PacketVars

def start : PacketVars where
  packet := .fresh
  len := 0

def setCls (cls : UInt8) (vars : PacketVars) : PacketVars :=
  { vars with packet := vars.packet.setCls cls }

def setId (id : UInt8) (vars : PacketVars) : PacketVars :=
  { vars with packet := vars.packet.setId id }

def setLen (len : ℕ) (vars : PacketVars) : PacketVars where
  packet := vars.packet.setLength len
  len := len

def addPayload (value : UInt8) (vars : PacketVars) : PacketVars :=
  { vars with packet := vars.packet.addData value }

def setChk (chk : ℕ) (vars : PacketVars) : PacketVars :=
  { vars with packet := vars.packet.setChecksum chk }

/-- `packet.clear()` at the end of a pass; the length counter stays. -/
def clear (vars : PacketVars) : PacketVars :=
  { vars with packet := vars.packet.clear }

/-- The variable `len`, counted down by `have_data`. -/
def counter : Counter PacketVars where
  len := PacketVars.len
  setLen := fun vars len => { vars with len := len }
  len_setLen := fun _ _ => rfl
  setLen_setLen := fun _ _ _ => rfl
  setLen_len := fun _ => rfl

end PacketVars

/-- `junk >> preamble >> byte_[set_cls] >> byte_[set_id] >>
little_word[set_len] >> content >> little_word[set_chk]` -/
def packetRule : X3.Parser PacketVars Unit := do
  junkPreamble Command.sync1 Command.sync2
  act byte fun cls vars => (vars.setCls cls, true)
  act byte fun id vars => (vars.setId id, true)
  act (little 2) fun len vars => (vars.setLen len, true)
  PacketVars.counter.content PacketVars.addPayload
  act (little 2) fun chk vars => (vars.setChk chk, true)

variable {K : Type} [ExactDouble K]

/-- The members of the parser and of its visitor. -/
structure UbloxParser (K : Type) where
  buffer : List UInt8
  values : List (StampedQuantity K)

/-- The record of one handled message: the values pushed for it and how its
handling ended. -/
structure Handling (K : Type) where
  message : Message
  pushed : List (StampedQuantity K)
  outcome : Outcome

/-- Result of a call: the messages handled in it and how it ended. -/
structure Parsed (K : Type) where
  handled : List (Handling K)
  parser : UbloxParser K
  outcome : Outcome

namespace UbloxParser

def fresh : UbloxParser K where
  buffer := []
  values := []

/-- What a pass of `parse` does with a packet that was taken off the buffer. -/
def handlePacket (calendar : Calendar) (parser : UbloxParser K) (stamp : K)
    (packet : DataPacket) : Handling K × UbloxParser K :=
  if packet.check then
    match (payloadParseRule () packet.data).2 with
    | some (payload, _) =>
        match payload.visit calendar stamp with
        | some pushed =>
            (⟨packet.message, pushed, .returned⟩,
              { parser with values := parser.values ++ pushed })
        | none => (⟨packet.message, [], .threw⟩, parser)
    | none => (⟨packet.message, [], .returned⟩, parser)
  else
    (⟨packet.message, [], .returned⟩, parser)

/-- A bounded number of passes of the loop in `parse`. -/
def parsePasses (calendar : Calendar) (stamp : K) :
    ℕ → PacketVars → UbloxParser K → Parsed K
  | 0, _, parser => ⟨[], parser, .returned⟩
  | passes + 1, vars, parser =>
      if parser.buffer = [] then
        ⟨[], parser, .returned⟩
      else
        match packetRule vars parser.buffer with
        | (_, none) => ⟨[], parser, .returned⟩
        | (vars', some (_, left)) =>
            let result := ({ parser with buffer := left }).handlePacket
              calendar stamp vars'.packet
            if result.1.outcome = .returned then
              let rest := parsePasses calendar stamp passes vars'.clear result.2
              { rest with handled := result.1 :: rest.handled }
            else
              ⟨[result.1], result.2, result.1.outcome⟩

/-- Every message takes something off the buffer, so there are at most as many
passes as there are bytes, and one that finds nothing. -/
def parse (calendar : Calendar) (parser : UbloxParser K) (stamp : K) :
    Parsed K :=
  parsePasses calendar stamp (parser.buffer.length + 1) .start parser

def addAndParse (calendar : Calendar) (parser : UbloxParser K) (stamp : K)
    (received : List UInt8) : Parsed K :=
  ({ parser with buffer := addToBuffer parser.buffer received }).parse
    calendar stamp

/-- A sequence of calls.  The caller catches an exception and goes on. -/
def calls (calendar : Calendar) (parser : UbloxParser K) :
    List (K × List UInt8) → Parsed K
  | [] => ⟨[], parser, .returned⟩
  | (stamp, received) :: more =>
      let first := parser.addAndParse calendar stamp received
      let rest := first.parser.calls calendar more
      { rest with handled := first.handled ++ rest.handled }

end UbloxParser

/-! ## Reading messages directly -/

/-- Do the two checksum bytes equal the Fletcher sums modulo 256? -/
def fletcherMatches (bytes : List UInt8) (chkA chkB : UInt8) : Bool :=
  fletcherA bytes % 256 = chkA.toNat ∧ fletcherB bytes % 256 = chkB.toNat

/-- The first message of a stream: behind the first `B5 62` class, identifier,
a little endian length `n`, `n` payload bytes and two checksum bytes. -/
def nextMessage (input : List UInt8) : Option (Message × List UInt8) :=
  match afterPreamble Command.sync1 Command.sync2 input with
  | some (cls :: id :: low :: high :: rest) =>
      let length := low.toNat + 256 * high.toNat
      match rest.drop length with
      | chkA :: chkB :: tail =>
          let payload := rest.take length
          let bytes := cls :: id :: low :: high :: payload
          some (⟨cls, id, payload, fletcherMatches bytes chkA chkB⟩, tail)
      | _ => none
  | _ => none

theorem nextMessage_eq_some_iff {input tail : List UInt8}
    {message : Message} :
    nextMessage input = some (message, tail) ↔
      ∃ low high chkA chkB,
        message.payload.length = low.toNat + 256 * high.toNat ∧
        message.checked =
          fletcherMatches (message.cls :: message.id :: low :: high ::
            message.payload) chkA chkB ∧
        afterPreamble Command.sync1 Command.sync2 input =
          some (message.cls :: message.id :: low :: high :: message.payload ++
            chkA :: chkB :: tail) := by
  constructor
  · intro hnext
    unfold nextMessage at hnext
    split at hnext
    · next cls id low high rest hafter =>
        simp only at hnext
        split at hnext
        · next chkA chkB tail' hdrop =>
            simp only [Option.some.injEq, Prod.mk.injEq] at hnext
            obtain ⟨rfl, rfl⟩ := hnext
            have hlength : low.toNat + 256 * high.toNat ≤ rest.length := by
              have := congrArg List.length hdrop
              simp only [List.length_drop, List.length_cons] at this
              omega
            refine ⟨low, high, chkA, chkB, by simp [hlength], rfl, ?_⟩
            rw [hafter, ← hdrop]
            simp only [List.cons_append, List.take_append_drop]
        · simp at hnext
    · simp at hnext
  · rintro ⟨low, high, chkA, chkB, hlength, hchecked, hafter⟩
    obtain ⟨cls, id, payload, checked⟩ := message
    simp only at hlength hchecked hafter
    simp [nextMessage, hafter, ← hlength, hchecked]

theorem nextMessage_shrinks {input tail : List UInt8} {message : Message}
    (hnext : nextMessage input = some (message, tail)) :
    tail.length < input.length := by
  obtain ⟨low, high, chkA, chkB, -, -, hafter⟩ :=
    nextMessage_eq_some_iff.mp hnext
  have hle := afterPreamble_length hafter
  simp only [List.length_append, List.length_cons] at hle
  omega

theorem nextMessage_append {input tail : List UInt8} {message : Message}
    (hnext : nextMessage input = some (message, tail)) (more : List UInt8) :
    nextMessage (input ++ more) = some (message, tail ++ more) := by
  obtain ⟨low, high, chkA, chkB, hlength, hchecked, hafter⟩ :=
    nextMessage_eq_some_iff.mp hnext
  refine nextMessage_eq_some_iff.mpr
    ⟨low, high, chkA, chkB, hlength, hchecked, ?_⟩
  rw [afterPreamble_append hafter]
  simp

/-- The reference reading of a stream as a framer. -/
def framer : Framer UInt8 Message where
  next := nextMessage
  shrinks := nextMessage_shrinks
  stable := nextMessage_append

/-! ## The grammar finds what the direct reading finds -/

theorem addPayload_neutral :
    PacketVars.counter.Neutral PacketVars.addPayload where
  len_add := fun _ _ => rfl
  add_setLen := fun _ _ _ => rfl

theorem foldl_addPayload (payload : List UInt8) (vars : PacketVars) :
    payload.foldl (fun vars value => vars.addPayload value) vars =
      { vars with packet := payload.foldl DataPacket.addData vars.packet } := by
  induction payload generalizing vars with
  | nil => rfl
  | cons value payload ih =>
      rw [List.foldl_cons, ih]
      rfl

theorem littleEndian_pair (low high : UInt8) :
    littleEndian [low, high] = low.toNat + 256 * high.toNat := by
  simp [littleEndian]

theorem little_pair (low high : UInt8) (rest : List UInt8) (state : PacketVars) :
    little 2 state (low :: high :: rest) =
      (state, some (low.toNat + 256 * high.toNat, rest)) := by
  rw [little_of_enough (by simp), ← littleEndian_pair]
  rfl

theorem lengthBytes_eq {length : ℕ} (low high : UInt8)
    (hlength : length = low.toNat + 256 * high.toNat) :
    UInt8.ofNat (length % 2 ^ 8) = low ∧
      UInt8.ofNat (length % 2 ^ 16 / 2 ^ 8) = high := by
  have hlow := low.toNat_lt
  have hhigh := high.toNat_lt
  have hfirst : length % 2 ^ 8 = low.toNat := by omega
  have hsecond : length % 2 ^ 16 / 2 ^ 8 = high.toNat := by omega
  rw [hfirst, hsecond, UInt8.ofNat_toNat, UInt8.ofNat_toNat]
  exact ⟨rfl, rfl⟩

/-- The check of a filled packet compares its checksum bytes with the Fletcher
sums. -/
theorem check_eq_fletcherMatches {cls id low high : UInt8}
    {payload bytes : List UInt8}
    (hbytes : bytes = cls :: id :: low :: high :: payload)
    (hlength : payload.length = low.toNat + 256 * high.toNat)
    (chkA chkB : UInt8) :
    (⟨bytes, (chkA.toNat + 256 * chkB.toNat) % 2 ^ 16⟩ : DataPacket).check =
      fletcherMatches bytes chkA chkB := by
  have hchkA := chkA.toNat_lt
  have hchkB := chkB.toNat_lt
  have hlength' : payload.length = low.toNat + high.toNat * 2 ^ 8 := by
    rw [hlength]
    ring
  rw [Bool.eq_iff_iff, fletcherMatches, decide_eq_true_eq,
    DataPacket.check_iff hbytes hlength']
  omega

/-- Started with a cleared packet, `packet_rule` succeeds iff there is a
complete message, and then leaves exactly this message in the packet. -/
theorem packetRule_spec {vars : PacketVars}
    (hfresh : vars.packet = .fresh) (input : List UInt8) :
    match nextMessage input with
    | none => (packetRule vars input).2 = none
    | some (message, tail) =>
        ∃ vars',
          packetRule vars input = (vars', some ((), tail)) ∧
            vars'.packet.message = message ∧
            vars'.packet.data = message.bytes := by
  have hsearch := junkPreamble_eq Command.sync1 Command.sync2 vars input
  unfold packetRule nextMessage
  cases hafter : afterPreamble Command.sync1 Command.sync2 input with
  | none =>
      rw [hafter] at hsearch
      simp only [bind_eq]
      rw [bind_of_none hsearch]
  | some rest =>
      rw [hafter] at hsearch
      simp only [bind_eq]
      rw [bind_of_some hsearch]
      rcases rest with _ | ⟨cls, _ | ⟨id, _ | ⟨low, _ | ⟨high, rest⟩⟩⟩⟩
      · simp [X3.bind, act]
      · simp [X3.bind, act]
      · simp [X3.bind, act, little_of_short]
      · simp [X3.bind, act, little_of_short]
      · simp only [X3.bind, act, byte_cons, little_pair]
        generalize hlength : low.toNat + 256 * high.toNat = length
        have hlen :
            PacketVars.counter.len
              (((vars.setCls cls).setId id).setLen length) = length := rfl
        rcases Nat.lt_or_ge rest.length length with hshort | henough
        · have hfail := Counter.content_of_short addPayload_neutral hlen hshort
          have hdrop : rest.drop length = [] :=
            List.drop_eq_nil_of_le hshort.le
          simp only [hdrop]
          generalize
            PacketVars.counter.content PacketVars.addPayload
              (((vars.setCls cls).setId id).setLen length) rest = result
            at hfail
          obtain ⟨vars', outcome⟩ := result
          simp only at hfail
          subst hfail
          rfl
        · rw [Counter.content_of_enough addPayload_neutral hlen henough]
          rcases hdrop : rest.drop length with _ | ⟨chkA, _ | ⟨chkB, tail⟩⟩
          · simp [little_of_short]
          · simp [little_of_short]
          · have hpayload : (rest.take length).length = length := by
              simp [henough]
            obtain ⟨hlow, hhigh⟩ := lengthBytes_eq low high hlength.symm
            simp only [little_pair]
            refine ⟨_, rfl, ?_⟩
            simp only [foldl_addPayload, DataPacket.foldl_addData,
              PacketVars.counter, PacketVars.setChk, PacketVars.setLen,
              PacketVars.setId, PacketVars.setCls, hfresh,
              DataPacket.header_eq, DataPacket.setChecksum, hlow, hhigh,
              List.cons_append, List.nil_append]
            constructor
            · simp only [DataPacket.message,
                check_eq_fletcherMatches rfl (hpayload.trans hlength.symm)]
              rfl
            · simp only [Message.bytes, hpayload, hlow, hhigh]

end SensorHub.Ublox
