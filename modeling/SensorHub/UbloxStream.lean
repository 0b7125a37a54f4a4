import SensorHub.UbloxParser

/-!
# Chunks of a u-blox stream

The packets which pass the check do not depend on how the stream is cut into
chunks.  Each pass of the parser starts with a cleared packet, so a pass is one
step of the framer `framer`; payloads that throw are excluded.
-/

namespace SensorHub.Ublox

open X3 Framing

variable {K : Type} [ExactDouble K]

/-- Does an exception leave the parser when this message is handled? -/
def Message.throws (K : Type) [ExactDouble K] (calendar : Calendar)
    (message : Message) : Bool :=
  message.checked &&
    match (payloadParseRule () message.bytes).2 with
    | some (payload, _) => (payload.getValues (K := K) calendar).isNone
    | none => false

namespace Parsed

def messages (parsed : Parsed K) : List Message :=
  parsed.handled.map Handling.message

/-- The messages for which the check succeeded. -/
def accepted (parsed : Parsed K) : List Message :=
  parsed.messages.filter Message.checked

end Parsed

namespace UbloxParser

theorem handlePacket_spec (calendar : Calendar) (parser : UbloxParser K)
    (stamp : K) {packet : DataPacket}
    (hdata : packet.data = packet.message.bytes) :
    let result := parser.handlePacket calendar stamp packet
    result.1.message = packet.message ∧
      result.2.buffer = parser.buffer ∧
      result.1.outcome =
        if packet.message.throws K calendar then .threw else .returned := by
  intro result
  unfold result handlePacket
  simp only [Message.throws, ← hdata]
  by_cases hcheck : packet.check
  · have hchecked : packet.message.checked = true := hcheck
    simp only [if_pos hcheck, hchecked, Bool.true_and]
    cases hparse : (payloadParseRule () packet.data).2 with
    | none => exact ⟨rfl, rfl, rfl⟩
    | some parsed =>
        obtain ⟨payload, rest⟩ := parsed
        cases hvalues : payload.getValues (K := K) calendar <;>
          simp [Payload.visit, hvalues]
  · have hunchecked : packet.message.checked = false :=
      Bool.not_eq_true _ ▸ hcheck
    simp [if_neg hcheck, hunchecked]

/-- Started with a cleared packet, the passes of a call are the steps of the
framer, up to the first message that throws. -/
theorem parsePasses_eq_consume (calendar : Calendar) (stamp : K) (passes : ℕ)
    {vars : PacketVars} (hfresh : vars.packet = .fresh)
    (parser : UbloxParser K) (hpasses : parser.buffer.length < passes) :
    let consumed := framer.consume (Message.throws K calendar) parser.buffer
    let parsed := parsePasses calendar stamp passes vars parser
    parsed.messages = consumed.frames ∧
      parsed.parser.buffer = consumed.rest ∧
      parsed.outcome = if consumed.stopped then .threw else .returned := by
  induction passes generalizing vars parser with
  | zero => omega
  | succ passes ih =>
      have hspec := packetRule_spec hfresh parser.buffer
      simp only [parsePasses]
      cases hnext : nextMessage parser.buffer with
      | none =>
          have hconsume :
              framer.consume (Message.throws K calendar) parser.buffer = _ :=
            Framer.consume_of_none hnext
          rw [hconsume]
          by_cases hempty : parser.buffer = []
          · simp [hempty, Parsed.messages]
          · rw [hnext] at hspec
            generalize packetRule vars parser.buffer = result at hspec
            obtain ⟨vars', outcome⟩ := result
            simp only at hspec
            subst hspec
            simp [hempty, Parsed.messages]
      | some found =>
          obtain ⟨message, tail⟩ := found
          have hshorter := nextMessage_shrinks hnext
          have hnonempty : parser.buffer ≠ [] :=
            List.ne_nil_of_length_pos (by omega)
          rw [hnext] at hspec
          obtain ⟨vars', hrule, hmessage, hdata⟩ := hspec
          have hconsume :
              framer.consume (Message.throws K calendar) parser.buffer = _ :=
            Framer.consume_of_some hnext
          rw [← hmessage] at hdata
          obtain ⟨hhandled, hbuffer, houtcome⟩ := handlePacket_spec calendar
            { parser with buffer := tail } stamp hdata
          rw [hmessage] at hhandled houtcome
          simp only at hbuffer
          rw [hconsume]
          simp only [if_neg hnonempty, hrule]
          by_cases hthrows : message.throws K calendar
          · rw [if_pos hthrows] at houtcome
            have hnot : ¬Outcome.threw = .returned := by decide
            simp only [houtcome, if_neg hnot, if_pos hthrows]
            exact ⟨by simp [Parsed.messages, hhandled], hbuffer, rfl⟩
          · rw [if_neg hthrows] at houtcome
            have hcleared : vars'.clear.packet = .fresh :=
              DataPacket.clear_eq vars'.packet
            obtain ⟨hmessages, hrest, hend⟩ := ih hcleared
              (({ parser with buffer := tail }).handlePacket calendar stamp
                vars'.packet).2 (by rw [hbuffer]; omega)
            rw [hbuffer] at hmessages hrest hend
            simp only [if_pos houtcome, if_neg hthrows]
            refine ⟨?_, hrest, hend⟩
            simp only [Parsed.messages, List.map_cons] at hmessages ⊢
            rw [hhandled, hmessages]

/-- A call takes the first message off the buffer and goes on as one with the
bytes behind it, unless the message throws. -/
theorem parse_of_next (calendar : Calendar) (stamp : K) {parser : UbloxParser K}
    {message : Message} {rest : List UInt8}
    (hnext : nextMessage parser.buffer = some (message, rest)) :
    let parsed := parser.parse calendar stamp
    let later := ({ parser with buffer := rest }).parse calendar stamp
    if message.throws K calendar then
      parsed.messages = [message] ∧ parsed.parser.buffer = rest
    else
      parsed.messages = message :: later.messages ∧
        parsed.parser.buffer = later.parser.buffer := by
  intro parsed later
  have hconsume : framer.consume (Message.throws K calendar) parser.buffer = _ :=
    Framer.consume_of_some hnext
  obtain ⟨hmessages, hleft, -⟩ := parsePasses_eq_consume calendar stamp
    (parser.buffer.length + 1) (show PacketVars.start.packet = .fresh from rfl) parser
    (Nat.lt_succ_self _)
  obtain ⟨hlater, hlaterLeft, -⟩ := parsePasses_eq_consume calendar stamp
    (rest.length + 1) (show PacketVars.start.packet = .fresh from rfl)
    { parser with buffer := rest } (Nat.lt_succ_self _)
  rw [hconsume] at hmessages hleft
  split
  · next hthrows =>
      rw [if_pos hthrows] at hmessages hleft
      exact ⟨hmessages, hleft⟩
  · next hreturns =>
      rw [if_neg hreturns] at hmessages hleft
      exact ⟨hmessages.trans (congrArg _ hlater.symm), hleft.trans hlaterLeft.symm⟩

/-- The first message in the buffer is handled by the call, before all others. -/
theorem exists_handling (calendar : Calendar) (stamp : K) {parser : UbloxParser K}
    {message : Message} {rest : List UInt8}
    (hnext : nextMessage parser.buffer = some (message, rest)) :
    ∃ handling more, (parser.parse calendar stamp).handled = handling :: more ∧
      handling.message = message := by
  obtain ⟨messages, hmessages⟩ : ∃ messages,
      (parser.parse calendar stamp).messages = message :: messages := by
    have hparsed := parse_of_next calendar stamp hnext
    simp only at hparsed
    split at hparsed
    · exact ⟨_, hparsed.1⟩
    · exact ⟨_, hparsed.1⟩
  obtain ⟨handling, more, hhandled, hmessage, -⟩ := List.map_eq_cons_iff.mp hmessages
  exact ⟨handling, more, hhandled, hmessage⟩

/-- The buffer never holds more than `maxBuffered` bytes when a chunk is
added. -/
def BufferBounded (calendar : Calendar) :
    UbloxParser K → List (K × List UInt8) → Prop
  | _, [] => True
  | parser, (stamp, received) :: more =>
      parser.buffer.length ≤ maxBuffered ∧
        BufferBounded calendar
          (parser.addAndParse calendar stamp received).parser more

/-- A sequence of calls in which nothing throws feeds the framer. -/
theorem calls_eq_feed (calendar : Calendar) (received : List (K × List UInt8))
    (parser : UbloxParser K)
    (hbounded : parser.BufferBounded calendar received) :
    let fed := framer.feed (Message.throws K calendar) parser.buffer
      (received.map Prod.snd)
    (∀ message ∈ fed.frames, message.throws K calendar = false) →
      (parser.calls calendar received).messages = fed.frames := by
  induction received generalizing parser with
  | nil => exact fun _ => rfl
  | cons call more ih =>
      obtain ⟨stamp, chunk⟩ := call
      obtain ⟨hsize, hboundedMore⟩ := hbounded
      have hbuffer := addToBuffer_of_le hsize chunk
      have hfirst := parsePasses_eq_consume calendar stamp
        ((parser.buffer ++ chunk).length + 1)
        (show PacketVars.start.packet = .fresh from rfl)
        { parser with buffer := parser.buffer ++ chunk } (Nat.lt_succ_self _)
      have hadd : parser.addAndParse calendar stamp chunk =
          parsePasses calendar stamp ((parser.buffer ++ chunk).length + 1)
            .start { parser with buffer := parser.buffer ++ chunk } := by
        simp only [addAndParse, parse, hbuffer]
      simp only [← hadd] at hfirst
      obtain ⟨hmessages, hrest, -⟩ := hfirst
      simp only [List.map_cons, Framer.feed, calls]
      by_cases hstop :
          (framer.consume (Message.throws K calendar)
            (parser.buffer ++ chunk)).stopped = true
      · simp only [if_pos hstop]
        intro hthrows
        obtain ⟨message, hmem, hthrew⟩ := Framer.exists_stop_of_stopped hstop
        rw [hthrows message hmem] at hthrew
        exact absurd hthrew Bool.false_ne_true
      · have hmore := ih _ hboundedMore
        rw [hrest] at hmore
        simp only [if_neg hstop]
        intro hthrows
        have hmessagesMore := hmore fun message hmem =>
          hthrows message (List.mem_append_right _ hmem)
        simp only [Parsed.messages, List.map_append] at hmessages hmessagesMore ⊢
        rw [hmessages, hmessagesMore]

end UbloxParser

/-- However a stream is cut into chunks, the packets which pass the check are
the same as when it is passed at once, namely those of the reference reading
whose Fletcher sums equal their checksum. -/
theorem packets_eq_scan (calendar : Calendar)
    (received : List (K × List UInt8)) (stamp : K)
    (hbounded : UbloxParser.fresh.BufferBounded calendar received)
    (hthrows :
      ∀ message ∈ (framer.scan (received.map Prod.snd).flatten).1,
        message.throws K calendar = false) :
    let stream := (received.map Prod.snd).flatten
    let parser : UbloxParser K := UbloxParser.fresh
    let inChunks := (parser.calls calendar received).accepted
    let atOnce := (parser.calls calendar [(stamp, stream)]).accepted
    inChunks = atOnce ∧
      inChunks = (framer.scan stream).1.filter Message.checked := by
  intro stream parser
  -- a run from the empty buffer follows the scan of its whole input
  have hrun : ∀ calls : List (K × List UInt8),
      (calls.map Prod.snd).flatten = stream →
      parser.BufferBounded calendar calls →
      (parser.calls calendar calls).accepted =
        (framer.scan stream).1.filter Message.checked := by
    intro calls hcalls hcallsBounded
    have hfeed :=
      UbloxParser.calls_eq_feed calendar calls parser hcallsBounded
    have hwhole := (framer.feed_eq_consume
      (Message.throws K calendar) (calls.map Prod.snd) [] rfl).1
    rw [List.nil_append, hcalls, Framer.frames_consume,
      takeThrough_eq_self hthrows] at hwhole
    simp only [parser, UbloxParser.fresh] at hfeed hwhole
    rw [hwhole] at hfeed
    exact congrArg (List.filter Message.checked) (hfeed hthrows)
  have hchunks := hrun received rfl hbounded
  have honce := hrun [(stamp, stream)] (by simp) ⟨Nat.zero_le _, trivial⟩
  exact ⟨hchunks.trans honce.symm, hchunks⟩

/-- Two messages with a damaged one between them; borders inside the first
preamble, inside a length and inside a checksum. -/
theorem packets_eq_scan_two :
    let calendar : Calendar :=
      ⟨fun _ _ _ => none, fun _ _ _ _ => rfl, fun _ _ _ _ => rfl⟩
    let received : List (ℚ × List UInt8) :=
      [(0, [0x00, 0xB5]), (1, [0x62, 0x05, 0x01, 0x00]),
        (2, [0x00, 0x06, 0x17, 0xB5, 0x62, 0x05, 0x01, 0x00, 0x00, 0x00]),
        (3, [0x17, 0xB5, 0x62, 0x0A, 0x04, 0x01, 0x00, 0x07, 0x16, 0x4C])]
    (UbloxParser.fresh.calls calendar received).accepted =
      [⟨0x05, 0x01, [], true⟩, ⟨0x0A, 0x04, [0x07], true⟩] := by
  intro calendar received
  have hscan :
      framer.scan (received.map Prod.snd).flatten =
        ([⟨0x05, 0x01, [], true⟩, ⟨0x05, 0x01, [], false⟩,
          ⟨0x0A, 0x04, [0x07], true⟩], []) := by
    have hfirst : framer.next (received.map Prod.snd).flatten =
        some (⟨0x05, 0x01, [], true⟩,
          [0xB5, 0x62, 0x05, 0x01, 0x00, 0x00, 0x00, 0x17,
            0xB5, 0x62, 0x0A, 0x04, 0x01, 0x00, 0x07, 0x16, 0x4C]) := by
      decide +kernel
    have hsecond : framer.next
        [0xB5, 0x62, 0x05, 0x01, 0x00, 0x00, 0x00, 0x17,
          0xB5, 0x62, 0x0A, 0x04, 0x01, 0x00, 0x07, 0x16, 0x4C] =
        some (⟨0x05, 0x01, [], false⟩,
          [0xB5, 0x62, 0x0A, 0x04, 0x01, 0x00, 0x07, 0x16, 0x4C]) := by
      decide +kernel
    have hthird : framer.next
        [0xB5, 0x62, 0x0A, 0x04, 0x01, 0x00, 0x07, 0x16, 0x4C] =
        some (⟨0x0A, 0x04, [0x07], true⟩, []) := by
      decide +kernel
    rw [Framer.scan_of_some hfirst, Framer.scan_of_some hsecond,
      Framer.scan_of_some hthird, Framer.scan_of_none rfl]
  have hreturns :
      ∀ message ∈ (framer.scan (received.map Prod.snd).flatten).1,
        message.throws ℚ calendar = false := by
    rw [hscan]
    decide +kernel
  have hbounded : UbloxParser.fresh.BufferBounded calendar received :=
    ⟨by decide, by decide +kernel, by decide +kernel, by decide +kernel,
      trivial⟩
  have hpackets := (packets_eq_scan calendar received 0 hbounded hreturns).2
  rw [hscan] at hpackets
  exact hpackets

end SensorHub.Ublox
