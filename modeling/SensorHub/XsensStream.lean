import SensorHub.XsensItems
import SensorHub.XsensParser

/-!
# Chunks of an Xsens stream

The messages which the parser extracts do not depend on how the stream is cut
into chunks.  A pass of the parser is one step of the framer `framer`, and the
handling of a message only matters when it does not return: an exception is
excluded here, and a call that never ends is the last thing that happens.  So
all messages of the stream are extracted unless one before the last hangs.
-/

namespace SensorHub.Xsens

open Framing

variable {K : Type} [ExactDouble K]

def Parsed.frames (parsed : Parsed K) : List Frame :=
  parsed.handled.map Handling.frame

/-- How the handling of a message ends in a parser without leftover packets. -/
def Frame.ending (setting : Setting K) (flipAxes : Bool) (frame : Frame) : Outcome :=
  if frame.hasItems then
    (visit setting (0 : K) (frame.items flipAxes)).2
  else
    .returned

/-- However many passes its loops are granted, the handling of the message does
not end. -/
def Frame.Hangs (rounding : Rounding K) (calendar : Calendar) (flipAxes : Bool)
    (frame : Frame) : Prop :=
  ∀ fuel, frame.ending ⟨rounding, calendar, fuel⟩ flipAxes = .hung

theorem Frame.ending_of_le {rounding : Rounding K} {calendar : Calendar} {fuel more : ℕ}
    (hle : fuel ≤ more) {flipAxes : Bool} {frame : Frame}
    (hends : frame.ending ⟨rounding, calendar, fuel⟩ flipAxes ≠ .hung) :
    frame.ending ⟨rounding, calendar, more⟩ flipAxes =
      frame.ending ⟨rounding, calendar, fuel⟩ flipAxes := by
  unfold Frame.ending at hends ⊢
  split_ifs at hends ⊢
  · rw [visit_of_le hle hends]
  · rfl

/-- The time stamp has no influence on how the visits end. -/
theorem visit_outcome_eq (setting : Setting K) (stamp stamp' : K)
    (packets : List (DataPacket K)) :
    (visit setting stamp packets).2 =
      (visit setting stamp' packets).2 := by
  induction packets with
  | nil => rfl
  | cons packet packets ih =>
      simp only [visit]
      cases packet.getValues setting with
      | throws => rfl
      | hangs => rfl
      | values list => exact ih

namespace XsensParser

theorem handleFrame_frame (setting : Setting K) (parser : XsensParser K)
    (stamp : K) (frame : Frame) :
    (parser.handleFrame setting stamp frame).1.frame = frame := by
  unfold handleFrame
  split <;> rfl

theorem handleFrame_buffer (setting : Setting K) (parser : XsensParser K)
    (stamp : K) (frame : Frame) :
    (parser.handleFrame setting stamp frame).2.buffer = parser.buffer ∧
      (parser.handleFrame setting stamp frame).2.flipAxes =
        parser.flipAxes := by
  unfold handleFrame
  split <;> exact ⟨rfl, rfl⟩

theorem handleFrame_outcome (setting : Setting K) {parser : XsensParser K}
    (hclean : parser.dataPackets = []) (stamp : K) (frame : Frame) :
    (parser.handleFrame setting stamp frame).1.outcome =
      frame.ending setting parser.flipAxes := by
  unfold handleFrame Frame.ending
  by_cases hitems : frame.hasItems
  · simp only [if_pos hitems, hclean, List.nil_append]
    exact visit_outcome_eq _ _ _ _
  · simp only [if_neg hitems]

theorem handleFrame_dataPackets {setting : Setting K} {parser : XsensParser K}
    {stamp : K} {frame : Frame}
    (hreturned :
      (parser.handleFrame setting stamp frame).1.outcome = .returned) :
    (parser.handleFrame setting stamp frame).2.dataPackets = [] := by
  unfold handleFrame at hreturned ⊢
  by_cases hitems : frame.hasItems
  · simp only [if_pos hitems] at hreturned ⊢
    rw [if_pos hreturned]
  · simp only [if_neg hitems]

theorem parseSingle_eq (setting : Setting K) (parser : XsensParser K)
    (stamp : K) :
    parser.parseSingle setting stamp =
      (nextFrame parser.buffer).map fun found =>
        ({ parser with buffer := found.2 }).handleFrame setting stamp
          found.1 := by
  have hspec := packetRule_spec parser.buffer
  unfold parseSingle
  cases hnext : nextFrame parser.buffer with
  | none =>
      rw [hnext] at hspec
      generalize packetRule FrameVars.start parser.buffer = result at hspec
      obtain ⟨vars, outcome⟩ := result
      simp only at hspec
      subst hspec
      rfl
  | some found =>
      rw [hnext] at hspec
      obtain ⟨vars, hrule, hframe⟩ := hspec
      simp [hrule, hframe]

/-- The passes of a call are the steps of the framer, up to the first message
whose handling does not return. -/
theorem parsePasses_eq_consume (setting : Setting K) (stamp : K) (passes : ℕ)
    (parser : XsensParser K) (hclean : parser.dataPackets = [])
    (hpasses : parser.buffer.length < passes) :
    let stop := fun frame : Frame =>
      decide (frame.ending setting parser.flipAxes ≠ .returned)
    let consumed := framer.consume stop parser.buffer
    let parsed := parsePasses setting stamp passes parser
    parsed.frames = consumed.frames ∧
      parsed.parser.buffer = consumed.rest ∧
      parsed.parser.flipAxes = parser.flipAxes ∧
      (consumed.stopped = false →
        parsed.outcome = .returned ∧ parsed.parser.dataPackets = []) ∧
      (consumed.stopped = true →
        ∃ frame ∈ consumed.frames,
          parsed.outcome = frame.ending setting parser.flipAxes ∧
            parsed.outcome ≠ .returned) := by
  intro stop
  induction passes generalizing parser with
  | zero => omega
  | succ passes ih =>
      simp only [parsePasses, parseSingle_eq]
      cases hnext : nextFrame parser.buffer with
      | none =>
          have hconsume : framer.consume stop parser.buffer = _ :=
            Framer.consume_of_none hnext
          rw [hconsume]
          exact ⟨rfl, rfl, rfl, fun _ => ⟨rfl, hclean⟩, by simp⟩
      | some found =>
          obtain ⟨frame, rest⟩ := found
          have hshorter := nextFrame_shrinks hnext
          have hconsume : framer.consume stop parser.buffer = _ :=
            Framer.consume_of_some hnext
          have houtcome := handleFrame_outcome setting
            (show { parser with buffer := rest }.dataPackets = [] from hclean)
            stamp frame
          have hframe := handleFrame_frame setting
            { parser with buffer := rest } stamp frame
          obtain ⟨hbuffer, hflip⟩ := handleFrame_buffer setting
            { parser with buffer := rest } stamp frame
          simp only [Option.map_some]
          rw [hconsume]
          by_cases hreturned :
              frame.ending setting parser.flipAxes = .returned
          · have hgo : stop frame = false := by simp [stop, hreturned]
            have hreturned' := houtcome.trans hreturned
            have hpackets := handleFrame_dataPackets hreturned'
            have hrest := ih
              (({ parser with buffer := rest }).handleFrame setting stamp
                frame).2 hpackets (by rw [hbuffer]; simp only; omega)
            simp only [hbuffer, hflip] at hrest
            obtain ⟨hframes, hleft, hflip', hwent, hstopped⟩ := hrest
            simp only [if_pos hreturned', hgo, Bool.false_eq_true, if_false]
            refine ⟨?_, hleft, hflip', hwent, ?_⟩
            · simp only [Parsed.frames, List.map_cons] at hframes ⊢
              rw [hframe, hframes]
            · intro h
              obtain ⟨last, hmem, hend⟩ := hstopped h
              exact ⟨last, List.mem_cons_of_mem _ hmem, hend⟩
          · have hstop : stop frame = true := by simp [stop, hreturned]
            have hnot :
                (({ parser with buffer := rest }).handleFrame setting stamp
                  frame).1.outcome ≠ .returned := by
              rw [houtcome]
              exact hreturned
            simp only [if_neg hnot, hstop, if_true]
            refine ⟨?_, hbuffer, hflip, by simp, fun _ => ?_⟩
            · simp [Parsed.frames, hframe]
            · exact ⟨frame, List.mem_singleton_self frame, houtcome, hnot⟩

/-- The buffer never holds more than `maxBuffered` bytes when a chunk is
added. -/
def BufferBounded (setting : Setting K) :
    XsensParser K → List (K × List UInt8) → Prop
  | _, [] => True
  | parser, (stamp, received) :: more =>
      parser.buffer.length ≤ maxBuffered ∧
        let first := parser.addAndParse setting stamp received
        (first.outcome ≠ .hung → BufferBounded setting first.parser more)

/-- A sequence of calls in which nothing throws feeds the framer. -/
theorem calls_eq_feed (setting : Setting K) (received : List (K × List UInt8))
    (parser : XsensParser K) (hclean : parser.dataPackets = [])
    (hbounded : parser.BufferBounded setting received) :
    let stop := fun frame : Frame =>
      decide (frame.ending setting parser.flipAxes ≠ .returned)
    let fed := framer.feed stop parser.buffer (received.map Prod.snd)
    (∀ frame ∈ fed.frames,
        frame.ending setting parser.flipAxes ≠ .threw) →
      (parser.calls setting received).frames = fed.frames := by
  intro stop
  induction received generalizing parser with
  | nil => exact fun _ => rfl
  | cons call more ih =>
      obtain ⟨stamp, chunk⟩ := call
      obtain ⟨hsize, hboundedMore⟩ := hbounded
      have hbuffer := addToBuffer_of_le hsize chunk
      have hfirst := parsePasses_eq_consume setting stamp
        ((parser.buffer ++ chunk).length + 1)
        { parser with buffer := parser.buffer ++ chunk } hclean
        (Nat.lt_succ_self _)
      have hadd : parser.addAndParse setting stamp chunk =
          parsePasses setting stamp ((parser.buffer ++ chunk).length + 1)
            { parser with buffer := parser.buffer ++ chunk } := by
        simp only [addAndParse, parse, hbuffer]
      simp only [← hadd] at hfirst
      obtain ⟨hframes, hrest, hflip, hwent, hstopped⟩ := hfirst
      simp only [List.map_cons, Framer.feed, calls]
      by_cases hstop :
          (framer.consume stop (parser.buffer ++ chunk)).stopped = true
      · simp only [if_pos hstop]
        intro hthrows
        obtain ⟨frame, hmem, hend, hnot⟩ := hstopped hstop
        have hhung :
            (parser.addAndParse setting stamp chunk).outcome = .hung := by
          have := hthrows frame hmem
          rw [← hend] at this
          cases h : (parser.addAndParse setting stamp chunk).outcome with
          | returned => exact absurd h hnot
          | threw => exact absurd h this
          | hung => rfl
        rw [if_pos hhung, hframes]
      · rw [Bool.not_eq_true] at hstop
        obtain ⟨hreturned, hpackets⟩ := hwent hstop
        have hnotHung :
            (parser.addAndParse setting stamp chunk).outcome ≠ .hung := by
          rw [hreturned]
          decide
        have hmore := ih (parser.addAndParse setting stamp chunk).parser
          hpackets (hboundedMore hnotHung)
        simp only [hflip, hrest] at hmore
        simp only [hstop, Bool.false_eq_true, if_false, if_neg hnotHung]
        intro hthrows
        have hframesMore := hmore fun frame hmem =>
          hthrows frame (List.mem_append_right _ hmem)
        simp only [Parsed.frames, List.map_append] at hframes hframesMore ⊢
        rw [hframes, hframesMore]

end XsensParser

/-- A run from the empty buffer follows the scan of its whole input, up to a
message that hangs. -/
theorem frames_eq_takeThrough (setting : Setting K) (flipAxes : Bool)
    (received : List (K × List UInt8))
    (hbounded : (XsensParser.fresh flipAxes).BufferBounded setting received)
    (hthrows : ∀ frame ∈ (framer.scan (received.map Prod.snd).flatten).1,
      frame.ending setting flipAxes ≠ .threw) :
    ((XsensParser.fresh flipAxes).calls setting received).frames =
      takeThrough (fun frame => frame.ending setting flipAxes = .hung)
        (framer.scan (received.map Prod.snd).flatten).1 := by
  set parser : XsensParser K := XsensParser.fresh flipAxes
  have hfeed := XsensParser.calls_eq_feed setting received parser rfl hbounded
  have hwhole := (framer.feed_eq_consume
    (fun frame => decide (frame.ending setting flipAxes ≠ .returned))
    (received.map Prod.snd) [] rfl).1
  rw [List.nil_append, Framer.frames_consume] at hwhole
  have hsame : ∀ frame ∈ (framer.scan (received.map Prod.snd).flatten).1,
      decide (frame.ending setting flipAxes ≠ .returned) =
        decide (frame.ending setting flipAxes = .hung) := by
    intro frame hmem
    have hnot := hthrows frame hmem
    cases h : frame.ending setting flipAxes with
    | returned => rfl
    | threw => exact absurd h hnot
    | hung => rfl
  rw [takeThrough_congr hsame] at hwhole
  rw [← hwhole]
  apply hfeed
  intro frame hmem
  apply hthrows frame
  have hscan : frame ∈ takeThrough
      (fun frame => decide (frame.ending setting flipAxes = .hung))
      (framer.scan (received.map Prod.snd).flatten).1 := by
    rw [← hwhole]
    exact hmem
  exact mem_of_mem_takeThrough hscan

/-- With enough passes of the wrapping loops, the messages extracted are those
of the whole stream passed at once and those of the reference reading. -/
def ExtractsAll (rounding : Rounding K) (calendar : Calendar) (flipAxes : Bool)
    (received : List (K × List UInt8)) (stamp : K) : Prop :=
  ∃ enough, ∀ fuel ≥ enough,
    let parser : XsensParser K := XsensParser.fresh flipAxes
    let stream := (received.map Prod.snd).flatten
    let inChunks := (parser.calls ⟨rounding, calendar, fuel⟩ received).frames
    inChunks = (parser.calls ⟨rounding, calendar, fuel⟩ [(stamp, stream)]).frames ∧
      inChunks = (framer.scan stream).1

/-- However a stream is cut into chunks, the messages extracted are the same as
when it is passed at once.  They are those of the reference reading iff none but
the last of these hangs. -/
theorem frames_eq_scan_iff (rounding : Rounding K) (calendar : Calendar) (flipAxes : Bool)
    (received : List (K × List UInt8)) (stamp : K)
    (hbounded : ∀ fuel, (XsensParser.fresh flipAxes).BufferBounded
      ⟨rounding, calendar, fuel⟩ received)
    (hthrows : ∀ frame ∈ (framer.scan (received.map Prod.snd).flatten).1, ∀ fuel,
      frame.ending ⟨rounding, calendar, fuel⟩ flipAxes ≠ .threw) :
    (∀ fuel,
      ((XsensParser.fresh flipAxes).calls ⟨rounding, calendar, fuel⟩ received).frames =
        ((XsensParser.fresh flipAxes).calls ⟨rounding, calendar, fuel⟩
          [(stamp, (received.map Prod.snd).flatten)]).frames) ∧
      (ExtractsAll rounding calendar flipAxes received stamp ↔
        ∀ frame ∈ (framer.scan (received.map Prod.snd).flatten).1.dropLast,
          ¬frame.Hangs rounding calendar flipAxes) := by
  have hchunks := fun fuel => frames_eq_takeThrough ⟨rounding, calendar, fuel⟩ flipAxes
    received (hbounded fuel) fun frame hmem => hthrows frame hmem fuel
  have hflat : (([(stamp, (received.map Prod.snd).flatten)] : List (K × List UInt8)).map
      Prod.snd).flatten = (received.map Prod.snd).flatten := by
    simp
  have honce := fun fuel => frames_eq_takeThrough ⟨rounding, calendar, fuel⟩ flipAxes
    [(stamp, (received.map Prod.snd).flatten)] ⟨Nat.zero_le _, fun _ => trivial⟩
    fun frame hmem => hthrows frame (hflat ▸ hmem) fuel
  rw [hflat] at honce
  refine ⟨fun fuel => (hchunks fuel).trans (honce fuel).symm, ?_⟩
  set frames := (framer.scan (received.map Prod.snd).flatten).1
  constructor
  · rintro ⟨enough, henough⟩ frame hmem hhangs
    have hall := (henough enough le_rfl).2
    rw [hchunks, takeThrough_eq_self_iff] at hall
    simpa using (hall frame hmem).symm.trans (decide_eq_true (hhangs enough))
  · intro hends
    have hsome : ∀ᶠ fuel in Filter.atTop, ∀ frame ∈ {frame | frame ∈ frames.dropLast},
        frame.ending ⟨rounding, calendar, fuel⟩ flipAxes ≠ .hung := by
      rw [Filter.eventually_all_finite frames.dropLast.finite_toSet]
      intro frame hmem
      obtain ⟨enough, hended⟩ := not_forall.mp (hends frame hmem)
      refine Filter.eventually_atTop.mpr ⟨enough, fun fuel hfuel => ?_⟩
      rw [Frame.ending_of_le hfuel hended]
      exact hended
    obtain ⟨enough, henough⟩ := Filter.eventually_atTop.mp hsome
    refine ⟨enough, fun fuel hfuel => ⟨(hchunks fuel).trans (honce fuel).symm, ?_⟩⟩
    refine (hchunks fuel).trans (takeThrough_eq_self_iff.mpr fun frame hmem => ?_)
    exact decide_eq_false (henough fuel hfuel frame hmem)

/-- A message of another kind and an empty one, with a border inside the first
preamble and one before the last checksum. -/
theorem frames_eq_scan_iff_two :
    let received : List (ℚ × List UInt8) :=
      [(0, [0x00, 0xFA]), (1, [0xFF, 0x31, 0x00, 0xD0, 0xFA, 0xFF, 0x36, 0x00]),
        (2, [0xCB])]
    (framer.scan (received.map Prod.snd).flatten).1 =
        [⟨0x31, [], true⟩, ⟨0x36, [], true⟩] ∧
      ExtractsAll .binary64 Calendar.gregorian false received 0 := by
  intro received
  have hscan : framer.scan (received.map Prod.snd).flatten =
      ([⟨0x31, [], true⟩, ⟨0x36, [], true⟩], []) := by
    have hfirst : framer.next (received.map Prod.snd).flatten =
        some (⟨0x31, [], true⟩, [0xFA, 0xFF, 0x36, 0x00, 0xCB]) := by
      decide +kernel
    have hsecond : framer.next [0xFA, 0xFF, 0x36, 0x00, 0xCB] =
        some (⟨0x36, [], true⟩, []) := by
      decide +kernel
    rw [Framer.scan_of_some hfirst, Framer.scan_of_some hsecond, Framer.scan_of_none rfl]
  have hreturns : ∀ frame ∈ (framer.scan (received.map Prod.snd).flatten).1, ∀ fuel,
      frame.ending (⟨.binary64, Calendar.gregorian, fuel⟩ : Setting ℚ) false = .returned := by
    rw [hscan]
    rintro frame (_ | ⟨_, _ | ⟨_, hnil⟩⟩) fuel
    · rfl
    · rfl
    · cases hnil
  have hbounded : ∀ fuel, (XsensParser.fresh false).BufferBounded
      (⟨.binary64, Calendar.gregorian, fuel⟩ : Setting ℚ) received := by
    intro fuel
    exact ⟨Nat.zero_le _, fun _ => ⟨Nat.le_of_ble_eq_true rfl,
      fun _ => ⟨Nat.le_of_ble_eq_true rfl, fun _ => trivial⟩⟩⟩
  refine ⟨congrArg Prod.fst hscan, (frames_eq_scan_iff .binary64 Calendar.gregorian false
    received 0 hbounded fun frame hmem fuel => by simp [hreturns frame hmem]).2.mpr ?_⟩
  intro frame hmem hhangs
  have hended := hreturns frame (List.mem_of_mem_dropLast hmem) 0
  rw [hhangs 0] at hended
  cases hended

/-- A message with a roll of plus infinity. -/
def infiniteRoll : List UInt8 :=
  [0xFA, 0xFF, 0x36, 0x0F, 0x20, 0x30, 0x0C, 0x7F, 0x80, 0, 0, 0, 0, 0, 0, 0, 0, 0, 0, 0x61]

def infiniteRollFrame : Frame :=
  ⟨0x36, [0x20, 0x30, 0x0C, 0x7F, 0x80, 0, 0, 0, 0, 0, 0, 0, 0, 0, 0], true⟩

theorem hangs_infiniteRollFrame :
    infiniteRollFrame.Hangs (Rounding.binary64 : Rounding ℚ) Calendar.gregorian true := by
  intro fuel
  have hkind : infiniteRollFrame.hasItems = true := by decide
  have hitems : infiniteRollFrame.items (K := ℚ) true =
      [.dataValue (eulerAngles true) [.posInf, .finite 0, .finite 0]] := by
    decide +kernel
  have hwrap : ¬(DataPacket.dataValue (eulerAngles true)
      [.posInf, .finite 0, .finite 0]).AnglesWrap (Rounding.binary64 : Rounding ℚ) := by
    rw [DataPacket.anglesWrap_binary64_iff]
    intro hwithin
    have hroll := hwithin 0 (by decide) (by decide)
    revert hroll
    decide +kernel
  rw [Frame.ending, if_pos hkind, hitems, visit, DataPacket.getValues_of_not_wrap hwrap]

/-- Behind the message with the infinite roll nothing is extracted any more. -/
theorem not_extractsAll_infiniteRoll :
    ¬∀ (received : List (ℚ × List UInt8)) (stamp : ℚ),
      (∀ fuel, (XsensParser.fresh true).BufferBounded
        ⟨.binary64, Calendar.gregorian, fuel⟩ received) →
      (∀ frame ∈ (framer.scan (received.map Prod.snd).flatten).1, ∀ fuel,
        frame.ending (⟨.binary64, Calendar.gregorian, fuel⟩ : Setting ℚ) true ≠ .threw) →
      ExtractsAll .binary64 Calendar.gregorian true received stamp := by
  intro hall
  have hstream : ([((0 : ℚ), infiniteRoll ++ [0xFA, 0xFF, 0x36, 0x00, 0xCB])].map
      Prod.snd).flatten = infiniteRoll ++ [0xFA, 0xFF, 0x36, 0x00, 0xCB] := rfl
  have hscan : framer.scan (infiniteRoll ++ [0xFA, 0xFF, 0x36, 0x00, 0xCB]) =
      ([infiniteRollFrame, ⟨0x36, [], true⟩], []) := by
    have hfirst : framer.next (infiniteRoll ++ [0xFA, 0xFF, 0x36, 0x00, 0xCB]) =
        some (infiniteRollFrame, [0xFA, 0xFF, 0x36, 0x00, 0xCB]) := by
      decide +kernel
    have hsecond : framer.next [0xFA, 0xFF, 0x36, 0x00, 0xCB] =
        some (⟨0x36, [], true⟩, []) := by
      decide +kernel
    rw [Framer.scan_of_some hfirst, Framer.scan_of_some hsecond, Framer.scan_of_none rfl]
  have hbounded : ∀ fuel, (XsensParser.fresh true).BufferBounded
      (⟨.binary64, Calendar.gregorian, fuel⟩ : Setting ℚ)
      [(0, infiniteRoll ++ [0xFA, 0xFF, 0x36, 0x00, 0xCB])] :=
    fun fuel => ⟨Nat.zero_le _, fun _ => trivial⟩
  have hthrows : ∀ frame ∈ (framer.scan (infiniteRoll ++ [0xFA, 0xFF, 0x36, 0x00, 0xCB])).1,
      ∀ fuel, frame.ending (⟨.binary64, Calendar.gregorian, fuel⟩ : Setting ℚ) true ≠
        .threw := by
    rw [hscan]
    rintro frame (_ | ⟨_, _ | ⟨_, hnil⟩⟩) fuel
    · rw [hangs_infiniteRollFrame fuel]
      exact Outcome.noConfusion
    · exact Outcome.noConfusion
    · cases hnil
  obtain ⟨enough, henough⟩ := hall _ 0 hbounded hthrows
  have hall := (henough enough le_rfl).2
  rw [frames_eq_takeThrough _ _ _ (hbounded enough) fun frame hmem =>
    hthrows frame hmem enough, hstream, hscan, takeThrough_eq_self_iff] at hall
  simpa [hangs_infiniteRollFrame enough] using hall infiniteRollFrame (by simp)

end SensorHub.Xsens
