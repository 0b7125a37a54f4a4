import SensorHub.XsensStream

/-!
# Exceptions while an Xsens message is handled

An exception leaves `parse_single` between filling `data_packets` and clearing
it, and the parser outlives the call.  This file determines exactly for which
messages of a run the visitor still sees packets of earlier messages: those
which are preceded by a message that threw, without a message of another kind
(a failed check or another identifier) in between.
-/

namespace SensorHub.Xsens

variable {K : Type} [ExactDouble K]

/-- The packets the visitor is applied to for a message. -/
def Handling.packets (flipAxes : Bool) (handling : Handling K) :
    List (DataPacket K) :=
  handling.stale ++ handling.frame.items flipAxes

theorem visit_append (setting : Setting K) (stamp : K)
    (packets more : List (DataPacket K)) :
    visit setting stamp (packets ++ more) =
      if (visit setting stamp packets).2 = .returned then
        ((visit setting stamp packets).1 ++
            (visit setting stamp more).1,
          (visit setting stamp more).2)
      else
        visit setting stamp packets := by
  induction packets with
  | nil => simp [visit]
  | cons packet packets ih =>
      cases hvalues : packet.getValues setting with
      | throws => simp [visit, hvalues]
      | hangs => simp [visit, hvalues]
      | values list =>
          simp only [List.cons_append, visit, hvalues, ih]
          split <;> simp

/-- Visiting these packets throws, whatever the stamp. -/
def Throwing (setting : Setting K) (packets : List (DataPacket K)) : Prop :=
  ∀ stamp, (visit setting stamp packets).2 = .threw

theorem Throwing.append {setting : Setting K} {packets : List (DataPacket K)}
    (hthrowing : Throwing setting packets) (more : List (DataPacket K)) :
    Throwing setting (packets ++ more) := by
  intro stamp
  rw [visit_append, if_neg (by rw [hthrowing stamp]; decide)]
  exact hthrowing stamp

/-- The messages of `handled` were handled one after the other, starting with
some packets left in `data_packets` and ending with others. -/
inductive HandledFrom (setting : Setting K) (flipAxes : Bool) :
    List (DataPacket K) → List (Handling K) → List (DataPacket K) → Prop
  | nil (packets) : HandledFrom setting flipAxes packets [] packets
  | skipped {stale packets handled} (handling : Handling K)
      (hstale : handling.stale = stale)
      (hitems : handling.frame.hasItems = false)
      (hrest : HandledFrom setting flipAxes [] handled packets) :
      HandledFrom setting flipAxes stale (handling :: handled) packets
  | visited {stale packets handled} (handling : Handling K) (stamp : K)
      (hstale : handling.stale = stale)
      (hitems : handling.frame.hasItems = true)
      (hvisit :
        visit setting stamp
            (handling.packets flipAxes) =
          (handling.pushed, handling.outcome))
      (hgo : handling.outcome ≠ .hung)
      (hrest :
        HandledFrom setting flipAxes
          (if handling.outcome = .returned then []
            else handling.packets flipAxes) handled packets) :
      HandledFrom setting flipAxes stale (handling :: handled) packets
  | hung {stale} (handling : Handling K) (stamp : K)
      (hstale : handling.stale = stale)
      (hitems : handling.frame.hasItems = true)
      (hvisit :
        visit setting stamp
            (handling.packets flipAxes) =
          (handling.pushed, handling.outcome))
      (hhung : handling.outcome = .hung) :
      HandledFrom setting flipAxes stale [handling]
        (handling.packets flipAxes)

namespace HandledFrom

variable {setting : Setting K} {flipAxes : Bool}

theorem append {stale between packets : List (DataPacket K)}
    {handled more : List (Handling K)}
    (hfirst : HandledFrom setting flipAxes stale handled between)
    (hgo : ∀ handling ∈ handled, handling.outcome ≠ .hung)
    (hsecond : HandledFrom setting flipAxes between more packets) :
    HandledFrom setting flipAxes stale (handled ++ more) packets := by
  induction hfirst with
  | nil => exact hsecond
  | skipped handling hstale hitems _ ih =>
      rw [List.forall_mem_cons] at hgo
      exact .skipped handling hstale hitems (ih hgo.2 hsecond)
  | visited handling stamp hstale hitems hvisit hnot _ ih =>
      rw [List.forall_mem_cons] at hgo
      exact .visited handling stamp hstale hitems hvisit hnot (ih hgo.2 hsecond)
  | hung handling stamp hstale hitems hvisit hhung =>
      exact absurd hhung (hgo handling (List.mem_singleton_self handling))

end HandledFrom

namespace XsensParser

theorem handleFrame_handledFrom (setting : Setting K) (parser : XsensParser K)
    (stamp : K) (frame : Frame) :
    let result := parser.handleFrame setting stamp frame
    HandledFrom setting parser.flipAxes parser.dataPackets [result.1]
      result.2.dataPackets := by
  intro result
  unfold result handleFrame
  by_cases hitems : frame.hasItems
  · simp only [if_pos hitems]
    by_cases hhung :
        (visit setting stamp
          (parser.dataPackets ++ frame.items parser.flipAxes)).2 = .hung
    · rw [if_neg (by rw [hhung]; decide)]
      exact .hung ⟨frame, parser.dataPackets, _, _⟩ stamp rfl hitems rfl hhung
    · exact .visited ⟨frame, parser.dataPackets, _, _⟩ stamp rfl hitems rfl hhung
        (.nil _)
  · simp only [if_neg hitems]
    exact .skipped _ rfl (by simpa using hitems) (.nil _)

theorem parsePasses_handledFrom (setting : Setting K) (stamp : K) (passes : ℕ)
    (parser : XsensParser K) :
    let parsed := parsePasses setting stamp passes parser
    HandledFrom setting parser.flipAxes parser.dataPackets parsed.handled
        parsed.parser.dataPackets ∧
      parsed.parser.flipAxes = parser.flipAxes ∧
      (parsed.outcome ≠ .hung →
        ∀ handling ∈ parsed.handled, handling.outcome ≠ .hung) := by
  induction passes generalizing parser with
  | zero => exact ⟨.nil _, rfl, by simp [parsePasses]⟩
  | succ passes ih =>
      simp only [parsePasses, parseSingle_eq]
      cases hnext : nextFrame parser.buffer with
      | none => exact ⟨.nil _, rfl, by simp⟩
      | some found =>
          obtain ⟨frame, rest⟩ := found
          simp only [Option.map_some]
          have hone := handleFrame_handledFrom setting
            { parser with buffer := rest } stamp frame
          obtain ⟨-, hflip⟩ := handleFrame_buffer setting
            { parser with buffer := rest } stamp frame
          generalize ({ parser with buffer := rest }).handleFrame setting stamp
            frame = result at hone hflip ⊢
          simp only at hone hflip
          by_cases hreturned : result.1.outcome = .returned
          · obtain ⟨hmore, hflipMore, hgo⟩ := ih result.2
            rw [hflip] at hmore hflipMore
            have hnot : result.1.outcome ≠ .hung := by
              rw [hreturned]
              decide
            simp only [if_pos hreturned]
            refine ⟨?_, hflipMore, fun h => ?_⟩
            · exact hone.append (by simpa using hnot) hmore
            · exact List.forall_mem_cons.mpr ⟨hnot, hgo h⟩
          · simp only [if_neg hreturned]
            exact ⟨hone, hflip, fun h => by simpa using h⟩

theorem calls_handledFrom (setting : Setting K)
    (received : List (K × List UInt8)) (parser : XsensParser K) :
    ∃ packets, HandledFrom setting parser.flipAxes parser.dataPackets
      (parser.calls setting received).handled packets := by
  induction received generalizing parser with
  | nil => exact ⟨_, .nil _⟩
  | cons call more ih =>
      obtain ⟨stamp, chunk⟩ := call
      have hfirst := parsePasses_handledFrom setting stamp
        ((addToBuffer parser.buffer chunk).length + 1)
        { parser with buffer := addToBuffer parser.buffer chunk }
      have hadd : parser.addAndParse setting stamp chunk =
          parsePasses setting stamp
            ((addToBuffer parser.buffer chunk).length + 1)
            { parser with buffer := addToBuffer parser.buffer chunk } := rfl
      simp only [← hadd] at hfirst
      obtain ⟨hhandled, hflip, hgo⟩ := hfirst
      simp only [calls]
      by_cases hhung :
          (parser.addAndParse setting stamp chunk).outcome = .hung
      · rw [if_pos hhung]
        exact ⟨_, hhandled⟩
      · obtain ⟨packets, hmore⟩ :=
          ih (parser.addAndParse setting stamp chunk).parser
        rw [hflip] at hmore
        rw [if_neg hhung]
        exact ⟨packets, hhandled.append (hgo hhung) hmore⟩

end XsensParser

/-! ## When packets are left over -/

/-- Since the last message of another kind, no message has thrown. -/
def NoneThrew (setting : Setting K) (flipAxes : Bool) (before : List Frame) : Prop :=
  ∀ frame ∈ before.reverse.takeWhile Frame.hasItems,
    frame.ending setting flipAxes ≠ .threw

theorem noneThrew_append_skip (setting : Setting K) (flipAxes : Bool)
    (before : List Frame) {frame : Frame} (hitems : frame.hasItems = false) :
    NoneThrew setting flipAxes (before ++ [frame]) := by
  simp [NoneThrew, hitems]

theorem noneThrew_append_items (setting : Setting K) (flipAxes : Bool)
    (before : List Frame) {frame : Frame} (hitems : frame.hasItems = true) :
    NoneThrew setting flipAxes (before ++ [frame]) ↔
      frame.ending setting flipAxes ≠ .threw ∧
        NoneThrew setting flipAxes before := by
  simp [NoneThrew, hitems]

/-- What may be left in `data_packets` after some messages: nothing if none of
them threw, otherwise packets which throw again. -/
structure Leftover (setting : Setting K) (flipAxes : Bool)
    (before : List Frame) (packets : List (DataPacket K)) : Prop where
  clean : NoneThrew setting flipAxes before → packets = []
  stale : ¬ NoneThrew setting flipAxes before → Throwing setting packets

theorem not_throwing_nil (setting : Setting K) :
    ¬ Throwing (K := K) setting [] := by
  intro hthrowing
  have := hthrowing 0
  simp [visit] at this

theorem Leftover.eq_nil_iff {setting : Setting K} {flipAxes : Bool}
    {before : List Frame} {packets : List (DataPacket K)}
    (hleft : Leftover setting flipAxes before packets) :
    packets = [] ↔ NoneThrew setting flipAxes before := by
  constructor
  · intro hnil
    by_contra hthrew
    have hthrowing := hleft.stale hthrew
    rw [hnil] at hthrowing
    exact not_throwing_nil setting hthrowing
  · exact hleft.clean

theorem Leftover.step {setting : Setting K} {flipAxes : Bool}
    {before : List Frame} {handling : Handling K} {stamp : K}
    (hleft : Leftover setting flipAxes before handling.stale)
    (hitems : handling.frame.hasItems = true)
    (hvisit :
      visit setting stamp
          (handling.packets flipAxes) =
        (handling.pushed, handling.outcome))
    (hgo : handling.outcome ≠ .hung) :
    Leftover setting flipAxes (before ++ [handling.frame])
      (if handling.outcome = .returned then []
        else handling.packets flipAxes) := by
  have hending : ∀ stamp' : K,
      (visit setting stamp'
        (handling.frame.items flipAxes)).2 =
        handling.frame.ending setting flipAxes := by
    intro stamp'
    rw [Frame.ending, if_pos hitems]
    exact visit_outcome_eq _ _ _ _
  have houtcome : ∀ stamp' : K,
      (visit setting stamp'
        (handling.packets flipAxes)).2 = handling.outcome := by
    intro stamp'
    rw [visit_outcome_eq _ stamp' stamp, hvisit]
  by_cases hthrew : NoneThrew setting flipAxes before
  · have hstale := hleft.clean hthrew
    have hown : handling.outcome = handling.frame.ending setting flipAxes := by
      rw [← houtcome stamp, Handling.packets, hstale, List.nil_append,
        hending]
    constructor
    · intro hnone
      have hnot := ((noneThrew_append_items setting flipAxes before hitems).mp
        hnone).1
      rw [← hown] at hnot
      rw [if_pos (by cases h : handling.outcome <;> simp_all)]
    · intro hsome
      have hend : handling.outcome = .threw := by
        by_contra hnot
        exact hsome ((noneThrew_append_items setting flipAxes before hitems).mpr
          ⟨by rwa [← hown], hthrew⟩)
      rw [if_neg (by rw [hend]; decide)]
      exact fun stamp' => (houtcome stamp').trans hend
  · have hthrowing : Throwing setting (handling.packets flipAxes) :=
      (hleft.stale hthrew).append _
    have hend : handling.outcome = .threw := by
      rw [← houtcome stamp]
      exact hthrowing stamp
    constructor
    · intro hnone
      exact absurd ((noneThrew_append_items setting flipAxes before hitems).mp
        hnone).2 hthrew
    · intro _
      rw [if_neg (by rw [hend]; decide)]
      exact hthrowing

/-- At every message of a run the leftover packets are as the messages before
it determine. -/
theorem HandledFrom.leftover {setting : Setting K} {flipAxes : Bool}
    {stale packets : List (DataPacket K)} {handled : List (Handling K)}
    (hhandled : HandledFrom setting flipAxes stale handled packets)
    {past : List Frame} (hpast : Leftover setting flipAxes past stale)
    {before after : List (Handling K)} {handling : Handling K}
    (hsplit : handled = before ++ handling :: after) :
    Leftover setting flipAxes (past ++ before.map Handling.frame)
      handling.stale := by
  induction hhandled generalizing past before with
  | nil => simp at hsplit
  | skipped head hstale hitems _ ih =>
      cases before with
      | nil =>
          simp only [List.nil_append, List.cons.injEq] at hsplit
          rw [← hsplit.1, hstale]
          simpa using hpast
      | cons first before =>
          simp only [List.cons_append, List.cons.injEq] at hsplit
          obtain ⟨rfl, hsplit⟩ := hsplit
          have hnext := @ih (past ++ [head.frame])
            ⟨fun _ => rfl, fun h =>
              absurd (noneThrew_append_skip setting flipAxes past hitems) h⟩
            before hsplit
          simpa using hnext
  | visited head stamp hstale hitems hvisit hgo _ ih =>
      cases before with
      | nil =>
          simp only [List.nil_append, List.cons.injEq] at hsplit
          rw [← hsplit.1, hstale]
          simpa using hpast
      | cons first before =>
          simp only [List.cons_append, List.cons.injEq] at hsplit
          obtain ⟨rfl, hsplit⟩ := hsplit
          rw [← hstale] at hpast
          have hnext := @ih (past ++ [head.frame])
            (hpast.step hitems hvisit hgo) before hsplit
          simpa using hnext
  | hung head stamp hstale hitems hvisit hhung =>
      cases before with
      | nil =>
          simp only [List.nil_append, List.cons.injEq] at hsplit
          rw [← hsplit.1, hstale]
          simpa using hpast
      | cons first before => simp at hsplit

/-- The record of a visited message is what visiting its packets gives. -/
theorem HandledFrom.visit_eq {setting : Setting K} {flipAxes : Bool}
    {stale packets : List (DataPacket K)} {handled : List (Handling K)}
    (hhandled : HandledFrom setting flipAxes stale handled packets)
    {handling : Handling K} (hmem : handling ∈ handled)
    (hitems : handling.frame.hasItems = true) :
    ∃ stamp, visit setting stamp
        (handling.packets flipAxes) =
      (handling.pushed, handling.outcome) := by
  induction hhandled with
  | nil => simp at hmem
  | skipped head _ hnoItems _ ih =>
      rcases List.mem_cons.mp hmem with heq | htail
      · rw [heq, hnoItems] at hitems
        exact absurd hitems (by decide)
      · exact ih htail
  | visited head stamp _ _ hvisit _ _ ih =>
      rcases List.mem_cons.mp hmem with heq | htail
      · rw [heq]
        exact ⟨stamp, hvisit⟩
      · exact ih htail
  | hung head stamp _ _ hvisit _ =>
      rw [List.mem_singleton.mp hmem]
      exact ⟨stamp, hvisit⟩

/-- A message is handled with its own data items only iff no message has thrown
since the last message of another kind.  Its effect is then that of visiting
its own items. -/
theorem packets_eq_items_iff (setting : Setting K) (flipAxes : Bool)
    (received : List (K × List UInt8))
    (before after : List (Handling K)) (handling : Handling K)
    (hrun :
      ((XsensParser.fresh flipAxes).calls setting received).handled =
        before ++ handling :: after)
    (hitems : handling.frame.hasItems = true) :
    (handling.packets flipAxes = handling.frame.items flipAxes ↔
        NoneThrew setting flipAxes (before.map Handling.frame)) ∧
      (NoneThrew setting flipAxes (before.map Handling.frame) →
        ∃ stamp, visit setting stamp
            (handling.frame.items flipAxes) =
          (handling.pushed, handling.outcome)) := by
  obtain ⟨packets, hhandled⟩ :=
    XsensParser.calls_handledFrom setting received
      (XsensParser.fresh (K := K) flipAxes)
  have hstart : Leftover (K := K) setting flipAxes [] [] :=
    ⟨fun _ => rfl, fun h => absurd (by simp [NoneThrew]) h⟩
  have hleft := hhandled.leftover hstart hrun
  rw [List.nil_append] at hleft
  have hown : handling.packets flipAxes = handling.frame.items flipAxes ↔
      handling.stale = [] := by
    simp [Handling.packets]
  refine ⟨hown.trans hleft.eq_nil_iff, fun hnone => ?_⟩
  have hmem :
      handling ∈ ((XsensParser.fresh flipAxes).calls setting received).handled := by
    rw [hrun]
    simp
  obtain ⟨stamp, hvisit⟩ := hhandled.visit_eq hmem hitems
  refine ⟨stamp, ?_⟩
  rw [← hown.mpr (hleft.clean hnone)]
  exact hvisit

/-- The message with a 13th month throws, and with it the empty message after
it, which is handled without an exception by a parser that was never used. -/
theorem packets_ne_items_after_bad_date :
    let setting : Setting ℚ := ⟨.binary64, Calendar.gregorian, 0⟩
    let badDate : List UInt8 :=
      [0xFA, 0xFF, 0x36, 0x0F, 0x10, 0x10, 0x0C, 0, 0, 0, 0, 0x07, 0xE4, 0x0D,
        0x01, 0, 0, 0, 0x04, 0x93]
    let empty : List UInt8 := [0xFA, 0xFF, 0x36, 0x00, 0xCB]
    let parser : XsensParser ℚ := XsensParser.fresh true
    let run := parser.calls setting [(1, badDate), (2, empty)]
    (¬ ∀ handling ∈ run.handled, handling.frame.hasItems = true →
        handling.packets true = handling.frame.items true) ∧
      run.handled.map Handling.outcome = [.threw, .threw] ∧
      (parser.calls setting [(2, empty)]).handled.map Handling.outcome =
        [.returned] := by
  decide +kernel

/-- After a date that threw and a message of another kind, a message with a date
is handled with its own items. -/
theorem packets_eq_items_iff_cleared :
    let setting : Setting ℚ := ⟨.binary64, Calendar.gregorian, 0⟩
    let badDate : List UInt8 :=
      [0xFA, 0xFF, 0x36, 0x0F, 0x10, 0x10, 0x0C, 0, 0, 0, 0, 0x07, 0xE4, 0x0D,
        0x01, 0, 0, 0, 0x04, 0x93]
    let wakeUp : List UInt8 := [0xFA, 0xFF, 0x3E, 0x00, 0xC3]
    let goodDate : List UInt8 :=
      [0xFA, 0xFF, 0x36, 0x0F, 0x10, 0x10, 0x0C, 0, 0, 0, 0, 7, 0xE4, 4, 0x16, 0, 0, 0, 4, 0x87]
    let run := (XsensParser.fresh true).calls setting [(1, badDate), (2, wakeUp ++ goodDate)]
    ∃ threw woke dated,
      run.handled = [threw, woke] ++ dated :: [] ∧
        threw.outcome = .threw ∧ woke.frame.hasItems = false ∧
        dated.packets true = dated.frame.items true ∧
        dated.pushed = [⟨⟨.finite 1587513600, .finite 2⟩, .ut⟩] := by
  intro setting badDate wakeUp goodDate run
  let threw : Handling ℚ :=
    ⟨⟨0x36, [0x10, 0x10, 0x0C, 0, 0, 0, 0, 0x07, 0xE4, 0x0D, 0x01, 0, 0, 0, 0x04], true⟩,
      [], [], .threw⟩
  let woke : Handling ℚ :=
    ⟨⟨0x3E, [], true⟩, [.dateTime ⟨0, 2020, 13, 1, 0, 0, 0, 4⟩], [], .returned⟩
  let dated : Handling ℚ :=
    ⟨⟨0x36, [0x10, 0x10, 0x0C, 0, 0, 0, 0, 7, 0xE4, 4, 0x16, 0, 0, 0, 4], true⟩, [],
      [⟨⟨.finite 1587513600, .finite 2⟩, .ut⟩], .returned⟩
  have hrun : run.handled = [threw, woke] ++ dated :: [] := by
    decide +kernel
  have hcleared : NoneThrew setting true ([threw, woke].map Handling.frame) := by
    intro frame hmem
    cases hmem
  exact ⟨threw, woke, dated, hrun, rfl, rfl,
    (packets_eq_items_iff setting true _ [threw, woke] [] dated hrun rfl).1.mpr hcleared, rfl⟩

end SensorHub.Xsens
