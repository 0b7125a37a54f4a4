import SensorHub.XsensItems
import SensorHub.XsensStream

/-!
# Calls of the Xsens parser that end

The loop over the messages takes something off the buffer in every pass, so it
ends if its passes do.  A pass wraps the angles of the packets it visits, one
packet after the other, and an infinite angle is wrapped for ever.  A date that
throws is the end of the call, whatever packets and messages come behind it.
-/

namespace SensorHub.Xsens

open Framing Filter

variable {K : Type} [ExactDouble K] {calendar : Calendar}

/-- With enough passes of all loops the call is over, and it makes no difference
how many more passes they are granted. -/
def XsensParser.Ends (calendar : Calendar) (parser : XsensParser K) (stamp : K)
    (received : List UInt8) : Prop :=
  ∃ (parsed : Parsed K) (enough : ℕ), parsed.outcome ≠ .hung ∧
    ∀ fuel ≥ enough, ∀ passes ≥ enough,
      XsensParser.parsePasses ⟨.exact, calendar, fuel⟩ stamp passes
        { parser with buffer := addToBuffer parser.buffer received } = parsed

/-- The angles of the packets are not infinite, up to the first date that
throws. -/
def VisitEnds (calendar : Calendar) : List (DataPacket K) → Prop
  | [] => True
  | packet :: packets =>
      packet.DateValid calendar → packet.AnglesBounded ∧ VisitEnds calendar packets

/-- The packets to be visited for messages, when some are left over from an
earlier call. -/
def toVisit (flipAxes : Bool) :
    List (DataPacket K) → List Frame → List (DataPacket K)
  | _, [] => []
  | stale, frame :: frames =>
      if frame.hasItems then
        stale ++ frame.items flipAxes ++ toVisit flipAxes [] frames
      else
        toVisit flipAxes [] frames

omit [ExactDouble K] in
theorem visitEnds_append (packets more : List (DataPacket K)) :
    VisitEnds calendar (packets ++ more) ↔
      VisitEnds calendar packets ∧
        ((∀ packet ∈ packets, packet.DateValid calendar) → VisitEnds calendar more) := by
  induction packets with
  | nil => simp [VisitEnds]
  | cons packet packets ih =>
      rw [List.cons_append, VisitEnds, VisitEnds, ih, List.forall_mem_cons]
      tauto

/-! ## Visits -/

theorem getValues_eq_throws_iff {packet : DataPacket K} {fuel : ℕ} :
    packet.getValues ⟨.exact, calendar, fuel⟩ = .throws ↔ ¬packet.DateValid calendar := by
  cases packet with
  | unknown => simp [DataPacket.getValues, DataPacket.DateValid]
  | dateTime packet =>
      by_cases hvalid : packet.flags &&& DateTime.validUtc ≠ 0
      · cases hday : calendar.unixDay packet.year packet.month packet.day <;>
          simp [DataPacket.getValues, DateTime.getValues, DataPacket.DateValid,
            composeTimeValue, hvalid, hday]
      · simp [DataPacket.getValues, DateTime.getValues, DataPacket.DateValid, hvalid]
  | dataValue kind data =>
      simp only [DataPacket.getValues, DataPacket.DateValid, not_true_eq_false, iff_false]
      unfold DataValue.getValues
      split <;> simp

theorem visit_ne_threw (fuel : ℕ) (stamp : K) {packets : List (DataPacket K)}
    (hdates : ∀ packet ∈ packets, packet.DateValid calendar) :
    (visit ⟨.exact, calendar, fuel⟩ stamp packets).2 ≠ .threw := by
  induction packets with
  | nil => exact Outcome.noConfusion
  | cons packet packets ih =>
      rw [List.forall_mem_cons] at hdates
      rw [visit]
      cases hvalues : packet.getValues ⟨.exact, calendar, fuel⟩ with
      | throws => exact absurd hdates.1 (getValues_eq_throws_iff.mp hvalues)
      | hangs => exact Outcome.noConfusion
      | values list => exact ih hdates.2

theorem visit_hung (fuel : ℕ) (stamp : K) {packets : List (DataPacket K)}
    (hends : ¬VisitEnds calendar packets) :
    (visit ⟨.exact, calendar, fuel⟩ stamp packets).2 = .hung := by
  induction packets with
  | nil => exact absurd trivial hends
  | cons packet packets ih =>
      rw [VisitEnds, Classical.not_imp, not_and_or] at hends
      obtain ⟨hdate, hpacket⟩ := hends
      rw [visit]
      cases hvalues : packet.getValues ⟨.exact, calendar, fuel⟩ with
      | throws => exact absurd hdate (getValues_eq_throws_iff.mp hvalues)
      | hangs => rfl
      | values list =>
          rcases hpacket with hbounded | hmore
          · rw [← DataPacket.anglesWrap_exact_iff] at hbounded
            rw [DataPacket.getValues_of_not_wrap hbounded] at hvalues
            cases hvalues
          · exact ih hmore

theorem exists_visit (stamp : K) {packets : List (DataPacket K)}
    (hends : VisitEnds calendar packets) :
    ∃ visited : List (StampedQuantity (IeeeDouble K)) × Outcome,
      visited.2 ≠ .hung ∧
        (visited.2 = .returned → ∀ packet ∈ packets, packet.DateValid calendar) ∧
        ∀ᶠ fuel in atTop, visit ⟨.exact, calendar, fuel⟩ stamp packets = visited := by
  induction packets with
  | nil => exact ⟨([], .returned), Outcome.noConfusion, by simp, .of_forall fun _ => rfl⟩
  | cons packet packets ih =>
      by_cases hdate : packet.DateValid calendar
      · obtain ⟨hbounded, hmore⟩ := hends hdate
        obtain ⟨visited, hended, hreturned, hvisit⟩ := ih hmore
        obtain ⟨values, -, hvalues⟩ := DataPacket.exists_getValues hdate
          (packet.anglesWrap_exact_iff.mpr hbounded)
        refine ⟨(values.map (stamped stamp) ++ visited.1, visited.2),
          hended, fun h => List.forall_mem_cons.mpr ⟨hdate, hreturned h⟩, ?_⟩
        filter_upwards [hvalues, hvisit] with fuel hfirst hrest
        rw [visit, hfirst]
        simp only [hrest]
        rfl
      · refine ⟨([], .threw), Outcome.noConfusion, fun h => Outcome.noConfusion h,
          .of_forall fun fuel => ?_⟩
        rw [visit, getValues_eq_throws_iff.mpr hdate]

/-! ## Messages -/

namespace XsensParser

theorem exists_handleFrame (parser : XsensParser K) (stamp : K) (frame : Frame)
    (hends : frame.hasItems = true →
      VisitEnds calendar (parser.dataPackets ++ frame.items parser.flipAxes)) :
    ∃ result : Handling K × XsensParser K, result.1.outcome ≠ .hung ∧
      (result.1.outcome = .returned → frame.hasItems = true →
        ∀ packet ∈ parser.dataPackets ++ frame.items parser.flipAxes,
          packet.DateValid calendar) ∧
      ∀ᶠ fuel in atTop, parser.handleFrame ⟨.exact, calendar, fuel⟩ stamp frame = result := by
  by_cases hitems : frame.hasItems = true
  · obtain ⟨visited, hended, hreturned, hvisit⟩ := exists_visit stamp (hends hitems)
    refine ⟨(⟨frame, parser.dataPackets, visited.1, visited.2⟩,
      { parser with
        dataPackets := if visited.2 = .returned then []
          else parser.dataPackets ++ frame.items parser.flipAxes
        values := parser.values ++ visited.1 }), hended, fun h _ => hreturned h, ?_⟩
    filter_upwards [hvisit] with fuel hfuel
    simp only [handleFrame, if_pos hitems, hfuel]
  · refine ⟨(⟨frame, parser.dataPackets, [], .returned⟩, { parser with dataPackets := [] }),
      Outcome.noConfusion, fun _ h => absurd h hitems, .of_forall fun fuel => ?_⟩
    simp only [handleFrame, if_neg hitems]

theorem exists_parsePasses (stamp : K) (parser : XsensParser K)
    (hends : VisitEnds calendar
      (toVisit parser.flipAxes parser.dataPackets (framer.scan parser.buffer).1)) :
    ∃ parsed : Parsed K, parsed.outcome ≠ .hung ∧
      ∀ᶠ fuel in atTop, ∀ passes > parser.buffer.length,
        parsePasses ⟨.exact, calendar, fuel⟩ stamp passes parser = parsed := by
  induction hlength : parser.buffer.length using Nat.strong_induction_on
    generalizing parser with
  | h length ih =>
    subst hlength
    cases hnext : nextFrame parser.buffer with
    | none =>
        refine ⟨⟨[], parser, .returned⟩, Outcome.noConfusion, .of_forall fun fuel passes hlt => ?_⟩
        obtain ⟨passes, rfl⟩ := Nat.exists_eq_add_of_lt hlt
        simp only [parsePasses, parseSingle_eq, hnext, Option.map_none]
    | some found =>
        obtain ⟨frame, rest⟩ := found
        have hshorter := nextFrame_shrinks hnext
        rw [Framer.scan_of_some hnext, toVisit] at hends
        have hframe : frame.hasItems = true → VisitEnds calendar
            (parser.dataPackets ++ frame.items parser.flipAxes) := by
          intro hitems
          rw [if_pos hitems, visitEnds_append] at hends
          exact hends.1
        obtain ⟨result, hended, hdates, hhandle⟩ :=
          exists_handleFrame { parser with buffer := rest } stamp frame hframe
        by_cases hreturned : result.1.outcome = .returned
        · obtain ⟨fuel, hfuel⟩ := hhandle.exists
          obtain ⟨hbuffer, hflip⟩ :=
            handleFrame_buffer ⟨.exact, calendar, fuel⟩ { parser with buffer := rest } stamp frame
          have hclean := handleFrame_dataPackets (hfuel ▸ hreturned)
          rw [hfuel] at hbuffer hflip hclean
          have hmore : VisitEnds calendar (toVisit result.2.flipAxes
              result.2.dataPackets (framer.scan result.2.buffer).1) := by
            rw [hbuffer, hflip, hclean]
            by_cases hitems : frame.hasItems = true
            · rw [if_pos hitems, visitEnds_append] at hends
              exact hends.2 (hdates hreturned hitems)
            · rwa [if_neg hitems] at hends
          obtain ⟨parsed, hdone, hpasses⟩ :=
            ih result.2.buffer.length (by rw [hbuffer]; exact hshorter) result.2 hmore rfl
          refine ⟨{ parsed with handled := result.1 :: parsed.handled }, hdone, ?_⟩
          filter_upwards [hhandle, hpasses] with fuel hfirst hrest passes hlt
          obtain ⟨passes, rfl⟩ := Nat.exists_eq_add_of_lt hlt
          simp only [parsePasses, parseSingle_eq, hnext, Option.map_some, hfirst,
            if_pos hreturned]
          rw [hrest _ (by rw [hbuffer]; simp only; omega)]
        · refine ⟨⟨[result.1], result.2, result.1.outcome⟩, hended, ?_⟩
          filter_upwards [hhandle] with fuel hfirst passes hlt
          obtain ⟨passes, rfl⟩ := Nat.exists_eq_add_of_lt hlt
          simp only [parsePasses, parseSingle_eq, hnext, Option.map_some, hfirst,
            if_neg hreturned]

theorem parsePasses_hung (fuel passes : ℕ) (stamp : K) (parser : XsensParser K)
    (hpasses : parser.buffer.length < passes)
    (hends : ¬VisitEnds calendar
      (toVisit parser.flipAxes parser.dataPackets (framer.scan parser.buffer).1)) :
    (parsePasses ⟨.exact, calendar, fuel⟩ stamp passes parser).outcome = .hung := by
  induction passes generalizing parser with
  | zero => omega
  | succ passes ih =>
      cases hnext : nextFrame parser.buffer with
      | none =>
          rw [Framer.scan_of_none hnext] at hends
          exact absurd trivial hends
      | some found =>
          obtain ⟨frame, rest⟩ := found
          have hshorter := nextFrame_shrinks hnext
          obtain ⟨hbuffer, hflip⟩ :=
            handleFrame_buffer ⟨.exact, calendar, fuel⟩ { parser with buffer := rest } stamp frame
          rw [Framer.scan_of_some hnext, toVisit] at hends
          simp only [parsePasses, parseSingle_eq, hnext, Option.map_some]
          split
          · next hreturned =>
              have hclean := handleFrame_dataPackets hreturned
              refine ih _ (by rw [hbuffer]; simp only; omega) ?_
              rw [hbuffer, hflip, hclean]
              by_cases hitems : frame.hasItems = true
              · rw [if_pos hitems, visitEnds_append, not_and] at hends
                simp only [handleFrame, if_pos hitems] at hreturned
                have hvisit : VisitEnds calendar
                    (parser.dataPackets ++ frame.items parser.flipAxes) := by
                  by_contra hnot
                  have hhung := visit_hung fuel stamp hnot
                  rw [hhung] at hreturned
                  cases hreturned
                exact fun hmore => hends hvisit fun _ => hmore
              · rwa [if_neg hitems] at hends
          · next hnot =>
              by_cases hitems : frame.hasItems = true
              · rw [if_pos hitems, visitEnds_append, not_and_or] at hends
                simp only [handleFrame, if_pos hitems] at hnot ⊢
                rcases hends with hvisit | hmore
                · exact visit_hung fuel stamp hvisit
                · rw [Classical.not_imp] at hmore
                  have hthrew := visit_ne_threw fuel stamp hmore.1
                  cases houtcome : (visit ⟨.exact, calendar, fuel⟩ stamp
                      (parser.dataPackets ++ frame.items parser.flipAxes)).2 with
                  | returned => exact absurd houtcome hnot
                  | threw => exact absurd houtcome hthrew
                  | hung => rfl
              · simp [handleFrame, hitems] at hnot

/-- A call ends exactly when no angle that is reached is infinite. -/
theorem ends_iff (calendar : Calendar) (parser : XsensParser K) (stamp : K)
    (received : List UInt8) :
    parser.Ends calendar stamp received ↔
      VisitEnds calendar (toVisit parser.flipAxes parser.dataPackets
        (framer.scan (addToBuffer parser.buffer received)).1) := by
  constructor
  · rintro ⟨parsed, enough, hended, hparsed⟩
    by_contra hnot
    set buffer := addToBuffer parser.buffer received
    have hpasses := hparsed enough le_rfl (max enough (buffer.length + 1))
      (le_max_left _ _)
    have hhung := parsePasses_hung enough (max enough (buffer.length + 1)) stamp
      { parser with buffer := buffer } (lt_max_of_lt_right (Nat.lt_succ_self _)) hnot
    rw [hpasses] at hhung
    exact hended hhung
  · intro hends
    obtain ⟨parsed, hended, hparsed⟩ := exists_parsePasses stamp
      { parser with buffer := addToBuffer parser.buffer received } hends
    obtain ⟨enough, henough⟩ := eventually_atTop.mp hparsed
    refine ⟨parsed, max enough ((addToBuffer parser.buffer received).length + 1), hended,
      fun fuel hfuel passes hpasses => ?_⟩
    exact henough fuel (le_of_max_le_left hfuel) passes
      (Nat.lt_of_succ_le (le_of_max_le_right hpasses))

theorem not_ends_infiniteRoll :
    ¬∀ (parser : XsensParser ℚ) (stamp : ℚ) (received : List UInt8),
      parser.Ends Calendar.gregorian stamp received := by
  intro hall
  have hends := (ends_iff _ _ _ _).mp (hall (fresh true) 0 infiniteRoll)
  have hnext : nextFrame (addToBuffer (fresh true : XsensParser ℚ).buffer infiniteRoll) =
      some (infiniteRollFrame, []) := by
    decide
  have hkind : infiniteRollFrame.hasItems = true := by decide
  have hitems : infiniteRollFrame.items (K := ℚ) true =
      [.dataValue (eulerAngles true) [.posInf, .finite 0, .finite 0]] := by
    decide +kernel
  rw [Framer.scan_of_some hnext, toVisit, if_pos hkind, visitEnds_append] at hends
  have hvisit := hends.1
  simp only [fresh, hitems, List.nil_append] at hvisit
  have hroll := (hvisit trivial).1 0 (by decide) (by decide)
  revert hroll
  decide

end XsensParser

end SensorHub.Xsens
