import SensorHub.Polling
import SensorHub.UbloxFields
import SensorHub.UbloxStream

/-!
# Polling a u-blox device

Between the port and the cache of the device are the polling loop, which cuts the
stream into reads, and the parser, which puts the packets together again.  The
measurements that come out are those of the packets in the stream.
-/

namespace SensorHub.Ublox

open EventRuns Framing

variable {K : Type} [ExactDouble K]

/-- The parser and the values that have been passed to `insert_value`. -/
structure UbloxDevice (K : Type) where
  parser : UbloxParser K
  inserted : List (StampedQuantity K)

namespace UbloxDevice

def fresh : UbloxDevice K := ⟨.fresh, []⟩

/-- The queue of the parser is emptied, unless the parser throws. -/
def handleData (calendar : Calendar) (device : UbloxDevice K) (stamp : K)
    (bytes : List UInt8) : UbloxDevice K × Bool :=
  let parsed := device.parser.addAndParse calendar stamp bytes
  if parsed.outcome = .returned then
    (⟨{ parsed.parser with values := [] }, device.inserted ++ parsed.parser.values⟩, true)
  else (⟨parsed.parser, device.inserted⟩, false)

def handleAll (calendar : Calendar) (device : UbloxDevice K) (calls : List (K × List UInt8)) :
    UbloxDevice K :=
  calls.foldl (fun device call => (device.handleData calendar call.1 call.2).1) device

end UbloxDevice

/-- A value without the time at which it was read. -/
def measurement (value : StampedQuantity K) : Quantity × K :=
  (value.quantity, value.value)

/-- What a message of the stream says. -/
def Message.measurements (calendar : Calendar) (message : Message) : List (Quantity × K) :=
  (message.pushed calendar (0 : K)).map measurement

theorem measurement_stamped (stamp : K) (values : List (StampedQuantity K)) :
    (stamped stamp values).map measurement = values.map measurement := by
  simp [stamped, measurement, Function.comp_def]

/-- The time of the read changes the stamps only. -/
theorem measurement_pushed (calendar : Calendar) (stamp : K) (message : Message) :
    (message.pushed calendar stamp).map measurement = message.measurements calendar := by
  have hvisit : ∀ (stamp : K) (payload : Payload),
      ((payload.visit calendar stamp).getD []).map measurement =
        ((payload.getValues (K := K) calendar).getD []).map measurement := by
    intro stamp payload
    cases hvalues : payload.getValues (K := K) calendar with
    | none => simp [Payload.visit, hvalues]
    | some values =>
        simp only [Payload.visit, hvalues, Option.map_some, Option.getD_some]
        exact measurement_stamped stamp values
  unfold Message.measurements Message.pushed
  split
  · cases (payloadParseRule () message.bytes).2 with
    | none => rfl
    | some parsed => exact (hvisit stamp parsed.1).trans (hvisit 0 parsed.1).symm
  · rfl

namespace UbloxParser

/-- A call is a part of the reading of the stream. -/
theorem addAndParse_eq_consume (calendar : Calendar) (parser : UbloxParser K) (stamp : K)
    {chunk : List UInt8} (hsize : parser.buffer.length ≤ maxBuffered) :
    let consumed := framer.consume (Message.throws K calendar) (parser.buffer ++ chunk)
    let parsed := parser.addAndParse calendar stamp chunk
    parsed.messages = consumed.frames ∧
      parsed.parser.buffer = consumed.rest ∧
      parsed.outcome = if consumed.stopped then .threw else .returned := by
  have hbuffer := addToBuffer_of_le hsize chunk
  have hpasses := parsePasses_eq_consume calendar stamp ((parser.buffer ++ chunk).length + 1)
    (show PacketVars.start.packet = .fresh from rfl)
    { parser with buffer := parser.buffer ++ chunk } (Nat.lt_succ_self _)
  simp only [addAndParse, parse, hbuffer]
  exact hpasses

theorem bufferBounded_congr (calendar : Calendar) {parser other : UbloxParser K}
    (hbuffer : parser.buffer = other.buffer) {received : List (K × List UInt8)}
    (hbounded : parser.BufferBounded calendar received) :
    other.BufferBounded calendar received := by
  induction received generalizing parser other with
  | nil => trivial
  | cons call more ih =>
      obtain ⟨stamp, chunk⟩ := call
      obtain ⟨hsize, hmore⟩ := hbounded
      have hother : other.buffer.length ≤ maxBuffered := hbuffer ▸ hsize
      refine ⟨hother, ih ?_ hmore⟩
      rw [(addAndParse_eq_consume calendar parser stamp hsize).2.1,
        (addAndParse_eq_consume calendar other stamp hother).2.1, hbuffer]

end UbloxParser

namespace UbloxDevice

/-- A call in which nothing throws inserts what its messages say. -/
theorem handleData_measurements (calendar : Calendar) {device : UbloxDevice K}
    (hvalues : device.parser.values = []) (stamp : K) (chunk : List UInt8)
    (hreturned : (device.parser.addAndParse calendar stamp chunk).outcome = .returned) :
    let next := (device.handleData calendar stamp chunk).1
    next.inserted.map measurement =
        device.inserted.map measurement ++
          (device.parser.addAndParse calendar stamp chunk).messages.flatMap
            (Message.measurements calendar) ∧
      next.parser.values = [] ∧
      next.parser.buffer = (device.parser.addAndParse calendar stamp chunk).parser.buffer := by
  obtain ⟨hpushed, hqueue⟩ := UbloxParser.parse_pushed calendar stamp
    { device.parser with buffer := addToBuffer device.parser.buffer chunk }
  have hnext : (device.handleData calendar stamp chunk).1 =
      ⟨{ (device.parser.addAndParse calendar stamp chunk).parser with values := [] },
        device.inserted ++ (device.parser.addAndParse calendar stamp chunk).parser.values⟩ := by
    simp only [handleData, if_pos hreturned]
  have hparsed : (device.parser.addAndParse calendar stamp chunk).parser.values =
      (device.parser.addAndParse calendar stamp chunk).handled.flatMap Handling.pushed := by
    rw [UbloxParser.addAndParse, hqueue]
    exact congrArg (· ++ _) hvalues
  rw [hnext]
  refine ⟨?_, rfl, rfl⟩
  simp only [hparsed, List.map_append, List.map_flatMap, Parsed.messages, List.flatMap_map]
  congr 1
  refine List.flatMap_congr fun handling hmem => ?_
  rw [hpushed handling hmem, measurement_pushed]

/-- A stream without a message that throws never makes a call throw. -/
theorem returns_of_feed (calendar : Calendar) {received : List (K × List UInt8)}
    {device : UbloxDevice K} (hbounded : device.parser.BufferBounded calendar received)
    (hthrows : ∀ message ∈ (framer.feed (Message.throws K calendar) device.parser.buffer
      (received.map Prod.snd)).frames, message.throws K calendar = false) :
    Polling.Device.Returns (handleData calendar) device received := by
  induction received generalizing device with
  | nil => trivial
  | cons call more ih =>
      obtain ⟨stamp, chunk⟩ := call
      obtain ⟨hsize, hmore⟩ := hbounded
      obtain ⟨-, hbuffer, houtcome⟩ :=
        @UbloxParser.addAndParse_eq_consume K _ calendar device.parser stamp chunk hsize
      simp only [List.map_cons, Framer.feed] at hthrows
      by_cases hstop : (framer.consume (Message.throws K calendar)
          (device.parser.buffer ++ chunk)).stopped = true
      · rw [if_pos hstop] at hthrows
        obtain ⟨message, hmem, hthrew⟩ := Framer.exists_stop_of_stopped hstop
        rw [hthrows message hmem] at hthrew
        exact absurd hthrew Bool.false_ne_true
      · rw [if_neg hstop] at hthrows houtcome
        have hnext : device.handleData calendar stamp chunk =
            (⟨{ (device.parser.addAndParse calendar stamp chunk).parser with values := [] },
              device.inserted ++ (device.parser.addAndParse calendar stamp chunk).parser.values⟩,
              true) := by
          simp only [handleData, if_pos houtcome]
        rw [Polling.Device.Returns, hnext]
        refine ⟨rfl, ih (UbloxParser.bufferBounded_congr calendar ?_ hmore) ?_⟩
        · rfl
        · rw [hbuffer]
          exact fun message hmem => hthrows message (List.mem_append_right _ hmem)

/-- The calls of a whole stream insert what its messages say, if they return. -/
theorem handleAll_measurements (calendar : Calendar) {received : List (K × List UInt8)}
    {device : UbloxDevice K} (hvalues : device.parser.values = [])
    (hbounded : device.parser.BufferBounded calendar received)
    (hreturns : Polling.Device.Returns (handleData calendar) device received) :
    (device.handleAll calendar received).inserted.map measurement =
      device.inserted.map measurement ++
        (framer.feed (Message.throws K calendar) device.parser.buffer
          (received.map Prod.snd)).frames.flatMap (Message.measurements calendar) := by
  induction received generalizing device with
  | nil => simp [handleAll, Framer.feed]
  | cons call more ih =>
      obtain ⟨stamp, chunk⟩ := call
      obtain ⟨hsize, hmore⟩ := hbounded
      obtain ⟨hreturned, hreturns⟩ := hreturns
      obtain ⟨hmessages, hbuffer, houtcome⟩ :=
        @UbloxParser.addAndParse_eq_consume K _ calendar device.parser stamp chunk hsize
      have hdone : (device.parser.addAndParse calendar stamp chunk).outcome = .returned := by
        by_contra hthrew
        simp only [handleData, if_neg hthrew] at hreturned
        exact Bool.false_ne_true hreturned
      have hgoes : (framer.consume (Message.throws K calendar)
          (device.parser.buffer ++ chunk)).stopped ≠ true := by
        intro hstop
        rw [if_pos hstop, hdone] at houtcome
        cases houtcome
      obtain ⟨hinserted, hempty, hrest⟩ :=
        handleData_measurements calendar hvalues stamp chunk hdone
      rw [hbuffer] at hrest
      have hlater := ih hempty
        (UbloxParser.bufferBounded_congr calendar (hbuffer.trans hrest.symm) hmore) hreturns
      simp only [List.map_cons, Framer.feed, if_neg hgoes]
      rw [handleAll, List.foldl_cons]
      rw [handleAll] at hlater
      rw [hlater, hinserted, hmessages, hrest, List.flatMap_append, List.append_assoc]

end UbloxDevice

section Stream

variable {calendar : Calendar} {calls : List (K × List UInt8)}
  (hbounded : UbloxParser.fresh.BufferBounded calendar calls)
  (hthrows : ∀ message ∈ (framer.scan (calls.map Prod.snd).flatten).1,
    message.throws K calendar = false)

include hthrows

omit hbounded in
theorem feed_eq_scan :
    (framer.feed (Message.throws K calendar) (UbloxDevice.fresh (K := K)).parser.buffer
      (calls.map Prod.snd)).frames = (framer.scan (calls.map Prod.snd).flatten).1 := by
  have hscan := (framer.feed_eq_consume (Message.throws K calendar)
    (calls.map Prod.snd) [] rfl).1
  rwa [List.nil_append, Framer.frames_consume, takeThrough_eq_self hthrows] at hscan

include hbounded

theorem UbloxDevice.returns_of_scan :
    Polling.Device.Returns (UbloxDevice.handleData calendar) .fresh calls := by
  refine UbloxDevice.returns_of_feed calendar hbounded ?_
  rw [feed_eq_scan hthrows]
  exact hthrows

/-- The calls of `handle_data` in one stream give its measurements. -/
theorem UbloxDevice.handleAll_scan :
    (UbloxDevice.fresh.handleAll calendar calls).inserted.map measurement =
      (framer.scan (calls.map Prod.snd).flatten).1.flatMap (Message.measurements calendar) := by
  have hall := UbloxDevice.handleAll_measurements calendar rfl hbounded
    (UbloxDevice.returns_of_scan hbounded hthrows)
  rw [feed_eq_scan hthrows] at hall
  exact hall

end Stream

/-- If no call throws, everything that has been read has been handled, in order. -/
theorem UbloxDevice.handler_of_run {calendar : Calendar} {events : List (Polling.Event K)}
    {final : Polling.Device K (UbloxDevice K)}
    (hrun : run (Polling.Device.step (UbloxDevice.handleData calendar))
      (.fresh .fresh) events = some final)
    (hreturns : Polling.Device.Returns (UbloxDevice.handleData calendar) .fresh final.received) :
    final.handler = UbloxDevice.fresh.handleAll calendar final.received := by
  have hempty : (Polling.Device.fresh .fresh : Polling.Device K (UbloxDevice K)).AllEmpty :=
    fun _ hbuffer => absurd hbuffer List.not_mem_nil
  have hemptied := Polling.Device.emptied_of_returns hempty hrun (List.nil_append _).symm hreturns
  have hhandled : final.handled = final.received :=
    (Polling.Device.run_handled_iff hrun).mpr ⟨rfl, hemptied⟩
  obtain ⟨calls, hcalls, hhandler⟩ := Polling.Device.run_handler hrun
  obtain rfl : calls = final.received := by
    rw [← hhandled, hcalls]
    rfl
  exact hhandler

/-- In any run of the polling loop in which no message throws and the buffer of
the parser does not overflow, the measurements inserted are those of the packets
in the bytes that were read, in order, however the reads were cut. -/
theorem polled_measurements (calendar : Calendar) {events : List (Polling.Event K)}
    {final : Polling.Device K (UbloxDevice K)}
    (hrun : run (Polling.Device.step (UbloxDevice.handleData calendar))
      (.fresh .fresh) events = some final)
    (hbounded : UbloxParser.fresh.BufferBounded calendar final.received)
    (hthrows : ∀ message ∈ (framer.scan (final.received.map Prod.snd).flatten).1,
      message.throws K calendar = false) :
    final.handler.inserted.map measurement =
      (framer.scan (final.received.map Prod.snd).flatten).1.flatMap
        (Message.measurements calendar) := by
  rw [UbloxDevice.handler_of_run hrun (UbloxDevice.returns_of_scan hbounded hthrows)]
  exact UbloxDevice.handleAll_scan hbounded hthrows

/-- A rotation rate, cut into two reads inside the length. -/
def insReads : List (ℚ × List UInt8) :=
  [(1, [0xB5, 0x62, 0x10, 0x15, 0x24]),
   (2, [0x00, 0x00, 0x01, 0x00, 0x00, 0x00, 0x00, 0x00, 0x00, 0x00, 0x00, 0x00, 0x00, 0x10,
        0x27, 0x00, 0x00, 0x00, 0x00, 0x00, 0x00, 0x00, 0x00, 0x00, 0x00, 0x00, 0x00, 0x00,
        0x00, 0x00, 0x00, 0x00, 0x00, 0x00, 0x00, 0x00, 0x00, 0x81, 0x2F])]

def insEvents : List (Polling.Event ℚ) :=
  [.connect true, .initialized true, .start] ++
    insReads.map fun read => .read 0 read.1 read.2 true

def noCalendar : Calendar :=
  ⟨fun _ _ _ => none, fun _ _ _ _ => rfl, fun _ _ _ _ => rfl⟩

/-- The run is one to which the theorem about polling applies. -/
theorem insReads_polled :
    ∃ final : Polling.Device ℚ (UbloxDevice ℚ),
      run (Polling.Device.step (UbloxDevice.handleData noCalendar))
        (.fresh .fresh) insEvents = some final ∧
      final.received = insReads ∧
      UbloxParser.fresh.BufferBounded noCalendar insReads ∧
      ∀ message ∈ (framer.scan (insReads.map Prod.snd).flatten).1,
        message.throws ℚ noCalendar = false := by
  obtain ⟨final, hrun⟩ : ∃ final, run (Polling.Device.step (UbloxDevice.handleData noCalendar))
      (.fresh .fresh) insEvents = some final :=
    Option.isSome_iff_exists.mp (by decide +kernel)
  have hreceived : final.received = insReads := by
    have hevents : (run (Polling.Device.step (UbloxDevice.handleData noCalendar))
        (.fresh .fresh) insEvents).map Polling.Device.received = some insReads := by
      decide +kernel
    rw [hrun] at hevents
    exact Option.some.inj hevents
  have hscan : framer.scan (insReads.map Prod.snd).flatten =
      ([⟨0x10, 0x15, (insReads.map Prod.snd).flatten.drop 6 |>.take 36, true⟩], []) := by
    have hnext : framer.next (insReads.map Prod.snd).flatten =
        some (⟨0x10, 0x15, (insReads.map Prod.snd).flatten.drop 6 |>.take 36, true⟩, []) := by
      decide +kernel
    rw [Framer.scan_of_some hnext, Framer.scan_of_none rfl]
  have hbounded : UbloxParser.fresh.BufferBounded noCalendar insReads :=
    ⟨by decide, by decide +kernel, trivial⟩
  refine ⟨final, hrun, hreceived, hbounded, ?_⟩
  rw [hscan]
  decide +kernel

theorem polled_measurements_ins :
    ∃ final, run (Polling.Device.step (UbloxDevice.handleData noCalendar))
        (.fresh .fresh) insEvents = some final ∧
      final.handler.inserted.map measurement =
        (framer.scan (insReads.map Prod.snd).flatten).1.flatMap
          (Message.measurements noCalendar) := by
  obtain ⟨final, hrun, hreceived, hbounded, hthrows⟩ := insReads_polled
  refine ⟨final, hrun, ?_⟩
  have hpolled := polled_measurements noCalendar hrun (hreceived ▸ hbounded)
    (hreceived ▸ hthrows)
  rwa [hreceived] at hpolled

end SensorHub.Ublox
