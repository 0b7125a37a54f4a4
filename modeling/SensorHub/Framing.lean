import Mathlib

/-!
# Incremental framing

A framer takes the first frame off a stream, if the stream already contains a
complete one.  When a frame that was found stays the same however the stream
continues, it makes no difference how the stream is cut into chunks: feeding
the chunks one after the other, with the unfinished remainder kept between
them, yields the frames of the whole stream.  This also holds when the consumer
stops at a certain frame.
-/

namespace Framing

/-- Extraction of the first frame of a stream. -/
structure Framer (β φ : Type*) where
  next : List β → Option (φ × List β)
  shrinks : ∀ {input frame rest},
    next input = some (frame, rest) → rest.length < input.length
  stable : ∀ {input frame rest}, next input = some (frame, rest) →
    ∀ more, next (input ++ more) = some (frame, rest ++ more)

variable {β φ : Type*}

/-- The first elements of a list, up to and including the first which stops. -/
def takeThrough (stop : φ → Bool) : List φ → List φ
  | [] => []
  | frame :: frames =>
      if stop frame then [frame] else frame :: takeThrough stop frames

theorem takeThrough_congr {stop stop' : φ → Bool} {frames : List φ}
    (hstop : ∀ frame ∈ frames, stop frame = stop' frame) :
    takeThrough stop frames = takeThrough stop' frames := by
  induction frames with
  | nil => rfl
  | cons frame frames ih =>
      rw [List.forall_mem_cons] at hstop
      simp only [takeThrough, hstop.1, ih hstop.2]

theorem mem_of_mem_takeThrough {stop : φ → Bool} {frames : List φ}
    {frame : φ} (hmem : frame ∈ takeThrough stop frames) :
    frame ∈ frames := by
  induction frames with
  | nil => exact hmem
  | cons head frames ih =>
      rw [takeThrough] at hmem
      split at hmem
      · rw [List.mem_singleton.mp hmem]
        exact List.mem_cons_self
      · rcases List.mem_cons.mp hmem with heq | htail
        · rw [heq]
          exact List.mem_cons_self
        · exact List.mem_cons_of_mem _ (ih htail)

/-- Nothing is cut off iff none but the last element stops. -/
theorem takeThrough_eq_self_iff {stop : φ → Bool} {frames : List φ} :
    takeThrough stop frames = frames ↔ ∀ frame ∈ frames.dropLast, stop frame = false := by
  induction frames with
  | nil => simp [takeThrough]
  | cons frame frames ih =>
      cases frames with
      | nil => simp [takeThrough]
      | cons next frames =>
          rw [takeThrough, List.dropLast_cons_cons, List.forall_mem_cons, ← ih]
          by_cases hstop : stop frame = true
          · simp [hstop]
          · simp [hstop]

theorem takeThrough_eq_self {stop : φ → Bool} {frames : List φ}
    (hstop : ∀ frame ∈ frames, stop frame = false) :
    takeThrough stop frames = frames :=
  takeThrough_eq_self_iff.mpr fun frame hmem =>
    hstop frame (List.mem_of_mem_dropLast hmem)

/-- Result of consuming frames: the frames taken, the unread input and whether
the last frame stopped the consumer. -/
structure Consumed (β φ : Type*) where
  frames : List φ
  rest : List β
  stopped : Bool

namespace Framer

variable (framer : Framer β φ)

/-- All frames of a stream and the unfinished remainder. -/
def scan (input : List β) : List φ × List β :=
  match hnext : framer.next input with
  | none => ([], input)
  | some (frame, rest) =>
      have := framer.shrinks hnext
      (frame :: (scan rest).1, (scan rest).2)
termination_by input.length

/-- Take frames off a stream until one of them stops the consumer. -/
def consume (stop : φ → Bool) (input : List β) : Consumed β φ :=
  match hnext : framer.next input with
  | none => ⟨[], input, false⟩
  | some (frame, rest) =>
      have := framer.shrinks hnext
      if stop frame then
        ⟨[frame], rest, true⟩
      else
        { consume stop rest with frames := frame :: (consume stop rest).frames }
termination_by input.length

/-- Feed chunks to a consumer which keeps the unfinished remainder. -/
def feed (stop : φ → Bool) : List β → List (List β) → Consumed β φ
  | buffer, [] => ⟨[], buffer, false⟩
  | buffer, chunk :: chunks =>
      let first := framer.consume stop (buffer ++ chunk)
      if first.stopped then
        first
      else
        { feed stop first.rest chunks with
          frames := first.frames ++ (feed stop first.rest chunks).frames }

variable {framer} {stop : φ → Bool}

theorem scan_of_none {input : List β} (hnext : framer.next input = none) :
    framer.scan input = ([], input) := by
  rw [scan]
  split
  · rfl
  · simp_all

theorem scan_of_some {input rest : List β} {frame : φ}
    (hnext : framer.next input = some (frame, rest)) :
    framer.scan input =
      (frame :: (framer.scan rest).1, (framer.scan rest).2) := by
  rw [scan]
  split
  · simp_all
  · next frame' rest' hnext' =>
      rw [hnext] at hnext'
      simp only [Option.some.injEq, Prod.mk.injEq] at hnext'
      obtain ⟨rfl, rfl⟩ := hnext'
      rfl

theorem consume_of_none {input : List β} (hnext : framer.next input = none) :
    framer.consume stop input = ⟨[], input, false⟩ := by
  rw [consume]
  split
  · rfl
  · simp_all

theorem consume_of_some {input rest : List β} {frame : φ}
    (hnext : framer.next input = some (frame, rest)) :
    framer.consume stop input =
      if stop frame then
        ⟨[frame], rest, true⟩
      else
        { framer.consume stop rest with
          frames := frame :: (framer.consume stop rest).frames } := by
  rw [consume]
  split
  · simp_all
  · next frame' rest' hnext' =>
      rw [hnext] at hnext'
      simp only [Option.some.injEq, Prod.mk.injEq] at hnext'
      obtain ⟨rfl, rfl⟩ := hnext'
      rfl

/-- A consumer takes the frames of the stream through the first that stops. -/
theorem frames_consume (stop : φ → Bool) (input : List β) :
    (framer.consume stop input).frames =
      takeThrough stop (framer.scan input).1 := by
  induction hlength : input.length using Nat.strong_induction_on
    generalizing input with
  | _ length ih =>
      cases hnext : framer.next input with
      | none => rw [consume_of_none hnext, scan_of_none hnext, takeThrough]
      | some pair =>
          obtain ⟨frame, rest⟩ := pair
          have hshorter := framer.shrinks hnext
          rw [consume_of_some hnext, scan_of_some hnext, takeThrough]
          by_cases hstop : stop frame
          · simp only [if_pos hstop]
          · simp only [if_neg hstop]
            rw [ih rest.length (by omega) rest rfl]

theorem exists_stop_of_stopped {input : List β}
    (hstopped : (framer.consume stop input).stopped = true) :
    ∃ frame ∈ (framer.consume stop input).frames, stop frame = true := by
  induction hlength : input.length using Nat.strong_induction_on
    generalizing input with
  | _ length ih =>
      cases hnext : framer.next input with
      | none => simp [consume_of_none hnext] at hstopped
      | some pair =>
          obtain ⟨frame, rest⟩ := pair
          have hshorter := framer.shrinks hnext
          rw [consume_of_some hnext] at hstopped ⊢
          by_cases hstop : stop frame
          · simp only [if_pos hstop]
            exact ⟨frame, List.mem_singleton_self frame, hstop⟩
          · simp only [if_neg hstop] at hstopped ⊢
            obtain ⟨last, hmem, hlast⟩ :=
              ih rest.length (by omega) hstopped rfl
            exact ⟨last, List.mem_cons_of_mem _ hmem, hlast⟩

theorem consume_append (framer : Framer β φ) (stop : φ → Bool)
    (input more : List β) :
    let first := framer.consume stop input
    let whole := framer.consume stop (input ++ more)
    let second := framer.consume stop (first.rest ++ more)
    (first.stopped = true →
      whole.frames = first.frames ∧ whole.stopped = true) ∧
    (first.stopped = false →
      whole.frames = first.frames ++ second.frames ∧
        whole.rest = second.rest ∧ whole.stopped = second.stopped) := by
  induction hlength : input.length using Nat.strong_induction_on
    generalizing input with
  | _ length ih =>
      cases hnext : framer.next input with
      | none => simp [consume_of_none hnext]
      | some pair =>
          obtain ⟨frame, rest⟩ := pair
          have hshorter := framer.shrinks hnext
          have hmore := framer.stable hnext more
          rw [consume_of_some hnext, consume_of_some hmore]
          by_cases hstop : stop frame
          · simp [hstop]
          · obtain ⟨hstopped, hwent⟩ := ih rest.length (by omega) rest rfl
            simp only [if_neg hstop]
            constructor
            · intro h
              obtain ⟨hframes, hend⟩ := hstopped h
              exact ⟨by rw [hframes], hend⟩
            · intro h
              obtain ⟨hframes, hrest, hend⟩ := hwent h
              exact ⟨by rw [hframes, List.cons_append], hrest, hend⟩

/-- Feeding a stream in chunks yields what it yields as a whole. -/
theorem feed_eq_consume (framer : Framer β φ) (stop : φ → Bool)
    (chunks : List (List β))
    (buffer : List β) (hbuffer : framer.next buffer = none) :
    (framer.feed stop buffer chunks).frames =
        (framer.consume stop (buffer ++ chunks.flatten)).frames ∧
      (framer.feed stop buffer chunks).stopped =
        (framer.consume stop (buffer ++ chunks.flatten)).stopped := by
  have hgeneral : ∀ (chunks : List (List β)) (buffer more : List β),
      let first := framer.consume stop (buffer ++ more)
      first.stopped = false →
        (framer.consume stop (buffer ++ (more ++ chunks.flatten))).frames =
            first.frames ++ (framer.feed stop first.rest chunks).frames ∧
          (framer.consume stop (buffer ++ (more ++ chunks.flatten))).stopped =
            (framer.feed stop first.rest chunks).stopped := by
    intro chunks
    induction chunks with
    | nil =>
        intro buffer more first hgo
        simp [feed, first, hgo]
    | cons chunk chunks ih =>
        intro buffer more first hgo
        obtain ⟨hframes, -, hend⟩ :=
          (framer.consume_append stop (buffer ++ more)
            (chunk ++ chunks.flatten)).2 hgo
        rw [← List.append_assoc, List.flatten_cons, hframes, hend]
        rw [feed]
        by_cases hstopped :
            (framer.consume stop (first.rest ++ chunk)).stopped = true
        · obtain ⟨hsecond, hsecondEnd⟩ :=
            (framer.consume_append stop (first.rest ++ chunk)
              chunks.flatten).1 hstopped
          rw [List.append_assoc] at hsecond hsecondEnd
          simp only [if_pos hstopped]
          exact ⟨by rw [hsecond], by rw [hsecondEnd, hstopped]⟩
        · rw [Bool.not_eq_true] at hstopped
          obtain ⟨hsecond, hsecondEnd⟩ := ih first.rest chunk hstopped
          simp only [hstopped, Bool.false_eq_true, if_false]
          exact ⟨by rw [hsecond], hsecondEnd⟩
  have hnothing : framer.consume stop buffer = ⟨[], buffer, false⟩ :=
    consume_of_none hbuffer
  obtain ⟨hframes, hend⟩ := hgeneral chunks buffer [] (by simp [hnothing])
  simp only [List.append_nil, hnothing, List.nil_append] at hframes hend
  exact ⟨hframes.symm, hend.symm⟩

end Framer

end Framing
