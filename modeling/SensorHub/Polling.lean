import SensorHub.EventRuns

/-!
# Polling a port

Initializing a device posts the start of `poll_data`, a coroutine which reads
from the port into a buffer of its own and passes what it has read to
`handle_data`, as long as the device is connected.  An exception disconnects the
device; closing the port can throw too, and polling then goes on.

After an exception the bytes of the read stay in the buffer.
-/

namespace SensorHub.Polling

open EventRuns

variable {K σ : Type*}

/-- The device, the `connect()` calls waiting for `initialize()`, the posted starts
and the buffers of the coroutines.  The reads and the calls of `handle_data` are
recorded. -/
structure Device (K σ : Type*) where
  connected : Bool
  connecting : ℕ
  posted : ℕ
  buffers : List (List UInt8)
  handler : σ
  received : List (K × List UInt8)
  handled : List (K × List UInt8)

/-- `closes` tells whether the port closes if the device gets disconnected. -/
inductive Event (K : Type*) where
  | connect (opened : Bool)
  | initialized (success : Bool)
  | start
  | read (poller : ℕ) (stamp : K) (bytes : List UInt8) (closes : Bool)
  | readThrows (poller : ℕ) (closes : Bool)

namespace Device

def fresh (handler : σ) : Device K σ where
  connected := false
  connecting := 0
  posted := 0
  buffers := []
  handler := handler
  received := []
  handled := []

/-- A connected device returns from `connect()`, and so does one whose port does
not open. -/
def connect (device : Device K σ) (opened : Bool) : Device K σ :=
  if !device.connected && opened then
    { device with connecting := device.connecting + 1 }
  else device

/-- Polling starts in `initialize()`, the state is set after it. -/
def initialized (device : Device K σ) (success : Bool) : Device K σ :=
  if success then
    { device with
      connecting := device.connecting - 1, posted := device.posted + 1, connected := true }
  else { device with connecting := device.connecting - 1 }

def disconnect (device : Device K σ) (closes : Bool) : Device K σ :=
  if device.connected && closes then { device with connected := false } else device

/-- The condition of the loop in `poll_data`. -/
def goOn (device : Device K σ) (poller : ℕ) (buffer : List UInt8) : Device K σ :=
  if device.connected then { device with buffers := device.buffers.set poller buffer }
  else { device with buffers := device.buffers.eraseIdx poller }

def start (device : Device K σ) : Device K σ :=
  let device := { device with posted := device.posted - 1 }
  if device.connected then { device with buffers := device.buffers ++ [[]] } else device

/-- The handler and whether it returned. -/
abbrev HandleData (K σ : Type*) := σ → K → List UInt8 → σ × Bool

def read (handleData : HandleData K σ) (device : Device K σ) (poller : ℕ) (buffer : List UInt8)
    (stamp : K) (bytes : List UInt8) (closes : Bool) : Device K σ :=
  if bytes = [] then device.goOn poller buffer
  else
    let buffer := buffer ++ bytes
    let (handler, returned) := handleData device.handler stamp buffer
    let device := { device with
      handler := handler
      received := device.received ++ [(stamp, bytes)]
      handled := device.handled ++ [(stamp, buffer)] }
    if returned then device.goOn poller (buffer.drop bytes.length)
    else (device.disconnect closes).goOn poller buffer

def step (handleData : HandleData K σ) (device : Device K σ) :
    Event K → Option (Device K σ)
  | .connect opened => some (device.connect opened)
  | .initialized success =>
      if device.connecting = 0 then none else some (device.initialized success)
  | .start => if device.posted = 0 then none else some device.start
  | .read poller stamp bytes closes =>
      (device.buffers[poller]?).map fun buffer =>
        device.read handleData poller buffer stamp bytes closes
  | .readThrows poller closes =>
      (device.buffers[poller]?).map fun buffer => (device.disconnect closes).goOn poller buffer

/-! ## One reader -/

/-- The coroutines that read from the port, or will. -/
def readers (device : Device K σ) : ℕ :=
  device.posted + device.buffers.length

/-- Nobody else uses the port while a device is initialized or polled. -/
def Exclusive (device : Device K σ) : Prop :=
  device.connecting + device.readers ≤ 1

/-- A device is polled as long as it is connected. -/
structure Attended (device : Device K σ) : Prop where
  exclusive : device.Exclusive
  readers_eq : device.readers = if device.connected then 1 else 0

/-- No call of `connect()` begins while another one waits. -/
def Alone (device : Device K σ) (event : Event K) : Prop :=
  event = .connect true → device.connected = false → device.connecting = 0

theorem attended_fresh (handler : σ) : (fresh handler : Device K σ).Attended :=
  ⟨Nat.zero_le 1, rfl⟩

theorem disconnect_keeps (device : Device K σ) (closes : Bool) :
    (device.disconnect closes).buffers = device.buffers ∧
      (device.disconnect closes).posted = device.posted ∧
      (device.disconnect closes).connecting = device.connecting := by
  unfold disconnect
  split <;> exact ⟨rfl, rfl, rfl⟩

theorem disconnect_closes (device : Device K σ) : (device.disconnect true).connected = false := by
  unfold disconnect
  split
  · rfl
  · next hnot => simpa using hnot

/-- The coroutine goes on or leaves, whatever happened in its round. -/
theorem Attended.goOn {device after : Device K σ} (hattended : device.Attended) {poller : ℕ}
    (hpoller : poller < device.buffers.length) (hconnected : device.connected = true)
    (hbuffers : after.buffers = device.buffers) (hposted : after.posted = device.posted)
    (hconnecting : after.connecting = device.connecting) (buffer : List UInt8) :
    (after.goOn poller buffer).Attended := by
  obtain ⟨hexclusive, hreaders⟩ := hattended
  simp only [hconnected, if_true] at hreaders
  unfold Exclusive readers at *
  unfold Device.goOn
  cases hafter : after.connected with
  | true =>
      refine ⟨?_, ?_⟩
      · simp [Exclusive, readers, hbuffers, hposted, hconnecting]
        omega
      · simp [readers, hbuffers, hposted]
        omega
  | false =>
      have herase : (device.buffers.eraseIdx poller).length = device.buffers.length - 1 :=
        List.length_eraseIdx_of_lt hpoller
      refine ⟨?_, ?_⟩
      · simp [Exclusive, readers, hbuffers, hposted, hconnecting, herase]
        omega
      · simp [readers, hbuffers, hposted, herase]
        omega

theorem Attended.connected {device : Device K σ} (hattended : device.Attended)
    (hreaders : device.readers ≠ 0) : device.connected = true := by
  by_contra hnot
  rw [hattended.readers_eq, if_neg hnot] at hreaders
  exact hreaders rfl

theorem Attended.read {device : Device K σ} (hattended : device.Attended)
    (handleData : HandleData K σ) {poller : ℕ} (hpoller : poller < device.buffers.length)
    (buffer : List UInt8) (stamp : K) (bytes : List UInt8) (closes : Bool) :
    (device.read handleData poller buffer stamp bytes closes).Attended := by
  have hconnected : device.connected = true := by
    apply hattended.connected
    unfold readers
    omega
  unfold Device.read
  split
  · exact hattended.goOn hpoller hconnected rfl rfl rfl buffer
  · simp only
    split
    · refine hattended.goOn hpoller hconnected ?_ ?_ ?_ _ <;> rfl
    · obtain ⟨hbuffers, hposted, hconnecting⟩ := disconnect_keeps
        { device with
          handler := (handleData device.handler stamp (buffer ++ bytes)).1
          received := device.received ++ [(stamp, bytes)]
          handled := device.handled ++ [(stamp, buffer ++ bytes)] } closes
      exact hattended.goOn hpoller hconnected hbuffers hposted hconnecting _

theorem Attended.step {handleData : HandleData K σ} {device next : Device K σ} {event : Event K}
    (hattended : device.Attended) (halone : device.Alone event)
    (hstep : device.step handleData event = some next) : next.Attended := by
  obtain ⟨hexclusive, hreaders⟩ := hattended
  cases event with
  | connect opened =>
      obtain rfl : device.connect opened = next := by simpa [Device.step] using hstep
      unfold Device.connect
      split
      · next htest =>
        simp only [Bool.and_eq_true, Bool.not_eq_true'] at htest
        have hidle := halone (by rw [htest.2]) htest.1
        simp only [htest.1, Bool.false_eq_true, if_false] at hreaders
        refine ⟨?_, ?_⟩
        · unfold Exclusive readers at *
          simp only
          omega
        · simpa [readers, htest.1] using hreaders
      · exact ⟨hexclusive, hreaders⟩
  | initialized success =>
      simp only [Device.step, Option.ite_none_left_eq_some, Option.some.injEq] at hstep
      obtain ⟨hwaiting, rfl⟩ := hstep
      -- a call of `connect()` that waits is alone
      have hnone : device.readers = 0 := by
        unfold Exclusive at hexclusive
        omega
      unfold Exclusive readers at *
      unfold Device.initialized
      split
      · refine ⟨?_, ?_⟩
        · simp only [Exclusive, readers]
          omega
        · simp only [readers, if_true]
          omega
      · refine ⟨?_, hreaders⟩
        simp only [Exclusive, readers]
        omega
  | start =>
      simp only [Device.step, Option.ite_none_left_eq_some, Option.some.injEq] at hstep
      obtain ⟨hposted, rfl⟩ := hstep
      have hconnected : device.connected = true := by
        apply (Attended.mk hexclusive hreaders).connected
        unfold readers
        omega
      simp only [hconnected, if_true] at hreaders
      unfold Exclusive readers at *
      simp only [Device.start, hconnected, if_true]
      refine ⟨?_, ?_⟩
      · simp only [Exclusive, readers, List.length_append, List.length_singleton]
        omega
      · simp only [readers, List.length_append, List.length_singleton, if_true]
        omega
  | read poller stamp bytes closes =>
      simp only [Device.step, Option.map_eq_some_iff] at hstep
      obtain ⟨buffer, hbuffer, rfl⟩ := hstep
      obtain ⟨hpoller, -⟩ := List.getElem?_eq_some_iff.mp hbuffer
      exact (Attended.mk hexclusive hreaders).read handleData hpoller buffer stamp bytes closes
  | readThrows poller closes =>
      simp only [Device.step, Option.map_eq_some_iff] at hstep
      obtain ⟨buffer, hbuffer, rfl⟩ := hstep
      obtain ⟨hpoller, -⟩ := List.getElem?_eq_some_iff.mp hbuffer
      have hattended := Attended.mk hexclusive hreaders
      have hconnected : device.connected = true := by
        apply hattended.connected
        unfold readers
        omega
      obtain ⟨hbuffers, hposted, hconnecting⟩ := disconnect_keeps device closes
      exact hattended.goOn hpoller hconnected hbuffers hposted hconnecting buffer

/-- A connection with a read, after which the port is lost, and another connection. -/
def twoConnections : List (Event ℚ) :=
  [.connect true, .initialized true, .start, .read 0 1 [0xB5] true, .readThrows 0 true,
    .connect true, .initialized false]

/-- A handler that collects what it is given. -/
def collect : HandleData ℚ (List UInt8) := fun bytes _ more => (bytes ++ more, true)

/-- What is read comes into an empty buffer. -/
def Emptied (device : Device K σ) (event : Event K) : Prop :=
  ∀ poller stamp bytes closes, event = .read poller stamp bytes closes → bytes ≠ [] →
    ∀ buffer, device.buffers[poller]? = some buffer → buffer = []

/-- The port closes if the handler throws. -/
def ClosesAfterThrow (handleData : HandleData K σ) (device : Device K σ) (event : Event K) :
    Prop :=
  ∀ poller stamp bytes, event = .read poller stamp bytes false → bytes ≠ [] →
    ∀ buffer, device.buffers[poller]? = some buffer →
      (handleData device.handler stamp (buffer ++ bytes)).2 = true

@[simp] theorem goOn_records (device : Device K σ) (poller : ℕ) (buffer : List UInt8) :
    (device.goOn poller buffer).handled = device.handled ∧
      (device.goOn poller buffer).received = device.received ∧
      (device.goOn poller buffer).handler = device.handler := by
  unfold goOn
  split <;> exact ⟨rfl, rfl, rfl⟩

@[simp] theorem disconnect_records (device : Device K σ) (closes : Bool) :
    (device.disconnect closes).handled = device.handled ∧
      (device.disconnect closes).received = device.received ∧
      (device.disconnect closes).handler = device.handler := by
  unfold disconnect
  split <;> exact ⟨rfl, rfl, rfl⟩

variable {handleData : HandleData K σ}

theorem read_records (handleData : HandleData K σ) (device : Device K σ) (poller : ℕ)
    (buffer : List UInt8) (stamp : K) {bytes : List UInt8} (hbytes : bytes ≠ []) (closes : Bool) :
    let next := device.read handleData poller buffer stamp bytes closes
    next.handled = device.handled ++ [(stamp, buffer ++ bytes)] ∧
      next.received = device.received ++ [(stamp, bytes)] ∧
      next.handler = (handleData device.handler stamp (buffer ++ bytes)).1 := by
  simp only [read, if_neg hbytes]
  split
  · simp
  · simp

/-- Only a read of some bytes changes the records. -/
theorem step_records {device next : Device K σ} {event : Event K}
    (hstep : device.step handleData event = some next) :
    (∃ poller stamp bytes closes buffer, event = .read poller stamp bytes closes ∧ bytes ≠ [] ∧
        device.buffers[poller]? = some buffer ∧
        next = device.read handleData poller buffer stamp bytes closes) ∨
      (next.handled = device.handled ∧ next.received = device.received ∧
        next.handler = device.handler ∧
        ∀ poller stamp bytes closes, event = .read poller stamp bytes closes → bytes = []) := by
  cases event with
  | connect opened =>
      obtain rfl : device.connect opened = next := by simpa [step] using hstep
      refine Or.inr ⟨?_, ?_, ?_, by simp⟩ <;> unfold connect <;> split <;> rfl
  | initialized success =>
      simp only [step, Option.ite_none_left_eq_some, Option.some.injEq] at hstep
      obtain ⟨-, rfl⟩ := hstep
      refine Or.inr ⟨?_, ?_, ?_, by simp⟩ <;> unfold initialized <;> split <;> rfl
  | start =>
      simp only [step, Option.ite_none_left_eq_some, Option.some.injEq] at hstep
      obtain ⟨-, rfl⟩ := hstep
      refine Or.inr ⟨?_, ?_, ?_, by simp⟩ <;> simp only [start] <;> split <;> rfl
  | read poller stamp bytes closes =>
      simp only [step, Option.map_eq_some_iff] at hstep
      obtain ⟨buffer, hbuffer, rfl⟩ := hstep
      by_cases hbytes : bytes = []
      · obtain ⟨hhandled, hreceived, hhandler⟩ := goOn_records device poller buffer
        rw [read, if_pos hbytes]
        refine Or.inr ⟨hhandled, hreceived, hhandler, ?_⟩
        intro _ _ _ _ heq
        obtain ⟨-, -, rfl, -⟩ := Event.read.inj heq
        exact hbytes
      · exact Or.inl ⟨poller, stamp, bytes, closes, buffer, rfl, hbytes, hbuffer, rfl⟩
  | readThrows poller closes =>
      simp only [step, Option.map_eq_some_iff] at hstep
      obtain ⟨buffer, hbuffer, rfl⟩ := hstep
      right
      simp

theorem step_handled_iff {device next : Device K σ} {event : Event K}
    (hstep : device.step handleData event = some next) :
    next.handled = next.received ↔
      device.handled = device.received ∧ device.Emptied event := by
  rcases step_records hstep with
    ⟨poller, stamp, bytes, closes, buffer, rfl, hbytes, hbuffer, rfl⟩ |
      ⟨hhandled, hreceived, -, hnothing⟩
  · obtain ⟨hhandled, hreceived, -⟩ :=
      read_records handleData device poller buffer stamp hbytes closes
    have hempty : device.Emptied (.read poller stamp bytes closes) ↔ buffer = [] := by
      constructor
      · intro hall
        exact hall poller stamp bytes closes rfl hbytes buffer hbuffer
      · rintro rfl _ _ _ _ heq - other hother
        obtain ⟨rfl, -⟩ := Event.read.inj heq
        exact (Option.some.inj (hbuffer.symm.trans hother)).symm
    rw [hhandled, hreceived, hempty]
    constructor
    · intro heq
      obtain ⟨hbefore, hlast⟩ := List.append_inj' heq rfl
      have hsame : buffer ++ bytes = bytes := by simpa using hlast
      exact ⟨hbefore, by simpa using hsame⟩
    · rintro ⟨hbefore, rfl⟩
      rw [hbefore, List.nil_append]
  · rw [hhandled, hreceived]
    refine (and_iff_left ?_).symm
    intro poller stamp bytes closes heq hbytes
    exact absurd (hnothing poller stamp bytes closes heq) hbytes

theorem run_handled_iff {start final : Device K σ} {events : List (Event K)}
    (hrun : run (step handleData) start events = some final) :
    final.handled = final.received ↔
      start.handled = start.received ∧ AllSteps (step handleData) start events Emptied := by
  induction events generalizing start with
  | nil =>
      obtain rfl : start = final := by simpa using hrun
      simp
  | cons event events ih =>
      rw [run_cons, Option.bind_eq_some_iff] at hrun
      obtain ⟨next, hnext, hrun⟩ := hrun
      rw [ih hrun, step_handled_iff hnext, allSteps_cons_iff]
      simp [hnext, and_assoc]

/-- The handler is what the recorded calls have made of it. -/
theorem run_handler {start final : Device K σ} {events : List (Event K)}
    (hrun : run (step handleData) start events = some final) :
    ∃ more, final.handled = start.handled ++ more ∧
      final.handler = more.foldl (fun handler call => (handleData handler call.1 call.2).1)
        start.handler := by
  induction events generalizing start with
  | nil =>
      obtain rfl : start = final := by simpa using hrun
      exact ⟨[], by simp, rfl⟩
  | cons event events ih =>
      rw [run_cons, Option.bind_eq_some_iff] at hrun
      obtain ⟨next, hnext, hrun⟩ := hrun
      obtain ⟨more, hmore, hhandler⟩ := ih hrun
      rcases step_records hnext with
        ⟨poller, stamp, bytes, closes, buffer, -, hbytes, -, rfl⟩ | ⟨hhandled, -, hkept, -⟩
      · obtain ⟨hhandled, -, hcall⟩ :=
          read_records handleData start poller buffer stamp hbytes closes
        refine ⟨(stamp, buffer ++ bytes) :: more, ?_, ?_⟩
        · rw [hmore, hhandled, List.append_assoc, List.singleton_append]
        · rw [hhandler, hcall, List.foldl_cons]
      · exact ⟨more, hmore.trans (congrArg (· ++ more) hhandled), hkept ▸ hhandler⟩

/-- Nothing is left over from an earlier read. -/
def AllEmpty (device : Device K σ) : Prop :=
  ∀ buffer ∈ device.buffers, buffer = []

theorem AllEmpty.goOn {device : Device K σ} (hempty : device.AllEmpty) {poller : ℕ}
    {buffer : List UInt8} (hbuffer : device.connected = true → buffer = []) :
    (device.goOn poller buffer).AllEmpty := by
  intro other hother
  unfold Device.goOn at hother
  split at hother
  · next hconnected =>
    rcases List.mem_or_eq_of_mem_set hother with hmem | rfl
    · exact hempty other hmem
    · exact hbuffer hconnected
  · exact hempty other (List.mem_of_mem_eraseIdx hother)

theorem AllEmpty.step {device next : Device K σ} {event : Event K} (hempty : device.AllEmpty)
    (hcloses : ClosesAfterThrow handleData device event)
    (hstep : device.step handleData event = some next) : next.AllEmpty := by
  cases event with
  | connect opened =>
      obtain rfl : device.connect opened = next := by simpa [Device.step] using hstep
      unfold Device.connect
      split <;> exact hempty
  | initialized success =>
      simp only [Device.step, Option.ite_none_left_eq_some, Option.some.injEq] at hstep
      obtain ⟨-, rfl⟩ := hstep
      unfold Device.initialized
      split <;> exact hempty
  | start =>
      simp only [Device.step, Option.ite_none_left_eq_some, Option.some.injEq] at hstep
      obtain ⟨-, rfl⟩ := hstep
      simp only [Device.start]
      split
      · intro buffer hbuffer
        rcases List.mem_append.mp hbuffer with hmem | hlast
        · exact hempty buffer hmem
        · exact List.mem_singleton.mp hlast
      · exact hempty
  | read poller stamp bytes closes =>
      simp only [Device.step, Option.map_eq_some_iff] at hstep
      obtain ⟨buffer, hbuffer, rfl⟩ := hstep
      obtain rfl : buffer = [] := hempty buffer (List.mem_of_getElem? hbuffer)
      unfold Device.read
      split
      · exact hempty.goOn fun _ => rfl
      · next hbytes =>
        simp only
        split
        · refine AllEmpty.goOn ?_ fun _ => ?_
          · exact hempty
          · rw [List.nil_append, List.drop_length]
        · next hthrew =>
          have hclosed : closes = true := by
            cases closes with
            | true => rfl
            | false => exact absurd (hcloses poller stamp bytes rfl hbytes [] hbuffer) hthrew
          refine AllEmpty.goOn ?_ fun hconnected => ?_
          · unfold Device.disconnect
            split <;> exact hempty
          · rw [hclosed, disconnect_closes] at hconnected
            exact absurd hconnected Bool.false_ne_true
  | readThrows poller closes =>
      simp only [Device.step, Option.map_eq_some_iff] at hstep
      obtain ⟨buffer, hbuffer, rfl⟩ := hstep
      refine AllEmpty.goOn ?_ fun _ => hempty buffer (List.mem_of_getElem? hbuffer)
      unfold Device.disconnect
      split <;> exact hempty

/-- With a port that closes there is nothing left to be handled again. -/
theorem emptied_of_closes {handler : σ} {events : List (Event K)}
    (hcloses : AllSteps (step handleData) (fresh handler) events (ClosesAfterThrow handleData)) :
    AllSteps (step handleData) (fresh handler) events Emptied := by
  have hempty : Throughout (step handleData) (fresh handler) events AllEmpty := by
    refine throughout_of_allSteps ?_ (fun _ _ _ hempty hgood hstep => hempty.step hgood hstep)
      hcloses
    intro buffer hbuffer
    cases hbuffer
  intro before event after hsplit device hdevice _ _ _ _ _ _ buffer hbuffer
  exact hempty before ⟨event :: after, hsplit.symm⟩ device hdevice buffer
    (List.mem_of_getElem? hbuffer)

/-- The handler returns from each of the calls, one after the other. -/
def Returns (handleData : HandleData K σ) : σ → List (K × List UInt8) → Prop
  | _, [] => True
  | handler, call :: calls =>
      (handleData handler call.1 call.2).2 = true ∧
        Returns handleData (handleData handler call.1 call.2).1 calls

theorem run_received {start final : Device K σ} {events : List (Event K)}
    (hrun : run (step handleData) start events = some final) :
    start.received <+: final.received := by
  induction events generalizing start with
  | nil =>
      obtain rfl : start = final := by simpa using hrun
      exact List.prefix_rfl
  | cons event events ih =>
      rw [run_cons, Option.bind_eq_some_iff] at hrun
      obtain ⟨next, hnext, hrun⟩ := hrun
      refine List.IsPrefix.trans ?_ (ih hrun)
      rcases step_records hnext with
        ⟨poller, stamp, bytes, closes, buffer, -, hbytes, -, rfl⟩ | ⟨-, hreceived, -, -⟩
      · rw [(read_records handleData start poller buffer stamp hbytes closes).2.1]
        exact List.prefix_append _ _
      · rw [hreceived]

/-- If the handler returns from all that was read, nothing was left to be handled
again. -/
theorem emptied_of_returns {start final : Device K σ} {events : List (Event K)}
    (hempty : start.AllEmpty) (hrun : run (step handleData) start events = some final)
    {calls : List (K × List UInt8)} (hcalls : final.received = start.received ++ calls)
    (hreturns : Returns handleData start.handler calls) :
    AllSteps (step handleData) start events Emptied := by
  induction events generalizing start calls with
  | nil => exact allSteps_nil _ _
  | cons event events ih =>
      rw [run_cons, Option.bind_eq_some_iff] at hrun
      obtain ⟨next, hnext, hrun⟩ := hrun
      rw [allSteps_cons_iff]
      have hemptied : start.Emptied event :=
        fun _ _ _ _ _ _ buffer hbuffer => hempty buffer (List.mem_of_getElem? hbuffer)
      refine ⟨hemptied, fun other hother => ?_⟩
      obtain rfl : next = other := Option.some.inj (hnext.symm.trans hother)
      rcases step_records hnext with
        ⟨poller, stamp, bytes, closes, buffer, rfl, hbytes, hbuffer, rfl⟩ |
          ⟨-, hreceived, hhandler, hnothing⟩
      · obtain rfl : buffer = [] := hempty buffer (List.mem_of_getElem? hbuffer)
        obtain ⟨-, hreceived, hhandler⟩ :=
          read_records handleData start poller [] stamp hbytes closes
        obtain ⟨more, hmore⟩ := run_received hrun
        -- the read is the first of the calls
        obtain rfl : calls = (stamp, bytes) :: more := by
          rw [← hmore, hreceived, List.append_assoc] at hcalls
          exact (List.append_cancel_left hcalls).symm
        have hcloses : ClosesAfterThrow handleData start (.read poller stamp bytes closes) := by
          intro _ _ _ heq _ other hother
          obtain ⟨rfl, rfl, rfl, -⟩ := Event.read.inj heq
          obtain rfl : [] = other := Option.some.inj (hbuffer.symm.trans hother)
          exact hreturns.1
        exact ih (hempty.step hcloses hnext) hrun hmore.symm (hhandler ▸ hreturns.2)
      · have hcloses : ClosesAfterThrow handleData start event := by
          intro poller stamp bytes heq hbytes
          exact absurd (hnothing poller stamp bytes false heq) hbytes
        exact ih (hempty.step hcloses hnext) hrun (hreceived ▸ hcalls) (hhandler ▸ hreturns)

/-- Whatever the handler does with the data: it gets each read once and in order
exactly when all reads come into an empty buffer.  This is so if the port closes
whenever the handler has thrown. -/
theorem handled_once (handleData : HandleData K σ) (handler : σ) {events : List (Event K)}
    {final : Device K σ} (hrun : run (step handleData) (fresh handler) events = some final) :
    (final.handled = final.received ↔
      AllSteps (step handleData) (fresh handler) events Emptied) ∧
    (AllSteps (step handleData) (fresh handler) events (ClosesAfterThrow handleData) →
      final.handled = final.received) := by
  have hiff : final.handled = final.received ↔
      AllSteps (step handleData) (fresh handler) events Emptied := by
    rw [run_handled_iff hrun]
    exact and_iff_right rfl
  exact ⟨hiff, fun hcloses => hiff.mpr (emptied_of_closes hcloses)⟩

/-- A handler that throws at every data. -/
def refuse : HandleData ℚ Unit := fun _ _ _ => ((), false)

/-- The port does not close after the first read, which is handled again. -/
def readAgain : List (Event ℚ) :=
  [.connect true, .initialized true, .start, .read 0 1 [0xB5] false, .read 0 2 [0x62] true]

theorem handled_once_again :
    ¬AllSteps (step refuse) (fresh ()) readAgain Emptied := by
  refine (not_congr (handled_once refuse () rfl).1).mp ?_
  decide +kernel

end Device

end SensorHub.Polling
