import SensorHub.EventRuns

/-!
# Asynchronous operations on a USB port

`Usb::async_read_some` and `Usb::async_write_some` submit a transfer to libusb.
Its callback resubmits a transfer that completed without data and otherwise
posts the handler of the operation, with a lambda that deletes the transfer.
The steps are those of the program and of libusb in any order: an operation
starts, a callback fires for a transfer that libusb owns, a posted lambda runs.

A submission can fail, and a failure is only logged.  So an operation is always
waiting for its callback or has posted its handler exactly as long as no
submission fails.
-/

namespace SensorHub.UsbPort

open EventRuns

/-! ## The queue of transfers -/

/-- The queue of transfers that were created; a deleted one leaves a null
pointer behind until it reaches the front. -/
def TransferQueue : Type := List (Option ℕ)
  deriving DecidableEq

namespace TransferQueue

def newTransfer (queue : TransferQueue) (transfer : ℕ) : TransferQueue :=
  List.append queue [some transfer]

def deleteTransfer (queue : TransferQueue) (transfer : ℕ) : TransferQueue :=
  (List.map (fun entry => if entry = some transfer then none else entry)
    queue).dropWhile Option.isNone

end TransferQueue

/-! ## Operations -/

inductive TransferStatus where
  | completed
  | cancelled
  | noDevice
  | timedOut
  | error
  | overflow
  | stall
  | unexpected
  deriving DecidableEq, Repr

inductive ErrorCode where
  | success
  | operationCanceled
  | badFileDescriptor
  | timedOut
  | ioError
  | valueTooLarge
  deriving DecidableEq, Repr

/-- The arguments a handler is called with. -/
structure Completion where
  ec : ErrorCode
  bytesTransferred : ℕ
  deriving DecidableEq, Repr

inductive Direction where
  | read
  | write
  deriving DecidableEq, Repr

/-- An operation with its context and its transfer.  `owned` says that libusb
has accepted the transfer and its callback is still due; `posted` are all
completions posted so far, of which those in `waiting` have not run yet. -/
structure Operation where
  direction : Direction
  buffers : List UInt8
  data : List UInt8
  owned : Bool
  contextAlive : Bool
  posted : List Completion
  waiting : List Completion
  called : List Completion
  deriving DecidableEq, Repr

/-- The size of the transfer buffer, whole packets in `size_t` arithmetic. -/
def dataSize (bufferSize packetSize : ℕ) : ℕ :=
  ((bufferSize + (2 ^ 64 - 1)) % 2 ^ 64 / packetSize + 1) * packetSize % 2 ^ 64

def errorCode : TransferStatus → ErrorCode
  | .completed => .success
  | .cancelled => .operationCanceled
  | .noDevice => .badFileDescriptor
  | .timedOut => .timedOut
  | .error => .ioError
  | .overflow => .valueTooLarge
  | .stall => .ioError
  | .unexpected => .ioError

namespace Operation

/-- A new context whose transfer was submitted, successfully or not. -/
def start (direction : Direction) (buffers : List UInt8) (packetSize : ℕ)
    (accepted : Bool) : Operation :=
  let size := dataSize buffers.length packetSize
  let data :=
    match direction with
    | .read => List.replicate size 0
    | .write => buffers.take size ++ List.replicate (size - buffers.length) 0
  { direction, buffers, data, owned := accepted, contextAlive := true
    posted := [], waiting := [], called := [] }

/-- `Operation_context::post` -/
def post (operation : Operation) (ec : ErrorCode) (bytesTransferred : ℕ) :
    Operation :=
  let bytesTransferred := min bytesTransferred operation.buffers.length
  let buffers :=
    match operation.direction with
    | .read =>
        operation.data.take bytesTransferred ++
          operation.buffers.drop bytesTransferred
    | .write => operation.buffers
  let completion := ⟨ec, bytesTransferred⟩
  { operation with
    buffers := buffers
    posted := operation.posted ++ [completion]
    waiting := operation.waiting ++ [completion] }

/-- The bytes of a read transfer are in its buffer before the callback. -/
def receive (operation : Operation) (transferred : List UInt8) : Operation :=
  match operation.direction with
  | .read =>
      { operation with
        data := transferred ++ operation.data.drop transferred.length }
  | .write => operation

/-- The callback: `accepted` is the result of the submission it may make. -/
def handleTransfer (operation : Operation) (status : TransferStatus)
    (actualLength : ℕ) (accepted : Bool) : Operation :=
  let ec := errorCode status
  if ec = .success ∧ actualLength = 0 then
    { operation with owned := accepted }
  else
    { operation.post ec actualLength with
      owned := false, contextAlive := false }

/-- The posted lambda runs: the handler is called. -/
def runPosted (operation : Operation) : Option Operation :=
  match operation.waiting with
  | [] => none
  | completion :: waiting =>
      some { operation with
        waiting := waiting, called := operation.called ++ [completion] }

end Operation

/-! ## The port -/

structure Usb where
  readPacketSize : ℕ
  operations : List Operation
  transfers : TransferQueue
  deriving DecidableEq

def Usb.initial (readPacketSize : ℕ) : Usb where
  readPacketSize := readPacketSize
  operations := []
  transfers := []

/-- What can happen.  `accepted` is the result of `libusb_submit_transfer`, if
the step calls it.  Cancelling only asks libusb to fire callbacks. -/
inductive Event where
  | start (direction : Direction) (buffers : List UInt8) (accepted : Bool)
  | callback (operation : ℕ) (status : TransferStatus)
      (transferred : List UInt8) (accepted : Bool)
  | runPosted (operation : ℕ)
  | cancel
  deriving DecidableEq, Repr

/-- One step.  The transfer of an operation goes by the operation's number. -/
def Usb.step (usb : Usb) : Event → Option Usb
  | .start direction buffers accepted =>
      let packetSize :=
        match direction with
        | .read => usb.readPacketSize
        | .write => 1
      some { usb with
        operations := usb.operations ++
          [.start direction buffers packetSize accepted]
        transfers := usb.transfers.newTransfer usb.operations.length }
  | .callback index status transferred accepted =>
      match usb.operations[index]? with
      | none => none
      | some operation =>
          if operation.owned then
            some { usb with
              operations := usb.operations.set index
                ((operation.receive transferred).handleTransfer status
                  transferred.length accepted) }
          else
            none
  | .runPosted index =>
      match usb.operations[index]?.bind Operation.runPosted with
      | none => none
      | some operation =>
          some { usb with
            operations := usb.operations.set index operation
            transfers := usb.transfers.deleteTransfer index }
  | .cancel => some usb

/-! ## Completions -/

/-- The handler was posted at most once, and as long as it was not, libusb owns
the transfer. -/
def Operation.Pending (operation : Operation) : Prop :=
  operation.posted.length ≤ 1 ∧ (operation.posted = [] → operation.owned = true)

/-- The transfer is owned exactly until the handler is posted. -/
structure Operation.Invariant (operation : Operation) : Prop where
  posted_once : operation.posted.length ≤ 1
  owned_iff : operation.owned = true ↔ operation.posted = []
  context_alive : operation.contextAlive = true ↔ operation.posted = []

theorem Operation.Invariant.pending {operation : Operation}
    (hinv : operation.Invariant) : operation.Pending :=
  ⟨hinv.posted_once, hinv.owned_iff.mpr⟩

/-- A submission made by this step, if any, succeeds. -/
def Event.Submits : Event → Prop
  | .start _ _ accepted => accepted = true
  | .callback _ status transferred accepted =>
      errorCode status = .success → transferred = [] → accepted = true
  | .runPosted _ => True
  | .cancel => True

namespace Operation

@[simp] theorem receive_owned (operation : Operation)
    (transferred : List UInt8) :
    (operation.receive transferred).owned = operation.owned := by
  unfold receive
  split <;> rfl

@[simp] theorem receive_posted (operation : Operation)
    (transferred : List UInt8) :
    (operation.receive transferred).posted = operation.posted := by
  unfold receive
  split <;> rfl

@[simp] theorem receive_contextAlive (operation : Operation)
    (transferred : List UInt8) :
    (operation.receive transferred).contextAlive = operation.contextAlive := by
  unfold receive
  split <;> rfl

/-- A callback posts the handler, unless it resubmits. -/
theorem handleTransfer_cases (operation : Operation) (status : TransferStatus)
    (actualLength : ℕ) (accepted : Bool) :
    let result := operation.handleTransfer status actualLength accepted
    (errorCode status = .success ∧ actualLength = 0 ∧
        result = { operation with owned := accepted }) ∨
      (¬(errorCode status = .success ∧ actualLength = 0) ∧
        result.owned = false ∧ result.contextAlive = false ∧
        result.posted = operation.posted ++
          [⟨errorCode status, min actualLength operation.buffers.length⟩]) := by
  intro result
  by_cases hempty : errorCode status = .success ∧ actualLength = 0
  · exact .inl ⟨hempty.1, hempty.2, by simp [result, handleTransfer, hempty]⟩
  · refine .inr ⟨hempty, ?_⟩
    simp [result, handleTransfer, if_neg hempty, post]

end Operation

def Usb.Invariant (usb : Usb) : Prop :=
  ∀ operation ∈ usb.operations, operation.Invariant

/-- No operation is left with neither a pending transfer nor a posted
completion, and none has two completions. -/
def Usb.EachPending (usb : Usb) : Prop :=
  ∀ operation ∈ usb.operations, operation.Pending

namespace Usb

theorem step_start {usb next : Usb} {direction : Direction}
    {buffers : List UInt8} {accepted : Bool}
    (hstep : usb.step (.start direction buffers accepted) = some next) :
    ∃ packetSize, next.operations =
      usb.operations ++ [.start direction buffers packetSize accepted] := by
  simp only [step, Option.some.injEq] at hstep
  subst hstep
  exact ⟨_, rfl⟩

theorem step_callback {usb next : Usb} {index : ℕ} {status : TransferStatus}
    {transferred : List UInt8} {accepted : Bool}
    (hstep :
      usb.step (.callback index status transferred accepted) = some next) :
    ∃ operation, usb.operations[index]? = some operation ∧
      operation.owned = true ∧
      next.operations = usb.operations.set index
        ((operation.receive transferred).handleTransfer status
          transferred.length accepted) := by
  simp only [step] at hstep
  cases hget : usb.operations[index]? with
  | none => simp [hget] at hstep
  | some operation =>
      simp only [hget] at hstep
      by_cases howned : operation.owned
      · rw [if_pos howned, Option.some.injEq] at hstep
        exact ⟨operation, rfl, howned, hstep ▸ rfl⟩
      · simp [if_neg howned] at hstep

theorem step_posted {usb next : Usb} {index : ℕ}
    (hstep : usb.step (.runPosted index) = some next) :
    ∃ operation operation', usb.operations[index]? = some operation ∧
      operation.runPosted = some operation' ∧
      next.operations = usb.operations.set index operation' := by
  simp only [step] at hstep
  cases hget : usb.operations[index]? with
  | none => simp [hget] at hstep
  | some operation =>
      cases hrun : operation.runPosted with
      | none => simp [hget, hrun] at hstep
      | some operation' =>
          simp only [hget, hrun, Option.bind_some, Option.some.injEq] at hstep
          exact ⟨operation, operation', rfl, hrun, hstep ▸ rfl⟩

theorem step_runPosted {usb next : Usb} {index : ℕ}
    (hstep : usb.step (.runPosted index) = some next) :
    ∃ operation operation', usb.operations[index]? = some operation ∧
      next.operations = usb.operations.set index operation' ∧
      operation'.posted = operation.posted ∧
      operation'.owned = operation.owned ∧
      operation'.contextAlive = operation.contextAlive := by
  obtain ⟨operation, operation', hget, hrun, hnext⟩ := step_posted hstep
  refine ⟨operation, operation', hget, hnext, ?_⟩
  unfold Operation.runPosted at hrun
  split at hrun
  · simp at hrun
  · rw [Option.some.injEq] at hrun
    subst hrun
    exact ⟨rfl, rfl, rfl⟩

theorem Invariant.set {usb next : Usb} {index : ℕ} {operation : Operation}
    (hinv : usb.Invariant)
    (hnext : next.operations = usb.operations.set index operation)
    (hoperation : operation.Invariant) : next.Invariant := by
  intro other hmem
  rw [hnext] at hmem
  rcases List.mem_or_eq_of_mem_set hmem with hold | hnew
  · exact hinv other hold
  · exact hnew ▸ hoperation

theorem step_invariant {usb next : Usb} {event : Event}
    (hinv : usb.Invariant) (hsubmits : event.Submits)
    (hstep : usb.step event = some next) : next.Invariant := by
  cases event with
  | start direction buffers accepted =>
      obtain ⟨packetSize, hnext⟩ := step_start hstep
      simp only [Event.Submits] at hsubmits
      intro operation hmem
      rw [hnext] at hmem
      rcases List.mem_append.mp hmem with hold | hnew
      · exact hinv operation hold
      · rw [List.mem_singleton.mp hnew]
        constructor <;> simp [Operation.start, hsubmits]
  | callback index status transferred accepted =>
      obtain ⟨operation, hget, howned, hnext⟩ := step_callback hstep
      have hold := hinv operation (List.mem_of_getElem? hget)
      have hnone := hold.owned_iff.mp howned
      refine hinv.set hnext ?_
      rcases (operation.receive transferred).handleTransfer_cases status
          transferred.length accepted with
        ⟨hsuccess, hlength, hresult⟩ | ⟨-, howned', halive', hposted'⟩
      · have haccepted := hsubmits hsuccess (List.length_eq_zero_iff.mp hlength)
        rw [hresult]
        constructor <;>
          simp [hnone, haccepted, hold.context_alive.mpr hnone]
      · constructor <;> simp [hposted', howned', halive', hnone]
  | runPosted index =>
      obtain ⟨operation, operation', hget, hnext, hposted, howned, halive⟩ :=
        step_runPosted hstep
      have hold := hinv operation (List.mem_of_getElem? hget)
      refine hinv.set hnext ⟨?_, ?_, ?_⟩
      · rw [hposted]
        exact hold.posted_once
      · rw [howned, hposted]
        exact hold.owned_iff
      · rw [halive, hposted]
        exact hold.context_alive
  | cancel =>
      simp only [step, Option.some.injEq] at hstep
      exact hstep ▸ hinv

/-- A failing submission leaves its operation without callback and without
completion. -/
theorem step_not_eachPending {usb next : Usb} {event : Event}
    (hinv : usb.Invariant) (hfails : ¬event.Submits)
    (hstep : usb.step event = some next) : ¬next.EachPending := by
  intro hpending
  cases event with
  | start direction buffers accepted =>
      obtain ⟨packetSize, hnext⟩ := step_start hstep
      have hnew := hpending
        (.start direction buffers packetSize accepted) (by simp [hnext])
      exact hfails (hnew.2 rfl)
  | callback index status transferred accepted =>
      obtain ⟨operation, hget, howned, hnext⟩ := step_callback hstep
      have hold := hinv operation (List.mem_of_getElem? hget)
      simp only [Event.Submits, not_forall] at hfails
      obtain ⟨hsuccess, hempty, hrejected⟩ := hfails
      rcases (operation.receive transferred).handleTransfer_cases status
          transferred.length accepted with
        ⟨-, -, hresult⟩ | ⟨hnot, -⟩
      · have hmem : (operation.receive transferred).handleTransfer status
            transferred.length accepted ∈ next.operations := by
          rw [hnext]
          exact List.mem_set (List.getElem?_eq_some_iff.mp hget).1 _
        have hnew := (hpending _ hmem).2
        rw [hresult] at hnew
        exact hrejected (hnew (by simp [hold.owned_iff.mp howned]))
      · exact hnot ⟨hsuccess, by simp [hempty]⟩
  | runPosted index => exact hfails trivial
  | cancel => exact hfails trivial

end Usb

/-- In every state of a run each operation waits for its callback or has posted
its handler once, exactly when every submission of the run succeeds. -/
theorem eachPending_iff_submits (readPacketSize : ℕ) (events : List Event)
    (final : Usb)
    (hrun : run Usb.step (.initial readPacketSize) events = some final) :
    Throughout Usb.step (.initial readPacketSize) events Usb.EachPending ↔
      ∀ event ∈ events, event.Submits := by
  have hinitial : (Usb.initial readPacketSize).Invariant := by
    simp [Usb.Invariant, Usb.initial]
  have hsteps :
      Throughout Usb.step (.initial readPacketSize) events Usb.EachPending ↔
        AllSteps Usb.step (.initial readPacketSize) events
          fun _ event => event.Submits :=
    throughout_iff_allSteps Usb.Invariant hrun hinitial
      (fun _ _ _ => Usb.step_invariant)
      (fun _ hinv operation hmem => (hinv operation hmem).pending)
      (fun _ _ _ => Usb.step_not_eachPending)
  rw [hsteps]
  constructor
  · intro hall event hmem
    obtain ⟨before, after, hsplit⟩ := List.append_of_mem hmem
    obtain ⟨state, hstate, -⟩ := run_of_prefix (hsplit ▸ hrun)
    exact hall before event after hsplit state hstate
  · intro hall before event after hsplit state _
    exact hall event (by simp [hsplit])

/-- A read which gets an empty transfer first and then some data. -/
theorem eachPending_of_resubmission :
    let events : List Event :=
      [.start .read [0, 0, 0] true, .callback 0 .completed [] true,
        .callback 0 .completed [0xFA, 0xFF] true, .runPosted 0]
    Throughout Usb.step (.initial 2) events Usb.EachPending := by
  intro events
  have hrun : run Usb.step (.initial 2) events = some
      { readPacketSize := 2
        operations :=
          [{ direction := .read, buffers := [0xFA, 0xFF, 0]
             data := [0xFA, 0xFF, 0, 0], owned := false, contextAlive := false
             posted := [⟨.success, 2⟩], waiting := []
             called := [⟨.success, 2⟩] }]
        transfers := [] } := by
    decide
  refine (eachPending_iff_submits 2 events _ hrun).mpr ?_
  simp [events, Event.Submits]

/-- A write whose transfer libusb does not accept is left with nothing. -/
theorem not_eachPending_of_failed_submission :
    ¬∀ (readPacketSize : ℕ) (events : List Event) (final : Usb),
        run Usb.step (.initial readPacketSize) events = some final →
          final.EachPending := by
  intro hall
  have hpending := hall 512 [.start .write [0xFA] false]
    { readPacketSize := 512
      operations := [.start .write [0xFA] 1 false]
      transfers := [some 0] } rfl
  exact Bool.false_ne_true ((hpending _ (List.mem_singleton_self _)).2 rfl)

end SensorHub.UsbPort
