import SensorHub.UsbTransfers

/-!
# What reads from a USB port deliver

The transfer of a read has a buffer of whole packets, so it can receive more
bytes than fit into the buffer of the caller.  `Operation_context::post` copies
what fits, and the context with the rest of the bytes is deleted.
-/

namespace SensorHub.UsbPort

open EventRuns

/-! ## Calls and what was received for them -/

structure Call where
  direction : Direction
  buffers : List UInt8
  received : List UInt8
  deriving DecidableEq, Repr

/-- The bytes of a completed read transfer. -/
def Call.receive (transferred : List UInt8) (call : Call) : Call :=
  match call.direction with
  | .read => { call with received := call.received ++ transferred }
  | .write => call

def record (calls : List Call) : Event → List Call
  | .start direction buffers _ => calls ++ [⟨direction, buffers, []⟩]
  | .callback index _ transferred _ => calls.modify index (Call.receive transferred)
  | .runPosted _ => calls
  | .cancel => calls

def callsOf (events : List Event) : List Call :=
  events.foldl record []

def receivedBy (events : List Event) : List UInt8 :=
  (callsOf events).flatMap Call.received

/-- What the handler of a read finds in its buffers when it is called. -/
def Operation.delivered (operation : Operation) : List UInt8 :=
  match operation.direction with
  | .read => operation.called.flatMap fun completion =>
      operation.buffers.take completion.bytesTransferred
  | .write => []

def Usb.delivered (usb : Usb) : List UInt8 :=
  usb.operations.flatMap Operation.delivered

/-- Every handler that was posted has been called. -/
def Usb.Settled (usb : Usb) : Prop :=
  ∀ operation ∈ usb.operations, operation.waiting = []

/-- Only reads with buffers that are not empty, whose transfers all complete with
some bytes. -/
def Event.Receives (usb : Usb) : Event → Prop
  | .start direction buffers accepted =>
      direction = .read ∧ buffers ≠ [] ∧ accepted = true
  | .callback index status transferred _ =>
      status = .completed ∧ 1 ≤ transferred.length ∧
        ∀ operation, usb.operations[index]? = some operation →
          transferred.length ≤ operation.data.length
  | .runPosted _ => True
  | .cancel => True

/-! ## Operations follow their calls -/

/-- Before its callback an operation has nothing to deliver, afterwards the
beginning of what was received. -/
structure Follows (call : Call) (operation : Operation) : Prop where
  direction : operation.direction = call.direction
  size : operation.buffers.length = call.buffers.length
  progress :
    (operation.waiting = [] ∧ operation.called = [] ∧ call.received = []) ∨
      (operation.owned = false ∧
        (call.direction = .write → call.received = []) ∧
        ∃ completion, operation.waiting ++ operation.called = [completion] ∧
          (call.direction = .read →
            operation.buffers.take completion.bytesTransferred =
              call.received.take call.buffers.length))

theorem follows_start (direction : Direction) (buffers : List UInt8)
    (packetSize : ℕ) (accepted : Bool) :
    Follows ⟨direction, buffers, []⟩ (.start direction buffers packetSize accepted) :=
  ⟨rfl, rfl, .inl ⟨rfl, rfl, rfl⟩⟩

namespace Operation

@[simp] theorem receive_direction (operation : Operation) (transferred : List UInt8) :
    (operation.receive transferred).direction = operation.direction := by
  unfold receive
  split <;> rfl

@[simp] theorem receive_buffers (operation : Operation) (transferred : List UInt8) :
    (operation.receive transferred).buffers = operation.buffers := by
  unfold receive
  split <;> rfl

@[simp] theorem receive_waiting (operation : Operation) (transferred : List UInt8) :
    (operation.receive transferred).waiting = operation.waiting := by
  unfold receive
  split <;> rfl

@[simp] theorem receive_called (operation : Operation) (transferred : List UInt8) :
    (operation.receive transferred).called = operation.called := by
  unfold receive
  split <;> rfl

theorem post_buffers_length (operation : Operation) (ec : ErrorCode) {bytes : ℕ}
    (hdata : operation.direction = .read →
      min bytes operation.buffers.length ≤ operation.data.length) :
    (operation.post ec bytes).buffers.length = operation.buffers.length := by
  cases hdirection : operation.direction with
  | read =>
      have hbytes := hdata hdirection
      simp only [post, hdirection, List.length_append, List.length_take, List.length_drop]
      omega
  | write => simp [post, hdirection]

theorem take_buffers_post (operation : Operation) (ec : ErrorCode)
    {transferred : List UInt8} (hread : operation.direction = .read) :
    ((operation.receive transferred).post ec transferred.length).buffers.take
        (min transferred.length operation.buffers.length) =
      transferred.take operation.buffers.length := by
  set bytes := min transferred.length operation.buffers.length with hbytes
  have hcopied : (transferred ++ operation.data.drop transferred.length).take bytes =
      transferred.take operation.buffers.length := by
    rw [List.take_append_of_le_length (by omega), hbytes, List.take_eq_take_iff]
    omega
  have hlength : (transferred.take operation.buffers.length).length = bytes := by
    rw [List.length_take, hbytes, min_comm]
  have hresult : ((operation.receive transferred).post ec transferred.length).buffers =
      transferred.take operation.buffers.length ++ operation.buffers.drop bytes := by
    rw [← hcopied]
    simp [receive, post, hread, hbytes]
  rw [hresult]
  exact List.take_left' hlength

end Operation

theorem Call.receive_nil (call : Call) : call.receive [] = call := by
  unfold receive
  split <;> simp

theorem Operation.receive_nil (operation : Operation) : operation.receive [] = operation := by
  unfold receive
  split <;> simp

theorem Follows.callback {call : Call} {operation : Operation}
    (hfollows : Follows call operation) (howned : operation.owned = true)
    (status : TransferStatus) (transferred : List UInt8) (accepted : Bool) :
    Follows (call.receive transferred)
      ((operation.receive transferred).handleTransfer status
        transferred.length accepted) := by
  obtain ⟨hwaiting, hcalled, hreceived⟩ : operation.waiting = [] ∧
      operation.called = [] ∧ call.received = [] := by
    rcases hfollows.progress with hnone | ⟨hnot, -⟩
    · exact hnone
    · simp [howned] at hnot
  by_cases hempty : errorCode status = .success ∧ transferred.length = 0
  · have hnil := List.length_eq_zero_iff.mp hempty.2
    subst hnil
    rw [Call.receive_nil, Operation.receive_nil, Operation.handleTransfer, if_pos hempty]
    exact ⟨hfollows.direction, hfollows.size, .inl ⟨hwaiting, hcalled, hreceived⟩⟩
  rw [Operation.handleTransfer, if_neg hempty]
  have hdata : (operation.receive transferred).direction = .read →
      min transferred.length (operation.receive transferred).buffers.length ≤
        (operation.receive transferred).data.length := by
    intro hread
    rw [Operation.receive_direction] at hread
    simp only [Operation.receive, hread, List.length_append]
    omega
  have hsize : (call.receive transferred).buffers = call.buffers := by
    unfold Call.receive
    split <;> rfl
  have hdirection : (call.receive transferred).direction = call.direction := by
    unfold Call.receive
    split <;> rfl
  refine ⟨?_, ?_, .inr ⟨rfl, fun hwrite => ?_,
    ⟨errorCode status, min transferred.length operation.buffers.length⟩, ?_, fun hread => ?_⟩⟩
  · rw [hdirection, ← hfollows.direction]
    exact operation.receive_direction transferred
  · rw [hsize, ← hfollows.size]
    exact (Operation.post_buffers_length _ (errorCode status) hdata).trans (by simp)
  · rw [hdirection] at hwrite
    simpa [Call.receive, hwrite] using hreceived
  · simp [Operation.post, hwaiting, hcalled]
  · rw [hdirection] at hread
    rw [hsize, Call.receive, hread, hreceived, ← hfollows.size]
    exact operation.take_buffers_post (errorCode status) (hfollows.direction.trans hread)

theorem Follows.runPosted {call : Call} {operation operation' : Operation}
    (hfollows : Follows call operation) (hrun : operation.runPosted = some operation') :
    Follows call operation' := by
  unfold Operation.runPosted at hrun
  split at hrun
  · simp at hrun
  · next completion waiting hwaiting =>
      rw [Option.some.injEq] at hrun
      subst hrun
      refine ⟨hfollows.direction, hfollows.size, ?_⟩
      rcases hfollows.progress with ⟨hnone, -⟩ | ⟨howned, hwrite, only, honly, hread⟩
      · simp [hnone] at hwaiting
      · rw [hwaiting, List.cons_append, List.cons.injEq, List.append_eq_nil_iff] at honly
        obtain ⟨rfl, rfl, hcalled⟩ := honly
        exact .inr ⟨howned, hwrite, completion, by simp [hcalled], hread⟩

theorem forall₂_modify_set {α β : Type*} {R : α → β → Prop} {f : α → α} {b' : β}
    {as : List α} {bs : List β} (hall : List.Forall₂ R as bs) (index : ℕ)
    (hchange : ∀ a b, bs[index]? = some b → R a b → R (f a) b') :
    List.Forall₂ R (as.modify index f) (bs.set index b') := by
  induction hall generalizing index with
  | nil => simp
  | @cons a b as bs hab hall ih =>
      cases index with
      | zero =>
          simp only [List.modify_zero_cons, List.set_cons_zero]
          exact .cons (hchange a b rfl hab) hall
      | succ index =>
          simp only [List.modify_succ_cons, List.set_cons_succ]
          exact .cons hab (ih index hchange)

theorem Usb.step_follows {usb next : Usb} {calls : List Call} {event : Event}
    (hfollows : List.Forall₂ Follows calls usb.operations)
    (hstep : usb.step event = some next) :
    List.Forall₂ Follows (record calls event) next.operations := by
  cases event with
  | start direction buffers accepted =>
      obtain ⟨packetSize, hnext⟩ := step_start hstep
      rw [hnext]
      exact List.rel_append hfollows
        (.cons (follows_start direction buffers packetSize accepted) .nil)
  | callback index status transferred accepted =>
      obtain ⟨operation, hget, howned, hnext⟩ := step_callback hstep
      rw [hnext]
      refine forall₂_modify_set hfollows index fun call operation' hget' hcall => ?_
      rw [hget, Option.some.injEq] at hget'
      subst hget'
      exact hcall.callback howned status transferred accepted
  | runPosted index =>
      obtain ⟨operation, operation', hget, hrun, hnext⟩ := step_posted hstep
      have hfinished : ∀ call operation'',
          usb.operations[index]? = some operation'' →
          Follows call operation'' → Follows (id call) operation' := by
        intro call operation'' hget' hcall
        rw [hget, Option.some.injEq] at hget'
        subst hget'
        exact hcall.runPosted hrun
      have hset := forall₂_modify_set hfollows index hfinished
      rw [List.modify_id] at hset
      rw [hnext]
      exact hset
  | cancel =>
      simp only [step, Option.some.injEq] at hstep
      exact hstep ▸ hfollows

theorem run_follows {readPacketSize : ℕ} {events : List Event} {final : Usb}
    (hrun : run Usb.step (.initial readPacketSize) events = some final) :
    List.Forall₂ Follows (callsOf events) final.operations := by
  induction events using List.reverseRecOn generalizing final with
  | nil =>
      rw [run_nil, Option.some.injEq] at hrun
      exact hrun ▸ .nil
  | append_singleton events event ih =>
      obtain ⟨last, hlast, hstep⟩ := run_append_singleton hrun
      rw [callsOf, List.foldl_append]
      exact Usb.step_follows (ih hlast) hstep

/-! ## What is delivered -/

/-- A settled operation delivers what fits into the buffers of the caller. -/
theorem Follows.delivered_eq {call : Call} {operation : Operation}
    (hfollows : Follows call operation) (hsettled : operation.waiting = []) :
    operation.delivered = call.received.take call.buffers.length := by
  obtain ⟨hdirection, -, hprogress⟩ := hfollows
  rcases hprogress with ⟨-, hcalled, hreceived⟩ | ⟨-, hwrite, completion, honly, hread⟩
  · rw [hreceived, List.take_nil, Operation.delivered]
    split <;> simp [hcalled]
  · rw [hsettled, List.nil_append] at honly
    cases hcase : call.direction with
    | read =>
        rw [Operation.delivered, hdirection.trans hcase, ← hread hcase, honly]
        simp
    | write =>
        rw [Operation.delivered, hdirection.trans hcase, hwrite hcase, List.take_nil]

theorem delivered_eq_flatMap {calls : List Call} {operations : List Operation}
    (hfollows : List.Forall₂ Follows calls operations)
    (hsettled : ∀ operation ∈ operations, operation.waiting = []) :
    operations.flatMap Operation.delivered =
      calls.flatMap fun call => call.received.take call.buffers.length := by
  induction hfollows with
  | nil => rfl
  | cons hfirst _ ih =>
      rw [List.flatMap_cons, List.flatMap_cons,
        hfirst.delivered_eq (hsettled _ List.mem_cons_self),
        ih fun operation hmem => hsettled operation (List.mem_cons_of_mem _ hmem)]

/-- Pieces that were cut off at the end never make up for each other. -/
theorem flatMap_take_eq_iff {α β : Type*} (items : List α) (size : α → ℕ)
    (whole : α → List β) :
    (items.flatMap fun item => (whole item).take (size item)) = items.flatMap whole ↔
      ∀ item ∈ items, (whole item).length ≤ size item := by
  have hle : ∀ items : List α,
      (items.flatMap fun item => (whole item).take (size item)).length ≤
        (items.flatMap whole).length := by
    intro items
    induction items with
    | nil => rfl
    | cons item items ih =>
        simp only [List.flatMap_cons, List.length_append, List.length_take]
        omega
  induction items with
  | nil => simp
  | cons item items ih =>
      rw [List.flatMap_cons, List.flatMap_cons, List.forall_mem_cons]
      constructor
      · intro heq
        have hlength := congrArg List.length heq
        have hrest := hle items
        simp only [List.length_append, List.length_take] at hlength
        obtain ⟨hfirst, hmore⟩ := List.append_inj heq (by rw [List.length_take]; omega)
        exact ⟨(List.take_eq_self_iff _).mp hfirst, ih.mp hmore⟩
      · rintro ⟨hfirst, hmore⟩
        rw [List.take_of_length_le hfirst, ih.mpr hmore]

/-- When all handlers have been called, they were given all bytes that the
transfers received exactly when no transfer received more than its caller had
asked for. -/
theorem delivered_eq_received_iff (readPacketSize : ℕ) (events : List Event)
    (final : Usb) (hrun : run Usb.step (.initial readPacketSize) events = some final)
    (hsettled : final.Settled) :
    final.delivered = receivedBy events ↔
      ∀ call ∈ callsOf events, call.received.length ≤ call.buffers.length := by
  rw [Usb.delivered, delivered_eq_flatMap (run_follows hrun) hsettled, receivedBy]
  exact flatMap_take_eq_iff (callsOf events) (fun call => call.buffers.length) Call.received

/-- Two reads of three bytes from packets of two, the second of which receives
four. -/
def twoReads : List Event :=
  [.start .read [0, 0, 0] true, .callback 0 .completed [0xFA, 0xFF] true, .runPosted 0,
    .start .read [0, 0, 0] true, .callback 1 .completed [0x36, 0x01, 0x02, 0x03] true,
    .runPosted 1]

def afterTwoReads : Usb where
  readPacketSize := 2
  operations :=
    [{ direction := .read, buffers := [0xFA, 0xFF, 0], data := [0xFA, 0xFF, 0, 0]
       owned := false, contextAlive := false, posted := [⟨.success, 2⟩], waiting := []
       called := [⟨.success, 2⟩] },
     { direction := .read, buffers := [0x36, 0x01, 0x02]
       data := [0x36, 0x01, 0x02, 0x03], owned := false, contextAlive := false
       posted := [⟨.success, 3⟩], waiting := [], called := [⟨.success, 3⟩] }]
  transfers := []

theorem run_twoReads : run Usb.step (.initial 2) twoReads = some afterTwoReads := by
  decide

theorem settled_afterTwoReads : afterTwoReads.Settled := by
  simp [Usb.Settled, afterTwoReads]

theorem delivered_eq_received_iff_twoReads :
    afterTwoReads.delivered = receivedBy twoReads ↔
      ∀ call ∈ callsOf twoReads, call.received.length ≤ call.buffers.length :=
  delivered_eq_received_iff 2 twoReads afterTwoReads run_twoReads settled_afterTwoReads

/-- The fourth byte of the second transfer is lost. -/
theorem delivered_ne_received :
    ¬∀ (readPacketSize : ℕ) (events : List Event) (final : Usb), 1 ≤ readPacketSize →
      run Usb.step (.initial readPacketSize) events = some final →
      AllSteps Usb.step (.initial readPacketSize) events Event.Receives →
      final.Settled → final.delivered = receivedBy events := by
  intro hall
  have hreceives : AllSteps Usb.step (.initial 2) twoReads Event.Receives := by
    simp only [twoReads, allSteps_cons_iff]
    simp [Event.Receives, Usb.step, Usb.initial, Operation.start, dataSize,
      Operation.handleTransfer, Operation.receive, Operation.post, Operation.runPosted,
      errorCode]
  have heq := hall 2 twoReads afterTwoReads (by decide) run_twoReads hreceives
    settled_afterTwoReads
  revert heq
  decide

end SensorHub.UsbPort
