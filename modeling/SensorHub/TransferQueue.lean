import Mathlib.Data.List.ReduceOption
import SensorHub.UsbTransfers

/-!
# Lifetimes of USB transfers

`Transfer_queue` owns the transfers.  Deleting one releases its entry, which
frees the transfer, and then drops the null entries at the front.  Transfers
complete in any order, and libusb may give a new transfer the address of one
that was freed; a transfer is therefore told by its number of creation here.

Which transfers are alive can be read off the operations alone: those whose
address is not deleted after their creation.  The queue holds exactly these, and
so does the queue of the port, which is this one without the numbers.
-/

namespace SensorHub.UsbPort

open EventRuns

/-! ## The queue of the source -/

/-- A `Usb_transfer`: the number of its creation and the address of the transfer
that libusb allocated for it. -/
structure UsbTransfer where
  number : ℕ
  transfer : ℕ
  deriving DecidableEq, Repr

inductive QueueOperation where
  | newTransfer (address : ℕ)
  | deleteTransfer (pointer : ℕ)
  deriving DecidableEq, Repr

/-- The entries of the queue, with the transfers freed so far. -/
structure QueueState where
  created : ℕ
  transfers : List (Option UsbTransfer)
  freed : List UsbTransfer
  deriving DecidableEq, Repr

/-- The loop over the entries; a matching entry becomes null, which frees its
transfer. -/
def release (pointer : ℕ) :
    List (Option UsbTransfer) → List (Option UsbTransfer) × List UsbTransfer
  | [] => ([], [])
  | none :: transfers =>
      let (rest, freed) := release pointer transfers
      (none :: rest, freed)
  | some transfer :: transfers =>
      let (rest, freed) := release pointer transfers
      if pointer = transfer.transfer then (none :: rest, transfer :: freed)
      else (some transfer :: rest, freed)

/-- The loop over the front of the queue. -/
def popNull : List (Option UsbTransfer) → List (Option UsbTransfer)
  | [] => []
  | none :: transfers => popNull transfers
  | some transfer :: transfers => some transfer :: transfers

namespace QueueState

def initial : QueueState where
  created := 0
  transfers := []
  freed := []

def newTransfer (queue : QueueState) (address : ℕ) : QueueState :=
  { queue with
    created := queue.created + 1
    transfers := queue.transfers ++ [some ⟨queue.created, address⟩] }

def deleteTransfer (queue : QueueState) (pointer : ℕ) : QueueState :=
  let (transfers, freed) := release pointer queue.transfers
  { queue with
    transfers := popNull transfers
    freed := queue.freed ++ freed }

def step (queue : QueueState) : QueueOperation → QueueState
  | .newTransfer address => queue.newTransfer address
  | .deleteTransfer pointer => queue.deleteTransfer pointer

def run (operations : List QueueOperation) : QueueState :=
  operations.foldl step initial

end QueueState

/-! ## Lifetimes -/

/-- The transfers created by the operations, in order, each with whether its
address is deleted later. -/
def history (number : ℕ) : List QueueOperation → List (UsbTransfer × Bool)
  | [] => []
  | .newTransfer address :: operations =>
      (⟨number, address⟩, decide (.deleteTransfer address ∈ operations)) ::
        history (number + 1) operations
  | .deleteTransfer _ :: operations => history number operations

/-- Created and not yet deleted. -/
def live (operations : List QueueOperation) : List UsbTransfer :=
  ((history 0 operations).filter fun entry => !entry.2).map Prod.fst

def deleted (operations : List QueueOperation) : List UsbTransfer :=
  ((history 0 operations).filter fun entry => entry.2).map Prod.fst

/-- No transfer gets the address of one that is alive. -/
def FreshAddresses (operations : List QueueOperation) : Prop :=
  ∀ before address after, operations = before ++ .newTransfer address :: after →
    ∀ transfer ∈ live before, transfer.transfer ≠ address

/-- The queue after some operations: it holds what is alive and freed the rest. -/
structure QueueState.Owns (queue : QueueState) (operations : List QueueOperation) :
    Prop where
  entries : queue.transfers.reduceOption = live operations
  creation_order : (live operations).Pairwise fun first second =>
    first.number < second.number
  no_duplicates : ((live operations).map UsbTransfer.transfer).Nodup
  freed_deleted : queue.freed.Perm (deleted operations)
  freed_once : queue.freed.Nodup
  live_not_freed : ∀ transfer ∈ live operations, transfer ∉ queue.freed
  front : queue.transfers = [] ∨
    ∃ transfer, queue.transfers.head? = some (some transfer)
  empty : live operations = [] → queue.transfers = []

/-! ## One operation on the queue -/

theorem release_eq (pointer : ℕ) (transfers : List (Option UsbTransfer)) :
    release pointer transfers =
      (transfers.map (Option.filter fun transfer => transfer.transfer ≠ pointer),
        transfers.reduceOption.filter fun transfer => transfer.transfer = pointer) := by
  induction transfers with
  | nil => rfl
  | cons entry transfers ih =>
      cases entry with
      | none => simp [release, ih]
      | some transfer =>
          by_cases hmatch : transfer.transfer = pointer
          · simp [release, ih, hmatch, Option.filter_some]
          · simp [release, ih, hmatch, Ne.symm hmatch, Option.filter_some]

theorem reduceOption_release (pointer : ℕ) (transfers : List (Option UsbTransfer)) :
    (release pointer transfers).1.reduceOption =
      transfers.reduceOption.filter fun transfer => transfer.transfer ≠ pointer := by
  rw [release_eq]
  change (transfers.map _).filterMap id = (transfers.filterMap id).filter _
  rw [List.filterMap_map, List.filter_filterMap]
  rfl

theorem popNull_eq (transfers : List (Option UsbTransfer)) :
    popNull transfers = transfers.dropWhile Option.isNone := by
  induction transfers with
  | nil => rfl
  | cons entry transfers ih =>
      cases entry with
      | none => simpa [popNull] using ih
      | some transfer => simp [popNull]

theorem reduceOption_popNull (transfers : List (Option UsbTransfer)) :
    (popNull transfers).reduceOption = transfers.reduceOption := by
  induction transfers with
  | nil => rfl
  | cons entry transfers ih =>
      cases entry with
      | none => simpa [popNull, List.reduceOption_cons_of_none] using ih
      | some transfer => rfl

theorem front_popNull (transfers : List (Option UsbTransfer)) :
    popNull transfers = [] ∨
      ∃ transfer, (popNull transfers).head? = some (some transfer) := by
  induction transfers with
  | nil => exact .inl rfl
  | cons entry transfers ih =>
      cases entry with
      | none => exact ih
      | some transfer => exact .inr ⟨transfer, rfl⟩

/-! ## One more operation in the history -/

section History

variable (number address pointer : ℕ) (operations : List QueueOperation)

theorem history_newTransfer :
    history number (operations ++ [.newTransfer address]) =
      history number operations ++
        [(⟨number + (history number operations).length, address⟩, false)] := by
  induction operations generalizing number with
  | nil => simp [history]
  | cons operation operations ih =>
      cases operation with
      | newTransfer first =>
          simp only [List.cons_append, history, ih, List.mem_append, List.length_cons]
          simp [Nat.add_assoc, Nat.add_comm 1]
      | deleteTransfer first => simpa [history] using ih number

theorem history_deleteTransfer :
    history number (operations ++ [.deleteTransfer pointer]) =
      (history number operations).map fun entry =>
        (entry.1, entry.2 || decide (entry.1.transfer = pointer)) := by
  induction operations generalizing number with
  | nil => rfl
  | cons operation operations ih =>
      cases operation with
      | newTransfer first =>
          simp only [List.cons_append, history, ih, List.map_cons]
          simp
      | deleteTransfer first => simpa [history] using ih number

theorem numbers_history :
    (history number operations).map (fun entry => entry.1.number) =
      List.range' number (history number operations).length := by
  induction operations generalizing number with
  | nil => rfl
  | cons operation operations ih =>
      cases operation with
      | newTransfer first =>
          simp only [history, List.map_cons, List.length_cons, List.range'_succ, ih]
      | deleteTransfer first => simpa only [history] using ih number

theorem live_newTransfer :
    live (operations ++ [.newTransfer address]) =
      live operations ++ [⟨(history 0 operations).length, address⟩] := by
  simp [live, history_newTransfer]

theorem deleted_newTransfer :
    deleted (operations ++ [.newTransfer address]) = deleted operations := by
  simp [deleted, history_newTransfer]

theorem live_deleteTransfer :
    live (operations ++ [.deleteTransfer pointer]) =
      (live operations).filter fun transfer => transfer.transfer ≠ pointer := by
  rw [live, live, history_deleteTransfer]
  induction history 0 operations with
  | nil => rfl
  | cons entry entries ih =>
      obtain ⟨transfer, gone⟩ := entry
      by_cases hmatch : transfer.transfer = pointer <;>
        cases gone <;> simpa [hmatch] using ih

theorem deleted_deleteTransfer :
    (deleted (operations ++ [.deleteTransfer pointer])).Perm
      (deleted operations ++
        (live operations).filter fun transfer => transfer.transfer = pointer) := by
  rw [deleted, deleted, live, history_deleteTransfer]
  induction history 0 operations with
  | nil => rfl
  | cons entry entries ih =>
      obtain ⟨transfer, gone⟩ := entry
      cases gone with
      | true => simpa using ih
      | false =>
          by_cases hmatch : transfer.transfer = pointer
          · simp only [hmatch, Bool.not_false, decide_true, Bool.or_true, List.map_cons,
              List.filter_cons_of_pos, Bool.false_eq_true, not_false_eq_true,
              List.filter_cons_of_neg]
            exact (ih.cons transfer).trans List.perm_middle.symm
          · simpa [hmatch] using ih

theorem numbers_nodup :
    ((history 0 operations).map fun entry => entry.1.number).Nodup := by
  rw [numbers_history]
  exact List.nodup_range'

theorem creation_order_live :
    (live operations).Pairwise fun first second => first.number < second.number := by
  have hnumbers : ((history 0 operations).map fun entry => entry.1.number).Pairwise
      (· < ·) := by
    rw [numbers_history]
    exact List.pairwise_lt_range'
  rw [List.pairwise_map] at hnumbers
  rw [live, List.pairwise_map]
  exact hnumbers.sublist List.filter_sublist

theorem deleted_nodup : (deleted operations).Nodup := by
  have hnumbers : ((deleted operations).map UsbTransfer.number).Nodup := by
    rw [deleted, List.map_map]
    exact (numbers_nodup operations).sublist (List.filter_sublist.map _)
  exact hnumbers.of_map

theorem live_not_deleted :
    ∀ transfer ∈ live operations, transfer ∉ deleted operations := by
  intro transfer hlive hdeleted
  obtain ⟨entry, hentry, rfl⟩ := List.mem_map.mp hlive
  obtain ⟨entry', hentry', hsame⟩ := List.mem_map.mp hdeleted
  rw [List.mem_filter] at hentry hentry'
  have heq : entry' = entry :=
    List.inj_on_of_nodup_map (numbers_nodup operations) hentry'.1 hentry.1
      (congrArg UsbTransfer.number hsame)
  simp [heq ▸ hentry'.2] at hentry

end History

/-! ## Runs -/

theorem QueueState.run_append_singleton (operations : List QueueOperation)
    (operation : QueueOperation) :
    QueueState.run (operations ++ [operation]) =
      (QueueState.run operations).step operation := by
  simp [QueueState.run]

structure Tracks (operations : List QueueOperation) (queue : QueueState) : Prop where
  created : queue.created = (history 0 operations).length
  entries : queue.transfers.reduceOption = live operations
  freed : queue.freed.Perm (deleted operations)
  front : queue.transfers = [] ∨
    ∃ transfer, queue.transfers.head? = some (some transfer)

variable {operations : List QueueOperation} {queue : QueueState}

theorem Tracks.newTransfer (htracks : Tracks operations queue) (address : ℕ) :
    Tracks (operations ++ [.newTransfer address]) (queue.newTransfer address) where
  created := by simp [QueueState.newTransfer, history_newTransfer, htracks.created]
  entries := by
    simp [QueueState.newTransfer, live_newTransfer, List.reduceOption_append,
      htracks.entries, htracks.created]
  freed := by
    rw [deleted_newTransfer]
    exact htracks.freed
  front := by
    refine .inr ?_
    rcases htracks.front with hempty | ⟨transfer, hfront⟩
    · exact ⟨_, by simp [QueueState.newTransfer, hempty]; rfl⟩
    · exact ⟨transfer, by simp [QueueState.newTransfer, hfront]⟩

theorem Tracks.deleteTransfer (htracks : Tracks operations queue) (pointer : ℕ) :
    Tracks (operations ++ [.deleteTransfer pointer]) (queue.deleteTransfer pointer) where
  created := by
    rw [history_deleteTransfer, List.length_map]
    exact htracks.created
  entries := by
    rw [live_deleteTransfer, ← htracks.entries, ← reduceOption_release]
    exact reduceOption_popNull _
  freed := by
    have hfreed : (queue.deleteTransfer pointer).freed =
        queue.freed ++
          (live operations).filter fun transfer => transfer.transfer = pointer := by
      rw [← htracks.entries, QueueState.deleteTransfer, release_eq]
    rw [hfreed]
    exact (htracks.freed.append_right _).trans
      (deleted_deleteTransfer pointer operations).symm
  front := front_popNull _

theorem tracks_run (operations : List QueueOperation) :
    Tracks operations (QueueState.run operations) := by
  induction operations using List.reverseRecOn with
  | nil => exact ⟨rfl, rfl, .refl _, .inl rfl⟩
  | append_singleton operations operation ih =>
      rw [QueueState.run_append_singleton]
      cases operation with
      | newTransfer address => exact ih.newTransfer address
      | deleteTransfer pointer => exact ih.deleteTransfer pointer

theorem FreshAddresses.of_append {operation : QueueOperation}
    (hfresh : FreshAddresses (operations ++ [operation])) :
    FreshAddresses operations := by
  intro before address after hsplit
  exact hfresh before address (after ++ [operation]) (by simp [hsplit])

theorem addresses_nodup (hfresh : FreshAddresses operations) :
    ((live operations).map UsbTransfer.transfer).Nodup := by
  induction operations using List.reverseRecOn with
  | nil => exact List.nodup_nil
  | append_singleton operations operation ih =>
      have hbefore := ih hfresh.of_append
      cases operation with
      | newTransfer address =>
          have hnew := hfresh operations address [] rfl
          rw [live_newTransfer, List.map_append, List.nodup_append_comm]
          simpa using ⟨hnew, hbefore⟩
      | deleteTransfer pointer =>
          rw [live_deleteTransfer]
          exact hbefore.sublist (List.filter_sublist.map _)

/-- After any operations the queue holds the transfers that are alive, in the
order of their creation, and freed each deleted one once. -/
theorem queue_owns_live (operations : List QueueOperation)
    (hfresh : FreshAddresses operations) :
    (QueueState.run operations).Owns operations := by
  have htracks := tracks_run operations
  constructor
  · exact htracks.entries
  · exact creation_order_live operations
  · exact addresses_nodup hfresh
  · exact htracks.freed
  · exact htracks.freed.nodup_iff.mpr (deleted_nodup operations)
  · intro transfer hlive hfreed
    exact live_not_deleted operations transfer hlive (htracks.freed.mem_iff.mp hfreed)
  · exact htracks.front
  · intro hnone
    rcases htracks.front with hempty | ⟨transfer, hfront⟩
    · exact hempty
    · have hmem : transfer ∈ live operations := by
        rw [← htracks.entries, List.reduceOption_mem_iff]
        exact List.mem_of_head? hfront
      simp [hnone] at hmem

/-- Two transfers complete out of order and one address is used again. -/
theorem queue_owns_live_of_reuse :
    let operations : List QueueOperation :=
      [.newTransfer 16, .newTransfer 32, .deleteTransfer 32, .newTransfer 32,
        .deleteTransfer 48, .deleteTransfer 16]
    (QueueState.run operations).Owns operations := by
  intro operations
  apply queue_owns_live
  intro before address after hsplit
  -- the operation can be any of the three creations
  rcases before with _ | ⟨_, _ | ⟨_, _ | ⟨_, _ | ⟨_, before⟩⟩⟩⟩ <;>
    simp [operations] at hsplit
  · simp [live, history]
  · obtain ⟨rfl, rfl, rfl⟩ := hsplit
    decide
  · obtain ⟨rfl, rfl, rfl, rfl, rfl⟩ := hsplit
    decide
  · simp [List.cons_eq_append_iff] at hsplit

/-! ## The queue of the port -/

/-- The entries without the numbers, as in the model of the port. -/
def QueueState.entries (queue : QueueState) : TransferQueue :=
  queue.transfers.map (Option.map UsbTransfer.transfer)

theorem entries_newTransfer (queue : QueueState) (address : ℕ) :
    (queue.newTransfer address).entries = queue.entries.newTransfer address := by
  simp only [QueueState.entries, QueueState.newTransfer, List.map_append]
  rfl

theorem map_filter_ne (pointer : ℕ) (entry : Option UsbTransfer) :
    (entry.filter fun transfer => transfer.transfer ≠ pointer).map UsbTransfer.transfer =
      if entry.map UsbTransfer.transfer = some pointer then none
      else entry.map UsbTransfer.transfer := by
  cases entry with
  | none => rfl
  | some transfer =>
      by_cases hmatch : transfer.transfer = pointer <;> simp [hmatch, Option.filter_some]

theorem map_popNull (transfers : List (Option UsbTransfer)) :
    (popNull transfers).map (Option.map UsbTransfer.transfer) =
      (transfers.map (Option.map UsbTransfer.transfer)).dropWhile Option.isNone := by
  have hnone : (Option.isNone ∘ Option.map UsbTransfer.transfer) = Option.isNone := by
    funext entry
    exact Option.isNone_map
  rw [popNull_eq, List.dropWhile_map, hnone]

theorem entries_deleteTransfer (queue : QueueState) (pointer : ℕ) :
    (queue.deleteTransfer pointer).entries = queue.entries.deleteTransfer pointer := by
  simp only [QueueState.entries, QueueState.deleteTransfer, TransferQueue.deleteTransfer,
    map_popNull, release_eq]
  congr 1
  rw [List.map_map, List.map_map]
  exact List.map_congr_left fun entry _ => map_filter_ne pointer entry

/-- What the events of the port do to its queue; `number` operations were started
before. -/
def queueOperations (number : ℕ) : List Event → List QueueOperation
  | [] => []
  | .start _ _ _ :: events => .newTransfer number :: queueOperations (number + 1) events
  | .runPosted operation :: events =>
      .deleteTransfer operation :: queueOperations number events
  | .callback _ _ _ _ :: events => queueOperations number events
  | .cancel :: events => queueOperations number events

theorem step_transfers {usb next : Usb} {event : Event} {queue : QueueState}
    (hqueue : usb.transfers = queue.entries) (hstep : usb.step event = some next) :
    next.transfers =
        ((queueOperations usb.operations.length [event]).foldl QueueState.step
          queue).entries ∧
      ∀ events, queueOperations usb.operations.length (event :: events) =
        queueOperations usb.operations.length [event] ++
          queueOperations next.operations.length events := by
  cases event with
  | start direction buffers accepted =>
      simp only [Usb.step, Option.some_inj] at hstep
      subst hstep
      refine ⟨?_, fun events => by simp [queueOperations]⟩
      change usb.transfers.newTransfer usb.operations.length = _
      rw [hqueue]
      exact (entries_newTransfer queue usb.operations.length).symm
  | callback index status transferred accepted =>
      simp only [Usb.step] at hstep
      cases hget : usb.operations[index]? with
      | none => simp [hget] at hstep
      | some operation =>
          simp only [hget] at hstep
          split at hstep
          · rw [Option.some_inj] at hstep
            subst hstep
            exact ⟨hqueue, fun events => by simp [queueOperations]⟩
          · simp at hstep
  | runPosted index =>
      simp only [Usb.step] at hstep
      cases hget : usb.operations[index]?.bind Operation.runPosted with
      | none => simp [hget] at hstep
      | some operation =>
          simp only [hget, Option.some_inj] at hstep
          subst hstep
          refine ⟨?_, fun events => by simp [queueOperations]⟩
          change usb.transfers.deleteTransfer index = _
          rw [hqueue]
          exact (entries_deleteTransfer queue index).symm
  | cancel =>
      simp only [Usb.step, Option.some_inj] at hstep
      subst hstep
      exact ⟨hqueue, fun events => rfl⟩

theorem transfers_run_of {usb final : Usb} {queue : QueueState} {events : List Event}
    (hqueue : usb.transfers = queue.entries)
    (hrun : run Usb.step usb events = some final) :
    final.transfers =
      ((queueOperations usb.operations.length events).foldl QueueState.step
        queue).entries := by
  induction events generalizing usb queue with
  | nil =>
      rw [run_nil, Option.some_inj] at hrun
      exact hrun ▸ hqueue
  | cons event events ih =>
      rw [run_cons, Option.bind_eq_some_iff] at hrun
      obtain ⟨next, hstep, hrun⟩ := hrun
      obtain ⟨hnext, hoperations⟩ := step_transfers hqueue hstep
      rw [hoperations, List.foldl_append]
      exact ih hnext hrun

/-- The queue of the port, too, holds exactly the transfers that are alive. -/
theorem transfers_run {readPacketSize : ℕ} {events : List Event} {final : Usb}
    (hrun : run Usb.step (.initial readPacketSize) events = some final) :
    final.transfers = (QueueState.run (queueOperations 0 events)).entries ∧
      final.transfers.reduceOption =
        (live (queueOperations 0 events)).map UsbTransfer.transfer := by
  have hinitial : (Usb.initial readPacketSize).transfers = QueueState.initial.entries := rfl
  have htransfers : final.transfers =
      (QueueState.run (queueOperations 0 events)).entries :=
    transfers_run_of hinitial hrun
  refine ⟨htransfers, ?_⟩
  rw [htransfers, QueueState.entries, ← (tracks_run (queueOperations 0 events)).entries]
  exact List.reduceOption_map

/-! ## Handlers that are still due -/

/-- The transfer of an operation is in the queue until its handler is called, and
no null entry is in front. -/
structure Usb.QueueFollows (usb : Usb) : Prop where
  mem_iff : ∀ number, number ∈ usb.transfers.reduceOption ↔
    ∃ operation : Operation, usb.operations[number]? = some operation ∧ operation.called = []
  front : usb.transfers.head? ≠ some none

theorem mem_dropWhile_isNone {queue : List (Option ℕ)} (number : ℕ) :
    some number ∈ queue.dropWhile Option.isNone ↔ some number ∈ queue := by
  induction queue with
  | nil => rfl
  | cons entry queue ih =>
      cases entry with
      | none => simpa using ih
      | some other => simp

/-- Also where null entries at the front are dropped. -/
theorem mem_reduceOption_deleted {queue : List (Option ℕ)} {transfer number : ℕ} :
    number ∈ ((queue.map fun entry => if entry = some transfer then none else entry).dropWhile
        Option.isNone).reduceOption ↔ number ∈ queue.reduceOption ∧ number ≠ transfer := by
  rw [List.reduceOption_mem_iff, List.reduceOption_mem_iff, mem_dropWhile_isNone]
  constructor
  · intro hmem
    obtain ⟨entry, hentry, heq⟩ := List.mem_map.mp hmem
    split at heq
    · cases heq
    · next hother =>
      subst heq
      exact ⟨hentry, fun hnumber => hother (congrArg some hnumber)⟩
  · rintro ⟨hmem, hne⟩
    apply List.mem_map.mpr
    exact ⟨some number, hmem, if_neg fun heq => hne (Option.some.inj heq)⟩

theorem mem_reduceOption_append {queue : List (Option ℕ)} {transfer number : ℕ} :
    number ∈ (queue ++ [some transfer]).reduceOption ↔
      number ∈ queue.reduceOption ∨ number = transfer := by
  rw [List.reduceOption_append, List.mem_append]
  simp

theorem head?_append_ne {queue : List (Option ℕ)} (transfer : ℕ)
    (hfront : queue.head? ≠ some none) : (queue ++ [some transfer]).head? ≠ some none := by
  cases queue with
  | nil => simp
  | cons entry queue => simpa using hfront

theorem head?_dropWhile_ne (queue : List (Option ℕ)) :
    (queue.dropWhile Option.isNone).head? ≠ some none := by
  intro hhead
  have hnone := List.head?_dropWhile_not Option.isNone queue
  rw [hhead] at hnone
  simp at hnone

theorem called_handleTransfer (operation : Operation) (transferred : List UInt8)
    (status : TransferStatus) (actualLength : ℕ) (accepted : Bool) :
    ((operation.receive transferred).handleTransfer status actualLength accepted).called =
      operation.called := by
  have hreceive : (operation.receive transferred).called = operation.called := by
    unfold Operation.receive
    split <;> rfl
  unfold Operation.handleTransfer
  dsimp only
  split
  · exact hreceive
  · exact hreceive

theorem called_runPosted {operation next : Operation} (hrun : operation.runPosted = some next) :
    next.called ≠ [] := by
  unfold Operation.runPosted at hrun
  split at hrun
  · cases hrun
  · obtain rfl := Option.some.inj hrun
    simp

/-- Replacing an operation changes what is due at its place only. -/
theorem due_set {operations : List Operation} {index number : ℕ} {next : Operation}
    (hindex : index < operations.length) :
    (∃ operation : Operation, (operations.set index next)[number]? = some operation ∧
        operation.called = []) ↔
      if number = index then next.called = []
      else ∃ operation : Operation, operations[number]? = some operation ∧
        operation.called = [] := by
  by_cases hnumber : number = index
  · subst hnumber
    rw [if_pos rfl, List.getElem?_set_self hindex]
    simp
  · rw [if_neg hnumber, List.getElem?_set_ne (Ne.symm hnumber)]

theorem Usb.QueueFollows.step {usb next : Usb} {event : Event} (hfollows : usb.QueueFollows)
    (hstep : usb.step event = some next) : next.QueueFollows := by
  cases event with
  | start direction buffers accepted =>
      obtain rfl := Option.some.inj hstep
      refine ⟨?_, ?_⟩
      · intro number
        refine mem_reduceOption_append.trans ?_
        rw [hfollows.mem_iff]
        rcases Nat.lt_trichotomy number usb.operations.length with hlt | rfl | hgt
        · rw [List.getElem?_append_left hlt]
          simp [hlt.ne]
        · simp [Operation.start]
        · rw [List.getElem?_eq_none hgt.le, List.getElem?_eq_none (by simp; omega)]
          simp [hgt.ne']
      · exact head?_append_ne _ hfollows.front
  | callback index status transferred accepted =>
      simp only [Usb.step] at hstep
      split at hstep
      · cases hstep
      · next operation hoperation =>
        split at hstep
        · obtain rfl := Option.some.inj hstep
          refine ⟨?_, hfollows.front⟩
          intro number
          have hindex := (List.getElem?_eq_some_iff.mp hoperation).1
          rw [hfollows.mem_iff, due_set hindex, called_handleTransfer]
          split
          · next hnumber =>
            subst hnumber
            simp [hoperation]
          · rfl
        · cases hstep
  | runPosted index =>
      simp only [Usb.step] at hstep
      split at hstep
      · cases hstep
      · next operation hoperation =>
        obtain rfl := Option.some.inj hstep
        obtain ⟨before, hbefore, hrun⟩ := Option.bind_eq_some_iff.mp hoperation
        refine ⟨?_, ?_⟩
        · intro number
          have hindex := (List.getElem?_eq_some_iff.mp hbefore).1
          refine mem_reduceOption_deleted.trans ?_
          rw [hfollows.mem_iff, due_set hindex]
          split
          · next hnumber => simp [hnumber, called_runPosted hrun]
          · next hnumber => simp [hnumber]
        · exact head?_dropWhile_ne _
  | cancel =>
      obtain rfl := Option.some.inj hstep
      exact hfollows

/-- In any run a transfer is in the queue until the handler of its operation has
been called, so that the queue is empty exactly when all handlers have been. -/
theorem transfers_until_called {readPacketSize : ℕ} {events : List Event} {final : Usb}
    (hrun : run Usb.step (.initial readPacketSize) events = some final) :
    (∀ number, number ∈ final.transfers.reduceOption ↔
      ∃ operation : Operation, final.operations[number]? = some operation ∧
        operation.called = []) ∧
    (final.transfers = [] ↔ ∀ operation ∈ final.operations, operation.called ≠ []) := by
  have hinitial : (Usb.initial readPacketSize).QueueFollows := by
    refine ⟨?_, ?_⟩ <;> simp [Usb.initial]
  have hthroughout : Throughout Usb.step (.initial readPacketSize) events Usb.QueueFollows := by
    apply throughout_of_steps hinitial
    intro _ event _ usb next _ _ hstep hfollows
    exact hfollows.step hstep
  have hfollows := hthroughout events List.prefix_rfl final hrun
  refine ⟨hfollows.mem_iff, ?_, ?_⟩
  · intro hempty operation hoperation hcalled
    obtain ⟨number, hnumber⟩ := List.mem_iff_getElem?.mp hoperation
    have hmem := (hfollows.mem_iff number).mpr ⟨operation, hnumber, hcalled⟩
    rw [hempty] at hmem
    cases hmem
  · intro hall
    have hfront := hfollows.front
    cases hqueue : final.transfers with
    | nil => rfl
    | cons entry queue =>
        cases entry with
        | none => exact absurd (congrArg List.head? hqueue) hfront
        | some number =>
            have hmem : number ∈ final.transfers.reduceOption := by
              rw [hqueue]
              exact List.mem_cons_self
            obtain ⟨operation, hoperation, hcalled⟩ := (hfollows.mem_iff number).mp hmem
            exact absurd hcalled (hall operation (List.mem_of_getElem? hoperation))

/-- The second read is answered and the first one cannot be submitted again. -/
def secondOnly : List Event :=
  [.start .read [0] true, .start .read [0] true, .callback 0 .completed [] false,
    .callback 1 .completed [7] true, .runPosted 1]

theorem transfers_until_called_second :
    ∃ final, run Usb.step (.initial 64) secondOnly = some final ∧ final.transfers ≠ [] ∧
      ∀ number, number ∈ final.transfers.reduceOption ↔
        ∃ operation : Operation, final.operations[number]? = some operation ∧
          operation.called = [] := by
  obtain ⟨final, hrun⟩ : ∃ final, run Usb.step (.initial 64) secondOnly = some final :=
    Option.isSome_iff_exists.mp (by decide +kernel)
  obtain ⟨hmem, hempty⟩ := transfers_until_called hrun
  refine ⟨final, hrun, ?_, hmem⟩
  intro hnone
  have hcalled : (run Usb.step (.initial 64) secondOnly).map
      (fun usb => usb.operations.any fun operation => operation.called = []) = some true := by
    decide +kernel
  rw [hrun] at hcalled
  obtain ⟨operation, hoperation, hdue⟩ := List.any_eq_true.mp (Option.some.inj hcalled)
  exact hempty.mp hnone operation hoperation (of_decide_eq_true hdue)

end SensorHub.UsbPort
