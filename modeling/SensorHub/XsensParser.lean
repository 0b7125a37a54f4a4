import SensorHub.Framing
import SensorHub.XsensData

/-!
# The Xsens packet parser

`Xsens_parser::parse_single` looks for the first message in the buffer, checks
its sum and passes the data items of an `MtData2` message to the visitor;
`parse` repeats this until no complete message is left.

The parser is modelled with the grammar of the source, whose semantic actions
count and sum in local variables.  What it finds is then shown to be what a
direct reading of the stream finds, `nextFrame`.
-/

namespace SensorHub.Xsens

open X3

def packetStart : UInt8 := 0xFA
def sysCommand : UInt8 := 0xFF
def mtData2 : UInt8 := 0x36

/-- A message as it was found in the stream. -/
structure Frame where
  mid : UInt8
  data : List UInt8
  checked : Bool
  deriving DecidableEq, Repr

/-- Local variables of `parse_single`, changed by the semantic actions. -/
structure FrameVars where
  mid : UInt8
  len : ℤ
  data : List UInt8
  sum : UInt8

namespace FrameVars

def start : FrameVars where
  mid := 0
  len := 0
  data := []
  sum := sysCommand

def setMid (mid : UInt8) (vars : FrameVars) : FrameVars :=
  { vars with mid := mid, sum := vars.sum + mid }

def setLen (len : UInt8) (vars : FrameVars) : FrameVars :=
  { vars with len := len.toNat, sum := vars.sum + len }

def addData (val : UInt8) (vars : FrameVars) : FrameVars :=
  { vars with data := vars.data ++ [val], sum := vars.sum + val }

def setChk (chk : UInt8) (vars : FrameVars) : FrameVars :=
  { vars with sum := vars.sum + chk }

/-- The variable `len`, counted down by `have_data`. -/
def counter : Counter FrameVars where
  len := FrameVars.len
  setLen := fun vars len => { vars with len := len }
  len_setLen := fun _ _ => rfl
  setLen_setLen := fun _ _ _ => rfl
  setLen_len := fun _ => rfl

end FrameVars

/-- `junk >> preamble >> byte_[set_mid] >> byte_[set_len] >> content >>
byte_[set_chk]` -/
def packetRule : X3.Parser FrameVars Unit := do
  junkPreamble packetStart sysCommand
  act byte fun mid vars => (vars.setMid mid, true)
  act byte fun len vars => (vars.setLen len, true)
  FrameVars.counter.content FrameVars.addData
  act byte fun chk vars => (vars.setChk chk, true)

variable {K : Type} [ExactDouble K]

/-- The members of the parser and of its visitor. -/
structure XsensParser (K : Type) where
  buffer : List UInt8
  dataPackets : List (DataPacket K)
  values : List (StampedQuantity (IeeeDouble K))
  flipAxes : Bool

/-- The record of one handled message: the packets that were in `data_packets`
before, the values pushed for it and how its handling ended. -/
structure Handling (K : Type) where
  frame : Frame
  stale : List (DataPacket K)
  pushed : List (StampedQuantity (IeeeDouble K))
  outcome : Outcome
  deriving DecidableEq

/-- Result of a call: the messages handled in it and how it ended. -/
structure Parsed (K : Type) where
  handled : List (Handling K)
  parser : XsensParser K
  outcome : Outcome

namespace Frame

/-- Is this a message whose content is parsed? -/
def hasItems (frame : Frame) : Bool :=
  frame.checked && frame.mid == mtData2

/-- The data items in the content of a message. -/
def items (flipAxes : Bool) (frame : Frame) : List (DataPacket K) :=
  let parser := if flipAxes then flippedParser else dataParser
  match (parser () frame.data).2 with
  | some (packets, _) => packets
  | none => []

end Frame

namespace XsensParser

def fresh (flipAxes : Bool) : XsensParser K where
  buffer := []
  dataPackets := []
  values := []
  flipAxes := flipAxes

/-- What `parse_single` does with a message that was taken off the buffer.  The
items are appended to `data_packets`, which is only cleared when the loop over
the packets returns. -/
def handleFrame (setting : Setting K) (parser : XsensParser K) (stamp : K)
    (frame : Frame) : Handling K × XsensParser K :=
  if frame.hasItems then
    let dataPackets := parser.dataPackets ++ frame.items parser.flipAxes
    let visited := visit setting stamp dataPackets
    (⟨frame, parser.dataPackets, visited.1, visited.2⟩,
      { parser with
        dataPackets := if visited.2 = .returned then [] else dataPackets
        values := parser.values ++ visited.1 })
  else
    (⟨frame, parser.dataPackets, [], .returned⟩,
      { parser with dataPackets := [] })

def parseSingle (setting : Setting K) (parser : XsensParser K) (stamp : K) :
    Option (Handling K × XsensParser K) :=
  match packetRule FrameVars.start parser.buffer with
  | (_, none) => none
  | (vars, some (_, rest)) =>
      some (({ parser with buffer := rest }).handleFrame setting stamp
        ⟨vars.mid, vars.data, vars.sum == 0⟩)

/-- A bounded number of passes of the loop in `parse`. -/
def parsePasses (setting : Setting K) (stamp : K) :
    ℕ → XsensParser K → Parsed K
  | 0, parser => ⟨[], parser, .returned⟩
  | passes + 1, parser =>
      match parser.parseSingle setting stamp with
      | none => ⟨[], parser, .returned⟩
      | some (handling, next) =>
          if handling.outcome = .returned then
            let rest := parsePasses setting stamp passes next
            { rest with handled := handling :: rest.handled }
          else
            ⟨[handling], next, handling.outcome⟩

/-- Every message takes something off the buffer, so there are at most as many
passes as there are bytes, and one that finds nothing. -/
def parse (setting : Setting K) (parser : XsensParser K) (stamp : K) :
    Parsed K :=
  parsePasses setting stamp (parser.buffer.length + 1) parser

def addAndParse (setting : Setting K) (parser : XsensParser K) (stamp : K)
    (received : List UInt8) : Parsed K :=
  ({ parser with buffer := addToBuffer parser.buffer received }).parse
    setting stamp

/-- A sequence of calls.  The caller catches an exception and goes on; a call
that hangs is the last one. -/
def calls (setting : Setting K) (parser : XsensParser K) :
    List (K × List UInt8) → Parsed K
  | [] => ⟨[], parser, .returned⟩
  | (stamp, received) :: more =>
      let first := parser.addAndParse setting stamp received
      if first.outcome = .hung then
        first
      else
        let rest := first.parser.calls setting more
        { rest with handled := first.handled ++ rest.handled }

end XsensParser

/-! ## Reading frames directly -/

/-- The sum over header, content and checksum is a multiple of 256. -/
def sumIsZero (mid len : UInt8) (data : List UInt8) (chk : UInt8) : Bool :=
  (0xFF + mid.toNat + len.toNat + (data.map UInt8.toNat).sum + chk.toNat) %
    256 = 0

/-- The first message of a stream: behind the first `FA FF` an identifier, a
length byte `n`, `n` data bytes and a checksum. -/
def nextFrame (input : List UInt8) : Option (Frame × List UInt8) :=
  match afterPreamble packetStart sysCommand input with
  | some (mid :: len :: rest) =>
      match rest.drop len.toNat with
      | chk :: tail =>
          let data := rest.take len.toNat
          some (⟨mid, data, sumIsZero mid len data chk⟩, tail)
      | [] => none
  | _ => none

theorem nextFrame_eq_some_iff {input tail : List UInt8} {frame : Frame} :
    nextFrame input = some (frame, tail) ↔
      ∃ len chk,
        frame.data.length = len.toNat ∧
        frame.checked = sumIsZero frame.mid len frame.data chk ∧
        afterPreamble packetStart sysCommand input =
          some (frame.mid :: len :: frame.data ++ chk :: tail) := by
  constructor
  · intro hnext
    unfold nextFrame at hnext
    split at hnext
    · next mid len rest hafter =>
        split at hnext
        · next chk tail' hdrop =>
            simp only [Option.some.injEq, Prod.mk.injEq] at hnext
            obtain ⟨rfl, rfl⟩ := hnext
            have hlength : len.toNat ≤ rest.length := by
              have := congrArg List.length hdrop
              simp only [List.length_drop, List.length_cons] at this
              omega
            refine ⟨len, chk, by simp [hlength], rfl, ?_⟩
            rw [hafter, ← hdrop, List.cons_append, List.cons_append,
              List.take_append_drop]
        · simp at hnext
    · simp at hnext
  · rintro ⟨len, chk, hlength, hchecked, hafter⟩
    obtain ⟨mid, data, checked⟩ := frame
    simp only at hlength hchecked hafter
    simp [nextFrame, hafter, ← hlength, hchecked]

theorem nextFrame_shrinks {input tail : List UInt8} {frame : Frame}
    (hnext : nextFrame input = some (frame, tail)) :
    tail.length < input.length := by
  obtain ⟨len, chk, -, -, hafter⟩ := nextFrame_eq_some_iff.mp hnext
  have hle := afterPreamble_length hafter
  simp only [List.length_append, List.length_cons] at hle
  omega

theorem nextFrame_append {input tail : List UInt8} {frame : Frame}
    (hnext : nextFrame input = some (frame, tail)) (more : List UInt8) :
    nextFrame (input ++ more) = some (frame, tail ++ more) := by
  obtain ⟨len, chk, hlength, hchecked, hafter⟩ :=
    nextFrame_eq_some_iff.mp hnext
  refine nextFrame_eq_some_iff.mpr ⟨len, chk, hlength, hchecked, ?_⟩
  rw [afterPreamble_append hafter]
  simp

/-- The reference reading of a stream as a framer. -/
def framer : Framing.Framer UInt8 Frame where
  next := nextFrame
  shrinks := nextFrame_shrinks
  stable := nextFrame_append

/-! ## The grammar finds what the direct reading finds -/

theorem addData_neutral :
    FrameVars.counter.Neutral FrameVars.addData where
  len_add := fun _ _ => rfl
  add_setLen := fun _ _ _ => rfl

theorem foldl_addData (data : List UInt8) (vars : FrameVars) :
    data.foldl (fun vars val => vars.addData val) vars =
      { vars with
        data := vars.data ++ data
        sum := data.foldl (fun sum val => sum + val) vars.sum } := by
  induction data generalizing vars with
  | nil => simp
  | cons val data ih =>
      rw [List.foldl_cons, ih]
      simp [FrameVars.addData]

theorem toNat_foldl_add (data : List UInt8) (sum : UInt8) :
    (data.foldl (fun sum val => sum + val) sum).toNat =
      (sum.toNat + (data.map UInt8.toNat).sum) % 256 := by
  induction data generalizing sum with
  | nil => simp [Nat.mod_eq_of_lt sum.toNat_lt]
  | cons val data ih =>
      rw [List.foldl_cons, ih, UInt8.toNat_add]
      simp only [List.map_cons, List.sum_cons]
      omega

/-- The sum kept in a byte is zero iff the sum of all bytes is a multiple of
256. -/
theorem sum_eq_zero_iff (mid len chk : UInt8) (data : List UInt8) :
    (data.foldl (fun sum val => sum + val) (sysCommand + mid + len) + chk == 0) =
      sumIsZero mid len data chk := by
  rw [Bool.eq_iff_iff, beq_iff_eq, ← UInt8.toNat_inj, UInt8.toNat_add,
    toNat_foldl_add, UInt8.toNat_add, UInt8.toNat_add, sumIsZero,
    decide_eq_true_eq]
  have hsys : sysCommand.toNat = 0xFF := rfl
  have hzero : (0 : UInt8).toNat = 0 := rfl
  rw [hsys, hzero]
  omega

/-- `packet_rule` succeeds iff there is a complete message, and then leaves its
identifier, content and check in the variables. -/
theorem packetRule_spec (input : List UInt8) :
    match nextFrame input with
    | none => (packetRule FrameVars.start input).2 = none
    | some (frame, tail) =>
        ∃ vars,
          packetRule FrameVars.start input = (vars, some ((), tail)) ∧
            frame = ⟨vars.mid, vars.data, vars.sum == 0⟩ := by
  have hsearch :=
    junkPreamble_eq packetStart sysCommand FrameVars.start input
  unfold packetRule nextFrame
  cases hafter : afterPreamble packetStart sysCommand input with
  | none =>
      rw [hafter] at hsearch
      simp only [bind_eq]
      rw [bind_of_none hsearch]
  | some rest =>
      rw [hafter] at hsearch
      simp only [bind_eq]
      rw [bind_of_some hsearch]
      match rest with
      | [] => simp [X3.bind, act]
      | [mid] => simp [X3.bind, act]
      | mid :: len :: rest =>
          simp only [X3.bind, act, byte_cons]
          have hlen :
              FrameVars.counter.len
                ((FrameVars.start.setMid mid).setLen len) = len.toNat := rfl
          rcases Nat.lt_or_ge rest.length len.toNat with hshort | henough
          · have hfail := Counter.content_of_short addData_neutral hlen hshort
            have hdrop : rest.drop len.toNat = [] :=
              List.drop_eq_nil_of_le hshort.le
            simp only [hdrop]
            generalize
              FrameVars.counter.content FrameVars.addData
                ((FrameVars.start.setMid mid).setLen len) rest = result at hfail
            obtain ⟨vars, outcome⟩ := result
            simp only at hfail
            subst hfail
            rfl
          · have hcontent :=
              Counter.content_of_enough addData_neutral hlen henough
            rw [hcontent]
            cases hdrop : rest.drop len.toNat with
            | nil => simp
            | cons chk tail =>
                simp only [byte_cons]
                refine ⟨_, rfl, ?_⟩
                rw [foldl_addData]
                simp only [FrameVars.counter, FrameVars.setChk,
                  FrameVars.setMid, FrameVars.setLen, FrameVars.start,
                  List.nil_append, Frame.mk.injEq, true_and]
                exact (sum_eq_zero_iff mid len chk _).symm

end SensorHub.Xsens
