import SensorHub.Tools

/-!
# Commands to a port device

`Port_device::exec_command` writes a command and reads until the expected
response and the data announced in it have arrived.  The caller primes the data
vector with the offsets of the length field.  How many bytes to wait for is
computed once, at the read with which the expected response is complete, from
what has arrived by then.

The command returns incomplete data when a read ends after the bytes waited for
and before the end of the data; the last part shows that this happens in no
other case.
-/

namespace SensorHub.PortDevice

/-- The result and the data vector, unless that is the null pointer. -/
structure CommandResult where
  success : Bool
  data : Option (List UInt8)
  deriving DecidableEq, Repr

structure CommandVars where
  response : List UInt8
  data : Option (List UInt8)
  expectedLen : ℕ

/-- The greatest `size_t`, which is `size_t(-1)`. -/
def sizeMax : ℕ := 2 ^ 64 - 1

/-- The length to wait for, from a primed data vector and the response.  A
second offset which is not there becomes `size_t(-1)`, which is behind the end
of every vector and greater than every other offset. -/
def lengthIndicator (data response : List UInt8) (responseFound : ℕ) : ℕ :=
  let first := data.getD 0 0
  if first = 0xFF ∧ data.length > 1 then
    (data.getD 1 0).toNat
  else
    let lenOffset1 := first.toNat + responseFound
    let lenOffset2 :=
      if data.length > 1 then some ((data.getD 1 0).toNat + responseFound)
      else none
    let low := (response.getD lenOffset1 0).toNat
    let high :=
      match lenOffset2 with
      | some lenOffset2 => (response.getD lenOffset2 0).toNat * 2 ^ 8
      | none => 0
    let last :=
      match lenOffset2 with
      | some lenOffset2 => max lenOffset1 lenOffset2
      | none => sizeMax
    ((low + high) % 2 ^ 16 + (last % 2 ^ 16 + 1)) % 2 ^ 16

/-- The read loop on the reads that complete; the read after the last of them
throws.  The loop is only left with the response found. -/
def execLoop (expectedResponse errorResponse : List UInt8) :
    CommandVars → List (List UInt8) → CommandResult
  | vars, [] => ⟨false, vars.data⟩
  | vars, received :: reads =>
      let response := vars.response ++ received
      let responseFound := containsAt response expectedResponse
      let errorFound := containsAt response errorResponse
      if 0 ≤ errorFound then
        ⟨false, vars.data⟩
      else if 0 ≤ responseFound then
        let found := responseFound.toNat
        let vars' :=
          match vars.data with
          | some (first :: more) =>
              ⟨response, some [], lengthIndicator (first :: more) response found⟩
          | data => ⟨response, data, vars.expectedLen⟩
        if vars'.expectedLen ≤ response.length then
          ⟨true, vars'.data.map fun data => data ++ response.drop found⟩
        else
          execLoop expectedResponse errorResponse vars' reads
      else
        execLoop expectedResponse errorResponse
          { vars with response := response } reads

/-- The device answers a command with some reads, unless writing the command
throws. -/
def execCommand (device : List UInt8 → Option (List (List UInt8)))
    (command expectedResponse errorResponse : List UInt8)
    (data : Option (List UInt8)) : Option CommandResult :=
  (device command).map fun reads =>
    execLoop expectedResponse errorResponse
      ⟨[], data, expectedResponse.length % 2 ^ 16⟩ reads

/-! ## The length field of a response -/

/-- The offsets of the length field in a response: one byte, or two bytes with
the low one first. -/
inductive Primed where
  | one (offset : UInt8)
  | two (low high : UInt8)
  deriving DecidableEq, Repr

namespace Primed

def bytes : Primed → List UInt8
  | one offset => [offset]
  | two low high => [low, high]

def last : Primed → ℕ
  | one offset => offset.toNat
  | two low high => max low.toNat high.toNat

/-- The value of the field, missing bytes being zero. -/
def declared (primed : Primed) (data : List UInt8) : ℕ :=
  match primed with
  | one offset => (data.getD offset.toNat 0).toNat
  | two low high =>
      (data.getD low.toNat 0).toNat + (data.getD high.toNat 0).toNat * 2 ^ 8

/-- The field and as many bytes behind it as it declares are there. -/
def Complete (primed : Primed) (data : List UInt8) : Prop :=
  primed.last + 1 + primed.declared data ≤ data.length

instance (primed : Primed) (data : List UInt8) :
    Decidable (primed.Complete data) :=
  inferInstanceAs (Decidable (_ ≤ _))

/-- The number of bytes the length arithmetic arrives at, for a response that
starts at some position of the bytes received. -/
def awaited (primed : Primed) (received : List UInt8) (position : ℕ) : ℕ :=
  match primed with
  | one _ => primed.declared (received.drop position)
  | two _ _ =>
      (position + primed.last + 1 +
        primed.declared (received.drop position)) % 2 ^ 16

/-- The end of the declared data, for a response that starts at some position
of the bytes received. -/
def declaredEnd (primed : Primed) (received : List UInt8) (position : ℕ) : ℕ :=
  position + primed.last + 1 + primed.declared (received.drop position)

theorem declared_append {primed : Primed} {data : List UInt8}
    (hlast : primed.last < data.length) (more : List UInt8) :
    primed.declared (data ++ more) = primed.declared data := by
  have hget : ∀ {offset : ℕ}, offset ≤ primed.last →
      (data ++ more).getD offset 0 = data.getD offset 0 := by
    intro offset hle
    rw [List.getD_eq_getElem?_getD, List.getD_eq_getElem?_getD,
      List.getElem?_append_left (by omega)]
  cases primed with
  | one offset => simp only [declared, hget (le_refl offset.toNat)]
  | two low high =>
      simp only [declared, hget (le_max_left low.toNat high.toNat),
        hget (le_max_right low.toNat high.toNat)]

theorem Complete.append {primed : Primed} {data : List UInt8}
    (hcomplete : primed.Complete data) (more : List UInt8) :
    primed.Complete (data ++ more) := by
  unfold Complete at hcomplete ⊢
  rw [declared_append (by omega), List.length_append]
  omega

/-- The first bytes of an answer are complete from a position on iff they reach
the end that the whole answer declares. -/
theorem complete_iff_declaredEnd_le {primed : Primed}
    {received whole : List UInt8} {position : ℕ}
    (hstarts : received <+: whole) (hposition : position ≤ received.length) :
    primed.Complete (received.drop position) ↔
      primed.declaredEnd whole position ≤ received.length := by
  obtain ⟨more, rfl⟩ := hstarts
  unfold Complete declaredEnd
  rw [List.drop_append_of_le_length hposition]
  by_cases hlast : primed.last < (received.drop position).length
  · rw [declared_append hlast, List.length_drop]
    omega
  · rw [List.length_drop] at hlast ⊢
    omega

end Primed

theorem lengthIndicator_eq {primed : Primed}
    (hoffsets : ∀ offset ∈ primed.bytes, offset ≠ 0xFF)
    (response : List UInt8) (position : ℕ) :
    lengthIndicator primed.bytes response position =
      primed.awaited response position := by
  have hget : ∀ offset : ℕ,
      response.getD (offset + position) 0 =
        (response.drop position).getD offset 0 := by
    intro offset
    rw [List.getD_eq_getElem?_getD, List.getD_eq_getElem?_getD,
      List.getElem?_drop, Nat.add_comm]
  cases primed with
  | one offset =>
      have hbyte := (response.getD (offset.toNat + position) 0).toNat_lt
      simp only [lengthIndicator, Primed.bytes, Primed.awaited, Primed.declared,
        ← hget, List.length_singleton, gt_iff_lt, lt_self_iff_false, and_false,
        if_false, List.getD_cons_zero, Nat.add_zero, sizeMax]
      -- the offset that is not there adds a multiple of 2 ^ 16
      omega
  | two low high =>
      have hlow : low ≠ 0xFF := hoffsets low (by simp [Primed.bytes])
      have hmax : max (low.toNat + position) (high.toNat + position) =
          position + max low.toNat high.toNat := by
        omega
      simp only [lengthIndicator, Primed.bytes, Primed.awaited, Primed.declared,
        Primed.last, ← hget, List.getD_cons_zero, List.getD_cons_succ, hlow,
        false_and, if_false, List.length_cons, List.length_nil, hmax, gt_iff_lt,
        Nat.lt_add_one, if_true, Nat.zero_add]
      omega

/-! ## One read -/

section Reads

variable {expectedResponse errorResponse received : List UInt8}
  {vars : CommandVars} {reads : List (List UInt8)} {position : ℕ}

theorem execLoop_of_error (vars : CommandVars)
    (herror : errorResponse <:+: vars.response ++ received) :
    execLoop expectedResponse errorResponse vars (received :: reads) =
      ⟨false, vars.data⟩ := by
  simp only [execLoop, if_pos (containsAt_nonneg_iff.mpr herror)]

theorem execLoop_of_missing (vars : CommandVars)
    (herror : ¬errorResponse <:+: vars.response ++ received)
    (hmissing : ¬expectedResponse <:+: vars.response ++ received) :
    execLoop expectedResponse errorResponse vars (received :: reads) =
      execLoop expectedResponse errorResponse
        { vars with response := vars.response ++ received } reads := by
  simp only [execLoop, if_neg (mt containsAt_nonneg_iff.mp herror),
    if_neg (mt containsAt_nonneg_iff.mp hmissing)]

/-- The read which completes the expected response. -/
theorem execLoop_of_found (vars : CommandVars) {primed : Primed}
    (hoffsets : ∀ offset ∈ primed.bytes, offset ≠ 0xFF)
    (hdata : vars.data = some primed.bytes)
    (herror : ¬errorResponse <:+: vars.response ++ received)
    (hfirst : FirstAt expectedResponse (vars.response ++ received) position) :
    let response := vars.response ++ received
    execLoop expectedResponse errorResponse vars (received :: reads) =
      if primed.awaited response position ≤ response.length then
        ⟨true, some (response.drop position)⟩
      else
        execLoop expectedResponse errorResponse
          ⟨response, some [], primed.awaited response position⟩ reads := by
  have hprimed : ∃ first more, primed.bytes = first :: more := by
    cases primed <;> exact ⟨_, _, rfl⟩
  obtain ⟨first, more, hbytes⟩ := hprimed
  have hlen := lengthIndicator_eq hoffsets (vars.response ++ received) position
  rw [hbytes] at hdata hlen
  simp only [execLoop, if_neg (mt containsAt_nonneg_iff.mp herror), hdata,
    containsAt_of_firstAt hfirst, Int.natCast_nonneg, if_true,
    Int.toNat_natCast, hlen, Option.map_some, List.nil_append]

/-- A read while the rest of the data is awaited. -/
theorem execLoop_of_waiting (vars : CommandVars)
    (hdata : vars.data = some [])
    (herror : ¬errorResponse <:+: vars.response ++ received)
    (hfirst : FirstAt expectedResponse (vars.response ++ received) position) :
    let response := vars.response ++ received
    execLoop expectedResponse errorResponse vars (received :: reads) =
      if vars.expectedLen ≤ response.length then
        ⟨true, some (response.drop position)⟩
      else
        execLoop expectedResponse errorResponse
          ⟨response, some [], vars.expectedLen⟩ reads := by
  simp only [execLoop, if_neg (mt containsAt_nonneg_iff.mp herror), hdata,
    containsAt_of_firstAt hfirst, Int.natCast_nonneg, if_true,
    Int.toNat_natCast, Option.map_some, List.nil_append]

end Reads

/-! ## When the data is complete -/

/-- If it reports success, the data starts with the expected response, contains
the length field and what the field declares. -/
def CommandResult.Answers (expectedResponse : List UInt8) (primed : Primed)
    (result : CommandResult) : Prop :=
  result.success = true →
    ∃ data, result.data = some data ∧ expectedResponse <+: data ∧
      primed.last < data.length ∧ primed.Complete data

/-- What has been received after some of the reads, following earlier data. -/
def border (before : List UInt8) (reads : List (List UInt8)) (count : ℕ) :
    List UInt8 :=
  before ++ (reads.take count).flatten

@[simp] theorem border_zero (before : List UInt8)
    (reads : List (List UInt8)) : border before reads 0 = before := by
  simp [border]

@[simp] theorem border_cons_succ (before received : List UInt8)
    (reads : List (List UInt8)) (count : ℕ) :
    border before (received :: reads) (count + 1) =
      border (before ++ received) reads count := by
  simp [border]

theorem prefix_border (before : List UInt8) (reads : List (List UInt8))
    (count : ℕ) : before <+: border before reads count :=
  List.prefix_append _ _

/-- The reads which end, before an error response, at or behind the number of
bytes awaited also end at or behind the declared end of the data. -/
def CompleteFrom (errorResponse : List UInt8) (primed : Primed)
    (position awaited : ℕ) (before : List UInt8) (reads : List (List UInt8)) :
    Prop :=
  ∀ count < reads.length,
    ¬errorResponse <:+: border before reads (count + 1) →
    awaited ≤ (border before reads (count + 1)).length →
      primed.Complete ((border before reads (count + 1)).drop position)

/-- This holds of the read with which the expected response is complete and
those after it, with the number of bytes awaited that this read leads to. -/
def CompleteBorders (expectedResponse errorResponse : List UInt8)
    (primed : Primed) (before : List UInt8) (reads : List (List UInt8)) :
    Prop :=
  ∀ head position,
    ¬expectedResponse <:+: border before reads head →
    FirstAt expectedResponse (border before reads (head + 1)) position →
      CompleteFrom errorResponse primed position
        (primed.awaited (border before reads (head + 1)) position)
        (border before reads head) (reads.drop head)

section Loop

variable {expectedResponse errorResponse : List UInt8} {primed : Primed}
  {position awaited : ℕ} {before chunk : List UInt8}
  {reads : List (List UInt8)}

theorem completeFrom_cons_iff :
    CompleteFrom errorResponse primed position awaited before
        (chunk :: reads) ↔
      (¬errorResponse <:+: before ++ chunk →
        awaited ≤ (before ++ chunk).length →
          primed.Complete ((before ++ chunk).drop position)) ∧
        CompleteFrom errorResponse primed position awaited (before ++ chunk)
          reads := by
  constructor
  · intro hall
    refine ⟨?_, fun count hcount => ?_⟩
    · simpa using hall 0 (by simp)
    · have hnext := hall (count + 1) (by simpa using hcount)
      rwa [border_cons_succ] at hnext
  · rintro ⟨hhead, htail⟩ count hcount
    rw [border_cons_succ]
    cases count with
    | zero => simpa using hhead
    | succ count => exact htail count (by simpa using hcount)

theorem completeFrom_of_error (herror : errorResponse <:+: before) :
    CompleteFrom errorResponse primed position awaited before reads := by
  intro count _ hnot
  exact absurd (herror.trans (prefix_border _ _ _).isInfix) hnot

theorem completeFrom_of_complete (hposition : position ≤ before.length)
    (hcomplete : primed.Complete (before.drop position)) :
    CompleteFrom errorResponse primed position awaited before reads := by
  intro count _ _ _
  rw [border, List.drop_append_of_le_length hposition]
  exact hcomplete.append _

theorem answers_iff_complete {received : List UInt8}
    (hfirst : FirstAt expectedResponse received position) :
    (⟨true, some (received.drop position)⟩ : CommandResult).Answers
        expectedResponse primed ↔
      primed.Complete (received.drop position) := by
  constructor
  · intro hanswers
    obtain ⟨data, hdata, -, -, hcomplete⟩ := hanswers rfl
    rwa [Option.some.inj hdata]
  · intro hcomplete _
    refine ⟨_, rfl, hfirst.1, ?_, hcomplete⟩
    unfold Primed.Complete at hcomplete
    omega

theorem answers_read_iff (hexpected : expectedResponse ≠ [])
    (herror : ¬errorResponse <:+: before ++ chunk)
    (hfirst : FirstAt expectedResponse (before ++ chunk) position)
    (hrest :
      (execLoop expectedResponse errorResponse
          ⟨before ++ chunk, some [], awaited⟩ reads).Answers
            expectedResponse primed ↔
        CompleteFrom errorResponse primed position awaited (before ++ chunk)
          reads) :
    (if awaited ≤ (before ++ chunk).length then
        (⟨true, some ((before ++ chunk).drop position)⟩ : CommandResult)
      else
        execLoop expectedResponse errorResponse
          ⟨before ++ chunk, some [], awaited⟩ reads).Answers
            expectedResponse primed ↔
      CompleteFrom errorResponse primed position awaited before
        (chunk :: reads) := by
  rw [completeFrom_cons_iff]
  by_cases henough : awaited ≤ (before ++ chunk).length
  · rw [if_pos henough, answers_iff_complete hfirst]
    constructor
    · intro hcomplete
      exact ⟨fun _ _ => hcomplete, completeFrom_of_complete
        (hfirst.le_length hexpected) hcomplete⟩
    · exact fun hall => hall.1 herror henough
  · rw [if_neg henough, hrest]
    constructor
    · exact fun htail => ⟨fun _ hlen => absurd hlen henough, htail⟩
    · exact And.right

theorem execLoop_waiting_answers_iff (hexpected : expectedResponse ≠ [])
    (hfirst : FirstAt expectedResponse before position) :
    (execLoop expectedResponse errorResponse ⟨before, some [], awaited⟩
        reads).Answers expectedResponse primed ↔
      CompleteFrom errorResponse primed position awaited before reads := by
  induction reads generalizing before with
  | nil => simp [execLoop, CommandResult.Answers, CompleteFrom]
  | cons chunk reads ih =>
      have hfirst' := hfirst.append hexpected chunk
      by_cases herror : errorResponse <:+: before ++ chunk
      · rw [execLoop_of_error ⟨before, some [], awaited⟩ herror]
        refine iff_of_true (by simp [CommandResult.Answers]) ?_
        rw [completeFrom_cons_iff]
        exact ⟨fun hnot => absurd herror hnot, completeFrom_of_error herror⟩
      · rw [execLoop_of_waiting ⟨before, some [], awaited⟩ rfl
          herror hfirst']
        exact answers_read_iff hexpected herror hfirst' (ih hfirst')

theorem execLoop_answers_iff (hexpected : expectedResponse ≠ [])
    (hoffsets : ∀ offset ∈ primed.bytes, offset ≠ 0xFF) (expectedLen : ℕ)
    (hmissing : ¬expectedResponse <:+: before) :
    (execLoop expectedResponse errorResponse
        ⟨before, some primed.bytes, expectedLen⟩ reads).Answers
          expectedResponse primed ↔
      CompleteBorders expectedResponse errorResponse primed before reads := by
  induction reads generalizing before with
  | nil =>
      simp [execLoop, CommandResult.Answers, CompleteBorders, CompleteFrom]
  | cons chunk reads ih =>
      by_cases herror : errorResponse <:+: before ++ chunk
      · rw [execLoop_of_error
          ⟨before, some primed.bytes, expectedLen⟩ herror]
        refine iff_of_true (by simp [CommandResult.Answers]) ?_
        intro head position _ _
        cases head with
        | zero =>
            rw [border_zero, List.drop_zero, completeFrom_cons_iff]
            exact ⟨fun hnot => absurd herror hnot,
              completeFrom_of_error herror⟩
        | succ head =>
            simp only [border_cons_succ]
            exact completeFrom_of_error
              (herror.trans (prefix_border _ _ _).isInfix)
      · by_cases hfound : expectedResponse <:+: before ++ chunk
        · obtain ⟨position, hfirst⟩ := exists_firstAt hfound
          -- the expected response is complete with this read and no other
          have hhead :
              CompleteBorders expectedResponse errorResponse primed before
                  (chunk :: reads) ↔
                CompleteFrom errorResponse primed position
                  (primed.awaited (before ++ chunk) position) before
                  (chunk :: reads) := by
            constructor
            · intro hall
              have hzero := hall 0 position (by simpa using hmissing)
              simp only [Nat.zero_add, border_cons_succ, border_zero,
                List.drop_zero] at hzero
              exact hzero hfirst
            · intro hcomplete head position' hnot hfirst'
              cases head with
              | zero =>
                  simp only [Nat.zero_add, border_cons_succ, border_zero,
                    List.drop_zero] at hfirst' ⊢
                  rw [hfirst'.unique hfirst]
                  exact hcomplete
              | succ head =>
                  rw [border_cons_succ] at hnot
                  exact absurd
                    (hfound.trans (prefix_border _ _ _).isInfix) hnot
          rw [execLoop_of_found
            ⟨before, some primed.bytes, expectedLen⟩ hoffsets rfl
            herror hfirst, hhead]
          exact answers_read_iff hexpected herror hfirst
            (execLoop_waiting_answers_iff hexpected hfirst)
        · rw [execLoop_of_missing
            ⟨before, some primed.bytes, expectedLen⟩ herror hfound,
            ih hfound]
          constructor
          · intro hall head position hnot hfirst
            cases head with
            | zero =>
                simp only [Nat.zero_add, border_cons_succ, border_zero]
                  at hfirst
                exact absurd hfirst.isInfix hfound
            | succ head =>
                simp only [border_cons_succ, List.drop_succ_cons]
                  at hnot hfirst ⊢
                exact hall head position hnot hfirst
          · intro hall head position
            have hnext := hall (head + 1) position
            simpa only [border_cons_succ, List.drop_succ_cons] using hnext

end Loop

/-- No read ends too early.  Between the number of bytes awaited, computed from
what there is when the expected response is complete, and the declared end of
the data lies no border of a read, unless an error response came before. -/
def NoEarlyBorder (expectedResponse errorResponse : List UInt8)
    (primed : Primed) (reads : List (List UInt8)) : Prop :=
  ∀ head position,
    ¬expectedResponse <:+: border [] reads head →
    FirstAt expectedResponse (border [] reads (head + 1)) position →
    ∀ count, head < count → count ≤ reads.length →
      ¬errorResponse <:+: border [] reads count →
        (border [] reads count).length <
            primed.awaited (border [] reads (head + 1)) position ∨
          primed.declaredEnd reads.flatten position ≤
            (border [] reads count).length

theorem border_border (before : List UInt8) (reads : List (List UInt8))
    (head count : ℕ) :
    border (border before reads head) (reads.drop head) count =
      border before reads (head + count) := by
  simp [border, List.take_add]

/-- The bytes awaited and the declared end decide which reads are complete. -/
theorem completeBorders_iff {expectedResponse errorResponse : List UInt8}
    {primed : Primed} {reads : List (List UInt8)}
    (hexpected : expectedResponse ≠ []) :
    CompleteBorders expectedResponse errorResponse primed [] reads ↔
      NoEarlyBorder expectedResponse errorResponse primed reads := by
  have hcomplete : ∀ {head position count : ℕ},
      FirstAt expectedResponse (border [] reads (head + 1)) position →
        (primed.Complete
            ((border [] reads (head + (count + 1))).drop position) ↔
          primed.declaredEnd reads.flatten position ≤
            (border [] reads (head + (count + 1))).length) := by
    intro head position count hfirst
    have hreceived : border [] reads (head + (count + 1)) <+:
        reads.flatten := by
      rw [border, List.nil_append]
      exact List.IsPrefix.flatten (List.take_prefix _ reads)
    have hlater : border [] reads (head + 1) <+:
        border [] reads (head + (count + 1)) := by
      rw [Nat.add_comm count 1, ← Nat.add_assoc,
        ← border_border [] reads (head + 1)]
      exact prefix_border _ _ _
    exact Primed.complete_iff_declaredEnd_le hreceived
      ((hfirst.le_length hexpected).trans hlater.length_le)
  constructor
  · intro hall head position hnot hfirst count hlt hle hgood
    obtain ⟨more, rfl⟩ : ∃ more, count = head + (more + 1) :=
      ⟨count - head - 1, by omega⟩
    have hread := hall head position hnot hfirst more
      (by rw [List.length_drop]; omega)
    rw [border_border] at hread
    by_cases henough :
        primed.awaited (border [] reads (head + 1)) position ≤
          (border [] reads (head + (more + 1))).length
    · exact .inr ((hcomplete hfirst).mp (hread hgood henough))
    · exact .inl (not_le.mp henough)
  · intro hall head position hnot hfirst more hmore hgood henough
    rw [List.length_drop] at hmore
    rw [border_border] at hgood henough ⊢
    have hread := hall head position hnot hfirst (head + (more + 1))
      (by omega) (by omega) hgood
    exact (hcomplete hfirst).mpr (hread.resolve_left (not_lt.mpr henough))

/-- The data returned is complete iff no read ends too early. -/
theorem execCommand_answers_iff
    (device : List UInt8 → Option (List (List UInt8)))
    (command expectedResponse errorResponse : List UInt8) (primed : Primed)
    (hexpected : expectedResponse ≠ [])
    (hoffsets : ∀ offset ∈ primed.bytes, offset ≠ 0xFF) :
    (∀ result,
        execCommand device command expectedResponse errorResponse
          (some primed.bytes) = some result →
        result.Answers expectedResponse primed) ↔
      ∀ reads, device command = some reads →
        NoEarlyBorder expectedResponse errorResponse primed reads := by
  have hmissing : ¬expectedResponse <:+: [] := by
    simpa using hexpected
  cases hdevice : device command with
  | none => simp [execCommand, hdevice]
  | some reads =>
      simp only [execCommand, hdevice, Option.map_some, Option.some.injEq,
        forall_eq']
      rw [execLoop_answers_iff hexpected hoffsets _ hmissing,
        completeBorders_iff hexpected]

/-- An answer in one read is complete. -/
theorem execCommand_answers_whole :
    let answer : List UInt8 := [0xFA, 0xFF, 0x01, 0x02, 0x12, 0x34, 0xB8]
    ∀ result,
      execCommand (fun _ => some [answer]) [] [0xFA, 0xFF, 0x01]
          [0xFA, 0xFF, 0x42] (some (Primed.one 0x03).bytes) = some result →
        result.Answers [0xFA, 0xFF, 0x01] (.one 0x03) := by
  intro answer
  refine (execCommand_answers_iff _ _ _ _ _ (by decide)
    (List.forall_mem_singleton.mpr (by decide))).mpr ?_
  intro reads hreads head position hnot hfirst count hlt hle hgood
  rw [Option.some.injEq] at hreads
  subst hreads
  simp only [List.length_singleton] at hle
  obtain rfl : head = 0 := by omega
  obtain rfl : count = 1 := by omega
  obtain rfl : position = 0 :=
    hfirst.unique ⟨by decide, fun _ hearlier => absurd hearlier (by omega)⟩
  exact .inr (by decide)

/-- With the declared four bytes still to come, the head alone is returned: its
length byte is not larger than the number of bytes read. -/
theorem execCommand_not_answers_head :
    ¬∀ (device : List UInt8 → Option (List (List UInt8)))
        (command expectedResponse errorResponse : List UInt8)
        (primed : Primed),
        expectedResponse ≠ [] →
        (∀ offset ∈ primed.bytes, offset ≠ 0xFF) →
        ∀ result,
          execCommand device command expectedResponse errorResponse
              (some primed.bytes) = some result →
            result.Answers expectedResponse primed := by
  intro hall
  have hanswers := hall
    (fun _ => some [[0xFA, 0xFF, 0x01, 0x04], [0x03, 0x60, 0x12, 0x34, 0x53]])
    [0xFA, 0xFF, 0x00, 0x00, 0x01] [0xFA, 0xFF, 0x01] [0xFA, 0xFF, 0x42]
    (.one 0x03) (by decide) (List.forall_mem_singleton.mpr (by decide))
    ⟨true, some [0xFA, 0xFF, 0x01, 0x04]⟩ (by decide)
  obtain ⟨data, hdata, -, -, hcomplete⟩ := hanswers rfl
  rw [← Option.some.inj hdata] at hcomplete
  exact absurd hcomplete (by decide)

end SensorHub.PortDevice
