import SensorHub.PortCommand

/-!
# Answers to commands

What `exec_command` hands to its callers is a part of what was read, from the
first place where the expected response stands.  The answers are looked at
without the loop: where they begin, and what is returned when an answer comes
with one read.

Identifiers of devices are made of the bytes of an answer.
-/

namespace SensorHub.PortDevice

/-! ## Serial numbers -/

/-- The format `{:02X}`. -/
def hexByte (byte : UInt8) : List Char :=
  [Nat.digitChar (byte.toNat / 16), Nat.digitChar (byte.toNat % 16)].map Char.toUpper

def serialNo (bytes : List UInt8) : String :=
  String.ofList (bytes.flatMap hexByte)

theorem hexByte_injective {byte other : UInt8} (hhex : hexByte byte = hexByte other) :
    byte = other := by
  have hdigit : ∀ high low : Fin 16, (Nat.digitChar high).toUpper = (Nat.digitChar low).toUpper →
      high = low := by
    decide
  have hvalue : ∀ {high low : ℕ}, high < 16 → low < 16 →
      (Nat.digitChar high).toUpper = (Nat.digitChar low).toUpper → high = low :=
    fun hhigh hlow hchar => congrArg Fin.val (hdigit ⟨_, hhigh⟩ ⟨_, hlow⟩ hchar)
  have hbyte := byte.toNat_lt
  have hother := other.toNat_lt
  simp only [hexByte, List.map_cons, List.map_nil, List.cons.injEq, and_true] at hhex
  have hhigh : byte.toNat / 16 = other.toNat / 16 := hvalue (by omega) (by omega) hhex.1
  have hlow : byte.toNat % 16 = other.toNat % 16 := hvalue (by omega) (by omega) hhex.2
  apply UInt8.toNat_inj.mp
  omega

theorem serialNo_injective {bytes other : List UInt8}
    (hserial : serialNo bytes = serialNo other) : bytes = other := by
  have hchars : bytes.flatMap hexByte = other.flatMap hexByte := by
    simpa [serialNo] using congrArg String.toList hserial
  clear hserial
  induction bytes generalizing other with
  | nil =>
      cases other with
      | nil => rfl
      | cons byte other => simp [hexByte] at hchars
  | cons byte bytes ih =>
      cases other with
      | nil => simp [hexByte] at hchars
      | cons byte' other =>
          rw [List.flatMap_cons, List.flatMap_cons] at hchars
          obtain ⟨hfirst, hrest⟩ := List.append_inj hchars rfl
          rw [hexByte_injective hfirst, ih hrest]

/-! ## Responses -/

/-- How a request ends: `overran` stands for a read behind the end of the
response. -/
inductive Ending where
  | returned (result : Bool)
  | threw
  | overran
  deriving DecidableEq, Repr


/-- The data vector stays the caller's. -/
theorem execLoop_data {expectedResponse errorResponse : List UInt8} {vars : CommandVars}
    (reads : List (List UInt8)) (hvars : vars.data ≠ none) :
    (execLoop expectedResponse errorResponse vars reads).data ≠ none := by
  induction reads generalizing vars with
  | nil => exact hvars
  | cons received reads ih =>
      obtain ⟨primed, hprimed⟩ := Option.ne_none_iff_exists'.mp hvars
      simp only [execLoop]
      split
      · exact hvars
      · split
        · split <;> split
          · simp
          · exact ih (by simp)
          · simpa using hvars
          · exact ih hvars
        · exact ih hvars

/-- What is found first and lies in a part is found first in the part. -/
theorem firstAt_of_append {items container more : List UInt8} {position : ℕ}
    (hfirst : FirstAt items (container ++ more) position)
    (hend : position + items.length ≤ container.length) : FirstAt items container position := by
  constructor
  · have hstarts := hfirst.1
    rw [List.drop_append_of_le_length (by omega)] at hstarts
    apply List.prefix_of_prefix_length_le hstarts (List.prefix_append _ _)
    rw [List.length_drop]
    omega
  · intro earlier hearlier hstarts
    apply hfirst.2 earlier hearlier
    rw [List.drop_append_of_le_length (by omega)]
    exact hstarts.trans (List.prefix_append _ _)

/-- The response begins where the expected one was found first. -/
theorem execLoop_response {expectedResponse errorResponse data : List UInt8} {vars : CommandVars}
    {reads : List (List UInt8)} (hvars : vars.data ≠ none)
    (hresult : execLoop expectedResponse errorResponse vars reads = ⟨true, some data⟩) :
    ∃ count position, FirstAt expectedResponse (border vars.response reads count) position ∧
      border vars.response reads count <+: vars.response ++ reads.flatten ∧
      data = (border vars.response reads count).drop position := by
  induction reads generalizing vars with
  | nil => simp [execLoop] at hresult
  | cons received reads ih =>
      have hlater : ∀ {vars' : CommandVars}, vars'.response = vars.response ++ received →
          vars'.data ≠ none →
          execLoop expectedResponse errorResponse vars' reads = ⟨true, some data⟩ →
          ∃ count position,
            FirstAt expectedResponse (border vars.response (received :: reads) count) position ∧
            border vars.response (received :: reads) count <+:
              vars.response ++ (received :: reads).flatten ∧
            data = (border vars.response (received :: reads) count).drop position := by
        intro vars' hresponse hvars' hresult'
        obtain ⟨count, position, hfirst, hbegins, hdata⟩ := ih hvars' hresult'
        rw [hresponse] at hfirst hbegins hdata
        refine ⟨count + 1, position, ?_, ?_, ?_⟩
        · rwa [border_cons_succ]
        · rw [border_cons_succ, List.flatten_cons, ← List.append_assoc]
          exact hbegins
        · rwa [border_cons_succ]
      by_cases herror : errorResponse <:+: vars.response ++ received
      · rw [execLoop_of_error vars herror] at hresult
        exact absurd (congrArg CommandResult.success hresult) Bool.false_ne_true
      by_cases hfound : expectedResponse <:+: vars.response ++ received
      · obtain ⟨position, hfirst⟩ := exists_firstAt hfound
        obtain ⟨primed, hprimed⟩ := Option.ne_none_iff_exists'.mp hvars
        have hnow : ∃ count position',
            FirstAt expectedResponse (border vars.response (received :: reads) count) position' ∧
            border vars.response (received :: reads) count <+:
              vars.response ++ (received :: reads).flatten ∧
            (vars.response ++ received).drop position =
              (border vars.response (received :: reads) count).drop position' := by
          refine ⟨1, position, ?_⟩
          rw [border_cons_succ, border_zero, List.flatten_cons, ← List.append_assoc]
          exact ⟨hfirst, List.prefix_append _ _, rfl⟩
        -- with the response found the data vector is cleared, or has been before
        obtain ⟨vars', hresponse, hcleared, hstep⟩ : ∃ vars' : CommandVars,
            vars'.response = vars.response ++ received ∧ vars'.data = some [] ∧
            execLoop expectedResponse errorResponse vars (received :: reads) =
              if vars'.expectedLen ≤ (vars.response ++ received).length then
                ⟨true, some ((vars.response ++ received).drop position)⟩
              else execLoop expectedResponse errorResponse vars' reads := by
          cases primed with
          | nil =>
              refine ⟨⟨vars.response ++ received, some [], vars.expectedLen⟩, rfl, rfl, ?_⟩
              exact execLoop_of_waiting vars hprimed herror hfirst
          | cons first more =>
              refine ⟨⟨vars.response ++ received, some [],
                lengthIndicator (first :: more) (vars.response ++ received) position⟩,
                rfl, rfl, ?_⟩
              simp only [execLoop, if_neg (mt containsAt_nonneg_iff.mp herror), hprimed,
                containsAt_of_firstAt hfirst, Int.natCast_nonneg, if_true, Int.toNat_natCast,
                Option.map_some, List.nil_append]
        rw [hstep] at hresult
        split at hresult
        · obtain rfl : (vars.response ++ received).drop position = data :=
            Option.some.inj (congrArg CommandResult.data hresult)
          exact hnow
        · exact hlater hresponse (by simp [hcleared]) hresult
      · rw [execLoop_of_missing vars herror hfound] at hresult
        exact @hlater ⟨vars.response ++ received, vars.data, vars.expectedLen⟩ rfl hvars hresult

/-- Reads in which neither response is complete are collected. -/
theorem execLoop_of_quiet {expectedResponse errorResponse : List UInt8} (vars : CommandVars)
    {quiet : List (List UInt8)} (rest : List (List UInt8))
    (herror : ¬errorResponse <:+: vars.response ++ quiet.flatten)
    (hmissing : ¬expectedResponse <:+: vars.response ++ quiet.flatten) :
    execLoop expectedResponse errorResponse vars (quiet ++ rest) =
      execLoop expectedResponse errorResponse
        { vars with response := vars.response ++ quiet.flatten } rest := by
  induction quiet generalizing vars with
  | nil => simp
  | cons received quiet ih =>
      rw [List.flatten_cons, ← List.append_assoc] at herror hmissing ⊢
      have hstarts : vars.response ++ received <:+: vars.response ++ received ++ quiet.flatten :=
        (List.prefix_append _ _).isInfix
      rw [List.cons_append, execLoop_of_missing vars (fun h => herror (h.trans hstarts))
        (fun h => hmissing (h.trans hstarts))]
      exact ih { vars with response := vars.response ++ received } herror hmissing

/-- The response is a part of what is read from the answer on. -/
theorem response_begins {expectedResponse errorResponse primed data : List UInt8}
    {reads : List (List UInt8)} {expectedLen position : ℕ} (hexpected : expectedResponse ≠ [])
    (hfirst : FirstAt expectedResponse reads.flatten position)
    (hresult : execLoop expectedResponse errorResponse ⟨[], some primed, expectedLen⟩ reads =
      ⟨true, some data⟩) :
    data <+: reads.flatten.drop position := by
  obtain ⟨count, position', hfirst', ⟨more, hmore⟩, rfl⟩ := execLoop_response (by simp) hresult
  rw [List.nil_append] at hmore
  have hlater := hfirst'.append hexpected more
  rw [hmore] at hlater
  obtain rfl : position' = position := hlater.unique hfirst
  rw [← hmore, List.drop_append_of_le_length (hfirst'.le_length hexpected)]
  exact List.prefix_append _ _

/-- An answer that comes with one read is returned with all of this read. -/
theorem execLoop_whole {expectedResponse errorResponse : List UInt8} {primed : Primed}
    {quiet later : List (List UInt8)} {chunk : List UInt8} {expectedLen position : ℕ}
    (hoffsets : ∀ offset ∈ primed.bytes, offset ≠ 0xFF)
    (hquiet : ¬expectedResponse <:+: quiet.flatten)
    (herror : ¬errorResponse <:+: (quiet ++ [chunk]).flatten)
    (hfirst : FirstAt expectedResponse (quiet ++ [chunk]).flatten position)
    (hawaited : primed.awaited (quiet ++ [chunk]).flatten position ≤
      (quiet ++ [chunk]).flatten.length) :
    execLoop expectedResponse errorResponse ⟨[], some primed.bytes, expectedLen⟩
        (quiet ++ [chunk] ++ later) =
      ⟨true, some ((quiet ++ [chunk]).flatten.drop position)⟩ := by
  have hreceived : (quiet ++ [chunk]).flatten = quiet.flatten ++ chunk := by
    simp
  rw [hreceived] at herror hfirst hawaited ⊢
  have hquietError : ¬errorResponse <:+: quiet.flatten := by
    intro h
    exact herror (h.trans (List.prefix_append _ _).isInfix)
  rw [List.append_assoc, List.singleton_append, execLoop_of_quiet _ _ hquietError hquiet]
  have hfound := @execLoop_of_found _ _ _ later _ ⟨quiet.flatten, some primed.bytes, expectedLen⟩
    primed hoffsets rfl herror hfirst
  simp only [if_pos hawaited] at hfound
  exact hfound

end SensorHub.PortDevice
