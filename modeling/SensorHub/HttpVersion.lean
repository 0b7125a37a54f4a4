import Mathlib.Data.Nat.Digits.Defs
import SensorHub.HttpGrammar

/-!
# Version numbers of requests

The version numbers are accumulated digit by digit in an `int`, and neither the
grammar nor the parser limits the number of digits.  A digit is added before
`'0'` is subtracted, so the results that exceed the range first are those in
between.

The results of the arithmetic are collected in the order in which the parser
computes them.  As for the grammar there is a form for every state, which says
how the rest of the input reaches a digit that is too much.
-/

namespace SensorHub.Http

open Recognizers

/-! ## Arithmetic of the parser -/

/-- Results of the operations of `number * 10 + input - '0'`. -/
def digitResults (number : ℤ) (input : Char8) : List ℤ :=
  [number * 10, number * 10 + input.toInt, Request.pushDigit number input]

/-- Results of the arithmetic on the version in a call of `consume`. -/
def versionResults (state : State) (req : Request) (input : Char8) : List ℤ :=
  match state with
  | .httpVersionMajorStart =>
      if isDigit input then digitResults req.httpVersionMajor input else []
  | .httpVersionMajor =>
      if input = chr '.' then []
      else if isDigit input then digitResults req.httpVersionMajor input
      else []
  | .httpVersionMinorStart =>
      if isDigit input then digitResults req.httpVersionMinor input else []
  | .httpVersionMinor =>
      if input = chr '\r' then []
      else if isDigit input then digitResults req.httpVersionMinor input
      else []
  | _ => []

def parseResults (state : State) (req : Request) : List Char8 → List ℤ
  | [] => []
  | input :: rest =>
      versionResults state req input ++
        match consume state req input with
        | none => []
        | some consumed =>
            if consumed.result = .indeterminate then
              parseResults consumed.state consumed.request rest
            else []

/-- The results while a connection reads chunks. -/
def readResults (state : State) (req : Request) : List (List Char8) → List ℤ
  | [] => []
  | chunk :: chunks =>
      parseResults state req chunk ++
        match parse state req chunk with
        | none => []
        | some parsed =>
            if parsed.result = .indeterminate then
              readResults parsed.state parsed.request chunks
            else []

def InInt (result : ℤ) : Prop :=
  -2 ^ 31 ≤ result ∧ result < 2 ^ 31

instance : DecidablePred InInt := fun _ => inferInstanceAs (Decidable (_ ∧ _))

theorem parseResults_append (state : State) (req : Request)
    (first second : List Char8) :
    parseResults state req (first ++ second) =
      parseResults state req first ++
        match parse state req first with
        | none => []
        | some parsed =>
            if parsed.result = .indeterminate then
              parseResults parsed.state parsed.request second
            else [] := by
  induction first generalizing state req with
  | nil => simp [parseResults, parse]
  | cons input first ih =>
      simp only [List.cons_append, parseResults, parse, List.append_assoc,
        List.append_cancel_left_eq]
      cases consume state req input with
      | none => rfl
      | some consumed =>
          dsimp only
          split_ifs with hresult
          · exact ih consumed.state consumed.request
          · simp only [hresult, if_false, List.append_nil]

theorem readResults_eq (state : State) (req : Request) (chunks : List (List Char8)) :
    readResults state req chunks = parseResults state req chunks.flatten := by
  induction chunks generalizing state req with
  | nil => rfl
  | cons chunk chunks ih =>
      simp only [readResults, List.flatten_cons, parseResults_append, ih]

/-! ## Digits that are too much -/

/-- The largest number to which `'0'` can be added. -/
def largest : ℤ :=
  2 ^ 31 - 1 - (chr '0').toInt

/-- One more digit makes a number too large. -/
def excess (version : Request → ℤ) : Form Request Char8 :=
  fun req word req' =>
    req' = req ∧ ∃ digit ∈ word.head?,
      IsDigit digit ∧ largest < Request.pushDigit (version req) digit

def digitsExcess (version : Request → ℤ) (push : Request → Char8 → Request) :
    Form Request Char8 :=
  Form.many IsDigit push (excess version)

def minorExcess : Form Request Char8 :=
  digitsExcess Request.httpVersionMinor Request.pushMinor

def majorExcess : Form Request Char8 :=
  Form.either (digitsExcess Request.httpVersionMajor Request.pushMajor)
    (Form.many IsDigit Request.pushMajor (Form.lit (chr '.') minorExcess))

def majorStartExcess : Form Request Char8 :=
  Form.either (digitsExcess Request.httpVersionMajor Request.pushMajor)
    (Form.many1 IsDigit Request.pushMajor (Form.lit (chr '.') minorExcess))

def slashExcess : Form Request Char8 :=
  Form.lit (chr '/') fun req => majorStartExcess req.clearVersion

def uriExcess : Form Request Char8 :=
  Form.many IsUriChar Request.pushUri
    (Form.lit (chr ' ') (Form.lit (chr 'H') (Form.lit (chr 'T')
      (Form.lit (chr 'T') (Form.lit (chr 'P') slashExcess)))))

/-- How a digit that is too much can follow in a state. -/
def excessAt : State → Form Request Char8
  | .methodStart =>
      Form.many1 IsToken Request.pushMethod (Form.lit (chr ' ') uriExcess)
  | .method =>
      Form.many IsToken Request.pushMethod (Form.lit (chr ' ') uriExcess)
  | .uri => uriExcess
  | .httpVersionH =>
      Form.lit (chr 'H') (Form.lit (chr 'T')
        (Form.lit (chr 'T') (Form.lit (chr 'P') slashExcess)))
  | .httpVersionT1 =>
      Form.lit (chr 'T') (Form.lit (chr 'T') (Form.lit (chr 'P') slashExcess))
  | .httpVersionT2 => Form.lit (chr 'T') (Form.lit (chr 'P') slashExcess)
  | .httpVersionP => Form.lit (chr 'P') slashExcess
  | .httpVersionSlash => slashExcess
  | .httpVersionMajorStart => majorStartExcess
  | .httpVersionMajor => majorExcess
  | .httpVersionMinorStart => minorExcess
  | .httpVersionMinor => minorExcess
  | _ => fun _ _ _ => False

/-- The numbers are only accumulated after they have been cleared. -/
def Cleared (state : State) (req : Request) : Prop :=
  state ∈ [State.httpVersionMajorStart, .httpVersionMajor, .httpVersionMinorStart,
      .httpVersionMinor] →
    0 ≤ req.httpVersionMajor ∧ 0 ≤ req.httpVersionMinor

theorem pushDigit_nonneg {number : ℤ} {c : Char8} (hnumber : 0 ≤ number)
    (hc : IsDigit c) : 0 ≤ Request.pushDigit number c := by
  simp only [IsDigit, isDigit, decide_eq_true_eq] at hc
  simp only [Request.pushDigit]
  omega

theorem exists_digitResults_iff {number : ℤ} {c : Char8} (hnumber : 0 ≤ number)
    (hc : IsDigit c) :
    (∃ result ∈ digitResults number c, ¬InInt result) ↔
      largest < Request.pushDigit number c := by
  have hzero : (chr '0').toInt = 48 := by decide
  have hnine : (chr '9').toInt = 57 := by decide
  simp only [IsDigit, isDigit, decide_eq_true_eq] at hc
  simp only [digitResults, List.mem_cons, List.not_mem_nil, or_false, exists_eq_or_imp,
    exists_eq_left, InInt, Request.pushDigit, largest]
  omega

theorem exists_digitsExcess_iff {version : Request → ℤ}
    {push : Request → Char8 → Request} {req : Request} {c : Char8} {word : List Char8} :
    (∃ final, digitsExcess version push req (c :: word) final) ↔
      IsDigit c ∧ (largest < Request.pushDigit (version req) c ∨
        ∃ final, digitsExcess version push (push req c) word final) := by
  have hexcess : ∀ final, excess version req (c :: word) final ↔
      final = req ∧ IsDigit c ∧ largest < Request.pushDigit (version req) c := by
    simp [excess]
  simp only [digitsExcess, Form.many_cons_iff, hexcess, exists_or, exists_eq_left, exists_and_left,
    and_or_left, or_comm]

def past : List State :=
  [.expectingNewline1, .headerLineStart, .headerLws, .headerName,
    .spaceBeforeHeaderValue, .headerValue, .expectingNewline2, .expectingNewline3]

theorem past_of_consume {state state' : State} {req req' : Request} {c : Char8}
    (hstate : state ∈ past)
    (hconsume : consume state req c = some (Consumed.goOn state' req')) :
    state' ∈ past := by
  simp only [past, List.mem_cons, List.not_mem_nil, or_false] at hstate
  rcases hstate with rfl | rfl | rfl | rfl | rfl | rfl | rfl | rfl <;>
    simp only [consume, withBack] at hconsume <;>
    split_ifs at hconsume <;>
    cases hconsume <;> decide

/-- What is too much in a state is so at once, or after the next character. -/
structure Leads (state : State) (req : Request) (c : Char8) (consumed : Option Consumed) :
    Prop where
  cleared : ∀ state' req', consumed = some (Consumed.goOn state' req') →
    Cleared state' req'
  excess : ∀ word, (∃ final, excessAt state req (c :: word) final) ↔
    (∃ result ∈ versionResults state req c, ¬InInt result) ∨
      ∃ state' req', consumed = some (Consumed.goOn state' req') ∧
        ∃ final, excessAt state' req' word final

theorem leads_goOn {state state' : State} {req req' : Request} {c : Char8}
    (hcleared : Cleared state' req')
    (hexcess : ∀ word, (∃ final, excessAt state req (c :: word) final) ↔
      (∃ result ∈ versionResults state req c, ¬InInt result) ∨
        ∃ final, excessAt state' req' word final) :
    Leads state req c (some (Consumed.goOn state' req')) := by
  constructor
  · intro state' req' hgoOn
    cases hgoOn
    exact hcleared
  · intro word
    rw [hexcess word]
    refine or_congr_right ⟨fun hfinal => ⟨_, _, rfl, hfinal⟩, ?_⟩
    rintro ⟨state', req', hgoOn, hfinal⟩
    cases hgoOn
    exact hfinal

theorem leads_bad {state : State} {req : Request} {c : Char8}
    (hresults : versionResults state req c = [])
    (hexcess : ∀ word, ¬∃ final, excessAt state req (c :: word) final) :
    Leads state req c (some ⟨.bad, state, req⟩) := by
  refine ⟨fun state' req' hgoOn => (by cases hgoOn),
    fun word => iff_of_false (hexcess word) ?_⟩
  rintro (⟨result, hresult, -⟩ | ⟨state', req', hgoOn, -⟩)
  · rw [hresults] at hresult
    exact List.not_mem_nil hresult
  · cases hgoOn

theorem leads_past {state : State} {req : Request} (hstate : state ∈ past) (c : Char8) :
    Leads state req c (consume state req c) := by
  have hnone : ∀ state ∈ past, ∀ req word final, ¬excessAt state req word final := by
    simp [past, excessAt]
  have hresults : ∀ state ∈ past, versionResults state req c = [] := by
    simp [past, versionResults]
  have hcleared : ∀ state ∈ past, ∀ req, Cleared state req := by
    simp [past, Cleared]
  refine ⟨fun state' req' hgoOn => hcleared _ (past_of_consume hstate hgoOn) _,
    fun word => iff_of_false (fun ⟨final, hfinal⟩ => hnone state hstate _ _ _ hfinal) ?_⟩
  rintro (⟨result, hresult, -⟩ | ⟨state', req', hconsume, final, hfinal⟩)
  · rw [hresults state hstate] at hresult
    exact List.not_mem_nil hresult
  · exact hnone state' (past_of_consume hstate hconsume) _ _ _ hfinal

theorem leads_lit {state state' : State} {req req' : Request} {c symbol : Char8}
    {rest : Form Request Char8} (hcleared : Cleared state' req')
    (hresults : versionResults state req c = [])
    (hexcess : excessAt state = Form.lit symbol rest)
    (hrest : rest req = excessAt state' req') :
    Leads state req c
      (if c = symbol then some (Consumed.goOn state' req')
        else some ⟨.bad, state, req⟩) := by
  split_ifs with hc
  · refine leads_goOn hcleared fun word => ?_
    simp [hexcess, hresults, ← hc, hrest]
  · refine leads_bad hresults fun word => ?_
    simp [hexcess, hc]

theorem leads_many {state state' : State} {req : Request} {c stop : Char8}
    {accepts : Char8 → Prop} {push : Request → Char8 → Request}
    {rest : Form Request Char8} {consumed : Option Consumed}
    (hresults : versionResults state req c = [])
    (hexcess : excessAt state = Form.many accepts push (Form.lit stop rest))
    (hrest : rest = excessAt state') (hstop : ¬accepts stop)
    (hcleared : Cleared state' req) (hcleared' : Cleared state (push req c))
    (hpush : c ≠ stop → accepts c →
      consumed = some (Consumed.goOn state (push req c)))
    (hbad : c ≠ stop → ¬accepts c → consumed = some ⟨.bad, state, req⟩) :
    Leads state req c
      (if c = stop then some (Consumed.goOn state' req) else consumed) := by
  by_cases hc : c = stop
  · subst hc
    rw [if_pos rfl]
    refine leads_goOn hcleared fun word => ?_
    simp [hexcess, hresults, hstop, hrest]
  · rw [if_neg hc]
    by_cases haccepts : accepts c
    · rw [hpush hc haccepts]
      refine leads_goOn hcleared' fun word => ?_
      simp [hexcess, hresults, haccepts, hc]
    · rw [hbad hc haccepts]
      refine leads_bad hresults fun word => ?_
      simp [hexcess, haccepts, hc]

theorem leads_digit {state state' : State} {req req' : Request} {c : Char8} {number : ℤ}
    (hresults : versionResults state req c =
      if isDigit c then digitResults number c else [])
    (hnumber : 0 ≤ number) (hcleared : IsDigit c → Cleared state' req')
    (hexcess : ∀ word, (∃ final, excessAt state req (c :: word) final) ↔
      IsDigit c ∧ (largest < Request.pushDigit number c ∨
        ∃ final, excessAt state' req' word final)) :
    Leads state req c
      (if isDigit c then some (Consumed.goOn state' req')
        else some ⟨.bad, state, req⟩) := by
  by_cases hc : isDigit c = true
  · rw [if_pos hc] at hresults ⊢
    refine leads_goOn (hcleared hc) fun word => ?_
    rw [hexcess, hresults, exists_digitResults_iff hnumber hc]
    exact and_iff_right hc
  · rw [if_neg hc] at hresults ⊢
    exact leads_bad hresults fun word hfinal => hc ((hexcess word).mp hfinal).1

theorem cleared_pushMajor {req : Request} {c : Char8} (hc : IsDigit c)
    (hreq : 0 ≤ req.httpVersionMajor ∧ 0 ≤ req.httpVersionMinor) (state : State) :
    Cleared state (req.pushMajor c) :=
  fun _ => ⟨pushDigit_nonneg hreq.1 hc, hreq.2⟩

theorem cleared_pushMinor {req : Request} {c : Char8} (hc : IsDigit c)
    (hreq : 0 ≤ req.httpVersionMajor ∧ 0 ≤ req.httpVersionMinor) (state : State) :
    Cleared state (req.pushMinor c) :=
  fun _ => ⟨hreq.1, pushDigit_nonneg hreq.2 hc⟩

theorem leads_consume {state : State} {req : Request} (hcleared : Cleared state req)
    (c : Char8) : Leads state req c (consume state req c) := by
  cases state with
  | methodStart =>
      by_cases hc : IsToken c
      · rw [consume, if_neg ((isToken_iff c).mp hc)]
        refine leads_goOn (by simp [Cleared]) fun word => ?_
        simp [excessAt, versionResults, hc]
      · rw [consume, if_pos (not_not.mp (mt (isToken_iff c).mpr hc))]
        refine leads_bad rfl fun word => ?_
        simp [excessAt, hc]
  | method =>
      exact leads_many rfl rfl rfl (by decide) (by simp [Cleared]) (by simp [Cleared])
        (fun _ h => if_neg ((isToken_iff c).mp h))
        (fun _ h => if_pos (not_not.mp (mt (isToken_iff c).mpr h)))
  | uri =>
      exact leads_many rfl rfl rfl (by decide) (by simp [Cleared]) (by simp [Cleared])
        (fun _ h => if_neg ((isText_iff c).mp h.1))
        (fun hc h => if_pos (not_not.mp fun hctl =>
          h ⟨(isText_iff c).mpr hctl, hc⟩))
  | httpVersionH => exact leads_lit (by simp [Cleared]) rfl rfl rfl
  | httpVersionT1 => exact leads_lit (by simp [Cleared]) rfl rfl rfl
  | httpVersionT2 => exact leads_lit (by simp [Cleared]) rfl rfl rfl
  | httpVersionP => exact leads_lit (by simp [Cleared]) rfl rfl rfl
  | httpVersionSlash =>
      exact leads_lit (by simp [Cleared, Request.clearVersion]) rfl rfl rfl
  | httpVersionMajorStart =>
      have hreq := hcleared (by simp)
      refine leads_digit rfl hreq.1 (fun hc => cleared_pushMajor hc hreq _) fun word => ?_
      simp only [excessAt, majorStartExcess, majorExcess, Form.either, exists_or,
        exists_digitsExcess_iff, Form.many1_cons_iff, exists_and_left, ← and_or_left, or_assoc]
  | httpVersionMajor =>
      have hreq := hcleared (by simp)
      by_cases hc : c = chr '.'
      · rw [consume, if_pos hc]
        refine leads_goOn (fun _ => hreq) fun word => ?_
        have hstop : ¬IsDigit (chr '.') := by decide
        simp [excessAt, majorExcess, Form.either, exists_or, exists_digitsExcess_iff,
          versionResults, hc, hstop]
      · rw [consume, if_neg hc]
        refine leads_digit (if_neg hc) hreq.1 (fun hc => cleared_pushMajor hc hreq _)
          fun word => ?_
        simp only [excessAt, majorExcess, Form.either, exists_or, exists_digitsExcess_iff,
          Form.many_cons_iff, Form.lit_cons_iff, hc, false_and, or_false, exists_and_left,
          ← and_or_left, or_assoc]
  | httpVersionMinorStart =>
      have hreq := hcleared (by simp)
      exact leads_digit rfl hreq.2 (fun hc => cleared_pushMinor hc hreq _)
        fun word => exists_digitsExcess_iff
  | httpVersionMinor =>
      have hreq := hcleared (by simp)
      by_cases hc : c = chr '\r'
      · rw [consume, if_pos hc]
        refine leads_goOn (by simp [Cleared]) fun word => ?_
        have hstop : ¬IsDigit (chr '\r') := by decide
        simp [excessAt, minorExcess, exists_digitsExcess_iff, versionResults, hc, hstop]
      · rw [consume, if_neg hc]
        exact leads_digit (if_neg hc) hreq.2 (fun hc => cleared_pushMinor hc hreq _)
          fun word => exists_digitsExcess_iff
  | _ => exact leads_past (by decide) c

/-! ## Whole inputs -/

theorem not_excessAt_nil (state : State) (req final : Request) :
    ¬excessAt state req [] final := by
  cases state <;>
    simp [excessAt, uriExcess, slashExcess, majorStartExcess, majorExcess, minorExcess,
      digitsExcess, excess, Form.either]

theorem exists_parseResults_cons_iff {state : State} {req : Request} {c : Char8}
    {rest : List Char8} :
    (∃ result ∈ parseResults state req (c :: rest), ¬InInt result) ↔
      (∃ result ∈ versionResults state req c, ¬InInt result) ∨
        ∃ state' req', consume state req c = some (Consumed.goOn state' req') ∧
          ∃ result ∈ parseResults state' req' rest, ¬InInt result := by
  simp only [parseResults, List.mem_append, or_and_right, exists_or]
  refine or_congr_right ?_
  cases consume state req c with
  | none => simp
  | some consumed =>
      obtain ⟨kind, state', req'⟩ := consumed
      cases kind <;> simp [Consumed.goOn]

/-- A result leaves the range iff the input reaches a digit that is too much. -/
theorem exists_parseResults_iff {state : State} {req : Request}
    (hcleared : Cleared state req) (input : List Char8) :
    (∃ result ∈ parseResults state req input, ¬InInt result) ↔
      ∃ final, excessAt state req input final := by
  induction input generalizing state req with
  | nil => simp [parseResults, not_excessAt_nil]
  | cons c rest ih =>
      have hleads := leads_consume hcleared c
      rw [exists_parseResults_cons_iff, hleads.excess rest]
      refine or_congr_right (exists_congr fun state' => exists_congr fun req' =>
        and_congr_right fun hconsume => ?_)
      exact ih (hleads.cleared state' req' hconsume)

/-! ## The numbers of an input -/

structure RequestStart where
  method : List Char8
  uri : List Char8
  method_ne : method ≠ []
  isToken : ∀ c ∈ method, IsToken c
  isUriChar : ∀ c ∈ uri, IsUriChar c

def RequestStart.chars (start : RequestStart) : List Char8 :=
  start.method ++ [chr ' '] ++ start.uri ++ [chr ' '] ++
    [chr 'H', chr 'T', chr 'T', chr 'P', chr '/']

def RequestStart.read (major minor : ℤ) (start : RequestStart) : Request :=
  start.uri.foldl Request.pushUri
    (start.method.foldl Request.pushMethod (Request.fresh major minor))

theorem RequestStart.excessAt_methodStart (start : RequestStart) {major minor : ℤ}
    {word : List Char8} {final : Request}
    (hexcess : majorStartExcess (start.read major minor).clearVersion word final) :
    excessAt .methodStart (Request.fresh major minor) (start.chars ++ word) final := by
  refine Form.many1_iff.mpr ⟨start.method, _, start.method_ne, start.isToken,
    by simp only [RequestStart.chars, List.append_assoc]; rfl, _, rfl, start.uri, _,
    start.isUriChar, rfl, _, rfl, _, rfl, _, rfl, _, rfl, _, rfl, _, rfl, hexcess⟩

/-- The number that digits denote. -/
def decimalNumber (digits : List Char8) : ℕ :=
  Nat.ofDigits 10 (digits.reverse.map fun c => (c.toInt - (chr '0').toInt).toNat)

/-- Digits of a major or a minor number stand in an input, after a request line
that the parser does not reject. -/
def HasVersion (input digits : List Char8) : Prop :=
  (∀ c ∈ digits, IsDigit c) ∧ ∃ start : RequestStart,
    start.chars ++ digits <+: input ∨
      ∃ majors, majors ≠ [] ∧ (∀ c ∈ majors, IsDigit c) ∧
        start.chars ++ majors ++ [chr '.'] ++ digits <+: input

theorem number_concat (digits : List Char8) (c : Char8) :
    number (digits ++ [c]) = Request.pushDigit (number digits) c :=
  List.foldl_concat _ _ _ _

theorem number_eq {digits : List Char8} (hdigits : ∀ c ∈ digits, IsDigit c) :
    number digits = decimalNumber digits := by
  induction digits using List.reverseRecOn with
  | nil => rfl
  | append_singleton digits c ih =>
      obtain ⟨hdigits, hc⟩ := List.forall_mem_append.mp hdigits
      have hc := hc c (List.mem_singleton_self c)
      simp only [IsDigit, isDigit, decide_eq_true_eq] at hc
      rw [number_concat, ih hdigits, Request.pushDigit]
      simp only [decimalNumber, List.reverse_append, List.reverse_singleton,
        List.singleton_append, List.map_cons, Nat.ofDigits_cons]
      push_cast
      omega

theorem exists_excess_iff {version : Request → ℤ} {push : Request → Char8 → Request}
    {req : Request} {word : List Char8} (hreq : version req = 0)
    (hpush : ∀ req c, version (push req c) = Request.pushDigit (version req) c) :
    (∃ final, digitsExcess version push req word final) ↔
      ∃ digits, (∀ c ∈ digits, IsDigit c) ∧ digits <+: word ∧
        largest < decimalNumber digits := by
  have hversion : ∀ text, version (text.foldl push req) = number text := by
    intro text
    rw [number, ← hreq]
    exact (List.foldl_hom version fun req c => (hpush req c).symm).symm
  constructor
  · rintro ⟨_, text, word', htext, rfl, -, c, hword', hc, hlarge⟩
    obtain ⟨rest, rfl⟩ := List.head?_eq_some_iff.mp hword'
    have hdigits : ∀ c' ∈ text ++ [c], IsDigit c' :=
      List.forall_mem_append.mpr ⟨htext, List.forall_mem_singleton.mpr hc⟩
    refine ⟨text ++ [c], hdigits, ⟨rest, by simp⟩, ?_⟩
    rw [← number_eq hdigits, number_concat, ← hversion]
    exact hlarge
  · rintro ⟨digits, hdigits, ⟨rest, rfl⟩, hlarge⟩
    rcases List.eq_nil_or_concat' digits with rfl | ⟨text, c, rfl⟩
    · exact absurd hlarge (by decide)
    · rw [← number_eq hdigits, number_concat, ← hversion] at hlarge
      obtain ⟨htext, hc⟩ := List.forall_mem_append.mp hdigits
      exact ⟨_, text, c :: rest, htext, by simp, rfl, c, rfl,
        List.forall_mem_singleton.mp hc, hlarge⟩

theorem exists_excess_methodStart_iff (major minor : ℤ) (input : List Char8) :
    (∃ final, excessAt .methodStart (Request.fresh major minor) input final) ↔
      ∃ digits, HasVersion input digits ∧ largest < decimalNumber digits := by
  have hfirst : ∀ (req : Request) word,
      (∃ final, digitsExcess Request.httpVersionMajor Request.pushMajor req.clearVersion
        word final) ↔ _ := fun req word => exists_excess_iff rfl fun _ _ => rfl
  have hsecond : ∀ (req : Request) majors word,
      (∃ final, minorExcess (List.foldl Request.pushMajor req.clearVersion majors) word
        final) ↔ _ := fun req majors word =>
    exists_excess_iff (by rw [foldl_pushMajor]; rfl) fun _ _ => rfl
  constructor
  · rintro ⟨final, hexcess⟩
    obtain ⟨method, _, hmethod, htoken, rfl, _, rfl, uri, _, huri, rfl, _, rfl,
      hversion⟩ := Form.many1_iff.mp hexcess
    obtain ⟨_, rfl, _, rfl, _, rfl, _, rfl, word, rfl, hmajor | hminor⟩ := hversion
    · obtain ⟨digits, hdigits, ⟨rest, rfl⟩, hlarge⟩ := (hfirst _ _).mp ⟨final, hmajor⟩
      exact ⟨digits, ⟨hdigits, ⟨method, uri, hmethod, htoken, huri⟩,
        .inl ⟨rest, by simp [RequestStart.chars]⟩⟩, hlarge⟩
    · obtain ⟨majors, _, hne, hmajors, rfl, word, rfl, hlast⟩ :=
        Form.many1_iff.mp hminor
      obtain ⟨digits, hdigits, ⟨rest, rfl⟩, hlarge⟩ := (hsecond _ _ _).mp ⟨final, hlast⟩
      exact ⟨digits, ⟨hdigits, ⟨method, uri, hmethod, htoken, huri⟩,
        .inr ⟨majors, hne, hmajors, rest, by simp [RequestStart.chars]⟩⟩, hlarge⟩
  · rintro ⟨digits, ⟨hdigits, start, hbegins⟩, hlarge⟩
    rcases hbegins with ⟨rest, rfl⟩ | ⟨majors, hne, hmajors, rest, rfl⟩
    · obtain ⟨final, hfinal⟩ := (hfirst (start.read major minor) (digits ++ rest)).mpr
        ⟨digits, hdigits, List.prefix_append _ _, hlarge⟩
      rw [List.append_assoc]
      exact ⟨final, start.excessAt_methodStart (.inl hfinal)⟩
    · obtain ⟨final, hfinal⟩ := (hsecond (start.read major minor) majors (digits ++ rest)).mpr
        ⟨digits, hdigits, List.prefix_append _ _, hlarge⟩
      refine ⟨final, ?_⟩
      simp only [List.append_assoc]
      exact start.excessAt_methodStart
        (.inr (Form.many1_iff.mpr ⟨majors, _, hne, hmajors, rfl, _, rfl, hfinal⟩))

/-- However the input arrives in chunks, no arithmetic on the version exceeds
the range of an `int` iff no number that a version starts with is larger than
`2147483599`. -/
theorem readResults_inInt_iff (major minor : ℤ) (chunks : List (List Char8)) :
    (∀ result ∈ readResults .methodStart (Request.fresh major minor) chunks,
        InInt result) ↔
      ∀ digits, HasVersion chunks.flatten digits → decimalNumber digits ≤ 2147483599 := by
  have hcleared : Cleared .methodStart (Request.fresh major minor) := by
    simp [Cleared]
  have hlargest : largest = 2147483599 := by decide
  rw [← not_iff_not]
  push Not
  rw [readResults_eq, exists_parseResults_iff hcleared, exists_excess_methodStart_iff,
    hlargest]
  norm_cast

theorem not_readResults_inInt :
    ¬∀ (major minor : ℤ) (chunks : List (List Char8)),
      ∀ result ∈ readResults .methodStart (Request.fresh major minor) chunks,
        InInt result := by
  intro hall
  have hlarge := hall 0 0 [ "G / HTTP/2147483648".toList.map chr] 2147483648 (by decide)
  exact absurd hlarge (by decide)

end SensorHub.Http
