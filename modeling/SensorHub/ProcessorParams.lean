import SensorHub.AccelerationHistory
import SensorHub.FloatText

/-!
# Parameters of processors

`Processor::set_params` splits its argument at commas and each field at the
equals signs.  A field of two parts becomes a call of `set_param`: with a number
if `std::stod` converts the second part, and with the text if it throws.  Since
`std::stod` is content with a number at the start, this decides between the two
overloads in another way than the whole text would.

The overloads of a processor are a record; those that a class does not override
do nothing.  No overload throws.
-/

namespace SensorHub

open FloatText

variable {K : Type*}

/-! ## Calls -/

inductive ParamCall (K : Type*) where
  | number (name : List Char) (value : K)
  | text (name value : List Char)
  deriving DecidableEq

def fieldCalls (rounding : Rounding K) (field : List Char) : List (ParamCall K) :=
  match field.splitOn '=' with
  | [name, value] =>
      match rounding.stod value with
      | some number => [.number name number]
      | none => [.text name value]
  | _ => []

def paramCalls (rounding : Rounding K) (params : List Char) : List (ParamCall K) :=
  (params.splitOn ',').flatMap (fieldCalls rounding)

/-- The overloads of `set_param` in a class of processors. -/
structure ParamSetter (σ K : Type*) where
  setNumber : σ → List Char → K → σ
  setText : σ → List Char → List Char → σ

def ParamSetter.call {σ : Type*} (setter : ParamSetter σ K) (processor : σ) :
    ParamCall K → σ
  | .number name value => setter.setNumber processor name value
  | .text name value => setter.setText processor name value

def ParamSetter.setParams {σ : Type*} (setter : ParamSetter σ K) (rounding : Rounding K)
    (processor : σ) (params : List Char) : σ :=
  (paramCalls rounding params).foldl setter.call processor

/-! ## Processors -/

structure TcpPusher where
  port : ℤ
  address : List Char
  deriving DecidableEq, Repr

namespace TcpPusher

def fresh : TcpPusher :=
  ⟨4001, "0.0.0.0".toList⟩

/-- Rounding to an `int` is a parameter. -/
def setter (round : K → ℤ) : ParamSetter TcpPusher K where
  setNumber pusher name value :=
    if name = "port".toList then { pusher with port := round value } else pusher
  setText pusher name value :=
    if name = "address".toList then { pusher with address := value } else pusher

end TcpPusher

namespace AccelerationHistory

/-- Truncation to an unsigned number is a parameter. -/
def setter (truncate : K → ℕ) : ParamSetter (AccelerationHistory K) K where
  setNumber history name value :=
    if name = "value_threshold".toList then { history with valueThreshold := value }
    else if name = "duration_threshold".toList then
      { history with durationThreshold := value }
    else if name = "item_count".toList then { history with itemCount := truncate value }
    else if name = "direction".toList then { history with direction := truncate value }
    else history
  setText history _ _ := history

end AccelerationHistory

/-! ## Assignments -/

/-- The name and the text of a field with exactly one equals sign. -/
def assignment (field : List Char) : Option (List Char × List Char) :=
  if field.count '=' = 1 then
    some (field.takeWhile (· ≠ '='), (field.dropWhile (· ≠ '=')).tail)
  else none

def assignments (params : List Char) : List (List Char × List Char) :=
  (params.splitOn ',').filterMap assignment

/-- The call that an assignment should lead to. -/
inductive Expected (rounding : Rounding K) : List Char × List Char → ParamCall K → Prop where
  | number {name : List Char} {decimal : Decimal} {value : K} :
      rounding.round decimal.negative (.finite decimal.magnitude) = some value →
        Expected rounding (name, decimal.chars) (.number name value)
  | text {name text : List Char} : (∀ decimal : Decimal, decimal.chars ≠ text) →
      Expected rounding (name, text) (.text name text)

/-- Each assignment leads to one call, in order and with the right overload. -/
def HandlesParams (rounding : Rounding K) (params : List Char) : Prop :=
  List.Forall₂ (Expected rounding) (assignments params) (paramCalls rounding params)

/-! ## Fields -/

def callOf (rounding : Rounding K) (assigned : List Char × List Char) : ParamCall K :=
  match rounding.stod assigned.2 with
  | some number => .number assigned.1 number
  | none => .text assigned.1 assigned.2

theorem fieldCalls_of_splitOn {field name value : List Char} (rounding : Rounding K)
    (hsplit : field.splitOn '=' = [name, value]) :
    fieldCalls rounding field = [callOf rounding (name, value)] := by
  unfold fieldCalls callOf
  rw [hsplit]
  dsimp only
  cases rounding.stod value <;> rfl

theorem assignment_append {name : List Char} (hname : '=' ∉ name) (rest : List Char) :
    assignment (name ++ '=' :: rest) = if '=' ∈ rest then none else some (name, rest) := by
  have hall : ∀ c ∈ name, decide (c ≠ '=') = true := by
    intro c hc
    rw [decide_eq_true_eq]
    rintro rfl
    exact hname hc
  have hcount : (name ++ '=' :: rest).count '=' = rest.count '=' + 1 := by
    rw [List.count_append, List.count_eq_zero.mpr hname, List.count_cons_self, Nat.zero_add]
  rw [assignment, hcount, List.takeWhile_append_of_pos hall, List.dropWhile_append_of_pos hall]
  by_cases hrest : '=' ∈ rest
  · have hpos := List.count_pos_iff.mpr hrest
    rw [if_neg (by omega), if_pos hrest]
  · rw [if_pos (by rw [List.count_eq_zero.mpr hrest]), if_neg hrest]
    simp

theorem fieldCalls_eq (rounding : Rounding K) (field : List Char) :
    fieldCalls rounding field = ((assignment field).map (callOf rounding)).toList := by
  by_cases hequals : '=' ∈ field
  · obtain ⟨name, rest, rfl, hname⟩ := List.eq_append_cons_of_mem hequals
    have hsplit := List.splitOn_append_cons_self_of_not_mem hname rest
    rw [assignment_append hname]
    by_cases hrest : '=' ∈ rest
    · obtain ⟨value, more, rfl, hvalue⟩ := List.eq_append_cons_of_mem hrest
      obtain ⟨third, parts, hparts⟩ :=
        List.exists_cons_of_ne_nil (List.splitOn_ne_nil '=' more)
      rw [List.splitOn_append_cons_self_of_not_mem hvalue, hparts] at hsplit
      rw [fieldCalls, hsplit, if_pos hrest]
      rfl
    · rw [List.splitOn_eq_singleton hrest] at hsplit
      rw [fieldCalls_of_splitOn rounding hsplit, if_neg hrest]
      rfl
  · have hcount : field.count '=' ≠ 1 := by
      rw [List.count_eq_zero.mpr hequals]
      decide
    rw [fieldCalls, List.splitOn_eq_singleton hequals, assignment, if_neg hcount]
    rfl

theorem paramCalls_eq (rounding : Rounding K) (params : List Char) :
    paramCalls rounding params = (assignments params).map (callOf rounding) := by
  unfold paramCalls assignments
  induction params.splitOn ',' with
  | nil => rfl
  | cons field fields ih =>
      rw [List.flatMap_cons, ih, fieldCalls_eq]
      cases hfield : assignment field <;> simp [hfield]

/-! ## The right overload -/

/-- The text is a decimal that can be rounded, or neither a decimal nor one that
begins with a number that can be rounded. -/
def SuitsOverload (rounding : Rounding K) (text : List Char) : Prop :=
  (∃ decimal : Decimal, decimal.chars = text ∧
      rounding.round decimal.negative (.finite decimal.magnitude) ≠ none) ∨
    (∀ decimal : Decimal, decimal.chars ≠ text) ∧
      (¬BeginsWithNumber text ∨ ∃ negative numeral,
        readNumber text = some (negative, numeral) ∧ rounding.round negative numeral = none)

theorem stod_chars (rounding : Rounding K) (decimal : Decimal) :
    rounding.stod decimal.chars =
      rounding.round decimal.negative (.finite decimal.magnitude) := by
  rw [Rounding.stod, decimal.readNumber_chars]
  rfl

theorem stod_eq_none_iff (rounding : Rounding K) (text : List Char) :
    rounding.stod text = none ↔
      ¬BeginsWithNumber text ∨ ∃ negative numeral,
        readNumber text = some (negative, numeral) ∧
          rounding.round negative numeral = none := by
  rw [Rounding.stod, ← readNumber_ne_none_iff]
  cases readNumber text with
  | none => simp
  | some number =>
      obtain ⟨negative, numeral⟩ := number
      simp

theorem expected_callOf_iff (rounding : Rounding K) (name text : List Char) :
    Expected rounding (name, text) (callOf rounding (name, text)) ↔
      SuitsOverload rounding text := by
  rw [SuitsOverload, ← stod_eq_none_iff]
  cases hstod : rounding.stod text with
  | some value =>
      have hcall : callOf rounding (name, text) = .number name value := by
        simp only [callOf, hstod]
      rw [hcall]
      constructor
      · rintro ⟨hround⟩
        exact .inl ⟨_, rfl, by rw [hround]; exact Option.some_ne_none _⟩
      · rintro (⟨decimal, rfl, -⟩ | ⟨-, hnone⟩)
        · rw [stod_chars] at hstod
          exact .number hstod
        · cases hnone
  | none =>
      have hcall : callOf rounding (name, text) = .text name text := by
        simp only [callOf, hstod]
      rw [hcall]
      constructor
      · rintro (_ | hnot)
        exact .inr ⟨hnot, rfl⟩
      · rintro (⟨decimal, rfl, hround⟩ | ⟨hnot, -⟩)
        · rw [stod_chars] at hstod
          exact absurd hstod hround
        · exact .text hnot

theorem handlesParams_iff (rounding : Rounding K) (params : List Char) :
    HandlesParams rounding params ↔
      ∀ assigned ∈ assignments params, SuitsOverload rounding assigned.2 := by
  rw [HandlesParams, paramCalls_eq, List.forall₂_map_right_iff, List.forall₂_same]
  exact forall₂_congr fun assigned _ =>
    expected_callOf_iff rounding assigned.1 assigned.2

/-! ## Addresses -/

structure Octet where
  digits : List Char
  isDigit : ∀ c ∈ digits, c.isDigit = true
  ne_nil : digits ≠ []
  length_le : digits.length ≤ 3
  le : ofDigits 10 digits ≤ 255

structure DottedAddress where
  first : Octet
  second : Octet
  third : Octet
  fourth : Octet

/-- The last two numbers, which are not read as one. -/
def DottedAddress.tail (address : DottedAddress) : List Char :=
  '.' :: (address.third.digits ++ '.' :: address.fourth.digits)

def DottedAddress.chars (address : DottedAddress) : List Char :=
  address.first.digits ++ '.' :: (address.second.digits ++ address.tail)

/-- An address begins with the number of its first two parts. -/
theorem DottedAddress.readNumber_chars (address : DottedAddress) :
    readNumber address.chars =
      some (false, .finite (places address.first.digits address.second.digits)) := by
  refine readNumber_places address.first.isDigit address.second.isDigit ?_ address.first.ne_nil
  intro c hc
  cases hc
  decide

theorem DottedAddress.stod_chars_ne_none (rounding : Rounding K) (address : DottedAddress) :
    rounding.stod address.chars ≠ none := by
  have hdigits : ∀ c ∈ address.first.digits ++ address.second.digits, c.isDigit = true :=
    List.forall_mem_append.mpr ⟨address.first.isDigit, address.second.isDigit⟩
  have hlength : (address.first.digits ++ address.second.digits).length ≤ 255 := by
    have hfirst := address.first.length_le
    have hsecond := address.second.length_le
    rw [List.length_append]
    omega
  rw [Rounding.stod, address.readNumber_chars]
  exact rounding.round_ne_none false (inRange_places hdigits hlength)

theorem DottedAddress.chars_plain (address : DottedAddress) :
    ∀ c ∈ address.chars, c.isDigit = true ∨ c = '.' := by
  simp only [chars, tail, List.forall_mem_append, List.forall_mem_cons, or_true, true_and]
  exact ⟨fun c hc => .inl (address.first.isDigit c hc),
    fun c hc => .inl (address.second.isDigit c hc),
    fun c hc => .inl (address.third.isDigit c hc),
    fun c hc => .inl (address.fourth.isDigit c hc)⟩

theorem DottedAddress.assignments_address (address : DottedAddress) :
    assignments ("address=".toList ++ address.chars) =
      [("address".toList, address.chars)] := by
  have hcomma : ',' ∉ "address=".toList ++ address.chars := by
    intro hmem
    rcases List.mem_append.mp hmem with hname | hchars
    · revert hname
      decide
    · exact absurd (address.chars_plain _ hchars) (by decide)
  have hequals : '=' ∉ address.chars := fun hmem =>
    absurd (address.chars_plain _ hmem) (by decide)
  have hname : '=' ∉ "address".toList := by decide
  have hassignment := assignment_append hname address.chars
  rw [if_neg hequals] at hassignment
  rw [assignments, List.splitOn_eq_singleton hcomma]
  exact List.filterMap_cons_some hassignment

theorem DottedAddress.paramCalls_address (rounding : Rounding K) (address : DottedAddress) :
    ∃ value, paramCalls rounding ("address=".toList ++ address.chars) =
      [.number "address".toList value] := by
  obtain ⟨value, hvalue⟩ :=
    Option.ne_none_iff_exists'.mp (address.stod_chars_ne_none rounding)
  refine ⟨value, ?_⟩
  rw [paramCalls_eq, address.assignments_address, List.map_singleton, callOf, hvalue]

theorem DottedAddress.chars_ne (address : DottedAddress) (decimal : Decimal) :
    decimal.chars ≠ address.chars := by
  intro hchars
  have hle := decimal.count_point_le
  have hge : 3 ≤ address.chars.count '.' := by
    simp only [DottedAddress.chars, DottedAddress.tail, List.count_append,
      List.count_cons_self]
    omega
  rw [hchars] at hle
  omega

theorem DottedAddress.not_handlesParams (rounding : Rounding K) (address : DottedAddress) :
    ¬HandlesParams rounding ("address=".toList ++ address.chars) := by
  rw [handlesParams_iff, address.assignments_address, List.forall_mem_singleton]
  rintro (⟨decimal, hchars, -⟩ | ⟨-, hnone⟩)
  · exact address.chars_ne decimal hchars
  · exact address.stod_chars_ne_none rounding ((stod_eq_none_iff rounding _).mpr hnone)

/-- The calls of `set_params` are as they should be iff every assignment suits its
overload; an address is only stored where it has been before. -/
theorem setParams_iff (rounding : Rounding K) (round : K → ℤ) :
    (∀ params, HandlesParams rounding params ↔
      ∀ assigned ∈ assignments params, SuitsOverload rounding assigned.2) ∧
    ∀ (pusher : TcpPusher) (address : DottedAddress),
      ((TcpPusher.setter round).setParams rounding pusher
        ("address=".toList ++ address.chars)).address = address.chars ↔
          pusher.address = address.chars := by
  refine ⟨handlesParams_iff rounding, fun pusher address => ?_⟩
  obtain ⟨value, hcalls⟩ := address.paramCalls_address rounding
  have hname : "address".toList ≠ "port".toList := by decide
  simp only [ParamSetter.setParams, hcalls, List.foldl_cons, List.foldl_nil, ParamSetter.call,
    TcpPusher.setter, if_neg hname]

/-- Signed rational numbers in the range of double precision; the rest is zero. -/
def exactRounding : FloatText.Rounding ℚ where
  round negative numeral :=
    if numeral.InRange then
      match numeral with
      | .finite magnitude => some (if negative then -magnitude else magnitude)
      | _ => some 0
    else none
  round_ne_none negative numeral hrange := by
    rw [if_pos hrange]
    cases numeral <;> exact Option.some_ne_none _

def localAddress : DottedAddress where
  first := ⟨['1', '9', '2'], by simp, by simp, by simp, by decide⟩
  second := ⟨['1', '6', '8'], by simp, by simp, by simp, by decide⟩
  third := ⟨['0'], by simp, by simp, by simp, by decide⟩
  fourth := ⟨['1'], by simp, by simp, by simp, by decide⟩

/-- An address is no decimal, but it begins with one and is not stored. -/
theorem not_setParams :
    ¬HandlesParams exactRounding "address=192.168.0.1".toList ∧
      ((TcpPusher.setter Rat.floor).setParams exactRounding TcpPusher.fresh
        "address=192.168.0.1".toList).address ≠ "192.168.0.1".toList := by
  have hparams : "address=192.168.0.1".toList = "address=".toList ++ localAddress.chars := by
    decide
  obtain ⟨value, hcalls⟩ := localAddress.paramCalls_address exactRounding
  rw [hparams]
  refine ⟨localAddress.not_handlesParams exactRounding, ?_⟩
  simp only [ParamSetter.setParams, hcalls, List.foldl_cons, List.foldl_nil, ParamSetter.call]
  show TcpPusher.fresh.address ≠ localAddress.chars
  decide

/-! ## The history -/

/-- What no parameter of a history changes. -/
structure AccelerationHistory.SameSamples (history history' : AccelerationHistory K) :
    Prop where
  current : history'.current = history.current
  peaks : history'.peaks = history.peaks
  fax : history'.fax = history.fax
  fay : history'.fay = history.fay
  faz : history'.faz = history.faz

theorem AccelerationHistory.sameSamples_call (truncate : K → ℕ)
    (history : AccelerationHistory K) (call : ParamCall K) :
    history.SameSamples ((AccelerationHistory.setter truncate).call history call) := by
  cases call with
  | number name value =>
      simp only [ParamSetter.call, setter]
      split_ifs <;> exact ⟨rfl, rfl, rfl, rfl, rfl⟩
  | text name value => exact ⟨rfl, rfl, rfl, rfl, rfl⟩

/-- Parameters leave the peaks and the samples of a history as they are. -/
theorem AccelerationHistory.sameSamples_setParams (truncate : K → ℕ) (rounding : Rounding K)
    (history : AccelerationHistory K) (params : List Char) :
    history.SameSamples
      ((AccelerationHistory.setter truncate).setParams rounding history params) := by
  unfold ParamSetter.setParams
  induction paramCalls rounding params using List.reverseRecOn with
  | nil => exact ⟨rfl, rfl, rfl, rfl, rfl⟩
  | append_singleton calls call ih =>
      rw [List.foldl_concat]
      have hcall := AccelerationHistory.sameSamples_call truncate
        (calls.foldl (AccelerationHistory.setter truncate).call history) call
      exact ⟨hcall.current.trans ih.current, hcall.peaks.trans ih.peaks,
        hcall.fax.trans ih.fax, hcall.fay.trans ih.fay, hcall.faz.trans ih.faz⟩

end SensorHub
