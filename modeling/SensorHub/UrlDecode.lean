import SensorHub.HttpParser

/-!
# Decoding of URLs

`Request_handler::url_decode` gives the two characters after a `%` to a stream
from which it extracts an `int` in hexadecimal.  The extraction skips white
space, takes a sign and a prefix `0x`, and stops at the first character that
does not fit; what was read of the two characters makes no difference to the
scan.

The escapes of a text are found by the same scan, and what the stream accepts of
them is compared with the two hexadecimal digits that an escape consists of.
-/

namespace SensorHub.Http

/-! ## Extraction from a stream -/

def isSpace (c : Char8) : Bool :=
  c = chr ' ' ∨ 9 ≤ c.toInt ∧ c.toInt ≤ 13

def isSign (c : Char8) : Bool :=
  c = chr '+' ∨ c = chr '-'

def hexValue (c : Char8) : Option ℕ :=
  if 48 ≤ c.toInt ∧ c.toInt ≤ 57 then some (c.toInt - 48).toNat
  else if 97 ≤ c.toInt ∧ c.toInt ≤ 102 then some (c.toInt - 87).toNat
  else if 65 ≤ c.toInt ∧ c.toInt ≤ 70 then some (c.toInt - 55).toNat
  else none

def hexValues : List Char8 → List ℕ
  | [] => []
  | c :: rest =>
      match hexValue c with
      | none => []
      | some value => value :: hexValues rest

def dropPrefix : List Char8 → List Char8
  | zero :: x :: rest =>
      if zero = chr '0' ∧ (x = chr 'x' ∨ x = chr 'X') then rest
      else zero :: x :: rest
  | text => text

/-- The `int` of digits, if there are any and it is in range. -/
def extractDigits (negative : Bool) (text : List Char8) : Option ℤ :=
  let values := hexValues (dropPrefix text)
  let number := values.foldl (fun (number : ℤ) (value : ℕ) => 16 * number + value) 0
  let signed := if negative then -number else number
  if values = [] ∨ signed < -2 ^ 31 ∨ 2 ^ 31 ≤ signed then none else some signed

/-- `is >> std::hex >> value` -/
def extractHexInt (text : List Char8) : Option ℤ :=
  match text.dropWhile isSpace with
  | [] => none
  | c :: rest =>
      if isSign c then extractDigits (c = chr '-') rest
      else extractDigits false (c :: rest)

/-! ## The decoder -/

/-- The scan of `url_decode`, with what it has put out so far. -/
def decodeInto (out : List Char8) : List Char8 → Bool × List Char8
  | [] => (true, out)
  | c :: rest =>
      if c = chr '%' then
        match rest with
        | first :: second :: rest =>
            match extractHexInt [first, second] with
            | some value => decodeInto (out ++ [Int8.ofInt value]) rest
            | none => (false, out)
        | _ => (false, out)
      else if c = chr '+' then decodeInto (out ++ [chr ' ']) rest
      else decodeInto (out ++ [c]) rest

def urlDecode (text : List Char8) : Bool × List Char8 :=
  decodeInto [] text

/-! ## Encoded texts -/

/-- What an encoded text stands for. -/
inductive Decodes : List Char8 → List Char8 → Prop where
  | nil : Decodes [] []
  | escape {first second : Char8} {high low : ℕ} {rest out : List Char8} :
      hexValue first = some high → hexValue second = some low → Decodes rest out →
      Decodes (chr '%' :: first :: second :: rest) (Int8.ofNat (16 * high + low) :: out)
  | plus {rest out : List Char8} : Decodes rest out →
      Decodes (chr '+' :: rest) (chr ' ' :: out)
  | other {c : Char8} {rest out : List Char8} : c ≠ chr '%' → c ≠ chr '+' →
      Decodes rest out → Decodes (c :: rest) (c :: out)

/-- The decoder does with a text what it should. -/
structure DecodesRight (text : List Char8) : Prop where
  accepts : (urlDecode text).1 = true ↔ ∃ out, Decodes text out
  result : ∀ out, Decodes text out → (urlDecode text).2 = out

/-- The two characters after every `%` met, where the scan goes on after them,
or the fewer that are left. -/
def escapes : List Char8 → List (List Char8)
  | [] => []
  | c :: rest =>
      if c = chr '%' then
        match rest with
        | first :: second :: rest => [first, second] :: escapes rest
        | short => [short]
      else escapes rest

def IsHexDigit (c : Char8) : Prop :=
  hexValue c ≠ none

def IsHexPair (escape : List Char8) : Prop :=
  ∃ first second, escape = [first, second] ∧ IsHexDigit first ∧ IsHexDigit second

/-- An escape in which the stream finds a number. -/
def HasNumber (escape : List Char8) : Prop :=
  ∃ first second, escape = [first, second] ∧
    (IsHexDigit first ∧ ¬(first = chr '0' ∧ (second = chr 'x' ∨ second = chr 'X')) ∨
      (isSpace first = true ∨ isSign first = true) ∧ IsHexDigit second)

/-! ## Two characters -/

theorem hexValue_bounds {c : Char8} {value : ℕ} (hc : hexValue c = some value) :
    value < 16 ∧ (48 ≤ c.toInt ∧ c.toInt ≤ 57 ∨ 65 ≤ c.toInt ∧ c.toInt ≤ 70 ∨
      97 ≤ c.toInt ∧ c.toInt ≤ 102) := by
  unfold hexValue at hc
  split_ifs at hc with hdigit hlower hupper <;> cases hc <;> omega

theorem isSpace_of_hexValue {c : Char8} {value : ℕ} (hc : hexValue c = some value) :
    isSpace c = false := by
  have hbounds := (hexValue_bounds hc).2
  have hspace : (chr ' ').toInt = 32 := by decide
  simp only [isSpace, ← Int8.toInt_inj, hspace, decide_eq_false_iff_not]
  omega

theorem isSign_of_hexValue {c : Char8} {value : ℕ} (hc : hexValue c = some value) :
    isSign c = false := by
  have hbounds := (hexValue_bounds hc).2
  have hplus : (chr '+').toInt = 43 := by decide
  have hminus : (chr '-').toInt = 45 := by decide
  simp only [isSign, ← Int8.toInt_inj, hplus, hminus, decide_eq_false_iff_not]
  omega

theorem hexValue_of_isSpace {c : Char8} (hc : isSpace c = true) : hexValue c = none := by
  by_contra hvalue
  obtain ⟨value, hvalue⟩ := Option.ne_none_iff_exists'.mp hvalue
  rw [isSpace_of_hexValue hvalue] at hc
  cases hc

theorem extractDigits_nil (negative : Bool) : extractDigits negative [] = none := rfl

theorem extractDigits_single (negative : Bool) (c : Char8) :
    extractDigits negative [c] =
      (hexValue c).map fun (value : ℕ) => if negative then -(value : ℤ) else value := by
  cases hvalue : hexValue c with
  | none => simp [extractDigits, dropPrefix, hexValues, hvalue]
  | some value =>
      have hbounds := (hexValue_bounds hvalue).1
      simp only [extractDigits, dropPrefix, hexValues, hvalue, List.cons_ne_nil, false_or,
        List.foldl_cons, List.foldl_nil, Int.mul_zero, Int.zero_add, Option.map_some]
      exact if_neg (by split <;> omega)

theorem extractHexInt_of_space {first second : Char8} (hfirst : isSpace first = true) :
    extractHexInt [first, second] =
      if isSpace second ∨ isSign second then none else extractDigits false [second] := by
  cases hsecond : isSpace second <;> cases hsign : isSign second <;>
    simp [extractHexInt, hfirst, hsecond, hsign, extractDigits_nil]

theorem extractHexInt_of_sign {first second : Char8} (hspace : isSpace first = false)
    (hfirst : isSign first = true) :
    extractHexInt [first, second] = extractDigits (first = chr '-') [second] := by
  simp [extractHexInt, hspace, hfirst]

theorem extractHexInt_of_other {first second : Char8} (hspace : isSpace first = false)
    (hfirst : isSign first = false) :
    extractHexInt [first, second] = extractDigits false [first, second] := by
  simp [extractHexInt, hspace, hfirst]

theorem hexValue_of_isSign {c : Char8} (hc : isSign c = true) : hexValue c = none := by
  by_contra hvalue
  obtain ⟨value, hvalue⟩ := Option.ne_none_iff_exists'.mp hvalue
  rw [isSign_of_hexValue hvalue] at hc
  cases hc

theorem extractDigits_pair_ne_none_iff (first second : Char8) :
    extractDigits false [first, second] ≠ none ↔
      IsHexDigit first ∧ ¬(first = chr '0' ∧ (second = chr 'x' ∨ second = chr 'X')) := by
  by_cases hx : first = chr '0' ∧ (second = chr 'x' ∨ second = chr 'X')
  · simp [extractDigits, dropPrefix, hx, hexValues]
  · cases hfirst : hexValue first with
    | none => simp [extractDigits, dropPrefix, hx, hexValues, hfirst, IsHexDigit]
    | some high =>
        have hhigh := (hexValue_bounds hfirst).1
        refine iff_of_true ?_ ⟨by rw [IsHexDigit, hfirst]; exact Option.some_ne_none _, hx⟩
        cases hsecond : hexValue second with
        | none =>
            simp [extractDigits, dropPrefix, hx, hexValues, hfirst, hsecond]
            omega
        | some low =>
            have hlow := (hexValue_bounds hsecond).1
            simp [extractDigits, dropPrefix, hx, hexValues, hfirst, hsecond]
            omega

theorem extractHexInt_ne_none_iff (first second : Char8) :
    extractHexInt [first, second] ≠ none ↔ HasNumber [first, second] := by
  have hnumber : HasNumber [first, second] ↔
      IsHexDigit first ∧ ¬(first = chr '0' ∧ (second = chr 'x' ∨ second = chr 'X')) ∨
        (isSpace first = true ∨ isSign first = true) ∧ IsHexDigit second := by
    simp [HasNumber]
  rw [hnumber]
  cases hspace : isSpace first with
  | true =>
      have hfirst := hexValue_of_isSpace hspace
      rw [extractHexInt_of_space hspace, extractDigits_single]
      by_cases hsecond : isSpace second = true ∨ isSign second = true
      · have hvalue : hexValue second = none :=
          hsecond.elim hexValue_of_isSpace hexValue_of_isSign
        simp [hsecond, IsHexDigit, hfirst, hvalue]
      · simp [hsecond, IsHexDigit, hfirst]
  | false =>
      cases hsign : isSign first with
      | true =>
          have hfirst := hexValue_of_isSign hsign
          rw [extractHexInt_of_sign hspace hsign, extractDigits_single]
          simp [IsHexDigit, hfirst]
      | false =>
          rw [extractHexInt_of_other hspace hsign, extractDigits_pair_ne_none_iff]
          simp

theorem extractHexInt_pair {first second : Char8} {high low : ℕ}
    (hfirst : hexValue first = some high) (hsecond : hexValue second = some low) :
    extractHexInt [first, second] = some (16 * high + low) := by
  have hhigh := (hexValue_bounds hfirst).1
  have hlow := hexValue_bounds hsecond
  have hx : ¬(first = chr '0' ∧ (second = chr 'x' ∨ second = chr 'X')) := by
    have hx : hexValue (chr 'x') = none := by decide
    have hX : hexValue (chr 'X') = none := by decide
    rintro ⟨-, rfl | rfl⟩ <;> simp_all
  rw [extractHexInt_of_other (isSpace_of_hexValue hfirst) (isSign_of_hexValue hfirst)]
  simp [extractDigits, dropPrefix, hx, hexValues, hfirst, hsecond]
  omega

/-! ## Whole texts -/

theorem decodeInto_escape (before : List Char8) (first second : Char8) (rest : List Char8) :
    decodeInto before (chr '%' :: first :: second :: rest) =
      match extractHexInt [first, second] with
      | some value => decodeInto (before ++ [Int8.ofInt value]) rest
      | none => (false, before) := by
  rw [decodeInto.eq_def]
  rfl

theorem decodeInto_plus (before rest : List Char8) :
    decodeInto before (chr '+' :: rest) = decodeInto (before ++ [chr ' ']) rest := by
  rw [decodeInto.eq_def]
  rfl

theorem decodeInto_other (before : List Char8) {c : Char8} (rest : List Char8)
    (hpercent : c ≠ chr '%') (hplus : c ≠ chr '+') :
    decodeInto before (c :: rest) = decodeInto (before ++ [c]) rest := by
  rw [decodeInto.eq_def]
  exact (if_neg hpercent).trans (if_neg hplus)

theorem escapes_escape (first second : Char8) (rest : List Char8) :
    escapes (chr '%' :: first :: second :: rest) = [first, second] :: escapes rest :=
  rfl

theorem escapes_other {c : Char8} (rest : List Char8) (hc : c ≠ chr '%') :
    escapes (c :: rest) = escapes rest := by
  rw [escapes.eq_def]
  exact if_neg hc

section Short

variable {short : List Char8} (hshort : ∀ first second rest, short ≠ first :: second :: rest)

include hshort

theorem decodeInto_short (before : List Char8) :
    decodeInto before (chr '%' :: short) = (false, before) := by
  rw [decodeInto, if_pos rfl]
  exact hshort

theorem escapes_short : escapes (chr '%' :: short) = [short] := by
  rw [escapes, if_pos rfl]
  exact hshort

theorem not_hasNumber_short : ¬HasNumber short :=
  fun ⟨_, _, hpair, _⟩ => hshort _ _ _ hpair

theorem not_isHexPair_short : ¬IsHexPair short :=
  fun ⟨_, _, hpair, _⟩ => hshort _ _ _ hpair

end Short

theorem decodeInto_of_decodes {text out : List Char8} (hdecodes : Decodes text out)
    (before : List Char8) : decodeInto before text = (true, before ++ out) := by
  induction hdecodes generalizing before with
  | nil => simp [decodeInto]
  | escape hfirst hsecond hrest ih =>
      rw [decodeInto_escape, extractHexInt_pair hfirst hsecond]
      simp only [ih, List.append_assoc, List.singleton_append]
      rfl
  | plus hrest ih => rw [decodeInto_plus, ih, List.append_assoc, List.singleton_append]
  | other hpercent hplus hrest ih =>
      rw [decodeInto_other _ _ hpercent hplus, ih, List.append_assoc, List.singleton_append]

theorem isHexPair_of_decodes {text out : List Char8} (hdecodes : Decodes text out) :
    ∀ escape ∈ escapes text, IsHexPair escape := by
  induction hdecodes with
  | nil => exact List.forall_mem_nil _
  | escape hfirst hsecond hrest ih =>
      rw [escapes_escape, List.forall_mem_cons]
      refine ⟨⟨_, _, rfl, ?_, ?_⟩, ih⟩
      · rw [IsHexDigit, hfirst]
        exact Option.some_ne_none _
      · rw [IsHexDigit, hsecond]
        exact Option.some_ne_none _
  | plus hrest ih => rwa [escapes_other _ (by decide)]
  | other hpercent hplus hrest ih => rwa [escapes_other _ hpercent]

theorem exists_decodes {text : List Char8}
    (hescapes : ∀ escape ∈ escapes text, IsHexPair escape) : ∃ out, Decodes text out := by
  induction text using escapes.induct with
  | case1 => exact ⟨_, .nil⟩
  | case2 first second rest ih =>
      rw [escapes_escape, List.forall_mem_cons] at hescapes
      obtain ⟨⟨_, _, heq, hfirst, hsecond⟩, hescapes⟩ := hescapes
      cases heq
      obtain ⟨high, hhigh⟩ := Option.ne_none_iff_exists'.mp hfirst
      obtain ⟨low, hlow⟩ := Option.ne_none_iff_exists'.mp hsecond
      obtain ⟨out, hout⟩ := ih hescapes
      exact ⟨_, .escape hhigh hlow hout⟩
  | case3 short hshort =>
      rw [escapes_short hshort, List.forall_mem_singleton] at hescapes
      exact absurd hescapes (not_isHexPair_short hshort)
  | case4 c rest hc ih =>
      rw [escapes_other _ hc] at hescapes
      obtain ⟨out, hout⟩ := ih hescapes
      by_cases hplus : c = chr '+'
      · rw [hplus]
        exact ⟨_, .plus hout⟩
      · exact ⟨_, .other hc hplus hout⟩

/-- The decoder accepts the texts in whose escapes the stream finds numbers. -/
theorem decodeInto_accepts_iff (before text : List Char8) :
    (decodeInto before text).1 = true ↔ ∀ escape ∈ escapes text, HasNumber escape := by
  induction text using escapes.induct generalizing before with
  | case1 => simp [decodeInto, escapes]
  | case2 first second rest ih =>
      rw [decodeInto_escape, escapes_escape, List.forall_mem_cons,
        ← extractHexInt_ne_none_iff]
      cases hvalue : extractHexInt [first, second] with
      | none => simp
      | some value => simp [ih]
  | case3 short hshort =>
      rw [decodeInto_short hshort, escapes_short hshort, List.forall_mem_singleton]
      simp [not_hasNumber_short hshort]
  | case4 c rest hc ih =>
      rw [escapes_other _ hc]
      by_cases hplus : c = chr '+'
      · rw [hplus, decodeInto_plus, ih]
      · rw [decodeInto_other _ _ hc hplus, ih]

/-- The decoder does what it should iff every escape is one of two hexadecimal
digits or the stream finds no number in some escape. -/
theorem decodesRight_iff (text : List Char8) :
    DecodesRight text ↔
      (∀ escape ∈ escapes text, IsHexPair escape) ∨
        ∃ escape ∈ escapes text, ¬HasNumber escape := by
  have haccepts := decodeInto_accepts_iff [] text
  constructor
  · intro hright
    by_contra hnot
    push Not at hnot
    obtain ⟨⟨escape, hescape, hpair⟩, hnumbers⟩ := hnot
    obtain ⟨out, hdecodes⟩ := hright.accepts.mp (haccepts.mpr hnumbers)
    exact hpair (isHexPair_of_decodes hdecodes escape hescape)
  · intro hescapes
    have hresult : ∀ out, Decodes text out → urlDecode text = (true, out) :=
      fun out hdecodes => decodeInto_of_decodes hdecodes []
    refine ⟨⟨fun htrue => ?_, ?_⟩, ?_⟩
    · refine exists_decodes (hescapes.resolve_right ?_)
      rintro ⟨escape, hescape, hnumber⟩
      exact hnumber (haccepts.mp htrue escape hescape)
    · rintro ⟨out, hdecodes⟩
      rw [hresult out hdecodes]
    · intro out hdecodes
      rw [hresult out hdecodes]

/-- The digit before a letter that is none counts as an escape. -/
theorem not_decodesRight : ¬∀ text, DecodesRight text := by
  intro hall
  obtain ⟨out, hdecodes⟩ := (hall ( "%5g".toList.map chr)).accepts.mp (by decide)
  obtain ⟨first, second, hpair, -, hsecond⟩ :=
    isHexPair_of_decodes hdecodes [chr '5', chr 'g'] (by decide)
  obtain ⟨-, rfl⟩ : chr '5' = first ∧ chr 'g' = second := by simpa using hpair
  exact hsecond (by decide)

end SensorHub.Http
