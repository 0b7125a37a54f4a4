import Mathlib.Data.List.TakeWhile
import Mathlib.Data.Nat.Digits.Lemmas
import SensorHub.DecimalText

/-!
# Texts of floating point numbers

The conversion of a text to a floating point number reads the longest number at
its start, after white space and a sign: a decimal or hexadecimal number with a
point and an exponent, or one of the words for the values that are no numbers.
What follows is ignored.

A decimal in scientific notation is read as the number it denotes.  Rounding the
number is left to a conversion that may refuse what is not in its range.
-/

namespace FloatText

open DecimalText (isSpace splitSign)

/-! ## Reading a number -/

/-- How the digits, the places and the exponent of a number are written. -/
structure NumberFormat where
  radix : ℕ
  isDigit : Char → Bool
  isMark : Char → Bool
  /-- The base of the exponent, and how many steps of it a place is worth. -/
  power : ℕ
  places : ℕ

def isHexDigit (c : Char) : Bool :=
  c.isDigit || 'a' ≤ c && c ≤ 'f' || 'A' ≤ c && c ≤ 'F'

def digitValue (c : Char) : ℕ :=
  if c.isDigit then c.toNat - 48
  else if 'a' ≤ c ∧ c ≤ 'f' then c.toNat - 87
  else c.toNat - 55

def decimal : NumberFormat :=
  ⟨10, Char.isDigit, fun c => c = 'e' || c = 'E', 10, 1⟩

def hexadecimal : NumberFormat :=
  ⟨16, isHexDigit, fun c => c = 'p' || c = 'P', 2, 4⟩

def ofDigits (radix : ℕ) (digits : List Char) : ℕ :=
  Nat.ofDigits radix (digits.reverse.map digitValue)

/-- The exponent at the start of a text; without digits there is none. -/
def exponentOf (isMark : Char → Bool) : List Char → ℤ
  | [] => 0
  | c :: rest =>
      if isMark c then
        let (negative, digits) := splitSign rest
        let exponent := ofDigits 10 (digits.takeWhile Char.isDigit)
        if negative then -exponent else exponent
      else 0

def splitFraction (isDigit : Char → Bool) : List Char → List Char × List Char
  | [] => ([], [])
  | c :: rest =>
      if c = '.' then (rest.takeWhile isDigit, rest.dropWhile isDigit)
      else ([], c :: rest)

/-- The number at the start of a text, if there is one. -/
def NumberFormat.read (format : NumberFormat) (text : List Char) : Option ℚ :=
  let whole := text.takeWhile format.isDigit
  let (fraction, rest) :=
    splitFraction format.isDigit (text.dropWhile format.isDigit)
  if whole ++ fraction = [] then none
  else
    some (ofDigits format.radix (whole ++ fraction) *
      (format.power : ℚ) ^
        (exponentOf format.isMark rest - format.places * fraction.length))

inductive Numeral where
  | finite (magnitude : ℚ)
  | infinite
  | nan
  deriving DecidableEq

def readHexadecimal : List Char → Option ℚ
  | zero :: x :: rest =>
      if zero = '0' ∧ (x = 'x' ∨ x = 'X') then hexadecimal.read rest else none
  | _ => none

def readUnsigned (text : List Char) : Option Numeral :=
  match readHexadecimal text with
  | some magnitude => some (.finite magnitude)
  | none =>
      match decimal.read text with
      | some magnitude => some (.finite magnitude)
      | none =>
          if ['i', 'n', 'f'] <+: text.map Char.toLower then some .infinite
          else if ['n', 'a', 'n'] <+: text.map Char.toLower then some .nan
          else none

/-- The longest number at the start of a text, with its sign. -/
def readNumber (text : List Char) : Option (Bool × Numeral) :=
  let (negative, rest) := splitSign (text.dropWhile isSpace)
  (readUnsigned rest).map fun numeral => (negative, numeral)

/-! ## Rounding -/

/-- Zero and the normal range of double precision, and what is no number. -/
def Numeral.InRange : Numeral → Prop
  | .finite magnitude =>
      magnitude = 0 ∨
        1 / 2 ^ 1022 ≤ magnitude ∧ magnitude ≤ (2 ^ 53 - 1) * 2 ^ 971
  | .infinite => True
  | .nan => True

instance : DecidablePred Numeral.InRange
  | .finite _ => inferInstanceAs (Decidable (_ ∨ _ ∧ _))
  | .infinite => inferInstanceAs (Decidable True)
  | .nan => inferInstanceAs (Decidable True)

/-- Conversion of signed numbers to double precision. -/
structure Rounding (K : Type*) where
  round : Bool → Numeral → Option K
  round_ne_none : ∀ negative {numeral : Numeral}, numeral.InRange →
    round negative numeral ≠ none

variable {K : Type*}

/-- `std::stod`; there is no result where it throws. -/
def Rounding.stod (rounding : Rounding K) (text : List Char) : Option K :=
  (readNumber text).bind fun number => rounding.round number.1 number.2

/-! ## Decimals -/

structure Exponent where
  mark : Char
  sign : Option Bool
  digits : List Char
  isMark : mark = 'e' ∨ mark = 'E'
  isDigit : ∀ c ∈ digits, c.isDigit = true
  digits_ne_nil : digits ≠ []

/-- A decimal number, with at least one digit before or behind the point. -/
structure Decimal where
  /-- A minus sign or a plus sign, if there is one. -/
  sign : Option Bool
  whole : List Char
  /-- The digits behind the point, if there is one. -/
  fraction : Option (List Char)
  exponent : Option Exponent
  wholeDigits : ∀ c ∈ whole, c.isDigit = true
  fractionDigits : ∀ c ∈ fraction.getD [], c.isDigit = true
  digits_ne_nil : whole ++ fraction.getD [] ≠ []

def signChars : Option Bool → List Char
  | none => []
  | some true => ['-']
  | some false => ['+']

namespace Exponent

def chars (exponent : Exponent) : List Char :=
  exponent.mark :: (signChars exponent.sign ++ exponent.digits)

def value (exponent : Exponent) : ℤ :=
  if exponent.sign = some true then -ofDigits 10 exponent.digits
  else ofDigits 10 exponent.digits

end Exponent

namespace Decimal

def fractionChars (number : Decimal) : List Char :=
  match number.fraction with
  | none => []
  | some digits => '.' :: digits

def exponentChars (number : Decimal) : List Char :=
  match number.exponent with
  | none => []
  | some exponent => exponent.chars

def unsignedChars (number : Decimal) : List Char :=
  number.whole ++ number.fractionChars ++ number.exponentChars

def chars (number : Decimal) : List Char :=
  signChars number.sign ++ number.unsignedChars

def negative (number : Decimal) : Bool :=
  number.sign = some true

def magnitude (number : Decimal) : ℚ :=
  let fraction := number.fraction.getD []
  let exponent := (number.exponent.map Exponent.value).getD 0
  ofDigits 10 (number.whole ++ fraction) * 10 ^ (exponent - fraction.length)

end Decimal

/-! ## What follows digits -/

section Digits

variable {isDigit : Char → Bool} {digits rest : List Char}
  (hdigits : ∀ c ∈ digits, isDigit c = true) (hrest : ∀ c ∈ rest.head?, isDigit c = false)

include hdigits hrest

theorem takeWhile_digits : (digits ++ rest).takeWhile isDigit = digits := by
  rw [List.takeWhile_append_of_pos hdigits]
  cases rest with
  | nil => simp
  | cons c rest => simp [hrest c rfl]

theorem dropWhile_digits : (digits ++ rest).dropWhile isDigit = rest := by
  rw [List.dropWhile_append_of_pos hdigits]
  cases rest with
  | nil => rfl
  | cons c rest => simp [hrest c rfl]

end Digits

theorem splitFraction_point {isDigit : Char → Bool} {digits rest : List Char}
    (hdigits : ∀ c ∈ digits, isDigit c = true)
    (hrest : ∀ c ∈ rest.head?, isDigit c = false) :
    splitFraction isDigit ('.' :: (digits ++ rest)) = (digits, rest) := by
  simp only [splitFraction, if_true, takeWhile_digits hdigits hrest,
    dropWhile_digits hdigits hrest]

/-- A number is read from its digits, by what follows the whole ones. -/
theorem NumberFormat.read_digits (format : NumberFormat) {whole after fraction rest : List Char}
    (hwhole : ∀ c ∈ whole, format.isDigit c = true)
    (hafter : ∀ c ∈ after.head?, format.isDigit c = false)
    (hsplit : splitFraction format.isDigit after = (fraction, rest))
    (hne : whole ++ fraction ≠ []) :
    format.read (whole ++ after) =
      some (ofDigits format.radix (whole ++ fraction) * (format.power : ℚ) ^
        (exponentOf format.isMark rest - format.places * fraction.length)) := by
  simp only [NumberFormat.read, takeWhile_digits hwhole hafter, dropWhile_digits hwhole hafter,
    hsplit, if_neg hne]

theorem splitSign_signChars (sign : Option Bool) {rest : List Char}
    (hrest : ∀ c ∈ rest.head?, c ≠ '-' ∧ c ≠ '+') :
    splitSign (signChars sign ++ rest) = (decide (sign = some true), rest) := by
  cases sign with
  | some negative => cases negative <;> rfl
  | none =>
      cases rest with
      | nil => rfl
      | cons c rest =>
          obtain ⟨hminus, hplus⟩ := hrest c rfl
          simp [signChars, splitSign, hminus, hplus]

theorem ne_sign_of_isDigit {c : Char} (hc : c.isDigit = true) : c ≠ '-' ∧ c ≠ '+' := by
  constructor <;> rintro rfl <;> cases hc

theorem exponentOf_chars (exponent : Exponent) :
    exponentOf decimal.isMark exponent.chars = exponent.value := by
  have hmark : decimal.isMark exponent.mark = true := by
    rcases exponent.isMark with hmark | hmark <;> rw [hmark] <;> rfl
  have hhead : ∀ c ∈ exponent.digits.head?, c ≠ '-' ∧ c ≠ '+' := fun c hc =>
    ne_sign_of_isDigit (exponent.isDigit c (List.mem_of_mem_head? hc))
  have hdigits : exponent.digits.takeWhile Char.isDigit = exponent.digits :=
    List.takeWhile_eq_self_iff.mpr exponent.isDigit
  simp only [Exponent.chars, exponentOf, hmark, if_true, splitSign_signChars _ hhead, hdigits,
    Exponent.value, decide_eq_true_eq]

namespace Decimal

variable (number : Decimal)

theorem head_exponentChars :
    ∀ c ∈ number.exponentChars.head?, c.isDigit = false ∧ c ≠ '.' := by
  intro c hc
  unfold exponentChars at hc
  split at hc
  · cases hc
  · next exponent _ =>
      rw [Exponent.chars, List.head?_cons, Option.mem_some_iff] at hc
      rcases exponent.isMark with hmark | hmark <;> rw [← hc, hmark] <;> decide

theorem exponentOf_exponentChars :
    exponentOf decimal.isMark number.exponentChars =
      (number.exponent.map Exponent.value).getD 0 := by
  unfold exponentChars
  cases number.exponent with
  | none => rfl
  | some exponent => exact exponentOf_chars exponent

theorem splitFraction_chars :
    splitFraction Char.isDigit (number.fractionChars ++ number.exponentChars) =
      (number.fraction.getD [], number.exponentChars) := by
  have hfraction := number.fractionDigits
  have hhead := number.head_exponentChars
  unfold fractionChars
  cases hcases : number.fraction with
  | none =>
      cases hrest : number.exponentChars with
      | nil => rfl
      | cons c rest =>
          rw [hrest] at hhead
          simp [splitFraction, (hhead c rfl).2]
  | some digits =>
      rw [hcases, Option.getD_some] at hfraction
      have hrest : ∀ c ∈ number.exponentChars.head?, c.isDigit = false :=
        fun c hc => (hhead c hc).1
      exact splitFraction_point hfraction hrest

theorem read_unsignedChars : decimal.read number.unsignedChars = some number.magnitude := by
  have hhead : ∀ c ∈ (number.fractionChars ++ number.exponentChars).head?,
      c.isDigit = false := by
    intro c hc
    have hexponent := number.head_exponentChars
    unfold fractionChars at hc
    split at hc
    · exact (hexponent c hc).1
    · rw [List.cons_append, List.head?_cons, Option.mem_some_iff] at hc
      rw [← hc]
      rfl
  rw [unsignedChars, List.append_assoc, decimal.read_digits number.wholeDigits hhead
    number.splitFraction_chars number.digits_ne_nil, exponentOf_exponentChars]
  simp [decimal, magnitude]

theorem exists_unsignedChars :
    ∃ c rest, number.unsignedChars = c :: rest ∧ (c.isDigit = true ∨ c = '.') := by
  have hwhole := number.wholeDigits
  have hne := number.digits_ne_nil
  unfold unsignedChars fractionChars
  cases hcases : number.whole with
  | cons c rest =>
      rw [hcases] at hwhole
      exact ⟨c, _, rfl, .inl (hwhole c List.mem_cons_self)⟩
  | nil =>
      rw [hcases, List.nil_append] at hne
      cases hfraction : number.fraction with
      | none => exact absurd (by rw [hfraction]; rfl) hne
      | some digits => exact ⟨'.', _, rfl, .inr rfl⟩

def IsPlain (c : Char) : Prop :=
  c.isDigit = true ∨ c ∈ ['.', 'e', 'E', '-', '+']

theorem isPlain_signChars (sign : Option Bool) : ∀ c ∈ signChars sign, IsPlain c := by
  cases sign with
  | none => exact List.forall_mem_nil _
  | some negative => cases negative <;> simp [signChars, IsPlain]

theorem isPlain_unsignedChars : ∀ c ∈ number.unsignedChars, IsPlain c := by
  have hfraction : ∀ c ∈ number.fractionChars, IsPlain c := by
    have hdigits := number.fractionDigits
    unfold fractionChars
    cases hcases : number.fraction with
    | none => exact List.forall_mem_nil _
    | some digits =>
        rw [hcases] at hdigits
        exact List.forall_mem_cons.mpr ⟨.inr (by simp), fun c hc => .inl (hdigits c hc)⟩
  have hexponent : ∀ c ∈ number.exponentChars, IsPlain c := by
    unfold exponentChars
    cases number.exponent with
    | none => exact List.forall_mem_nil _
    | some exponent =>
        refine List.forall_mem_cons.mpr ⟨?_, List.forall_mem_append.mpr
          ⟨isPlain_signChars _, fun c hc => .inl (exponent.isDigit c hc)⟩⟩
        rcases exponent.isMark with hmark | hmark <;> simp [hmark, IsPlain]
  intro c hc
  simp only [unsignedChars, List.mem_append] at hc
  rcases hc with (hc | hc) | hc
  · exact .inl (number.wholeDigits c hc)
  · exact hfraction c hc
  · exact hexponent c hc

theorem isSpace_of_isPlain {c : Char} (hc : IsPlain c) : isSpace c = false := by
  by_contra hspace
  simp only [isSpace, Bool.or_eq_true, decide_eq_true_eq, Bool.not_eq_false] at hspace
  rcases hspace with ((((rfl | rfl) | rfl) | rfl) | rfl) | rfl <;> revert hc <;>
    simp [IsPlain, Char.isDigit]

theorem readHexadecimal_unsignedChars : readHexadecimal number.unsignedChars = none := by
  have hplain := number.isPlain_unsignedChars
  cases hchars : number.unsignedChars with
  | nil => rfl
  | cons zero rest =>
      cases rest with
      | nil => rfl
      | cons x rest =>
          rw [hchars] at hplain
          refine if_neg ?_
          rintro ⟨-, rfl | rfl⟩ <;> have hx := hplain _ (.tail _ (.head _)) <;> revert hx <;>
            simp [IsPlain, Char.isDigit]

theorem readNumber_chars :
    readNumber number.chars = some (number.negative, .finite number.magnitude) := by
  obtain ⟨first, rest, hchars, hfirst⟩ := number.exists_unsignedChars
  have hhead : ∀ c ∈ number.unsignedChars.head?, c ≠ '-' ∧ c ≠ '+' := by
    intro c hc
    rw [hchars, List.head?_cons, Option.mem_some_iff] at hc
    subst hc
    rcases hfirst with hdigit | rfl
    · exact ne_sign_of_isDigit hdigit
    · decide
  have hspace : ∀ c ∈ number.chars, isSpace c = false := fun c hc =>
    isSpace_of_isPlain ((List.mem_append.mp hc).elim (isPlain_signChars _ c)
      (number.isPlain_unsignedChars c))
  rw [readNumber, DecimalText.dropWhile_isSpace hspace, chars, splitSign_signChars _ hhead]
  simp only [readUnsigned, readHexadecimal_unsignedChars, read_unsignedChars, Option.map_some,
    negative]

theorem point_not_mem {digits : List Char} (hdigits : ∀ c ∈ digits, c.isDigit = true) :
    '.' ∉ digits := by
  intro hpoint
  cases hdigits '.' hpoint

theorem point_not_mem_signChars (sign : Option Bool) : '.' ∉ signChars sign := by
  cases sign with
  | none => exact List.not_mem_nil
  | some negative => cases negative <;> decide

theorem count_point_le : number.chars.count '.' ≤ 1 := by
  have hsign := List.count_eq_zero.mpr (point_not_mem_signChars number.sign)
  have hwhole := List.count_eq_zero.mpr (point_not_mem number.wholeDigits)
  have hfraction : number.fractionChars.count '.' ≤ 1 := by
    have hdigits := number.fractionDigits
    unfold fractionChars
    cases hcases : number.fraction with
    | none => simp
    | some digits =>
        rw [hcases, Option.getD_some] at hdigits
        rw [List.count_cons_self, List.count_eq_zero.mpr (point_not_mem hdigits)]
  have hexponent : number.exponentChars.count '.' = 0 := by
    refine List.count_eq_zero.mpr fun hpoint => ?_
    unfold exponentChars at hpoint
    split at hpoint
    · cases hpoint
    · next exponent _ =>
        rcases List.mem_cons.mp hpoint with hmark | hrest
        · rcases exponent.isMark with heq | heq <;> rw [heq] at hmark <;> cases hmark
        · rcases List.mem_append.mp hrest with hmem | hmem
          · exact point_not_mem_signChars _ hmem
          · exact point_not_mem exponent.isDigit hmem
  simp only [chars, unsignedChars, List.count_append, hsign, hwhole, hexponent]
  omega

end Decimal

/-! ## Places before another text -/

def places (whole fraction : List Char) : ℚ :=
  ofDigits 10 (whole ++ fraction) * 10 ^ (-(fraction.length : ℤ))

section Places

variable {whole fraction rest : List Char} (hwhole : ∀ c ∈ whole, c.isDigit = true)
  (hfraction : ∀ c ∈ fraction, c.isDigit = true)
  (hrest : ∀ c ∈ rest.head?, c.isDigit = false ∧ decimal.isMark c = false)

include hwhole hfraction hrest

theorem read_places (hne : whole ≠ []) :
    decimal.read (whole ++ '.' :: (fraction ++ rest)) =
      some (places whole fraction) := by
  have hpoint : ∀ c ∈ ('.' :: (fraction ++ rest)).head?, decimal.isDigit c = false := by
    intro c hc
    cases hc
    rfl
  have hexponent : exponentOf decimal.isMark rest = 0 := by
    cases rest with
    | nil => rfl
    | cons c rest => rw [exponentOf, if_neg (by simp [(hrest c rfl).2])]
  rw [decimal.read_digits hwhole hpoint
    (splitFraction_point hfraction fun c hc => (hrest c hc).1) (by simp [hne]), hexponent]
  simp [decimal, places]

/-- A number with places is read up to its last place. -/
theorem readNumber_places (hne : whole ≠ []) :
    readNumber (whole ++ '.' :: (fraction ++ rest)) =
      some (false, .finite (places whole fraction)) := by
  have hread := read_places hwhole hfraction hrest hne
  obtain ⟨first, whole, rfl⟩ := List.exists_cons_of_ne_nil hne
  obtain ⟨hfirst, hwhole⟩ := List.forall_mem_cons.mp hwhole
  have hspace : isSpace first = false := Decimal.isSpace_of_isPlain (.inl hfirst)
  obtain ⟨hminus, hplus⟩ := ne_sign_of_isDigit hfirst
  have hhexadecimal : readHexadecimal (first :: whole ++ '.' :: (fraction ++ rest)) = none := by
    cases whole with
    | nil => exact if_neg (by simp)
    | cons second whole =>
        refine if_neg ?_
        have hsecond := hwhole second List.mem_cons_self
        rintro ⟨-, rfl | rfl⟩ <;> cases hsecond
  rw [readNumber, List.cons_append, List.dropWhile_cons_of_neg (by simp [hspace]), splitSign,
    if_neg hminus, if_neg hplus]
  rw [List.cons_append] at hread hhexadecimal
  simp only [readUnsigned, hhexadecimal, hread, Option.map_some]

end Places

theorem ofDigits_lt_pow {radix : ℕ} (hradix : 1 < radix) {digits : List Char}
    (hvalues : ∀ c ∈ digits, digitValue c < radix) :
    ofDigits radix digits < radix ^ digits.length := by
  have hlt : ∀ value ∈ digits.reverse.map digitValue, value < radix := by
    intro value hvalue
    obtain ⟨c, hc, rfl⟩ := List.mem_map.mp hvalue
    exact hvalues c (List.mem_reverse.mp hc)
  have hlength : (digits.reverse.map digitValue).length = digits.length := by simp
  exact hlength ▸ Nat.ofDigits_lt_base_pow_length hradix hlt

theorem digitValue_lt_of_isDigit {c : Char} (hc : c.isDigit = true) : digitValue c < 10 := by
  rw [digitValue, if_pos hc]
  simp only [Char.isDigit, ge_iff_le, Bool.and_eq_true, decide_eq_true_eq,
    UInt32.le_iff_toNat_le] at hc
  have hnine : c.toNat ≤ 57 := hc.2
  omega

theorem digitValue_lt_of_isHexDigit {c : Char} (hc : isHexDigit c = true) :
    digitValue c < 16 := by
  by_cases hdigit : c.isDigit = true
  · have hlt := digitValue_lt_of_isDigit hdigit
    omega
  · rw [digitValue, if_neg hdigit]
    simp only [isHexDigit, Bool.eq_false_iff.mpr hdigit, Bool.false_or, Bool.or_eq_true,
      Bool.and_eq_true, decide_eq_true_eq] at hc
    by_cases hlower : 'a' ≤ c ∧ c ≤ 'f'
    · rw [if_pos hlower]
      have hle : c.toNat ≤ 102 := Char.le_def.mp hlower.2
      omega
    · rw [if_neg hlower]
      have hle : c.toNat ≤ 70 := Char.le_def.mp (hc.resolve_left hlower).2
      omega

theorem ofDigits_lt {digits : List Char} (hdigits : ∀ c ∈ digits, c.isDigit = true) :
    ofDigits 10 digits < 10 ^ digits.length :=
  ofDigits_lt_pow (by decide) fun c hc => digitValue_lt_of_isDigit (hdigits c hc)

theorem inRange_places {whole fraction : List Char}
    (hdigits : ∀ c ∈ whole ++ fraction, c.isDigit = true)
    (hlength : (whole ++ fraction).length ≤ 255) :
    (Numeral.finite (places whole fraction)).InRange := by
  have hpow : ∀ n ≤ 255, (10 : ℚ) ^ n ≤ 2 ^ 1020 := by
    intro n hn
    calc (10 : ℚ) ^ n ≤ 16 ^ n := by gcongr; norm_num
      _ = 2 ^ (4 * n) := by rw [pow_mul]; norm_num
      _ ≤ 2 ^ 1020 := by
          gcongr
          · norm_num
          · omega
  have hlt : (ofDigits 10 (whole ++ fraction) : ℚ) ≤ 10 ^ (whole ++ fraction).length := by
    exact_mod_cast (ofDigits_lt hdigits).le
  have hfraction : fraction.length ≤ 255 := by
    rw [List.length_append] at hlength
    omega
  simp only [Numeral.InRange, places, zpow_neg, zpow_natCast, ← div_eq_mul_inv]
  rcases Nat.eq_zero_or_pos (ofDigits 10 (whole ++ fraction)) with hzero | hpos
  · exact .inl (by simp [hzero])
  · have hone : (1 : ℚ) ≤ ofDigits 10 (whole ++ fraction) := by exact_mod_cast hpos
    refine .inr ⟨?_, ?_⟩
    · refine div_le_div₀ (by positivity) hone (by positivity) ?_
      calc (10 : ℚ) ^ fraction.length ≤ 2 ^ 1020 := hpow _ hfraction
        _ ≤ 2 ^ 1022 := by gcongr <;> norm_num
    · calc (ofDigits 10 (whole ++ fraction) : ℚ) / 10 ^ fraction.length
          ≤ ofDigits 10 (whole ++ fraction) :=
            div_le_self (by positivity) (one_le_pow₀ (by norm_num))
        _ ≤ 2 ^ 1020 := hlt.trans (hpow _ hlength)
        _ = 2 ^ 49 * 2 ^ 971 := by rw [← pow_add]
        _ ≤ (2 ^ 53 - 1) * 2 ^ 971 := by gcongr; norm_num

/-! ## Texts that begin with a number -/

/-- After white space and a sign there is a digit, a point with a digit, or one
of the words for values that are no numbers. -/
def BeginsWithNumber (text : List Char) : Prop :=
  let rest := (splitSign (text.dropWhile isSpace)).2
  (∃ c ∈ rest.head?, c.isDigit = true) ∨
    (∃ c more, rest = '.' :: c :: more ∧ c.isDigit = true) ∨
    ['i', 'n', 'f'] <+: rest.map Char.toLower ∨ ['n', 'a', 'n'] <+: rest.map Char.toLower

theorem read_ne_none_iff (text : List Char) :
    decimal.read text ≠ none ↔
      (∃ c ∈ text.head?, c.isDigit = true) ∨
        ∃ c more, text = '.' :: c :: more ∧ c.isDigit = true := by
  have hread : decimal.read text ≠ none ↔
      text.takeWhile Char.isDigit ++
        (splitFraction Char.isDigit (text.dropWhile Char.isDigit)).1 ≠ [] := by
    rw [NumberFormat.read]
    split
    split_ifs with hnil <;> simp_all [decimal]
  rw [hread]
  cases text with
  | nil => simp [splitFraction]
  | cons first rest =>
      by_cases hfirst : first.isDigit = true
      · simp [hfirst]
      · rw [List.takeWhile_cons_of_neg hfirst, List.dropWhile_cons_of_neg hfirst]
        by_cases hpoint : first = '.'
        · cases rest with
          | nil => simp [splitFraction, hpoint]
          | cons second rest =>
              by_cases hsecond : second.isDigit = true <;>
                simp [splitFraction, hpoint, hsecond]
        · simp [splitFraction, hpoint, hfirst]

theorem isDigit_of_readHexadecimal {text : List Char} (htext : readHexadecimal text ≠ none) :
    ∃ c ∈ text.head?, c.isDigit = true := by
  unfold readHexadecimal at htext
  split at htext
  · next zero x rest =>
      split_ifs at htext with hzero
      · exact ⟨zero, rfl, by rw [hzero.1]; rfl⟩
      · exact absurd rfl htext
  · exact absurd rfl htext

theorem readUnsigned_ne_none_iff (text : List Char) :
    readUnsigned text ≠ none ↔
      (∃ c ∈ text.head?, c.isDigit = true) ∨
        (∃ c more, text = '.' :: c :: more ∧ c.isDigit = true) ∨
        ['i', 'n', 'f'] <+: text.map Char.toLower ∨
        ['n', 'a', 'n'] <+: text.map Char.toLower := by
  have hread := read_ne_none_iff text
  unfold readUnsigned
  cases hhexadecimal : readHexadecimal text with
  | some magnitude =>
      have hdigit : ∃ c ∈ text.head?, c.isDigit = true :=
        isDigit_of_readHexadecimal (by rw [hhexadecimal]; exact Option.some_ne_none _)
      exact iff_of_true (Option.some_ne_none _) (.inl hdigit)
  | none =>
      rw [← or_assoc, ← hread]
      cases decimal.read text with
      | some magnitude => simp
      | none =>
          split_ifs with hinf hnan <;> simp [*]

theorem readNumber_ne_none_iff (text : List Char) :
    readNumber text ≠ none ↔ BeginsWithNumber text := by
  rw [BeginsWithNumber, ← readUnsigned_ne_none_iff, readNumber]
  simp

end FloatText
