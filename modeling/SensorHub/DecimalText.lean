import Mathlib.Tactic

/-!
# Decimal numbers as text

A decimal has an optional sign, at least one digit before the point and maybe a
point with more digits.  Reading a text as an `int` accepts white space around
the number, but the whole text has to be a number and the number has to fit; so
a decimal is read as an `int` only when it has no point.
-/

namespace DecimalText

/-! ## Decimals -/

structure Decimal where
  /-- A minus sign or a plus sign, if there is one. -/
  sign : Option Bool
  digits : List (Fin 10)
  digits_ne_nil : digits ≠ []
  /-- The digits behind the point, if there is one. -/
  fraction : Option (List (Fin 10))

def digitChar (digit : Fin 10) : Char :=
  Char.ofNat ('0'.toNat + digit.val)

def ofDigits (digits : List (Fin 10)) : ℕ :=
  digits.foldl (fun number digit => 10 * number + digit.val) 0

namespace Decimal

def signChars (decimal : Decimal) : List Char :=
  match decimal.sign with
  | none => []
  | some true => ['-']
  | some false => ['+']

def fractionChars (decimal : Decimal) : List Char :=
  match decimal.fraction with
  | none => []
  | some digits => '.' :: digits.map digitChar

def text (decimal : Decimal) : String :=
  String.ofList (decimal.signChars ++ decimal.digits.map digitChar ++ decimal.fractionChars)

/-- The number in front of the point. -/
def whole (decimal : Decimal) : ℤ :=
  if decimal.sign = some true then -ofDigits decimal.digits else ofDigits decimal.digits

def value {K : Type*} [Field K] (decimal : Decimal) : K :=
  let part := decimal.fraction.getD []
  let magnitude : K := ofDigits decimal.digits + ofDigits part / (10 ^ part.length : ℕ)
  if decimal.sign = some true then -magnitude else magnitude

/-- A decimal that is written as an `int`. -/
def IsInt (decimal : Decimal) : Prop :=
  decimal.fraction = none ∧ -2 ^ 31 ≤ decimal.whole ∧ decimal.whole < 2 ^ 31

end Decimal

/-! ## Reading an int -/

/-- `std::isspace` -/
def isSpace (c : Char) : Bool :=
  c = ' ' || c = '\t' || c = '\n' || c = '\x0b' || c = '\x0c' || c = '\r'

def trim (chars : List Char) : List Char :=
  ((chars.dropWhile isSpace).reverse.dropWhile isSpace).reverse

def readNat (chars : List Char) : Option ℕ :=
  if chars ≠ [] ∧ chars.all Char.isDigit then
    some (chars.foldl (fun number c => 10 * number + (c.toNat - '0'.toNat)) 0)
  else
    none

def fitInt (number : ℤ) : Option ℤ :=
  if -2 ^ 31 ≤ number ∧ number < 2 ^ 31 then some number else none

def splitSign : List Char → Bool × List Char
  | [] => (false, [])
  | c :: chars =>
      if c = '-' then (true, chars)
      else if c = '+' then (false, chars)
      else (false, c :: chars)

/-- Extraction of an `int` that has to use up the whole text. -/
def readInt (text : String) : Option ℤ :=
  let (negative, chars) := splitSign (trim text.toList)
  (readNat chars).bind fun number => fitInt (if negative then -number else number)

theorem isDigit_digitChar (digit : Fin 10) : (digitChar digit).isDigit = true := by
  revert digit
  decide

theorem toNat_digitChar (digit : Fin 10) :
    (digitChar digit).toNat - '0'.toNat = digit.val := by
  revert digit
  decide

theorem digitChar_ne (digit : Fin 10) :
    digitChar digit ≠ '-' ∧ digitChar digit ≠ '+' ∧ isSpace (digitChar digit) = false := by
  revert digit
  decide

theorem dropWhile_isSpace {chars : List Char} (hchars : ∀ c ∈ chars, isSpace c = false) :
    chars.dropWhile isSpace = chars := by
  cases chars with
  | nil => rfl
  | cons c chars => rw [List.dropWhile_cons_of_neg (by simp [hchars c List.mem_cons_self])]

theorem trim_eq_self {chars : List Char} (hchars : ∀ c ∈ chars, isSpace c = false) :
    trim chars = chars := by
  have hreverse : ∀ c ∈ chars.reverse, isSpace c = false :=
    fun c hc => hchars c (List.mem_reverse.mp hc)
  rw [trim, dropWhile_isSpace hchars, dropWhile_isSpace hreverse, List.reverse_reverse]

theorem readNat_digits {digits : List (Fin 10)} (hdigits : digits ≠ []) :
    readNat (digits.map digitChar) = some (ofDigits digits) := by
  have hall : (digits.map digitChar).all Char.isDigit = true := by
    simp [isDigit_digitChar]
  rw [readNat, if_pos ⟨by simpa using hdigits, hall⟩, ofDigits, List.foldl_map]
  simp only [toNat_digitChar]

theorem readNat_point (before after : List Char) : readNat (before ++ '.' :: after) = none := by
  have hpoint : ¬((before ++ '.' :: after).all Char.isDigit = true) := by
    simp
  rw [readNat, if_neg fun h => hpoint h.2]

namespace Decimal

theorem not_isSpace (decimal : Decimal) :
    ∀ c ∈ decimal.text.toList, isSpace c = false := by
  intro c hc
  simp only [text, String.toList_ofList, List.mem_append] at hc
  rcases hc with (hsign | hdigit) | hfraction
  · unfold signChars at hsign
    split at hsign
    · cases hsign
    · rw [List.mem_singleton.mp hsign]
      rfl
    · rw [List.mem_singleton.mp hsign]
      rfl
  · obtain ⟨digit, -, rfl⟩ := List.mem_map.mp hdigit
    exact (digitChar_ne digit).2.2
  · unfold fractionChars at hfraction
    split at hfraction
    · cases hfraction
    · rcases List.mem_cons.mp hfraction with rfl | hdigit
      · rfl
      · obtain ⟨digit, -, rfl⟩ := List.mem_map.mp hdigit
        exact (digitChar_ne digit).2.2

theorem readNat_unsigned (decimal : Decimal) :
    readNat (decimal.digits.map digitChar ++ decimal.fractionChars) =
      if decimal.fraction = none then some (ofDigits decimal.digits) else none := by
  unfold fractionChars
  cases decimal.fraction with
  | none => rw [List.append_nil, readNat_digits decimal.digits_ne_nil, if_pos rfl]
  | some digits => exact readNat_point _ _

theorem splitSign_text (decimal : Decimal) :
    splitSign decimal.text.toList = (decide (decimal.sign = some true),
      decimal.digits.map digitChar ++ decimal.fractionChars) := by
  rw [text, String.toList_ofList, signChars]
  cases hsign : decimal.sign with
  | some negative => cases negative <;> rfl
  | none =>
      obtain ⟨first, digits, hdigits⟩ := List.exists_cons_of_ne_nil decimal.digits_ne_nil
      obtain ⟨hminus, hplus, -⟩ := digitChar_ne first
      simp [splitSign, hdigits, hminus, hplus]

/-- A decimal is read as an `int` exactly when it is written as one. -/
theorem readInt_text (decimal : Decimal) :
    readInt decimal.text =
      (if decimal.fraction = none then some decimal.whole else none).bind fitInt := by
  rw [readInt, trim_eq_self decimal.not_isSpace, splitSign_text, whole]
  simp only [readNat_unsigned, decide_eq_true_eq]
  split <;> rfl

theorem readInt_of_isInt {decimal : Decimal} (hint : decimal.IsInt) :
    readInt decimal.text = some decimal.whole := by
  rw [readInt_text, if_pos hint.1]
  exact if_pos hint.2

theorem readInt_of_not_isInt {decimal : Decimal} (hint : ¬decimal.IsInt) :
    readInt decimal.text = none := by
  rw [readInt_text]
  by_cases hfraction : decimal.fraction = none
  · rw [if_pos hfraction]
    exact if_neg fun hrange => hint ⟨hfraction, hrange⟩
  · rw [if_neg hfraction]
    rfl

theorem value_of_isInt {K : Type*} [Field K] {decimal : Decimal} (hint : decimal.IsInt) :
    decimal.value (K := K) = (decimal.whole : K) := by
  unfold value whole
  rw [hint.1]
  split <;> simp [ofDigits]

end Decimal

end DecimalText
