import SensorHub.RegexSyntax
import SensorHub.ScaleConfig

/-!
# The Runwell device

`Regex_device::set_options` builds a filter for every quantity that has one in
the options, and the Runwell device passes it eight expressions that are written
out one by one.  All of them are expressions of the same eight fields between
commas, each with another field captured.  So they match the same lines, the
shared cursor of the parser never leaves a filter behind, and every line gives
one value for each of the quantities.  What counts as a line is up to the library
that matches the expressions: a carriage return or a form feed ends one as well.
-/

namespace SensorHub.Regex

open Scaling (quantityName get)

/-! ## Options -/

section Options

variable {K : Type} [Zero K] [One K]

variable (regex : String → Option (List Char → Option RegexMatch))
  (readDouble : String → Option K) (options : String → Option String)

theorem quantities_ordered :
    Quantity.all.Pairwise fun a b => a.index < b.index := by
  decide +kernel

/-- The filter of a quantity with the settings of ten groups. -/
def quantityFilter (quantity : Quantity)
    (search : List Char → Option RegexMatch) : QuantityFilter K :=
  let path (setting : String) (index : ℕ) :=
    quantityName quantity ++ "." ++ setting ++ toString index
  { search
    multipliers := (List.range 10).map fun index =>
      get readDouble options (path "multiplier" index) 1
    offsets := (List.range 10).map fun index =>
      get readDouble options (path "offset" index) 0
    formats := (List.range 10).map fun index =>
      (get some options (path "format" index) "f").toList }

/-- The filters after `set_options`, which keeps those that exist; `none` when
an expression is refused with an exception. -/
def setOptions (filters : QuantityFilters K) : Option (QuantityFilters K) :=
  let expression (quantity : Quantity) := options (quantityName quantity ++ ".filter")
  if ∀ quantity ∈ Quantity.all, ∀ text ∈ expression quantity,
      (regex text).isSome then
    some
      { entries := Quantity.all.filterMap fun quantity =>
          ((filters.entries.lookup quantity).or
            (((expression quantity).bind regex).map
              (quantityFilter readDouble options quantity))).map
            (Prod.mk quantity)
        ordered := by
          refine quantities_ordered.filterMap _
            fun a b hlt entry hentry entry' hentry' => ?_
          obtain ⟨_, -, rfl⟩ := Option.map_eq_some_iff.mp hentry
          obtain ⟨_, -, rfl⟩ := Option.map_eq_some_iff.mp hentry'
          exact hlt }
  else none

end Options

end SensorHub.Regex

namespace SensorHub.Runwell

open Regex
open Scaling (quantityName get)

/-! ## Built-in filters -/

def regexOptions : List (String × String) :=
  [("md0.filter",
    "^([0-2]),[0-2],[0-9]+,[0-9\\-.]+,[0-9\\-.]+,[0-9\\-.]+,[0-9\\-.]+,[0-9\\-.]+$"),
   ("md1.filter",
    "^[0-2],([0-2]),[0-9]+,[0-9\\-.]+,[0-9\\-.]+,[0-9\\-.]+,[0-9\\-.]+,[0-9\\-.]+$"),
   ("sts0.filter",
    "^[0-2],[0-2],([0-9]+),[0-9\\-.]+,[0-9\\-.]+,[0-9\\-.]+,[0-9\\-.]+,[0-9\\-.]+$"),
   ("frq.filter",
    "^[0-2],[0-2],[0-9]+,([0-9\\-.]+),[0-9\\-.]+,[0-9\\-.]+,[0-9\\-.]+,[0-9\\-.]+$"),
   ("vset.filter",
    "^[0-2],[0-2],[0-9]+,[0-9\\-.]+,([0-9\\-.]+),[0-9\\-.]+,[0-9\\-.]+,[0-9\\-.]+$"),
   ("vsig.filter",
    "^[0-2],[0-2],[0-9]+,[0-9\\-.]+,[0-9\\-.]+,([0-9\\-.]+),[0-9\\-.]+,[0-9\\-.]+$"),
   ("vsup.filter",
    "^[0-2],[0-2],[0-9]+,[0-9\\-.]+,[0-9\\-.]+,[0-9\\-.]+,([0-9\\-.]+),[0-9\\-.]+$"),
   ("isup.filter",
    "^[0-2],[0-2],[0-9]+,[0-9\\-.]+,[0-9\\-.]+,[0-9\\-.]+,[0-9\\-.]+,([0-9\\-.]+)$")]

section Filters

variable {K : Type} [Zero K] [One K]

def builtInFilters (regex : String → Option (List Char → Option RegexMatch))
    (readDouble : String → Option K) : Option (QuantityFilters K) :=
  setOptions regex readDouble (regexOptions.lookup ·) ⟨[], List.Pairwise.nil⟩

end Filters

/-! ## Messages -/

def messageQuantities : List Quantity :=
  [.md0, .md1, .sts0, .frq, .vset, .vsig, .vsup, .isup]

def isMode (field : List Char) : Bool :=
  field = ['0'] || field = ['1'] || field = ['2']

def isNumber (field : List Char) : Bool :=
  !field.isEmpty && field.all Char.isDigit

def isDecimal (field : List Char) : Bool :=
  !field.isEmpty && field.all fun char => char.isDigit || char = '-' || char = '.'

/-- The fields of a line of the form `m,m,n,f,f,f,f,f`. -/
def messageFields (line : List Char) : Option (List (List Char)) :=
  match line.splitOn ',' with
  | [mode0, mode1, status, field3, field4, field5, field6, field7] =>
      if isMode mode0 && isMode mode1 && isNumber status &&
          [field3, field4, field5, field6, field7].all isDecimal then
        some [mode0, mode1, status, field3, field4, field5, field6, field7]
      else none
  | _ => none

/-! ## One expression with another field captured -/

def modePart : Part :=
  ⟨[.range '0' '2'], false, false⟩

def numberPart : Part :=
  ⟨[.range '0' '9'], true, false⟩

def decimalPart : Part :=
  ⟨[.range '0' '9', .single '-', .single '.'], true, false⟩

def messageParts : List Part :=
  [modePart, modePart, numberPart, decimalPart, decimalPart, decimalPart,
   decimalPart, decimalPart]

/-- The expression that captures the field with some index. -/
def fieldExpression (index : ℕ) : List Part :=
  (messageParts.modify index Part.captureIt).intersperse (separatorPart ',')

/-- The eight expressions differ in the captured field only. -/
theorem readExpression_regexOptions :
    ∀ quantity ∈ Quantity.all,
      (regexOptions.lookup (quantityName quantity ++ ".filter")).map
          (fun text => readExpression text.toList) =
        if quantity ∈ messageQuantities then
          some (some (fieldExpression (messageQuantities.idxOf quantity)))
        else none := by
  decide +kernel

theorem lookup_regexOptions_toString (setting : String) {index : ℕ}
    (hindex : index ∈ List.range 10) :
    regexOptions.lookup (setting ++ toString index) = none := by
  have hkey : ∀ entry ∈ regexOptions, entry.1.toList.getLast? = some 'r' := by
    decide +kernel
  have hdigit : ∀ index ∈ List.range 10,
      (toString index).toList.getLast? ≠ none ∧
        (toString index).toList.getLast? ≠ some 'r' := by
    decide +kernel
  rw [List.lookup_eq_none_iff]
  intro entry hentry
  rw [bne_iff_ne]
  intro hpath
  have hlast := hkey entry hentry
  obtain ⟨last, hlast'⟩ := Option.ne_none_iff_exists'.mp (hdigit index hindex).1
  rw [← hpath, String.toList_append, List.getLast?_append, hlast', Option.some_or,
    ← hlast'] at hlast
  exact (hdigit index hindex).2 hlast

theorem mode_iff (char : Char) :
    ('0' ≤ char ∧ char ≤ '2') ↔ char = '0' ∨ char = '1' ∨ char = '2' := by
  constructor
  · rintro ⟨hlow, hhigh⟩
    have hlow : 48 ≤ char.toNat := hlow
    have hhigh : char.toNat ≤ 50 := hhigh
    have hchar : char.toNat = 48 ∨ char.toNat = 49 ∨ char.toNat = 50 := by omega
    rw [← Char.ofNat_toNat char]
    rcases hchar with h | h | h <;> simp [h]
  · rintro (rfl | rfl | rfl) <;> decide

theorem fits_modePart (field : List Char) : modePart.fits field = isMode field := by
  rcases field with _ | ⟨char, _ | ⟨next, field⟩⟩
  · rfl
  · rw [Bool.eq_iff_iff]
    simp [Part.fits, modePart, Part.accepts, ClassItem.accepts, isMode,
      mode_iff, or_assoc]
  · simp [Part.fits, modePart, isMode]

theorem fits_numberPart (field : List Char) :
    numberPart.fits field = isNumber field := by
  have hdigit : numberPart.accepts = Char.isDigit := by
    funext char
    simp [numberPart, Part.accepts, ClassItem.accepts, Char.isDigit, Char.le_def]
  rw [Part.fits, hdigit]
  simp [numberPart, isNumber]

theorem fits_decimalPart (field : List Char) :
    decimalPart.fits field = isDecimal field := by
  have hdecimal : decimalPart.accepts =
      fun char => char.isDigit || char = '-' || char = '.' := by
    funext char
    simp [decimalPart, Part.accepts, ClassItem.accepts, Char.isDigit,
      Char.le_def, Bool.or_assoc]
  rw [Part.fits, hdecimal]
  simp [decimalPart, isDecimal]

theorem messageFields_eq (line : List Char) :
    messageFields line =
      if FieldsFit messageParts (line.splitOn ',') then some (line.splitOn ',')
      else none := by
  have hfit : ∀ mode0 mode1 status field3 field4 field5 field6 field7,
      FieldsFit messageParts
          [mode0, mode1, status, field3, field4, field5, field6, field7] ↔
        isMode mode0 && isMode mode1 && isNumber status &&
          [field3, field4, field5, field6, field7].all isDecimal := by
    simp [messageParts, fits_modePart, fits_numberPart, fits_decimalPart,
      and_assoc]
  rw [messageFields]
  split
  · next heq => rw [heq, if_congr (hfit ..) rfl rfl]
  · next hother =>
      rw [if_neg]
      intro hfits
      simp only [messageParts, List.forall₂_cons_left_iff,
        List.forall₂_nil_left_iff] at hfits
      obtain ⟨_, _, -, ⟨_, _, -, ⟨_, _, -, ⟨_, _, -, ⟨_, _, -, ⟨_, _, -,
        ⟨_, _, -, ⟨_, _, -, rfl, rfl⟩, rfl⟩, rfl⟩, rfl⟩, rfl⟩, rfl⟩, rfl⟩,
        hfields⟩ := hfits
      exact hother _ _ _ _ _ _ _ _ hfields

theorem messageParts_uncaptured : ∀ part ∈ messageParts, part.captured = false := by
  decide

theorem messageParts_comma :
    ∀ part ∈ messageParts, part.accepts ',' = false := by
  decide

theorem accepts_comma : ∀ index < 8,
    ∀ part ∈ messageParts.modify index Part.captureIt,
      part.accepts ',' = false := by
  decide

theorem fieldExpression_ne_nil (index : ℕ) : fieldExpression index ≠ [] := by
  rw [fieldExpression, ← List.length_pos_iff, List.length_intersperse,
    List.length_modify]
  decide

/-- The eight expressions match the same lines. -/
theorem matchParts_fieldExpression {index : ℕ} (hindex : index < 8)
    (line : List Char) :
    matchParts (fieldExpression index) line =
      (messageFields line).map fun fields => [fields[index]?] := by
  have hne : messageParts.modify index Part.captureIt ≠ [] := by
    rw [← List.length_pos_iff, List.length_modify]
    decide
  rw [fieldExpression, matchParts_intersperse hne (accepts_comma index hindex),
    matchFields_captureIt messageParts_uncaptured hindex, messageFields_eq]
  split <;> rfl

/-! ## Filters of the device -/

theorem messageQuantities_getElem? {index : ℕ} {quantity : Quantity} :
    messageQuantities[index]? = some quantity ↔
      quantity ∈ messageQuantities ∧ messageQuantities.idxOf quantity = index := by
  have hnodup : messageQuantities.Nodup := by decide
  constructor
  · intro hquantity
    obtain ⟨hlt, rfl⟩ := List.getElem?_eq_some_iff.mp hquantity
    exact ⟨List.getElem_mem hlt, hnodup.idxOf_getElem index hlt⟩
  · rintro ⟨hmem, rfl⟩
    rw [List.getElem?_eq_getElem (List.idxOf_lt_length_iff.mpr hmem),
      List.getElem_idxOf]

section Device

variable {K : Type} [AddZeroClass K] [MulOneClass K]

def fieldFilter (index : ℕ) : QuantityFilter K where
  search := searchLines (matchParts (fieldExpression index))
  multipliers := List.replicate 10 1
  offsets := List.replicate 10 0
  formats := List.replicate 10 ['f']

variable {regex : String → Option (List Char → Option RegexMatch)}
  {readDouble : String → Option K}

omit [AddZeroClass K] [MulOneClass K] in
theorem quantityFilter_eq [Zero K] [One K] (quantity : Quantity)
    (search : List Char → Option RegexMatch) :
    quantityFilter readDouble (regexOptions.lookup ·) quantity search =
      ⟨search, List.replicate 10 1, List.replicate 10 0,
        List.replicate 10 ['f']⟩ := by
  have hdefault : ∀ {α β : Type} (read : String → Option α) (setting : String)
      (default : α) (f : α → β),
      (List.range 10).map (fun index =>
          f (get read (regexOptions.lookup ·) (setting ++ toString index) default)) =
        List.replicate 10 (f default) := by
    intro α β read setting default f
    rw [← List.length_range (n := 10), ← List.map_const', List.length_range]
    refine List.map_congr_left fun index hindex => ?_
    rw [Scaling.get, lookup_regexOptions_toString setting hindex]
    rfl
  simp only [quantityFilter, QuantityFilter.mk.injEq, true_and]
  exact ⟨hdefault readDouble _ 1 id, hdefault readDouble _ 0 id,
    hdefault some _ "f" String.toList⟩

variable (hregex : ∀ text parts, readExpression text.toList = some parts →
  parts ≠ [] → regex text = some (searchParts parts))

include hregex

theorem regex_regexOptions {quantity : Quantity} (hmem : quantity ∈ Quantity.all) :
    (regexOptions.lookup (quantityName quantity ++ ".filter")).bind regex =
      if quantity ∈ messageQuantities then
        some (searchParts (fieldExpression (messageQuantities.idxOf quantity)))
      else none := by
  have hread := readExpression_regexOptions quantity hmem
  split
  · next hmessage =>
      rw [if_pos hmessage, Option.map_eq_some_iff] at hread
      obtain ⟨text, htext, hparts⟩ := hread
      rw [htext, Option.bind_some, hregex text _ hparts]
      exact fieldExpression_ne_nil _
  · next hmessage =>
      rw [if_neg hmessage, Option.map_eq_none_iff] at hread
      rw [hread, Option.bind_none]

theorem builtInFilters_spec (readDouble : String → Option K) :
    ∃ filters, builtInFilters regex readDouble = some filters ∧
      ∀ entry, entry ∈ filters.entries ↔
        ∃ index, messageQuantities[index]? = some entry.1 ∧
          entry.2 = (fieldFilter index).through newlineFor := by
  have hsome : ∀ quantity ∈ Quantity.all,
      ∀ text ∈ regexOptions.lookup (quantityName quantity ++ ".filter"),
        (regex text).isSome := by
    intro quantity hmem text htext
    have hbind := regex_regexOptions hregex hmem
    have hread := readExpression_regexOptions quantity hmem
    rw [Option.mem_def.mp htext] at hbind hread
    split at hread
    · next hmessage =>
        rw [if_pos hmessage, Option.bind_some] at hbind
        rw [hbind]
        rfl
    · simp at hread
  have hall : ∀ quantity ∈ messageQuantities, quantity ∈ Quantity.all := by
    decide
  refine ⟨_, if_pos hsome, fun entry => ?_⟩
  simp only [List.mem_filterMap, List.lookup_nil, Option.none_or]
  constructor
  · rintro ⟨quantity, hmem, hentry⟩
    rw [regex_regexOptions hregex hmem] at hentry
    split at hentry
    · next hmessage =>
        obtain rfl := Option.some.inj hentry
        exact ⟨_, messageQuantities_getElem?.mpr ⟨hmessage, rfl⟩,
          quantityFilter_eq _ _⟩
    · simp at hentry
  · obtain ⟨quantity, filter⟩ := entry
    rintro ⟨index, hindex, hfilter⟩
    dsimp only at hindex hfilter
    obtain ⟨hmessage, rfl⟩ := messageQuantities_getElem?.mp hindex
    subst hfilter
    refine ⟨quantity, hall quantity hmessage, ?_⟩
    rw [regex_regexOptions hregex (hall quantity hmessage), if_pos hmessage,
      Option.map_some, quantityFilter_eq]
    rfl

omit hregex

/-- The filters of the device are those of its fields which see the line ends as
newlines. -/
theorem exists_plainFilters {filters : QuantityFilters K}
    (hentries : ∀ entry, entry ∈ filters.entries ↔
      ∃ index, messageQuantities[index]? = some entry.1 ∧
        entry.2 = (fieldFilter index).through newlineFor) :
    ∃ plain : QuantityFilters K,
      filters.entries =
          plain.entries.map (Prod.map id (QuantityFilter.through newlineFor)) ∧
        ∀ entry, entry ∈ plain.entries ↔
          ∃ index, messageQuantities[index]? = some entry.1 ∧
            entry.2 = fieldFilter index := by
  let plain (entry : Quantity × QuantityFilter K) : Quantity × QuantityFilter K :=
    (entry.1, fieldFilter (messageQuantities.idxOf entry.1))
  refine ⟨⟨filters.entries.map plain, ?_⟩, ?_, fun entry => ?_⟩
  · exact List.pairwise_map.mpr filters.ordered
  · rw [List.map_map]
    refine (List.map_id _).symm.trans (List.map_congr_left fun entry hmem => ?_)
    obtain ⟨index, hindex, hfilter⟩ := (hentries entry).mp hmem
    obtain ⟨-, rfl⟩ := messageQuantities_getElem?.mp hindex
    exact Prod.ext rfl hfilter
  · simp only [List.mem_map, plain]
    constructor
    · rintro ⟨entry, hmem, rfl⟩
      obtain ⟨index, hindex, -⟩ := (hentries entry).mp hmem
      obtain ⟨-, rfl⟩ := messageQuantities_getElem?.mp hindex
      exact ⟨_, hindex, rfl⟩
    · obtain ⟨quantity, filter⟩ := entry
      rintro ⟨index, hindex, hfilter⟩
      dsimp only at hindex hfilter
      subst hfilter
      have hidx := (messageQuantities_getElem?.mp hindex).2
      exact ⟨_, (hentries (quantity, _)).mpr ⟨index, hindex, rfl⟩, by rw [hidx]⟩

/-! ## Values of the lines -/

theorem lt_of_messageQuantities {index : ℕ} {quantity : Quantity}
    (hquantity : messageQuantities[index]? = some quantity) : index < 8 :=
  (List.getElem?_eq_some_iff.mp hquantity).1

theorem fieldFilter_search {index : ℕ} (hindex : index < 8) {line : List Char}
    (hline : '\n' ∉ line) :
    (fieldFilter (K := K) index).search line =
      (messageFields line).map fun fields =>
        ⟨0, line.length, [fields[index]?]⟩ := by
  refine (searchLines_of_not_mem hline).trans ?_
  rw [matchParts_fieldExpression hindex, Option.map_map]
  rfl

theorem lineFilter_fieldFilter {index : ℕ} (hindex : index < 8) :
    LineFilter (fieldFilter (K := K) index).search :=
  lineFilter_searchLines (matchParts_fieldExpression hindex [])

theorem field_of_messageFields {line : List Char} {fields : List (List Char)}
    (hfields : messageFields line = some fields) {index : ℕ} (hindex : index < 8) :
    ∃ field, fields[index]? = some field ∧ ',' ∉ field := by
  rw [messageFields_eq, Option.ite_none_right_eq_some] at hfields
  obtain ⟨hfits, heq⟩ := hfields
  rw [Option.some.inj heq] at hfits
  have hlt : index < fields.length := hfits.length_eq ▸ hindex
  exact ⟨fields[index], List.getElem?_eq_getElem hlt,
    not_mem_of_fieldsFit hfits messageParts_comma _ (List.getElem_mem hlt)⟩

theorem decimalPoint_of_not_mem {text : List Char} (htext : ',' ∉ text) :
    decimalPoint text = text := by
  have hreplace : replaceLast ',' '.' text = text := by
    rw [replaceLast, List.replace_of_not_mem (by simpa using htext),
      List.reverse_reverse]
  simp only [decimalPoint, hreplace, ite_self]
  exact List.filter_eq_self.mpr fun char hmem =>
    decide_eq_true (ne_of_mem_of_not_mem hmem htext)

theorem matchValue_fieldFilter (conversions : Conversions K) {field : List Char}
    (hfield : ',' ∉ field) (index first second : ℕ) :
    (fieldFilter index).matchValue conversions ⟨first, second, [some field]⟩ =
      conversions.stod field := by
  have hgroup : (fieldFilter index).groupValue conversions 0 field =
      conversions.stod field := by
    simp [QuantityFilter.groupValue, fieldFilter, Conversions.convert,
      decimalPoint_of_not_mem hfield]
  rw [QuantityFilter.matchValue, QuantityFilter.addGroups, hgroup]
  cases conversions.stod field with
  | none => rfl
  | some value => simp [QuantityFilter.addGroups]

/-- The value that a line gives for the quantity of a field. -/
def lineValue (conversions : Conversions K) (index : ℕ) (line : List Char) :
    Option K :=
  (messageFields line).bind fun fields =>
    fields[index]?.bind conversions.stod

theorem pushed_of_line (conversions : Conversions K) (stamp : K) {index : ℕ}
    (hindex : index < 8) {line : List Char} (hline : '\n' ∉ line)
    (start : ℕ) (quantity : Quantity) :
    (((fieldFilter (K := K) index).search line).map
        (findingAt conversions start quantity (fieldFilter index))).bind
        (Finding.pushed stamp) =
      (lineValue conversions index line).map fun value =>
        ⟨⟨value, stamp⟩, quantity⟩ := by
  rw [fieldFilter_search hindex hline, lineValue]
  cases hfields : messageFields line with
  | none => rfl
  | some fields =>
      obtain ⟨field, hfield, hcomma⟩ := field_of_messageFields hfields hindex
      simp only [Option.map_some, Option.bind_some, findingAt, Finding.pushed,
        hfield, matchValue_fieldFilter conversions hcomma]

theorem lineFindings_fieldFilter (conversions : Conversions K) (stamp : K)
    {index : ℕ} (hindex : index < 8) (quantity : Quantity)
    {lines : List (List Char)} (hlines : ∀ line ∈ lines, '\n' ∉ line)
    (start : ℕ) :
    (lineFindings conversions quantity (fieldFilter index) start lines).filterMap
        (Finding.pushed stamp) =
      lines.filterMap fun line =>
        (lineValue conversions index line).map fun value =>
          ⟨⟨value, stamp⟩, quantity⟩ := by
  induction lines generalizing start with
  | nil => rfl
  | cons line lines ih =>
      rw [List.forall_mem_cons] at hlines
      rw [lineFindings, List.filterMap_append, ih hlines.2, List.filterMap_cons,
        ← pushed_of_line conversions stamp hindex hlines.1 start quantity]
      cases ((fieldFilter (K := K) index).search line).map
          (findingAt conversions start quantity (fieldFilter index)) with
      | none => rfl
      | some finding =>
          rw [Option.toList_some, List.filterMap_cons, Option.bind_some]
          cases finding.pushed stamp <;> rfl

omit [AddZeroClass K] [MulOneClass K] in
theorem filter_pushed (findings : List (Finding K)) (stamp : K)
    (quantity : Quantity) :
    ((findings.filterMap (Finding.pushed stamp)).filter
        fun value => value.quantity = quantity) =
      (findings.filter fun finding => finding.quantity = quantity).filterMap
        (Finding.pushed stamp) := by
  rw [List.filter_filterMap, List.filterMap_filter]
  refine List.filterMap_congr fun finding _ => ?_
  rw [Finding.pushed]
  cases finding.value with
  | none => simp
  | some value => simp [Option.filter, eq_comm]

theorem value_ne_none_of_lineFindings {conversions : Conversions K}
    {index : ℕ} (hindex : index < 8) {quantity : Quantity}
    {lines : List (List Char)} (hlines : ∀ line ∈ lines, '\n' ∉ line)
    (hstod : ∀ line ∈ lines, ∀ fields, messageFields line = some fields →
      ∀ field ∈ fields, conversions.stod field ≠ none)
    {start : ℕ} {finding : Finding K}
    (hmem : finding ∈
      lineFindings conversions quantity (fieldFilter index) start lines) :
    finding.value ≠ none := by
  induction lines generalizing start with
  | nil => simp [lineFindings] at hmem
  | cons line lines ih =>
      rw [List.forall_mem_cons] at hlines hstod
      rw [lineFindings, List.mem_append] at hmem
      rcases hmem with hline | hlater
      · rw [fieldFilter_search hindex hlines.1, Option.mem_toList,
          Option.map_eq_some_iff] at hline
        obtain ⟨found, hfound, rfl⟩ := hline
        obtain ⟨fields, hfields, rfl⟩ := Option.map_eq_some_iff.mp hfound
        obtain ⟨field, hfield, hcomma⟩ := field_of_messageFields hfields hindex
        rw [findingAt, hfield, matchValue_fieldFilter conversions hcomma]
        exact hstod.1 fields hfields field (List.mem_of_getElem? hfield)
      · exact ih hlines.2 hstod.2 hlater

/-! ## The parser of the device -/

/-- Every filter ends its matches where the lines of the form end, so that none
is left behind. -/
theorem pushesEachLine_of_fieldFilters {conversions : Conversions K}
    {parser : RegexParser K}
    (hentries : ∀ entry ∈ parser.filters.entries,
      ∃ index < 8, entry.2 = fieldFilter index)
    {lines : List (List Char)} (hlines : ∀ line ∈ lines, '\n' ∉ line)
    (hbuffer : parser.buffer = joinLines lines)
    (hstod : ∀ line ∈ lines, ∀ fields, messageFields line = some fields →
      ∀ field ∈ fields, conversions.stod field ≠ none) (stamp : K) :
    PushesEachLine conversions parser stamp lines := by
  have hline : ∀ entry ∈ parser.filters.entries, LineFilter entry.2.search := by
    intro entry hentry
    obtain ⟨index, hindex, hfilter⟩ := hentries entry hentry
    exact hfilter ▸ lineFilter_fieldFilter hindex
  have hsecond : ∀ entry ∈ parser.filters.entries, ∀ line ∈ lines,
      (entry.2.search line).map RegexMatch.second =
        (messageFields line).map fun _ => line.length := by
    intro entry hentry line hmem
    obtain ⟨index, hindex, hfilter⟩ := hentries entry hentry
    rw [hfilter, fieldFilter_search hindex (hlines line hmem), Option.map_map]
    rfl
  refine pushesEachLine_of_inStep stamp hline ?_
    (inStep_of_alike hline ?_ hlines hbuffer)
  · intro entry hentry finding hmem
    obtain ⟨index, hindex, hfilter⟩ := hentries entry hentry
    rw [hfilter] at hmem
    exact value_ne_none_of_lineFindings hindex hlines hstod hmem
  · intro entry hentry other hother line hmem
    rw [hsecond entry hentry line hmem, hsecond other hother line hmem]

/-- The text of each line of the form gives one value for each of the eight
quantities, and other lines give none. -/
theorem values_eq_lineValues
    (hregex : ∀ text parts, readExpression text.toList = some parts →
      parts ≠ [] → regex text = some (searchParts parts))
    (readDouble : String → Option K) (conversions : Conversions K)
    {lines : List EndedLine}
    (hstod : ∀ line ∈ lines, ∀ fields, messageFields line.text = some fields →
      ∀ field ∈ fields, conversions.stod field ≠ none)
    (values : List (StampedQuantity K)) (stamp : K) :
    ∃ filters, builtInFilters regex readDouble = some filters ∧
      let parsed := RegexParser.parse conversions
        ⟨joinEnded lines, values, filters⟩ stamp
      parsed.outcome = .returned ∧
        ∃ pushed, parsed.parser.values = values ++ pushed ∧
          ∀ index quantity, messageQuantities[index]? = some quantity →
            (pushed.filter fun value => value.quantity = quantity) =
              lines.filterMap fun line =>
                (lineValue conversions index line.text).map fun value =>
                  ⟨⟨value, stamp⟩, quantity⟩ := by
  obtain ⟨filters, hfilters, hentries⟩ :=
    builtInFilters_spec hregex readDouble
  refine ⟨filters, hfilters, ?_⟩
  obtain ⟨plain, hplain, hfields⟩ := exists_plainFilters hentries
  set parser : RegexParser K := ⟨joinEnded lines, values, filters⟩ with hparser
  set other : RegexParser K :=
    ⟨joinLines (lines.map EndedLine.text), values, plain⟩ with hother
  have hrounds : ∀ rounds cur,
      parser.parseRounds conversions rounds cur =
        other.parseRounds conversions rounds cur :=
    parseRounds_through newlineFor conversions (map_joinEnded lines).symm hplain
  have hlength : parser.buffer.length = other.buffer.length := by
    rw [hother, ← map_joinEnded, List.length_map]
  have hlines : ∀ text ∈ lines.map EndedLine.text, '\n' ∉ text :=
    List.forall_mem_map.mpr fun line _ => line.newline_not_mem
  have hfield : ∀ entry ∈ other.filters.entries,
      ∃ index < 8, entry.2 = fieldFilter index := by
    intro entry hentry
    obtain ⟨index, hindex, hfilter⟩ := (hfields entry).mp hentry
    exact ⟨index, lt_of_messageQuantities hindex, hfilter⟩
  obtain ⟨houtcome, -, hfindings⟩ :=
    pushesEachLine_of_fieldFilters hfield hlines rfl
      (List.forall_mem_map.mpr hstod) stamp
  have hparsed : (parser.parse conversions stamp).findings =
        (other.parse conversions stamp).findings ∧
      (parser.parse conversions stamp).outcome =
        (other.parse conversions stamp).outcome := by
    simp only [RegexParser.parse, hrounds, hlength, and_self]
  refine ⟨hparsed.2.trans houtcome,
    (parser.parse conversions stamp).findings.filterMap (Finding.pushed stamp), rfl,
    fun index quantity hquantity => ?_⟩
  have hentry : (quantity, fieldFilter index) ∈ other.filters.entries :=
    (hfields _).mpr ⟨index, hquantity, rfl⟩
  rw [hparsed.1, filter_pushed, hfindings _ hentry,
    lineFindings_fieldFilter conversions stamp
      (lt_of_messageQuantities hquantity) quantity hlines, List.filterMap_map]
  rfl

end Device

/-- A message of whole numbers that ends with a carriage return, an answer to
another request, and one more. -/
theorem values_eq_lineValues_twoMessages :
    let text := "1,0,224,69767,18,19,27,0\r\nInvalid request\n2,1,7,69768,18,19,28,1\n"
    ∃ filters, builtInFilters searchExpression (fun _ => none) = some filters ∧
      let parsed := RegexParser.parse wholeNumbers ⟨text.toList, [], filters⟩ 5
      parsed.outcome = .returned ∧
        (parsed.parser.values.filter fun value => value.quantity = .frq) =
          [⟨⟨69767, 5⟩, .frq⟩, ⟨⟨69768, 5⟩, .frq⟩] := by
  intro text
  let lines : List EndedLine :=
    [⟨"1,0,224,69767,18,19,27,0".toList, '\r', by decide +kernel, rfl⟩,
      ⟨[], '\n', by decide +kernel, rfl⟩,
      ⟨"Invalid request".toList, '\n', by decide +kernel, rfl⟩,
      ⟨"2,1,7,69768,18,19,28,1".toList, '\n', by decide +kernel, rfl⟩]
  have htext : text.toList = joinEnded lines := by decide +kernel
  have hstod : ∀ line ∈ lines, ∀ fields, messageFields line.text = some fields →
      ∀ field ∈ fields, wholeNumbers.stod field ≠ none :=
    fun _ _ _ _ _ _ => Option.some_ne_none _
  obtain ⟨filters, hfilters, houtcome, pushed, hvalues, hpushed⟩ :=
    values_eq_lineValues (fun _ _ => searchExpression_eq) (fun _ => none)
      wholeNumbers hstod [] 5
  rw [← htext] at houtcome hvalues
  refine ⟨filters, hfilters, houtcome, ?_⟩
  rw [hvalues, List.nil_append, hpushed 3 .frq rfl]
  decide +kernel

/-- With a carriage return before its newline, a line that is not of the form
gives the eight values of the text before the carriage return. -/
theorem values_ne_of_carriageReturn :
    let line := "1,0,224,69767,18,19,27,0\r".toList
    let parsed := (builtInFilters searchExpression fun _ => none).map fun filters =>
      RegexParser.parse wholeNumbers ⟨joinLines [line], [], filters⟩ 5
    '\n' ∉ line ∧ messageFields line = none ∧
      parsed.map (fun parsed => parsed.parser.values) =
        some [⟨⟨27, 5⟩, .vsup⟩, ⟨⟨0, 5⟩, .isup⟩, ⟨⟨18, 5⟩, .vset⟩, ⟨⟨19, 5⟩, .vsig⟩,
          ⟨⟨69767, 5⟩, .frq⟩, ⟨⟨224, 5⟩, .sts0⟩, ⟨⟨1, 5⟩, .md0⟩, ⟨⟨0, 5⟩, .md1⟩] := by
  decide +kernel

end SensorHub.Runwell
