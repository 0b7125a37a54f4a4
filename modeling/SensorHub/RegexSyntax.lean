import SensorHub.RegexLines

/-!
# Expressions of character classes

The part of the expression syntax of the Boost library in which the built-in
filters are written: between the anchors of a line stands a sequence of single
characters and bracket expressions, each of which may be repeated and captured.
An expression in this part is read from its text, and it is matched as
documented: a part first takes as many characters as it can, and gives them back
when the parts behind it do not match.  The anchors match at newlines, carriage
returns and form feeds.

Parts between separators which they do not accept leave no choice: they match
the fields between the separators.
-/

namespace SensorHub.Regex

/-! ## Syntax -/

inductive ClassItem where
  | single (char : Char)
  | range (low high : Char)
  deriving DecidableEq, Repr

def ClassItem.accepts (char : Char) : ClassItem → Bool
  | .single other => char = other
  | .range low high => low ≤ char && char ≤ high

/-- A bracket expression, or a character as the class of itself. -/
structure Part where
  items : List ClassItem
  repeated : Bool
  captured : Bool
  deriving DecidableEq, Repr

namespace Part

def accepts (part : Part) (char : Char) : Bool :=
  part.items.any (ClassItem.accepts char)

def fits (part : Part) (field : List Char) : Bool :=
  !field.isEmpty && field.all part.accepts &&
    (part.repeated || field.length = 1)

/-- The numbers of characters which the part can take, the largest first. -/
def lengths (part : Part) (text : List Char) : List ℕ :=
  let longest := (text.takeWhile part.accepts).length
  let longest := if part.repeated then longest else min longest 1
  (List.range longest).reverse.map (· + 1)

/-- The groups with that of the part in front, if it is captured. -/
def capture (part : Part) (field : List Char)
    (groups : List (Option (List Char))) : List (Option (List Char)) :=
  if part.captured then some field :: groups else groups

theorem capture_eq_id {part : Part} (hpart : part.captured = false)
    (field : List Char) : part.capture field = id := by
  funext groups
  simp [capture, hpart]

end Part

/-! ## Reading an expression -/

/-- The items up to the closing bracket, and the text behind it. -/
def readItems : List Char → Option (List ClassItem × List Char)
  | [] => none
  | ']' :: text => some ([], text)
  | '\\' :: char :: text =>
      if char ∈ ['-', '.', '[', ']', '\\', '^'] then
        (readItems text).map fun (items, text) => (.single char :: items, text)
      else none
  | low :: '-' :: high :: text =>
      if low.isDigit && high.isDigit && low ≤ high then
        (readItems text).map fun (items, text) => (.range low high :: items, text)
      else none
  | char :: text =>
      if char.isAlphanum || char = '.' || char = ',' then
        (readItems text).map fun (items, text) => (.single char :: items, text)
      else none

def readClass : List Char → Option (List ClassItem × List Char)
  | [] => none
  | '[' :: text => (readItems text).filter fun (items, _) => items ≠ []
  | char :: text =>
      if char.isAlphanum || char = ',' then some ([.single char], text) else none

def readRepeated : List Char → Bool × List Char
  | '+' :: text => (true, text)
  | text => (false, text)

def readPart (text : List Char) : Option (Part × List Char) :=
  match text with
  | '(' :: text =>
      (readClass text).bind fun (items, text) =>
        match readRepeated text with
        | (repeated, ')' :: text) => some (⟨items, repeated, true⟩, text)
        | _ => none
  | text =>
      (readClass text).map fun (items, text) =>
        let (repeated, text) := readRepeated text
        (⟨items, repeated, false⟩, text)

/-- The parts up to the final anchor.  Every part has a character. -/
def readParts : ℕ → List Char → Option (List Part)
  | _, ['$'] => some []
  | 0, _ => none
  | count + 1, text =>
      (readPart text).bind fun (part, text) =>
        (readParts count text).map (part :: ·)

def readExpression : List Char → Option (List Part)
  | '^' :: text => readParts text.length text
  | _ => none

/-! ## Matching -/

def matchParts : List Part → Body
  | [], text => if text = [] then some [] else none
  | part :: parts, text =>
      (part.lengths text).findSome? fun length =>
        (matchParts parts (text.drop length)).map
          (part.capture (text.take length))

def matchFields : List Part → List (List Char) →
    Option (List (Option (List Char)))
  | [], [] => some []
  | part :: parts, field :: fields =>
      if part.fits field then
        (matchFields parts fields).map (part.capture field)
      else none
  | _, _ => none

/-- The characters which the anchors take for the end of a line. -/
def isLineEnd (char : Char) : Bool :=
  char = '\n' || char = '\r' || char = '\x0c'

def newlineFor (char : Char) : Char :=
  if isLineEnd char then '\n' else char

/-- The search for an expression in this part of the syntax.  Between a carriage
return and a newline the anchors do not match, so the expression without parts is
not searched like this. -/
def searchParts (parts : List Part) (text : List Char) : Option RegexMatch :=
  searchLines (matchParts parts) (text.map newlineFor)

def searchExpression (text : String) :
    Option (List Char → Option RegexMatch) :=
  ((readExpression text.toList).filter (· ≠ [])).map searchParts

theorem searchExpression_eq {text : String} {parts : List Part}
    (hparts : readExpression text.toList = some parts) (hne : parts ≠ []) :
    searchExpression text = some (searchParts parts) := by
  rw [searchExpression, hparts, Option.filter_some, if_pos (decide_eq_true hne),
    Option.map_some]

/-- Without a choice, the part takes all that it accepts. -/
theorem findSome?_lengths {part : Part} {next : Body}
    (hblocked : ∀ char text, part.accepts char → next (char :: text) = none)
    (text : List Char) :
    ((part.lengths text).findSome? fun length =>
        (next (text.drop length)).map (part.capture (text.take length))) =
      if part.fits (text.takeWhile part.accepts) then
        (next (text.dropWhile part.accepts)).map
          (part.capture (text.takeWhile part.accepts))
      else none := by
  set field := text.takeWhile part.accepts with hfield
  set rest := text.dropWhile part.accepts with hrest
  have htext : text = field ++ rest := List.takeWhile_append_dropWhile.symm
  have hall : ∀ char ∈ field, part.accepts char :=
    List.all_eq_true.mp List.all_takeWhile
  -- whatever stops before the end of the field is blocked
  have hshort : ∀ length < field.length, next (text.drop length) = none := by
    intro length hlt
    rw [htext, List.drop_append_of_le_length hlt.le,
      List.drop_eq_getElem_cons hlt, List.cons_append]
    exact hblocked _ _ (hall _ (List.getElem_mem hlt))
  have hnone : ∀ longest < field.length,
      ((List.range longest).reverse.map (· + 1)).findSome? (fun length =>
        (next (text.drop length)).map (part.capture (text.take length))) =
        none := by
    intro longest hlt
    rw [List.findSome?_eq_none_iff]
    intro length hmem
    simp only [List.mem_map, List.mem_reverse, List.mem_range] at hmem
    obtain ⟨index, hindex, rfl⟩ := hmem
    rw [hshort (index + 1) (by omega), Option.map_none]
  rw [Part.lengths, ← hfield]
  by_cases hempty : field = []
  · simp [hempty, Part.fits]
  have hpos : 0 < field.length := List.length_pos_iff.mpr hempty
  by_cases hfits : part.repeated = true ∨ field.length = 1
  · have hlongest :
        (if part.repeated then field.length else min field.length 1) =
          field.length - 1 + 1 := by
      rcases hfits with hrepeated | hone
      · rw [if_pos hrepeated, Nat.sub_add_cancel hpos]
      · simp [hone]
    have htake : text.take field.length = field := by
      rw [htext, List.take_left]
    have hdrop : text.drop field.length = rest := by
      rw [htext, List.drop_left]
    have hpart : part.fits field = true := by
      rw [Part.fits, List.all_eq_true.mpr hall]
      simp [hempty, hfits]
    rw [hlongest, List.range_succ, List.reverse_append, List.reverse_singleton,
      List.singleton_append, List.map_cons, List.findSome?_cons,
      Nat.sub_add_cancel hpos, htake, hdrop, if_pos hpart]
    cases (next rest).map (part.capture field) with
    | some groups => rfl
    | none => exact hnone _ (by omega)
  · rw [not_or, Bool.not_eq_true] at hfits
    have hpart : part.fits field = false := by
      simp [Part.fits, hfits]
    rw [hfits.1, hpart]
    exact hnone _ (by simp; omega)

/-! ## Separated fields -/

section Separated

variable (separator : Char)

def separatorPart : Part :=
  ⟨[.single separator], false, false⟩

theorem accepts_separatorPart (char : Char) :
    (separatorPart separator).accepts char = decide (char = separator) := by
  simp [separatorPart, Part.accepts, ClassItem.accepts]

theorem matchParts_separator (parts : List Part) (text : List Char) :
    matchParts (separatorPart separator :: parts) text =
      if text.head? = some separator then matchParts parts text.tail
      else none := by
  cases text with
  | nil => rfl
  | cons char text =>
      by_cases hchar : char = separator
      · have hlengths : (separatorPart separator).lengths (char :: text) = [1] := by
          simp [Part.lengths, accepts_separatorPart, hchar]
          simp [separatorPart]
        rw [matchParts, hlengths, List.findSome?_singleton,
          Part.capture_eq_id rfl, Option.map_id_fun, if_pos (by simp [hchar])]
        rfl
      · simp [matchParts, Part.lengths, accepts_separatorPart, hchar]

theorem matchParts_singleton (part : Part) (text : List Char) :
    matchParts [part] text =
      if part.fits text then some (part.capture text []) else none := by
  rw [matchParts, findSome?_lengths fun _ _ _ => rfl]
  by_cases hall : ∀ char ∈ text, part.accepts char
  · rw [List.takeWhile_eq_self_iff.mpr hall, List.dropWhile_eq_nil_iff.mpr hall]
    rfl
  · have hfits : part.fits text = false := by
      rw [Part.fits, List.all_eq_false.mpr (by simpa using hall)]
      simp
    have hstops : text.dropWhile part.accepts ≠ [] := by
      simpa [List.dropWhile_eq_nil_iff] using hall
    rw [hfits, matchParts, if_neg hstops]
    simp

variable {separator} {part : Part} (hpart : part.accepts separator = false)

include hpart

/-- A part stops at the next separator. -/
theorem matchParts_cons_separator (parts : List Part) (text : List Char) :
    matchParts (part :: separatorPart separator :: parts) text =
      if part.fits (text.takeWhile part.accepts) ∧
          (text.dropWhile part.accepts).head? = some separator then
        (matchParts parts (text.dropWhile part.accepts).tail).map
          (part.capture (text.takeWhile part.accepts))
      else none := by
  have hblocked : ∀ char text, part.accepts char →
      matchParts (separatorPart separator :: parts) (char :: text) = none := by
    rintro char text hchar
    rw [matchParts_separator, if_neg]
    rintro ⟨⟩
    simp [hpart] at hchar
  rw [matchParts, findSome?_lengths hblocked, matchParts_separator, ite_and]
  split
  · split <;> rfl
  · rfl

theorem matchParts_field (parts : List Part) {field : List Char}
    (hfield : separator ∉ field) (rest : List Char) :
    matchParts (part :: separatorPart separator :: parts)
        (field ++ separator :: rest) =
      if part.fits field then
        (matchParts parts rest).map (part.capture field)
      else none := by
  rw [matchParts_cons_separator hpart]
  by_cases hall : ∀ char ∈ field, part.accepts char
  · rw [List.takeWhile_append_of_pos hall, List.dropWhile_append_of_pos hall,
      List.takeWhile_cons_of_neg (by simp [hpart]),
      List.dropWhile_cons_of_neg (by simp [hpart]), List.append_nil,
      List.head?_cons, List.tail_cons]
    simp
  · -- the part stops inside the field
    have hfits : part.fits field = false := by
      rw [Part.fits, List.all_eq_false.mpr (by simpa using hall)]
      simp
    have hstops : field.dropWhile part.accepts ≠ [] := by
      simpa [List.dropWhile_eq_nil_iff] using hall
    obtain ⟨char, text, htext⟩ := List.exists_cons_of_ne_nil hstops
    have hmem : char ∈ field :=
      (List.dropWhile_sublist _).subset (htext ▸ List.mem_cons_self)
    have hne : char ≠ separator := ne_of_mem_of_not_mem hmem hfield
    rw [List.dropWhile_append, htext, hfits]
    simp [hne]

theorem matchParts_of_not_mem (parts : List Part) {text : List Char}
    (htext : separator ∉ text) :
    matchParts (part :: separatorPart separator :: parts) text = none := by
  rw [matchParts_cons_separator hpart, if_neg]
  rintro ⟨-, hhead⟩
  exact htext ((List.dropWhile_sublist _).subset (List.mem_of_mem_head? hhead))

omit hpart

/-- Parts which do not accept the separator match the fields. -/
theorem matchParts_intersperse {parts : List Part} (hne : parts ≠ [])
    (hparts : ∀ part ∈ parts, part.accepts separator = false)
    (text : List Char) :
    matchParts (parts.intersperse (separatorPart separator)) text =
      matchFields parts (text.splitOn separator) := by
  induction parts generalizing text with
  | nil => exact absurd rfl hne
  | cons part parts ih =>
      rw [List.forall_mem_cons] at hparts
      cases parts with
      | nil =>
          rw [List.intersperse_singleton, matchParts_singleton]
          by_cases hmem : separator ∈ text
          · have hfits : part.fits text = false := by
              rw [Part.fits, List.all_eq_false.mpr ⟨_, hmem, by simp [hparts.1]⟩]
              simp
            obtain ⟨field, rest, rfl, hfield⟩ := List.eq_append_cons_of_mem hmem
            obtain ⟨next, fields, hrest⟩ :=
              List.exists_cons_of_ne_nil (List.splitOn_ne_nil separator rest)
            rw [List.splitOn_append_cons_self_of_not_mem hfield, hrest, hfits]
            simp [matchFields]
          · rw [List.splitOn_eq_singleton hmem]
            rfl
      | cons next parts =>
          rw [List.intersperse_cons_cons]
          by_cases hmem : separator ∈ text
          · obtain ⟨field, rest, rfl, hfield⟩ := List.eq_append_cons_of_mem hmem
            rw [List.splitOn_append_cons_self_of_not_mem hfield, matchFields,
              matchParts_field hparts.1 _ hfield,
              ih (List.cons_ne_nil _ _) hparts.2]
          · rw [List.splitOn_eq_singleton hmem,
              matchParts_of_not_mem hparts.1 _ hmem]
            simp [matchFields]

end Separated

/-! ## One captured field -/

def Part.captureIt (part : Part) : Part :=
  { part with captured := true }

abbrev FieldsFit (parts : List Part) (fields : List (List Char)) : Prop :=
  List.Forall₂ (fun part field => part.fits field = true) parts fields

theorem matchFields_uncaptured {parts : List Part}
    (hparts : ∀ part ∈ parts, part.captured = false)
    (fields : List (List Char)) :
    matchFields parts fields =
      if FieldsFit parts fields then some [] else none := by
  induction parts generalizing fields with
  | nil => cases fields <;> simp [matchFields]
  | cons part parts ih =>
      rw [List.forall_mem_cons] at hparts
      cases fields with
      | nil => simp [matchFields]
      | cons field fields =>
          rw [matchFields, ih hparts.2, Part.capture_eq_id hparts.1]
          simp [ite_and]

theorem not_mem_of_fieldsFit {parts : List Part} {fields : List (List Char)}
    (hfits : FieldsFit parts fields) {separator : Char}
    (hparts : ∀ part ∈ parts, part.accepts separator = false) :
    ∀ field ∈ fields, separator ∉ field := by
  induction hfits with
  | nil => simp
  | cons hfit _ ih =>
      rw [List.forall_mem_cons] at hparts ⊢
      refine ⟨fun hmem => ?_, ih hparts.2⟩
      simp only [Part.fits, Bool.and_eq_true, List.all_eq_true] at hfit
      exact absurd (hfit.1.2 _ hmem) (by simp [hparts.1])

/-- Expressions which differ in the captured field only match alike. -/
theorem matchFields_captureIt {parts : List Part}
    (hparts : ∀ part ∈ parts, part.captured = false)
    {index : ℕ} (hindex : index < parts.length) (fields : List (List Char)) :
    matchFields (parts.modify index Part.captureIt) fields =
      if FieldsFit parts fields then some [fields[index]?] else none := by
  induction parts generalizing index fields with
  | nil => simp at hindex
  | cons part parts ih =>
      rw [List.forall_mem_cons] at hparts
      cases fields with
      | nil => cases index <;> simp [matchFields]
      | cons field fields =>
          cases index with
          | zero =>
              have hfits : part.captureIt.fits field = part.fits field := rfl
              rw [List.modify_zero_cons, matchFields, hfits,
                matchFields_uncaptured hparts.2]
              simp only [List.forall₂_cons, ite_and]
              split
              · split <;> rfl
              · rfl
          | succ index =>
              rw [List.modify_succ_cons, matchFields,
                ih hparts.2 (Nat.lt_of_succ_lt_succ hindex),
                Part.capture_eq_id hparts.1]
              simp [ite_and]

/-! ## Lines with other ends -/

/-- A line with the character that ends it. -/
structure EndedLine where
  text : List Char
  terminator : Char
  text_clear : text.any isLineEnd = false
  terminator_isLineEnd : isLineEnd terminator = true

def joinEnded (lines : List EndedLine) : List Char :=
  lines.flatMap fun line => line.text ++ [line.terminator]

theorem EndedLine.newline_not_mem (line : EndedLine) : '\n' ∉ line.text :=
  fun hmem => List.any_eq_false.mp line.text_clear '\n' hmem rfl

theorem map_newlineFor {text : List Char} (htext : text.any isLineEnd = false) :
    text.map newlineFor = text := by
  refine (List.map_congr_left fun char hmem => ?_).trans (List.map_id text)
  rw [newlineFor, if_neg (List.any_eq_false.mp htext char hmem)]
  rfl

theorem map_joinEnded (lines : List EndedLine) :
    (joinEnded lines).map newlineFor = joinLines (lines.map EndedLine.text) := by
  induction lines with
  | nil => rfl
  | cons line lines ih =>
      have hends : newlineFor line.terminator = '\n' := by
        rw [newlineFor, if_pos line.terminator_isLineEnd]
      rw [joinEnded, List.flatMap_cons, List.map_append, List.map_append,
        map_newlineFor line.text_clear, List.map_singleton, hends]
      simp only [List.map_cons, joinLines, List.append_assoc, List.singleton_append]
      exact congrArg (line.text ++ '\n' :: ·) ih

section Through

variable {K : Type} (change : Char → Char)

/-- The filter sees the searched text with its characters changed. -/
def QuantityFilter.through (filter : QuantityFilter K) : QuantityFilter K :=
  { filter with search := fun text => filter.search (text.map change) }

variable [Zero K] [Add K] [Mul K] (conversions : Conversions K)

omit [Zero K] in
theorem addGroups_through (filter : QuantityFilter K) (index : ℕ) (value : K)
    (groups : List (Option (List Char))) :
    (filter.through change).addGroups conversions index value groups =
      filter.addGroups conversions index value groups := by
  induction groups generalizing index value with
  | nil => rfl
  | cons group groups ih =>
      cases group with
      | none => exact ih _ _
      | some text =>
          simp only [QuantityFilter.addGroups, ih]
          rfl

theorem findingAt_through (cur : ℕ) (quantity : Quantity)
    (filter : QuantityFilter K) (found : RegexMatch) :
    findingAt conversions cur quantity (filter.through change) found =
      findingAt conversions cur quantity filter found := by
  simp only [findingAt, QuantityFilter.matchValue, addGroups_through]

theorem searchRound_through (buffer : List Char) (cur : ℕ)
    (filters : List (Quantity × QuantityFilter K)) (last : ℕ) :
    searchRound conversions buffer cur
        (filters.map (Prod.map id (QuantityFilter.through change))) last =
      searchRound conversions (buffer.map change) cur filters last := by
  induction filters generalizing last with
  | nil => rfl
  | cons entry filters ih =>
      have hsearch : (entry.2.through change).search (buffer.drop cur) =
          entry.2.search ((buffer.map change).drop cur) := by
        rw [← List.map_drop]
        rfl
      simp only [List.map_cons, Prod.map, id, searchRound, findingAt_through, ih,
        hsearch]

/-- Parsing with such filters is parsing the changed text. -/
theorem parseRounds_through {parser other : RegexParser K}
    (hbuffer : other.buffer = parser.buffer.map change)
    (hentries : parser.filters.entries =
      other.filters.entries.map (Prod.map id (QuantityFilter.through change)))
    (rounds cur : ℕ) :
    parser.parseRounds conversions rounds cur =
      other.parseRounds conversions rounds cur := by
  induction rounds generalizing cur with
  | zero => rfl
  | succ rounds ih =>
      simp only [RegexParser.parseRounds, ih, hbuffer, hentries, List.length_map,
        searchRound_through]

end Through

end SensorHub.Regex
