import SensorHub.RegexParser
import SensorHub.SearchRounds

/-!
# Lines matched by several filters

A buffer of complete lines is parsed by filters which match inside a line.  The
filters search from one cursor, so a filter sees each of its lines only if the
filters stay in step: the search for its next line has to start before it,
wherever the lines of the other filters are.  A search that starts inside a line
can find less than the search of the line; the last line of a filter can then
still be found in a later round.
-/

namespace SensorHub.Regex

open SearchRounds

/-! ## Lines -/

def joinLines : List (List Char) → List Char
  | [] => []
  | line :: lines => line ++ '\n' :: joinLines lines

theorem drop_line {line : List Char} {cursor : ℕ} (hle : cursor ≤ line.length)
    (rest : List Char) :
    (line ++ '\n' :: rest).drop cursor = line.drop cursor ++ '\n' :: rest :=
  List.drop_append_of_le_length hle

theorem drop_behind_line (line : List Char) (cursor : ℕ) (rest : List Char) :
    (line ++ '\n' :: rest).drop (line.length + 1 + cursor) =
      rest.drop cursor := by
  rw [Nat.add_assoc, List.drop_append, Nat.add_comm 1 cursor,
    List.drop_eq_nil_of_le (by omega), Nat.add_sub_cancel_left]
  rfl

/-- A text is a text without line ends, or it has a first line. -/
@[elab_as_elim]
theorem lineInduction {motive : List Char → Prop}
    (last : ∀ text, '\n' ∉ text → motive text)
    (line : ∀ line rest, '\n' ∉ line → motive rest →
      motive (line ++ '\n' :: rest))
    (text : List Char) : motive text := by
  induction hlength : text.length using Nat.strong_induction_on
    generalizing text with
  | _ length ih =>
      by_cases hmem : '\n' ∈ text
      · obtain ⟨first, rest, rfl, hfirst⟩ := List.eq_append_cons_of_mem hmem
        have hshorter : rest.length < length := by
          rw [← hlength, List.length_append, List.length_cons]
          omega
        exact line first rest hfirst (ih rest.length hshorter rest rfl)
      · exact last text hmem

/-- A search that finds nonempty matches inside lines, at most one in each. -/
structure LineFilter (search : List Char → Option RegexMatch) : Prop where
  /-- The line ends separate what is searched. -/
  lines : ∀ {line : List Char}, '\n' ∉ line → ∀ rest,
    search (line ++ '\n' :: rest) =
      (search line).or
        ((search rest).map (RegexMatch.shift (line.length + 1)))
  within : ∀ {text found}, search text = some found →
    found.first < found.second ∧ found.second ≤ text.length
  once : ∀ {line found}, '\n' ∉ line → search line = some found →
    search (line.drop found.second) = none

theorem LineFilter.search_nil {search : List Char → Option RegexMatch}
    (hfilter : LineFilter search) : search [] = none := by
  cases hsearch : search [] with
  | none => rfl
  | some found =>
      have hwithin := hfilter.within hsearch
      simp only [List.length_nil] at hwithin
      omega

/-! ## Lines of a filter -/

variable {K : Type} [Zero K] [Add K] [Mul K]

/-- What a filter finds in the lines, each searched alone. -/
def lineFindings (conversions : Conversions K) (quantity : Quantity)
    (filter : QuantityFilter K) : ℕ → List (List Char) → List (Finding K)
  | _, [] => []
  | start, line :: lines =>
      ((filter.search line).map
          (findingAt conversions start quantity filter)).toList ++
        lineFindings conversions quantity filter (start + (line.length + 1))
          lines

section LineFindings

variable {conversions : Conversions K} {quantity : Quantity}
  {filter : QuantityFilter K}

theorem second_le_of_mem_line (hfilter : LineFilter filter.search)
    {start : ℕ} {line : List Char} {finding : Finding K}
    (hmem : finding ∈ ((filter.search line).map
      (findingAt conversions start quantity filter)).toList) :
    finding.second ≤ start + line.length := by
  rw [Option.mem_toList, Option.map_eq_some_iff] at hmem
  obtain ⟨found, hsearch, rfl⟩ := hmem
  exact Nat.add_le_add_left (hfilter.within hsearch).2 start

theorem lineFindings_eq_nil (hfilter : LineFilter filter.search)
    {lines : List (List Char)} (hlines : ∀ line ∈ lines, '\n' ∉ line)
    (hnone : filter.search (joinLines lines) = none) (start : ℕ) :
    lineFindings conversions quantity filter start lines = [] := by
  induction lines generalizing start with
  | nil => rfl
  | cons line lines ih =>
      rw [List.forall_mem_cons] at hlines
      rw [joinLines, hfilter.lines hlines.1, Option.or_eq_none_iff,
        Option.map_eq_none_iff] at hnone
      rw [lineFindings, hnone.1, ih hlines.2 hnone.2]
      rfl

/-- A line that the search from some position does not find, but the search from
a later position does, is the last one. -/
theorem last_of_found_later (hfilter : LineFilter filter.search)
    {lines : List (List Char)} (hlines : ∀ line ∈ lines, '\n' ∉ line)
    {start cursor later : ℕ} (hle : cursor ≤ later) {finding : Finding K}
    (hmem : finding ∈
      lineFindings conversions quantity filter start lines)
    (hnone : filter.search ((joinLines lines).drop cursor) = none)
    (hbehind : start + later < finding.second) :
    (lineFindings conversions quantity filter start lines).getLast? = some finding := by
  induction lines generalizing start cursor later with
  | nil => simp [lineFindings] at hmem
  | cons line lines ih =>
      rw [List.forall_mem_cons] at hlines
      rw [joinLines] at hnone
      rw [lineFindings, List.mem_append] at hmem
      rw [lineFindings]
      by_cases hcursor : cursor ≤ line.length
      · -- the search in vain has passed all lines behind this one
        rw [drop_line hcursor,
          hfilter.lines (fun h => hlines.1 (List.mem_of_mem_drop h)),
          Option.or_eq_none_iff, Option.map_eq_none_iff] at hnone
        rw [lineFindings_eq_nil hfilter hlines.2 hnone.2] at hmem ⊢
        have hline := hmem.resolve_right List.not_mem_nil
        rw [Option.mem_toList] at hline
        rw [List.append_nil, hline]
        rfl
      · obtain ⟨cursor', rfl⟩ :=
          Nat.exists_eq_add_of_le (show line.length + 1 ≤ cursor by omega)
        obtain ⟨later', rfl⟩ :=
          Nat.exists_eq_add_of_le (show line.length + 1 ≤ later by omega)
        rw [drop_behind_line] at hnone
        rcases hmem with hline | hlater
        · have hends := second_le_of_mem_line hfilter hline
          omega
        · rw [List.getLast?_append,
            ih hlines.2 (show cursor' ≤ later' by omega) hlater hnone (by omega)]
          rfl

theorem findingAt_shift (start count : ℕ) (found : RegexMatch) :
    findingAt conversions start quantity filter (found.shift count) =
      findingAt conversions (start + count) quantity filter found := by
  simp [findingAt, RegexMatch.shift, QuantityFilter.matchValue, Nat.add_assoc]

theorem first_line_found (hfilter : LineFilter filter.search)
    {lines : List (List Char)} (hlines : ∀ line ∈ lines, '\n' ∉ line)
    (start : ℕ) :
    (filter.search (joinLines lines)).map
        (findingAt conversions start quantity filter) =
      (lineFindings conversions quantity filter start lines)[0]? := by
  induction lines generalizing start with
  | nil => simp [joinLines, hfilter.search_nil, lineFindings]
  | cons line lines ih =>
      rw [List.forall_mem_cons] at hlines
      rw [joinLines, hfilter.lines hlines.1, lineFindings]
      cases hline : filter.search line with
      | some found => simp
      | none =>
          rw [Option.none_or, Option.map_map, Option.map_none,
            Option.toList_none, List.nil_append, ← ih hlines.2]
          congr 1
          funext found
          exact findingAt_shift start _ found

theorem start_le_of_mem_lineFindings {start : ℕ} {lines : List (List Char)}
    {finding : Finding K}
    (hmem : finding ∈
      lineFindings conversions quantity filter start lines) :
    start ≤ finding.second := by
  induction lines generalizing start with
  | nil => simp [lineFindings] at hmem
  | cons line lines ih =>
      rw [lineFindings, List.mem_append] at hmem
      rcases hmem with hline | hlater
      · rw [Option.mem_toList, Option.map_eq_some_iff] at hline
        obtain ⟨found, -, rfl⟩ := hline
        exact Nat.le_add_right _ _
      · exact (Nat.le_add_right _ _).trans (ih hlater)

theorem next_line_found (hfilter : LineFilter filter.search)
    {lines : List (List Char)} (hlines : ∀ line ∈ lines, '\n' ∉ line)
    {start index : ℕ} {finding : Finding K}
    (hfinding : (lineFindings conversions quantity filter start lines)[index]? =
      some finding) :
    (filter.search ((joinLines lines).drop (finding.second - start))).map
        (findingAt conversions finding.second quantity filter) =
      (lineFindings conversions quantity filter start lines)[index + 1]? := by
  induction lines generalizing start index with
  | nil => simp [lineFindings] at hfinding
  | cons line lines ih =>
      rw [List.forall_mem_cons] at hlines
      rw [lineFindings] at hfinding ⊢
      rw [joinLines]
      -- the next line of the filter is in the lines behind this one
      have hlater : ∀ {later : ℕ},
          (lineFindings conversions quantity filter
            (start + (line.length + 1)) lines)[later]? = some finding →
          (filter.search ((line ++ '\n' :: joinLines lines).drop
              (finding.second - start))).map
              (findingAt conversions finding.second quantity filter) =
            (lineFindings conversions quantity filter
              (start + (line.length + 1)) lines)[later + 1]? := by
        intro later hfinding
        have hstart :=
          start_le_of_mem_lineFindings (List.mem_of_getElem? hfinding)
        rw [show finding.second - start =
            line.length + 1 + (finding.second - (start + (line.length + 1))) by
          omega, drop_behind_line]
        exact ih hlines.2 hfinding
      cases hline : filter.search line with
      | none =>
          rw [hline] at hfinding
          exact hlater hfinding
      | some found =>
          rw [hline] at hfinding
          cases index with
          | succ later => exact hlater hfinding
          | zero =>
              simp only [Option.map_some, Option.toList_some,
                List.singleton_append, List.getElem?_cons_zero,
                Option.some.injEq] at hfinding
              subst hfinding
              have hends := (hfilter.within hline).2
              have hnot : '\n' ∉ line.drop found.second :=
                fun h => hlines.1 (List.mem_of_mem_drop h)
              simp only [findingAt, Nat.add_sub_cancel_left, Option.map_some,
                Option.toList_some, List.singleton_append,
                List.getElem?_cons_succ]
              rw [drop_line hends, hfilter.lines hnot,
                hfilter.once hlines.1 hline, Option.none_or, Option.map_map,
                ← first_line_found hfilter hlines.2]
              congr 1
              funext next
              refine (findingAt_shift _ _ next).trans ?_
              rw [List.length_drop]
              congr 1
              omega

end LineFindings

/-! ## Rounds of the parser -/

/-- The filters as searchers in the buffer. -/
def lineSearch (conversions : Conversions K) (parser : RegexParser K) :
    Search (Quantity × QuantityFilter K) Quantity (Finding K) where
  searchers := parser.filters.entries
  key := Prod.fst
  owner := Finding.quantity
  find := fun (quantity, filter) cursor =>
    (filter.search (parser.buffer.drop cursor)).map
      (findingAt conversions cursor quantity filter)
  stop := Finding.second
  size := parser.buffer.length

/-- All conversions of what a filter can match succeed. -/
def Convertible (conversions : Conversions K) (filter : QuantityFilter K) :
    Prop :=
  ∀ text found, filter.search text = some found →
    filter.matchValue conversions found ≠ none

section Rounds

variable {conversions : Conversions K} {parser : RegexParser K}

theorem lineSearch_lawful (conversions : Conversions K)
    (hfilters : ∀ entry ∈ parser.filters.entries,
      LineFilter entry.2.search) :
    (lineSearch conversions parser).Lawful where
  keys_nodup := parser.filters.quantities_nodup
  owner_find := by
    intro entry cursor finding hfind
    obtain ⟨found, -, rfl⟩ := Option.map_eq_some_iff.mp hfind
    rfl
  stop_find := by
    intro entry cursor finding hentry hfind
    obtain ⟨found, hsearch, rfl⟩ := Option.map_eq_some_iff.mp hfind
    have hwithin := (hfilters entry hentry).within hsearch
    rw [List.length_drop] at hwithin
    simp only [lineSearch, findingAt]
    omega

theorem searchRound_eq {filters : List (Quantity × QuantityFilter K)}
    (buffer : List Char) (cur last : ℕ) :
    let found := filters.filterMap fun entry =>
      (entry.2.search (buffer.drop cur)).map
        (findingAt conversions cur entry.1 entry.2)
    (∀ finding ∈ found, finding.value ≠ none) →
      searchRound conversions buffer cur filters last =
        ⟨found, !found.isEmpty, (found.map Finding.second).foldl max last,
          true⟩ := by
  induction filters generalizing last with
  | nil => exact fun _ => rfl
  | cons entry filters ih =>
      obtain ⟨quantity, filter⟩ := entry
      intro found hvalues
      simp only [searchRound]
      cases hsearch : filter.search (buffer.drop cur) with
      | none =>
          simp only [found, List.filterMap_cons, hsearch, Option.map_none]
            at hvalues ⊢
          exact ih last hvalues
      | some matched =>
          simp only [found, List.filterMap_cons, hsearch, Option.map_some,
            List.forall_mem_cons] at hvalues ⊢
          obtain ⟨value, hvalue⟩ := Option.ne_none_iff_exists'.mp hvalues.1
          simp only [hvalue, ih _ hvalues.2]
          rfl

/-- The rounds of filters which find nonempty matches with values. -/
theorem parseRounds_eq
    (hfilters : ∀ entry ∈ parser.filters.entries, LineFilter entry.2.search)
    {rounds cur : ℕ} (hrounds : parser.buffer.length < cur + rounds)
    (hcur : cur ≤ parser.buffer.length)
    (hvalues : ∀ finding ∈ (lineSearch conversions parser).hitsFrom rounds cur,
      finding.value ≠ none) :
    (parser.parseRounds conversions rounds cur).findings =
        (lineSearch conversions parser).hitsFrom rounds cur ∧
      (parser.parseRounds conversions rounds cur).outcome = .returned := by
  have hlawful := lineSearch_lawful conversions hfilters
  induction rounds generalizing cur with
  | zero => omega
  | succ rounds ih =>
      set search := lineSearch conversions parser with hsearch
      have hround : (∀ finding ∈ search.hits cur, finding.value ≠ none) →
          searchRound conversions parser.buffer cur parser.filters.entries cur =
            ⟨search.hits cur, !(search.hits cur).isEmpty,
              search.furthest cur (search.hits cur), true⟩ :=
        searchRound_eq parser.buffer cur cur
      rw [Search.hitsFrom] at hvalues
      rw [RegexParser.parseRounds, Search.hitsFrom]
      by_cases hempty : search.hits cur = []
      · have hround := hround (by simp [hempty])
        simp only [hround, hempty, List.isEmpty_nil, Bool.not_true,
          Bool.false_eq_true, if_false, if_true]
        by_cases hend : cur = parser.buffer.length
        · rw [if_pos hend]
          exact ⟨rfl, rfl⟩
        · rw [if_neg hend]
          exact ⟨rfl, rfl⟩
      · simp only [List.isEmpty_eq_false_iff.mpr hempty, Bool.false_eq_true,
          if_false, List.mem_append, or_imp, forall_and] at hvalues ⊢
        have hlt : cur < parser.buffer.length :=
          Search.lt_size_of_hits hlawful hempty
        have hmoves := Search.lt_furthest_hits hlawful hempty
        have hends : search.furthest cur (search.hits cur) ≤
            parser.buffer.length :=
          Search.furthest_hits_le_size hlawful hcur
        obtain ⟨hfindings, houtcome⟩ := ih (by omega) hends hvalues.2
        simp only [if_neg hlt.ne, hround hvalues.1,
          List.isEmpty_eq_false_iff.mpr hempty, Bool.not_false, if_true]
        exact ⟨by rw [hfindings], houtcome⟩

end Rounds

/-! ## Filters anchored to lines -/

/-- What the body of an anchored expression captures from a text that it matches
as a whole. -/
abbrev Body := List Char → Option (List (Option (List Char)))

/-- The first of the segments which the body matches. -/
def searchSegments (body : Body) : ℕ → List (List Char) → Option RegexMatch
  | _, [] => none
  | start, segment :: segments =>
      match body segment with
      | some groups => some ⟨start, start + segment.length, groups⟩
      | none => searchSegments body (start + (segment.length + 1)) segments

/-- The search for `^body$`: `^` matches at the start of the range and behind a
line end, `$` before a line end and at the end of the range, and the body cannot
match a line end. -/
def searchLines (body : Body) (text : List Char) : Option RegexMatch :=
  searchSegments body 0 (text.splitOn '\n')

section Anchored

variable {body : Body}

theorem searchSegments_eq_shift (start : ℕ) (segments : List (List Char)) :
    searchSegments body start segments =
      (searchSegments body 0 segments).map (RegexMatch.shift start) := by
  induction segments generalizing start with
  | nil => rfl
  | cons segment segments ih =>
      rw [searchSegments, searchSegments]
      cases hbody : body segment with
      | some groups => simp [RegexMatch.shift]
      | none =>
          simp only [Nat.zero_add]
          rw [ih, ih (segment.length + 1), Option.map_map]
          congr 1
          funext found
          simp [RegexMatch.shift, Nat.add_assoc]

theorem searchLines_of_not_mem {text : List Char} (hnot : '\n' ∉ text) :
    searchLines body text = (body text).map (⟨0, text.length, ·⟩) := by
  rw [searchLines, List.splitOn_eq_singleton hnot, searchSegments]
  cases body text <;> simp [searchSegments]

theorem searchLines_line {line : List Char} (hline : '\n' ∉ line)
    (rest : List Char) :
    searchLines body (line ++ '\n' :: rest) =
      (searchLines body line).or
        ((searchLines body rest).map (RegexMatch.shift (line.length + 1))) := by
  rw [searchLines_of_not_mem hline, searchLines,
    List.splitOn_append_cons_self_of_not_mem hline, searchSegments]
  cases body line with
  | some groups => simp
  | none =>
      simp only [Nat.zero_add, Option.map_none, Option.none_or]
      exact searchSegments_eq_shift _ _

theorem searchLines_nil : searchLines body [] = (body []).map (⟨0, 0, ·⟩) :=
  searchLines_of_not_mem List.not_mem_nil

/-- A match covers a segment which the body matches. -/
theorem searchLines_within {text : List Char} {found : RegexMatch}
    (hfound : searchLines body text = some found) :
    ∃ segment, body segment ≠ none ∧
      found.second = found.first + segment.length ∧
      found.second ≤ text.length := by
  induction text using lineInduction generalizing found with
  | last text hnot =>
      rw [searchLines_of_not_mem hnot, Option.map_eq_some_iff] at hfound
      obtain ⟨groups, hbody, rfl⟩ := hfound
      exact ⟨text, by simp [hbody], by simp, le_rfl⟩
  | line line rest hline ih =>
      rw [searchLines_line hline, searchLines_of_not_mem hline,
        Option.or_eq_some_iff, Option.map_eq_some_iff,
        Option.map_eq_some_iff] at hfound
      rw [List.length_append, List.length_cons]
      rcases hfound with ⟨groups, hbody, rfl⟩ | ⟨-, found, hrest, rfl⟩
      · exact ⟨line, by simp [hbody], by simp, by simp⟩
      · obtain ⟨segment, hbody, hsecond, hle⟩ := ih hrest
        refine ⟨segment, hbody, ?_, ?_⟩ <;> simp only [RegexMatch.shift] <;>
          omega

theorem searchLines_second_le {text : List Char} {found : RegexMatch}
    (hfound : searchLines body text = some found) :
    found.second ≤ text.length := by
  obtain ⟨segment, -, -, hends⟩ := searchLines_within hfound
  exact hends

/-- Anchored filters are line filters unless they match the empty line. -/
theorem lineFilter_searchLines (hempty : body [] = none) :
    LineFilter (searchLines body) where
  lines := searchLines_line
  within := by
    intro text found hfound
    obtain ⟨segment, hbody, hsecond, hle⟩ := searchLines_within hfound
    have hpos : 0 < segment.length :=
      List.length_pos_iff.mpr fun hnil => hbody (hnil ▸ hempty)
    exact ⟨by omega, hle⟩
  once := by
    intro line found hline hfound
    rw [searchLines_of_not_mem hline, Option.map_eq_some_iff] at hfound
    obtain ⟨groups, -, rfl⟩ := hfound
    rw [List.drop_length, searchLines_nil, hempty]
    rfl

end Anchored

/-! ## Lines of all filters -/

/-- The call pushes a value for each match, and the matches of each filter are
those in the lines that it matches, one in each line and in line order. -/
def PushesEachLine (conversions : Conversions K) (parser : RegexParser K)
    (stamp : K) (lines : List (List Char)) : Prop :=
  let parsed := parser.parse conversions stamp
  parsed.outcome = .returned ∧
    (∀ finding ∈ parsed.findings, (finding.pushed stamp).isSome) ∧
    ∀ entry ∈ parser.filters.entries,
      (parsed.findings.filter fun finding => finding.quantity = entry.1) =
        lineFindings conversions entry.1 entry.2 0 lines

/-- The lines of a filter are due in the rounds with their numbers, its last line
so many rounds late.  In every round each filter finds, from the furthest end of
the matches due before, the match that is due, and nothing when none is. -/
def InStep (conversions : Conversions K) (parser : RegexParser K)
    (lines : List (List Char)) : Prop :=
  ∃ late : Quantity × QuantityFilter K → ℕ,
    (lineSearch conversions parser).Aligned fun entry =>
      Search.dueWith (late entry) (lineFindings conversions entry.1 entry.2 0 lines)

section EachLine

variable {conversions : Conversions K} {parser : RegexParser K}
  {lines : List (List Char)}

theorem value_ne_none_of_mem_hitsFrom
    (hconvertible : ∀ entry ∈ parser.filters.entries,
      Convertible conversions entry.2)
    {rounds cursor : ℕ} {finding : Finding K}
    (hmem : finding ∈
      (lineSearch conversions parser).hitsFrom rounds cursor) :
    finding.value ≠ none := by
  obtain ⟨entry, hentry, later, -, hfind⟩ :=
    Search.exists_find_of_mem_hitsFrom hmem
  obtain ⟨found, hsearch, rfl⟩ := Option.map_eq_some_iff.mp hfind
  exact hconvertible entry hentry _ found hsearch

omit [Zero K] [Add K] [Mul K] in
theorem pushed_isSome {finding : Finding K} (hvalue : finding.value ≠ none)
    (stamp : K) : (finding.pushed stamp).isSome := by
  rw [Finding.pushed, Option.isSome_map]
  exact Option.isSome_iff_ne_none.mpr hvalue

/-- In step, only what the lines contain has to be converted. -/
theorem pushesEachLine_of_inStep (stamp : K)
    (hfilters : ∀ entry ∈ parser.filters.entries, LineFilter entry.2.search)
    (hvalues : ∀ entry ∈ parser.filters.entries,
      ∀ finding ∈ lineFindings conversions entry.1 entry.2 0 lines,
        finding.value ≠ none)
    (hinStep : InStep conversions parser lines) :
    PushesEachLine conversions parser stamp lines := by
  set search := lineSearch conversions parser with hsearch
  have hlawful : search.Lawful := lineSearch_lawful conversions hfilters
  obtain ⟨late, haligned⟩ := hinStep
  have hhits : ∀ entry ∈ parser.filters.entries,
      search.hitsOf entry (search.hitsFrom (parser.buffer.length + 1) 0) =
        lineFindings conversions entry.1 entry.2 0 lines :=
    fun entry hentry => Search.hitsOf_of_aligned hlawful haligned (Nat.le_succ _) hentry
  have hfound : ∀ finding ∈ search.hitsFrom (parser.buffer.length + 1) 0,
      finding.value ≠ none := by
    intro finding hmem
    obtain ⟨entry, hentry, later, -, hfind⟩ :=
      Search.exists_find_of_mem_hitsFrom hmem
    refine hvalues entry hentry finding ?_
    rw [← hhits entry hentry, Search.hitsOf, List.mem_filter]
    exact ⟨hmem, decide_eq_true (hlawful.owner_find hfind)⟩
  obtain ⟨hfindings, houtcome⟩ :
      (parser.parse conversions stamp).findings =
          search.hitsFrom (parser.buffer.length + 1) 0 ∧
        (parser.parse conversions stamp).outcome = .returned :=
    parseRounds_eq hfilters (by omega) (Nat.zero_le _) hfound
  refine ⟨houtcome, fun finding hmem => ?_, fun entry hentry => ?_⟩
  · rw [hfindings] at hmem
    exact pushed_isSome (hfound finding hmem) stamp
  · rw [hfindings]
    exact hhits entry hentry

theorem lineFindings_second {quantity quantity' : Quantity}
    {filter filter' : QuantityFilter K}
    (halike : ∀ line ∈ lines, (filter.search line).map RegexMatch.second =
      (filter'.search line).map RegexMatch.second) (start : ℕ) :
    (lineFindings conversions quantity filter start lines).map Finding.second =
      (lineFindings conversions quantity' filter' start lines).map
        Finding.second := by
  induction lines generalizing start with
  | nil => rfl
  | cons line lines ih =>
      rw [List.forall_mem_cons] at halike
      have hends : ∀ (quantity : Quantity) (filter : QuantityFilter K),
          ((filter.search line).map
              (findingAt conversions start quantity filter)).toList.map
              Finding.second =
            (((filter.search line).map RegexMatch.second).map
              (start + ·)).toList := by
        intro quantity filter
        cases filter.search line <;> rfl
      rw [lineFindings, lineFindings, List.map_append, List.map_append, hends,
        hends, halike.1, ih halike.2]

/-- When the round finds what ends at one place, the cursor moves there. -/
theorem furthest_eq_of_common {cursor stop : ℕ} {findings : List (Finding K)}
    (hne : findings ≠ []) (hcommon : ∀ finding ∈ findings, finding.second = stop)
    (hle : cursor ≤ stop) :
    (lineSearch conversions parser).furthest cursor findings = stop := by
  obtain ⟨finding, findings, rfl⟩ := List.exists_cons_of_ne_nil hne
  rw [List.forall_mem_cons] at hcommon
  apply le_antisymm
  · refine Search.foldl_max_le hle fun other hother => ?_
    obtain ⟨finding', hmem, rfl⟩ := List.mem_map.mp hother
    rcases List.mem_cons.mp hmem with rfl | htail
    · exact hcommon.1.le
    · exact (hcommon.2 _ htail).le
  · refine hcommon.1.ge.trans ((Search.le_foldl_max _ cursor).2 _ ?_)
    exact List.mem_map_of_mem List.mem_cons_self

/-- Filters that match the same lines are in step. -/
theorem inStep_of_alike
    (hfilters : ∀ entry ∈ parser.filters.entries, LineFilter entry.2.search)
    (halike : ∀ entry ∈ parser.filters.entries,
      ∀ other ∈ parser.filters.entries, ∀ line ∈ lines,
        (entry.2.search line).map RegexMatch.second =
          (other.2.search line).map RegexMatch.second)
    (hlines : ∀ line ∈ lines, '\n' ∉ line)
    (hbuffer : parser.buffer = joinLines lines) :
    InStep conversions parser lines := by
  have hlawful := lineSearch_lawful conversions hfilters
  have hstops : ∀ entry ∈ parser.filters.entries,
      ∀ other ∈ parser.filters.entries, ∀ round : ℕ,
        ((lineFindings conversions entry.1 entry.2 0 lines)[round]?).map
            Finding.second =
          ((lineFindings conversions other.1 other.2 0 lines)[round]?).map
            Finding.second := by
    intro entry hentry other hother round
    rw [← List.getElem?_map, ← List.getElem?_map,
      lineFindings_second (halike entry hentry other hother)]
  refine ⟨fun _ => 0, ?_⟩
  simp only [Search.dueWith_zero]
  intro round
  change ∀ entry ∈ parser.filters.entries,
    (lineSearch conversions parser).find entry
      ((lineSearch conversions parser).reach (fun other later =>
        (lineFindings conversions other.1 other.2 0 lines)[later]?) round) =
      (lineFindings conversions entry.1 entry.2 0 lines)[round]?
  induction round with
  | zero =>
      intro entry hentry
      simp only [lineSearch, Search.reach, List.drop_zero, hbuffer]
      exact first_line_found (hfilters entry hentry) hlines 0
  | succ round ih =>
      intro entry hentry
      rw [Search.reach]
      cases hnext : (lineFindings conversions entry.1 entry.2 0 lines)[round]? with
      | none =>
          -- no filter has this line, so the cursor stays
          have hstays : (lineSearch conversions parser).searchers.filterMap
              (fun other =>
                (lineFindings conversions other.1 other.2 0 lines)[round]?) =
              [] := by
            refine List.filterMap_eq_nil_iff.mpr fun other hother => ?_
            have hstop := hstops other hother entry hentry round
            rwa [hnext, Option.map_none, Option.map_eq_none_iff] at hstop
          have hlength := List.getElem?_eq_none_iff.mp hnext
          rw [hstays, List.getElem?_eq_none (hlength.trans (Nat.le_succ round))]
          exact (ih entry hentry).trans hnext
      | some finding =>
          have hlt :=
            (hlawful.stop_find hentry ((ih entry hentry).trans hnext)).1
          set reported := (lineSearch conversions parser).searchers.filterMap
            fun other =>
              (lineFindings conversions other.1 other.2 0 lines)[round]?
            with hreported
          have hne : reported ≠ [] :=
            List.ne_nil_of_mem (List.mem_filterMap.mpr ⟨entry, hentry, hnext⟩)
          have hcommon : ∀ other ∈ reported, other.second = finding.second := by
            intro finding' hmem
            obtain ⟨other, hother, hfinding⟩ := List.mem_filterMap.mp hmem
            have hstop := hstops other hother entry hentry round
            rw [hnext, hfinding] at hstop
            exact Option.some.inj hstop
          rw [furthest_eq_of_common hne hcommon hlt.le]
          have hfound := next_line_found (hfilters entry hentry) hlines hnext
          rw [Nat.sub_zero, ← hbuffer] at hfound
          exact hfound

/-- A filter that is alone in the parser is always in step. -/
theorem inStep_of_single {quantity : Quantity} {filter : QuantityFilter K}
    (hsingle : parser.filters.entries = [(quantity, filter)])
    (hfilter : LineFilter filter.search)
    (hlines : ∀ line ∈ lines, '\n' ∉ line)
    (hbuffer : parser.buffer = joinLines lines) :
    InStep conversions parser lines := by
  have hall : ∀ entry ∈ parser.filters.entries, entry = (quantity, filter) := by
    simp [hsingle]
  refine inStep_of_alike (fun entry hentry => ?_)
    (fun entry hentry other hother line _ => ?_) hlines hbuffer
  · rwa [hall entry hentry]
  · rw [hall entry hentry, hall other hother]

end EachLine

/-! ## Two numbered filters -/

/-- The body of `^(\d+)$`. -/
def number (digits : List Char) : Option (List (Option (List Char))) :=
  if digits ≠ [] ∧ digits.all Char.isDigit then some [some digits] else none

/-- The body of `^head(\d+)$`. -/
def numbered (head : Char) : Body
  | [] => none
  | first :: digits => if first = head then number digits else none

def numberFilter (body : Body) : QuantityFilter ℚ :=
  ⟨searchLines body, [], [], [['f']]⟩

/-- Conversions of numbers without a sign and a fraction. -/
def wholeNumbers : Conversions ℚ where
  stod digits := some (digits.foldl
    (fun value digit => 10 * value + (digit.toNat - '0'.toNat : ℕ)) 0)
  timeFromString _ := none
  fromIsoString _ := none
  getTime _ _ := 0
  unset := 0

/-- A field of `[0-9\-.]+`. -/
def isField (field : List Char) : Bool :=
  field ≠ [] && field.all fun char => char.isDigit || char = '-' || char = '.'

def onlyDigits : Conversions ℚ :=
  { wholeNumbers with
    stod := fun text =>
      if text.all Char.isDigit then wholeNumbers.stod text else none }

def numberedParser (lines : List (List Char)) : RegexParser ℚ where
  buffer := joinLines lines
  values := []
  filters :=
    { entries :=
        [(.ax, numberFilter (numbered 'a')), (.ay, numberFilter (numbered 'b'))]
      ordered := by decide }

theorem numberFilter_convertible (body : Body) :
    Convertible wholeNumbers (numberFilter body) := by
  refine fun _ found _ =>
    QuantityFilter.addGroups_ne_none (fun index text => ?_) _ _ _
  cases index <;>
    simp [QuantityFilter.groupValue, numberFilter, Conversions.convert,
      wholeNumbers]

theorem numberedParser_lawful {lines : List (List Char)} :
    ∀ entry ∈ (numberedParser lines).filters.entries,
      LineFilter entry.2.search ∧ Convertible wholeNumbers entry.2 := by
  intro entry hentry
  rcases List.mem_pair.mp hentry with rfl | rfl <;>
    exact ⟨lineFilter_searchLines rfl, numberFilter_convertible _⟩

end SensorHub.Regex
