import SensorHub.RegexDrain
import SensorHub.RegexLines

/-!
# Chunks of a stream of lines

One filter `^body$` is applied to a stream of lines which arrives in chunks.
At the end of a chunk `$` matches also where the line goes on, and a call that
throws leaves the text of which it has already pushed values.  The values are
those of the stream passed at once iff no call that returns ends where the body
matches the received part of a line that goes on, and no call that throws has
pushed a value.
-/

namespace SensorHub.Regex

/-! ## Complete lines and the last line -/

def completeLines (text : List Char) : List (List Char) :=
  (text.splitOn '\n').dropLast

def lastLine (text : List Char) : List Char :=
  (text.splitOn '\n').getLastD []

section Lines

variable {text line : List Char}

theorem completeLines_of_not_mem (hnot : '\n' ∉ text) :
    completeLines text = [] := by
  rw [completeLines, List.splitOn_eq_singleton hnot, List.dropLast_singleton]

theorem lastLine_of_not_mem (hnot : '\n' ∉ text) : lastLine text = text := by
  rw [lastLine, List.splitOn_eq_singleton hnot]
  rfl

theorem completeLines_line (hline : '\n' ∉ line) (rest : List Char) :
    completeLines (line ++ '\n' :: rest) = line :: completeLines rest := by
  rw [completeLines, List.splitOn_append_cons_self_of_not_mem hline,
    List.dropLast_cons_of_ne_nil (List.splitOn_ne_nil _ _)]
  rfl

theorem lastLine_line (hline : '\n' ∉ line) (rest : List Char) :
    lastLine (line ++ '\n' :: rest) = lastLine rest := by
  rw [lastLine, List.splitOn_append_cons_self_of_not_mem hline, lastLine]
  cases hsplit : rest.splitOn '\n' with
  | nil => exact absurd hsplit (List.splitOn_ne_nil _ _)
  | cons segment segments => simp

@[simp] theorem completeLines_newline (rest : List Char) :
    completeLines ('\n' :: rest) = [] :: completeLines rest :=
  completeLines_line List.not_mem_nil rest

@[simp] theorem lastLine_newline (rest : List Char) :
    lastLine ('\n' :: rest) = lastLine rest :=
  lastLine_line List.not_mem_nil rest

end Lines

/-! ## Anchored searches -/

section Search

variable {body : Body} {text more : List Char} {found : RegexMatch}

def LineEnd (text : List Char) : Prop :=
  text = [] ∨ ∃ rest, text = '\n' :: rest

/-- A match is that of a complete line, or that of the last line at the end of
the text. -/
theorem searchLines_cases (hfound : searchLines body text = some found) :
    (text.drop found.second = [] ∧ body (lastLine text) = some found.groups ∧
        ∀ unmatched ∈ completeLines text, body unmatched = none) ∨
      ∃ before line rest,
        completeLines text = before ++ line :: completeLines rest ∧
          (∀ unmatched ∈ before, body unmatched = none) ∧
          body line = some found.groups ∧ lastLine text = lastLine rest ∧
          text.drop found.second = '\n' :: rest := by
  induction text using lineInduction generalizing found with
  | last text hnot =>
      rw [searchLines_of_not_mem hnot, Option.map_eq_some_iff] at hfound
      obtain ⟨groups, hbody, rfl⟩ := hfound
      exact .inl ⟨List.drop_length, by rwa [lastLine_of_not_mem hnot],
        by simp [completeLines_of_not_mem hnot]⟩
  | line line rest hline ih =>
      rw [searchLines_line hline, searchLines_of_not_mem hline,
        Option.or_eq_some_iff, Option.map_eq_some_iff, Option.map_eq_none_iff,
        Option.map_eq_some_iff] at hfound
      rw [completeLines_line hline, lastLine_line hline]
      rcases hfound with ⟨groups, hbody, rfl⟩ | ⟨hbody, found, hrest, rfl⟩
      · exact .inr ⟨[], line, rest, rfl, by simp, hbody, rfl,
          List.drop_left⟩
      · simp only [RegexMatch.shift, drop_behind_line]
        rcases ih hrest with ⟨hdrop, hlast, hunmatched⟩ |
          ⟨before, later, tail, hsplit, hbefore, hlater⟩
        · exact .inl ⟨hdrop, hlast, List.forall_mem_cons.mpr ⟨hbody, hunmatched⟩⟩
        · refine .inr ⟨line :: before, later, tail, ?_, ?_, hlater⟩
          · rw [hsplit, List.cons_append]
          · exact List.forall_mem_cons.mpr ⟨hbody, hbefore⟩

theorem searchLines_eq_none (hnone : searchLines body text = none) :
    (∀ line ∈ completeLines text, body line = none) ∧
      body (lastLine text) = none := by
  induction text using lineInduction with
  | last text hnot =>
      rw [searchLines_of_not_mem hnot, Option.map_eq_none_iff] at hnone
      simpa [completeLines_of_not_mem hnot, lastLine_of_not_mem hnot] using hnone
  | line line rest hline ih =>
      rw [searchLines_line hline, searchLines_of_not_mem hline,
        Option.or_eq_none_iff, Option.map_eq_none_iff,
        Option.map_eq_none_iff] at hnone
      rw [completeLines_line hline, lastLine_line hline, List.forall_mem_cons]
      exact ⟨⟨hnone.1, (ih hnone.2).1⟩, (ih hnone.2).2⟩

/-- More text makes no difference to a match in a complete line, nor if it
starts with a line end. -/
theorem searchLines_append (hfound : searchLines body text = some found)
    (hborder : (∃ line ∈ completeLines text, body line ≠ none) ∨
      body (lastLine text) = none ∨ LineEnd more) :
    searchLines body (text ++ more) = some found := by
  induction text using lineInduction generalizing found with
  | last text hnot =>
      rw [completeLines_of_not_mem hnot, lastLine_of_not_mem hnot] at hborder
      have hbody : body text ≠ none := by
        rw [searchLines_of_not_mem hnot] at hfound
        intro hnone
        simp [hnone] at hfound
      rcases hborder with ⟨line, hmem, -⟩ | hnone | hnil | ⟨rest, hmore⟩
      · exact absurd hmem List.not_mem_nil
      · exact absurd hnone hbody
      · rwa [hnil, List.append_nil]
      · rw [hmore, searchLines_line hnot, hfound, Option.some_or]
  | line line rest hline ih =>
      simp only [completeLines_line hline, lastLine_line hline, List.mem_cons,
        exists_eq_or_imp] at hborder
      rw [searchLines_line hline] at hfound
      rw [List.append_assoc, List.cons_append, searchLines_line hline]
      cases hbody : searchLines body line with
      | some first =>
          rw [hbody] at hfound
          exact hfound
      | none =>
          rw [hbody, Option.none_or, Option.map_eq_some_iff] at hfound
          rw [searchLines_of_not_mem hline, Option.map_eq_none_iff] at hbody
          obtain ⟨later, hlater, rfl⟩ := hfound
          rw [ih hlater]
          · rfl
          · rwa [or_iff_right (not_not.mpr hbody)] at hborder

end Search

/-! ## Draining lines -/

variable {K : Type} [Zero K] [Add K] [Mul K]

/-- The body matches, and its groups can be converted. -/
def Converts (conversions : Conversions K) (filter : QuantityFilter K)
    (body : Body) (line : List Char) : Prop :=
  ∃ groups, body line = some groups ∧
    filter.addGroups conversions 0 0 groups ≠ none

/-- The parser does not get beyond a line which it matches if a conversion
throws, or if the body also matches the empty text between the line and its
end. -/
def Blocks (conversions : Conversions K) (filter : QuantityFilter K)
    (body : Body) (line : List Char) : Prop :=
  body line ≠ none ∧
    (Converts conversions filter body line → body [] ≠ none)

def Blocked (conversions : Conversions K) (filter : QuantityFilter K)
    (body : Body) (text : List Char) : Prop :=
  ∃ line ∈ completeLines text, Blocks conversions filter body line

/-- The parser is blocked, or the conversion of the last line throws. -/
def Stopped (conversions : Conversions K) (filter : QuantityFilter K)
    (body : Body) (text : List Char) : Prop :=
  Blocked conversions filter body text ∨
    text ≠ [] ∧ body (lastLine text) ≠ none ∧
      ¬Converts conversions filter body (lastLine text)

instance (conversions : Conversions K) (filter : QuantityFilter K) (body : Body)
    (line : List Char) : Decidable (Converts conversions filter body line) :=
  decidable_of_iff
    ((body line).any fun groups => (filter.addGroups conversions 0 0 groups).isSome)
    (by simp [Converts, Option.any_eq_true, Option.isSome_iff_ne_none])

instance (conversions : Conversions K) (filter : QuantityFilter K) (body : Body)
    (text : List Char) : Decidable (Stopped conversions filter body text) :=
  have : DecidablePred (Blocks conversions filter body) :=
    fun line => inferInstanceAs (Decidable (body line ≠ none ∧ (_ → body [] ≠ none)))
  inferInstanceAs (Decidable ((∃ line ∈ completeLines text, _) ∨ _ ∧ _ ∧ _))

/-- The lines that match and can be converted, up to the first that blocks. -/
def convertedLines (conversions : Conversions K) (filter : QuantityFilter K)
    (body : Body) : List (List Char) → List (List Char)
  | [] => []
  | line :: lines =>
      match body line with
      | none => convertedLines conversions filter body lines
      | some groups =>
          match filter.addGroups conversions 0 0 groups with
          | none => []
          | some _ =>
              line ::
                if body [] = none then convertedLines conversions filter body lines else []

/-- How many lines of the text are converted. -/
def numberConverted (conversions : Conversions K) (filter : QuantityFilter K)
    (body : Body) (text : List Char) : ℕ :=
  if text = [] then 0
  else (convertedLines conversions filter body
    (completeLines text ++ [lastLine text])).length

/-- A border between two parts of a stream at which the first part and the rest
of it can be searched one after the other: the body does not match the last line
of the first part, or this line goes no further, unless there is nothing before
the border or the parser does not get there. -/
def CleanBorder (conversions : Conversions K) (filter : QuantityFilter K)
    (body : Body) (text more : List Char) : Prop :=
  text = [] ∨ Blocked conversions filter body text ∨
    body (lastLine text) = none ∨ LineEnd more

section Drain

variable {conversions : Conversions K} {quantity : Quantity}
  {filter : QuantityFilter K} {body : Body} {start : ℕ}
  {text more : List Char} {found : RegexMatch}

theorem converts_iff_value (quantity : Quantity) (start : ℕ)
    {line : List Char} (hbody : body line = some found.groups) :
    Converts conversions filter body line ↔
      (findingAt conversions start quantity filter found).value ≠ none := by
  simp [Converts, hbody, findingAt, QuantityFilter.matchValue]

/-- Behind a convertible match there is nothing, or the end of its line; then
the last line is still the same, and so is whether the parser gets there. -/
theorem drop_match_cases (hfound : searchLines body text = some found)
    (hvalue : (findingAt conversions start quantity filter found).value ≠ none) :
    text.drop found.second = [] ∨
      ∃ rest, text.drop found.second = '\n' :: rest ∧
        lastLine text = lastLine rest ∧
        (Blocked conversions filter body text ↔
          Blocked conversions filter body ('\n' :: rest)) := by
  rcases searchLines_cases hfound with ⟨hdrop, -⟩ |
    ⟨before, line, rest, hsplit, hbefore, hline, hlast, hdrop⟩
  · exact .inl hdrop
  · refine .inr ⟨rest, hdrop, hlast, ?_⟩
    -- the matched line blocks iff the empty text before its end does
    have hconverts := (converts_iff_value quantity start hline).mpr hvalue
    have hmatched : Blocks conversions filter body line ↔
        Blocks conversions filter body [] := by
      simp [Blocks, hline, hconverts]
      tauto
    have hunmatched : ∀ unmatched ∈ before,
        ¬Blocks conversions filter body unmatched :=
      fun unmatched hmem hblocks => hblocks.1 (hbefore unmatched hmem)
    simp only [Blocked, hsplit, completeLines_newline, List.mem_append,
      List.mem_cons, or_and_right, exists_or, exists_eq_left, hmatched]
    constructor
    · rintro (⟨unmatched, hmem, hblocks⟩ | hblocks)
      · exact absurd hblocks (hunmatched unmatched hmem)
      · exact hblocks
    · exact .inr

theorem CleanBorder.drop_match
    (hborder : CleanBorder conversions filter body text more)
    (hfound : searchLines body text = some found)
    (hvalue : (findingAt conversions start quantity filter found).value ≠ none) :
    CleanBorder conversions filter body (text.drop found.second) more := by
  rcases drop_match_cases hfound hvalue with hdrop | ⟨rest, hdrop, hlast, hblocked⟩
  · exact .inl hdrop
  · rw [hdrop]
    rcases hborder with hnil | hstopped | hborder
    · simp [hnil] at hdrop
    · exact .inr (.inl (hblocked.mp hstopped))
    · rw [hlast, ← lastLine_newline] at hborder
      exact .inr (.inr hborder)

theorem nextMatch_append (hanchored : filter.search = searchLines body)
    (hborder : CleanBorder conversions filter body text more)
    (hnext : filter.nextMatch text = some found) :
    filter.nextMatch (text ++ more) = some found := by
  rw [QuantityFilter.nextMatch_eq_some_iff, hanchored] at hnext ⊢
  refine ⟨by simp [hnext.1], searchLines_append hnext.2 ?_⟩
  rcases hborder with hnil | ⟨line, hmem, hblocks⟩ | hborder
  · exact absurd hnil hnext.1
  · exact .inl ⟨line, hmem, hblocks.1⟩
  · exact .inr hborder

/-- Across a clean border the matches continue: draining the first part and
then what is left with the second part is draining both at once. -/
theorem drain_append (quantity : Quantity) (start : ℕ)
    (hanchored : filter.search = searchLines body)
    (hborder : CleanBorder conversions filter body text more) :
    let first := drain conversions quantity filter start text
    let whole := drain conversions quantity filter start (text ++ more)
    let second := drain conversions quantity filter
      (start + (text.length - first.rest.length)) (first.rest ++ more)
    (first.outcome = .returned →
      whole.findings = first.findings ++ second.findings ∧
        whole.rest = second.rest ∧ whole.outcome = second.outcome) ∧
    (first.outcome ≠ .returned →
      whole.findings = first.findings ∧ whole.outcome = first.outcome) := by
  fun_induction drain conversions quantity filter start text with
  | case1 start text hnone => simp
  | case2 start text found hsome finding hthrows =>
      rw [drain_of_some (nextMatch_append hanchored hborder hsome)]
      simp [finding, hthrows]
  | case3 start text found hsome finding hvalue hstuck =>
      rw [drain_of_some (nextMatch_append hanchored hborder hsome)]
      simp [finding, hvalue, hstuck]
  | case4 start text found hsome finding hvalue hmoves hlt rest ih =>
      rw [drain_of_moves (nextMatch_append hanchored hborder hsome) hvalue
        hmoves]
      rw [QuantityFilter.nextMatch_eq_some_iff, hanchored] at hsome
      have hends := searchLines_second_le hsome.2
      obtain ⟨hreturned, hstopped⟩ := ih (hborder.drop_match hsome.2 hvalue)
      have hlength : rest.rest.length ≤ (text.drop found.second).length :=
        rest_length_le _ _ _ _ _
      have hstart : start + found.second +
            ((text.drop found.second).length - rest.rest.length) =
          start + (text.length - rest.rest.length) := by
        rw [List.length_drop] at hlength ⊢
        omega
      rw [hstart, ← List.drop_append_of_le_length hends] at hreturned
      rw [← List.drop_append_of_le_length hends] at hstopped
      constructor
      · intro hend
        obtain ⟨hfindings, hrest, houtcome⟩ := hreturned hend
        exact ⟨congrArg (finding :: ·) hfindings, hrest, houtcome⟩
      · intro hend
        obtain ⟨hfindings, houtcome⟩ := hstopped hend
        exact ⟨congrArg (finding :: ·) hfindings, houtcome⟩

theorem blocks_of_throws {line : List Char} (hbody : body line = some found.groups)
    (hthrows : (findingAt conversions start quantity filter found).value = none) :
    Blocks conversions filter body line :=
  ⟨by simp [hbody], fun hconverts =>
    absurd hthrows ((converts_iff_value quantity start hbody).mp hconverts)⟩

/-- An empty match at the front is found behind a line that blocks. -/
theorem blocked_of_stuck (hanchored : filter.search = searchLines body)
    (hnext : filter.nextMatch text = some found) (hstuck : found.second = 0) :
    Blocked conversions filter body text := by
  rw [QuantityFilter.nextMatch_eq_some_iff, hanchored] at hnext
  obtain ⟨segment, hbody, hsecond, -⟩ := searchLines_within hnext.2
  rw [List.length_eq_zero_iff.mp (show segment.length = 0 by omega)] at hbody
  rcases searchLines_cases hnext.2 with ⟨hdrop, -, -⟩ |
    ⟨before, line, rest, hsplit, -, hline, -, -⟩
  · rw [hstuck, List.drop_zero] at hdrop
    exact absurd hdrop hnext.1
  · exact ⟨line, by simp [hsplit], by simp [hline], fun _ => hbody⟩

/-- A call returns unless something in the text stops it. -/
theorem drain_returned_iff (conversions : Conversions K) (quantity : Quantity) (start : ℕ)
    (hanchored : filter.search = searchLines body) (text : List Char) :
    (drain conversions quantity filter start text).outcome = .returned ↔
      ¬Stopped conversions filter body text := by
  fun_induction drain conversions quantity filter start text with
  | case1 start text hnone =>
      refine iff_of_true rfl ?_
      by_cases hnil : text = []
      · simp [Stopped, Blocked, hnil, completeLines_of_not_mem]
      · rw [QuantityFilter.nextMatch, if_neg hnil, hanchored] at hnone
        obtain ⟨hlines, hlast⟩ := searchLines_eq_none hnone
        rintro (⟨line, hmem, hblocks⟩ | ⟨-, hmatched, -⟩)
        · exact hblocks.1 (hlines line hmem)
        · exact hmatched hlast
  | case2 start text found hsome finding hthrows =>
      refine iff_of_false (by simp) (not_not.mpr ?_)
      rw [QuantityFilter.nextMatch_eq_some_iff, hanchored] at hsome
      rcases searchLines_cases hsome.2 with ⟨-, hlast, -⟩ |
        ⟨before, line, rest, hsplit, -, hline, -, -⟩
      · refine .inr ⟨hsome.1, by simp [hlast], fun hconverts => ?_⟩
        exact (converts_iff_value quantity start hlast).mp hconverts hthrows
      · exact .inl ⟨line, by simp [hsplit], blocks_of_throws hline hthrows⟩
  | case3 start text found hsome finding hvalue hstuck =>
      exact iff_of_false (by simp) (not_not.mpr (.inl (blocked_of_stuck hanchored hsome hstuck)))
  | case4 start text found hsome finding hvalue hmoves hlt rest ih =>
      refine ih.trans (not_congr ?_)
      rw [QuantityFilter.nextMatch_eq_some_iff, hanchored] at hsome
      rcases searchLines_cases hsome.2 with ⟨hdrop, hlast, hunmatched⟩ |
        ⟨before, line, rest, hsplit, hbefore, hline, hlast, hdrop⟩
      · have hconverts := (converts_iff_value quantity start hlast).mpr hvalue
        refine iff_of_false ?_ ?_
        · simp [Stopped, Blocked, hdrop, completeLines_of_not_mem]
        · rintro (⟨line, hmem, hblocks⟩ | ⟨-, -, hfails⟩)
          · exact hblocks.1 (hunmatched line hmem)
          · exact hfails hconverts
      · rcases drop_match_cases hsome.2 hvalue with hnil | ⟨tail, htail, hsame, hblocked⟩
        · rw [hnil] at hdrop
          cases hdrop
        · rw [htail]
          simp only [Stopped, hblocked, hsame, lastLine_newline, hsome.1, ne_eq,
            List.cons_ne_nil, not_false_iff]

theorem blocked_of_hung (hanchored : filter.search = searchLines body)
    (hhung : (drain conversions quantity filter start text).outcome = .hung) :
    Blocked conversions filter body text := by
  fun_induction drain conversions quantity filter start text with
  | case1 => cases hhung
  | case2 => cases hhung
  | case3 start text found hsome finding hvalue hstuck =>
      exact blocked_of_stuck hanchored hsome hstuck
  | case4 start text found hsome finding hvalue hmoves hlt rest ih =>
      have hblocked := ih hhung
      rw [QuantityFilter.nextMatch_eq_some_iff, hanchored] at hsome
      rcases drop_match_cases hsome.2 hvalue with hnil | ⟨tail, htail, -, hsame⟩
      · obtain ⟨line, hmem, -⟩ := hblocked
        simp [hnil, completeLines_of_not_mem] at hmem
      · rw [htail] at hblocked
        exact hsame.mpr hblocked

/-- When nothing blocks the parser, it finds the last line if the body matches. -/
theorem drain_last_line (quantity : Quantity) (start : ℕ)
    (hanchored : filter.search = searchLines body)
    (hfree : ¬Blocked conversions filter body text) (hne : text ≠ [])
    (hbody : body (lastLine text) ≠ none) :
    ∃ finding ∈ (drain conversions quantity filter start text).findings,
      finding.second = start + text.length := by
  fun_induction drain conversions quantity filter start text with
  | case1 start text hnone =>
      rw [QuantityFilter.nextMatch, if_neg hne, hanchored] at hnone
      exact absurd (searchLines_eq_none hnone).2 hbody
  | case2 start text found hsome finding hthrows =>
      rw [QuantityFilter.nextMatch_eq_some_iff, hanchored] at hsome
      have hends := searchLines_second_le hsome.2
      rcases searchLines_cases hsome.2 with ⟨hdrop, -, -⟩ |
        ⟨before, line, rest, hsplit, -, hline, -, -⟩
      · refine ⟨finding, List.mem_singleton_self _, ?_⟩
        have hlength := List.drop_eq_nil_iff.mp hdrop
        simp only [finding, findingAt]
        omega
      · exact absurd ⟨line, by simp [hsplit], blocks_of_throws hline hthrows⟩ hfree
  | case3 start text found hsome finding hvalue hstuck =>
      exact absurd (blocked_of_stuck hanchored hsome hstuck) hfree
  | case4 start text found hsome finding hvalue hmoves hlt rest ih =>
      rw [QuantityFilter.nextMatch_eq_some_iff, hanchored] at hsome
      have hends := searchLines_second_le hsome.2
      rcases drop_match_cases hsome.2 hvalue with hdrop | ⟨tail, hdrop, hlast, hblocked⟩
      · have hlength := List.drop_eq_nil_iff.mp hdrop
        refine ⟨finding, List.mem_cons_self, ?_⟩
        simp only [finding, findingAt]
        omega
      · have hsame : lastLine (text.drop found.second) = lastLine text := by
          rw [hdrop, lastLine_newline, hlast]
        obtain ⟨later, hmem, hsecond⟩ := ih (by rwa [hdrop, ← hblocked]) (by simp [hdrop])
          (by rwa [hsame])
        refine ⟨later, List.mem_cons_of_mem _ hmem, ?_⟩
        rw [hsecond, List.length_drop]
        omega

theorem drain_lineEnd (hanchored : filter.search = searchLines body)
    {finding : Finding K}
    (hmem : finding ∈
      (drain conversions quantity filter start text).findings) :
    ∃ stop, finding.second = start + stop ∧ LineEnd (text.drop stop) := by
  have hends : ∀ {text found}, filter.nextMatch text = some found →
      LineEnd (text.drop found.second) := by
    intro text found hnext
    rw [QuantityFilter.nextMatch_eq_some_iff, hanchored] at hnext
    rcases searchLines_cases hnext.2 with ⟨hdrop, -⟩ |
      ⟨-, -, rest, -, -, -, -, hdrop⟩
    · exact .inl hdrop
    · exact .inr ⟨rest, hdrop⟩
  fun_induction drain conversions quantity filter start text with
  | case1 start text hnone => simp at hmem
  | case2 start text found hsome first hthrows =>
      rw [List.mem_singleton] at hmem
      exact ⟨found.second, by rw [hmem]; rfl, hends hsome⟩
  | case3 start text found hsome first hvalue hstuck =>
      rw [List.mem_singleton] at hmem
      exact ⟨found.second, by rw [hmem]; rfl, hends hsome⟩
  | case4 start text found hsome first hvalue hmoves hlt rest ih =>
      rcases List.mem_cons.mp hmem with hfirst | hlater
      · exact ⟨found.second, by rw [hfirst]; rfl, hends hsome⟩
      · obtain ⟨stop, hsecond, hstop⟩ := ih hlater
        rw [List.drop_drop] at hstop
        exact ⟨found.second + stop, by rw [hsecond, Nat.add_assoc], hstop⟩

end Drain

/-! ## Endless calls -/

/-- The first line that the body matches can be converted, and so can the empty
text that it matches too. -/
def Endless (conversions : Conversions K) (filter : QuantityFilter K)
    (body : Body) (lines : List (List Char)) : Prop :=
  Converts conversions filter body [] ∧
    ∃ line, lines.find? (fun line => (body line).isSome) = some line ∧
      Converts conversions filter body line

section Endless

variable {conversions : Conversions K} {quantity : Quantity}
  {filter : QuantityFilter K} {body : Body}

theorem drain_outcome_start (start : ℕ) (text : List Char) :
    (drain conversions quantity filter start text).outcome =
      (drain conversions quantity filter 0 text).outcome := by
  rw [← Nat.add_zero start, drain_shift]

theorem drain_ne_hung (hanchored : filter.search = searchLines body)
    (hempty : body [] = none) (start : ℕ) (text : List Char) :
    (drain conversions quantity filter start text).outcome ≠ .hung := by
  fun_induction drain conversions quantity filter start text with
  | case1 => exact Outcome.noConfusion
  | case2 => exact Outcome.noConfusion
  | case3 start text found hsome finding hvalue hstuck =>
      rw [QuantityFilter.nextMatch_eq_some_iff, hanchored] at hsome
      obtain ⟨segment, hbody, hsecond, -⟩ := searchLines_within hsome.2
      rw [List.length_eq_zero_iff.mp (show segment.length = 0 by omega)] at hbody
      exact absurd hempty hbody
  | case4 start text found hsome finding hvalue hmoves hlt rest ih => exact ih

theorem drain_hung_iff_of_match (conversions : Conversions K)
    (quantity : Quantity) {text : List Char} {found : RegexMatch}
    (hnext : filter.nextMatch text = some found) :
    (drain conversions quantity filter 0 text).outcome = .hung ↔
      filter.addGroups conversions 0 0 found.groups ≠ none ∧
        (found.second = 0 ∨
          (drain conversions quantity filter 0
            (text.drop found.second)).outcome = .hung) := by
  rw [drain_of_some hnext]
  by_cases hvalue : filter.addGroups conversions 0 0 found.groups = none
  · simp [findingAt, QuantityFilter.matchValue, hvalue]
  · by_cases hstuck : found.second = 0 <;>
      simp [findingAt, QuantityFilter.matchValue, hvalue, hstuck,
        drain_outcome_start found.second]

theorem drain_unmatched_line (quantity : Quantity)
    (hanchored : filter.search = searchLines body)
    {line : List Char} (hline : '\n' ∉ line) (hbody : body line = none)
    (rest : List Char) :
    (drain conversions quantity filter 0 (line ++ '\n' :: rest)).outcome =
        .hung ↔
      (drain conversions quantity filter 0 rest).outcome = .hung := by
  have hsearch : filter.nextMatch (line ++ '\n' :: rest) =
      (filter.search rest).map (RegexMatch.shift (line.length + 1)) := by
    rw [QuantityFilter.nextMatch, if_neg (by simp), hanchored,
      searchLines_line hline, searchLines_of_not_mem hline, hbody,
      Option.map_none, Option.none_or]
  cases hfound : filter.search rest with
  | none =>
      rw [hfound, Option.map_none] at hsearch
      have hrest : filter.nextMatch rest = none := by
        rw [QuantityFilter.nextMatch, hfound, ite_self]
      simp [drain_of_none hsearch, drain_of_none hrest]
  | some found =>
      rw [hfound, Option.map_some] at hsearch
      rw [drain_hung_iff_of_match conversions quantity hsearch]
      simp only [RegexMatch.shift, drop_behind_line]
      have hmoves : line.length + 1 + found.second ≠ 0 := by omega
      rw [or_iff_right hmoves]
      by_cases hnil : rest = []
      · simp [hnil]
      · have hnext : filter.nextMatch rest = some found :=
          QuantityFilter.nextMatch_eq_some_iff.mpr ⟨hnil, hfound⟩
        have hhung := drain_hung_iff_of_match conversions quantity hnext
        by_cases hstuck : found.second = 0
        · rw [hstuck, List.drop_zero]
          rw [hhung]
          simp [hstuck]
        · rw [hhung, or_iff_right hstuck]

/-- At the end of a line the call does not end iff the empty text can be
converted. -/
theorem drain_newline_hung_iff (quantity : Quantity)
    (hanchored : filter.search = searchLines body) (rest : List Char) :
    (drain conversions quantity filter 0 ('\n' :: rest)).outcome = .hung ↔
      Converts conversions filter body [] := by
  cases hempty : body [] with
  | none =>
      exact iff_of_false (drain_ne_hung hanchored hempty 0 _)
        (by simp [Converts, hempty])
  | some groups =>
      have hnext : filter.nextMatch ('\n' :: rest) = some ⟨0, 0, groups⟩ := by
        have hline : searchLines body ([] ++ '\n' :: rest) = _ :=
          searchLines_line List.not_mem_nil rest
        rw [List.nil_append, searchLines_nil, hempty] at hline
        rw [QuantityFilter.nextMatch, if_neg (List.cons_ne_nil _ _), hanchored,
          hline]
        rfl
      rw [drain_hung_iff_of_match conversions quantity hnext]
      simp [Converts, hempty]

/-- The stream of lines passed at once never comes to an end iff it is
endless. -/
theorem drain_hung_iff (conversions : Conversions K) (quantity : Quantity)
    (hanchored : filter.search = searchLines body)
    {lines : List (List Char)} (hlines : ∀ line ∈ lines, '\n' ∉ line) :
    (drain conversions quantity filter 0 (joinLines lines)).outcome = .hung ↔
      Endless conversions filter body lines := by
  induction lines with
  | nil => simp [joinLines, Endless]
  | cons line lines ih =>
      rw [List.forall_mem_cons] at hlines
      rw [joinLines]
      cases hbody : body line with
      | none =>
          rw [drain_unmatched_line quantity hanchored hlines.1 hbody,
            ih hlines.2]
          simp [Endless, hbody]
      | some groups =>
          have hnext : filter.nextMatch (line ++ '\n' :: joinLines lines) =
              some ⟨0, line.length, groups⟩ := by
            rw [QuantityFilter.nextMatch, if_neg (by simp), hanchored,
              searchLines_line hlines.1, searchLines_of_not_mem hlines.1, hbody]
            rfl
          have hconverts : Converts conversions filter body line ↔
              filter.addGroups conversions 0 0 groups ≠ none := by
            simp [Converts, hbody]
          rw [drain_hung_iff_of_match conversions quantity hnext, ← hconverts]
          simp only [List.drop_left, drain_newline_hung_iff quantity hanchored]
          have hfirst : Endless conversions filter body (line :: lines) ↔
              Converts conversions filter body [] ∧
                Converts conversions filter body line := by
            simp [Endless, hbody]
          rw [hfirst, and_comm, List.length_eq_zero_iff]
          refine and_congr_left fun hline => or_iff_right_of_imp ?_
          rintro rfl
          exact hline

end Endless

/-! ## Values that are pushed -/

section Pushed

variable {conversions : Conversions K} {quantity : Quantity}
  {filter : QuantityFilter K} {body : Body} {start : ℕ}
  {text more : List Char} {found : RegexMatch}

theorem convertedLines_skip {before : List (List Char)}
    (hbefore : ∀ unmatched ∈ before, body unmatched = none) (lines : List (List Char)) :
    convertedLines conversions filter body (before ++ lines) =
      convertedLines conversions filter body lines := by
  induction before with
  | nil => rfl
  | cons line before ih =>
      rw [List.forall_mem_cons] at hbefore
      rw [List.cons_append, convertedLines, hbefore.1]
      exact ih hbefore.2

theorem convertedLines_of_throws {line : List Char} (hbody : body line = some found.groups)
    (hthrows : (findingAt conversions start quantity filter found).value = none)
    (lines : List (List Char)) :
    convertedLines conversions filter body (line :: lines) = [] := by
  have hgroups : filter.addGroups conversions 0 0 found.groups = none := hthrows
  simp only [convertedLines, hbody, hgroups]

theorem convertedLines_of_value {line : List Char} (hbody : body line = some found.groups)
    (hvalue : (findingAt conversions start quantity filter found).value ≠ none)
    (lines : List (List Char)) :
    convertedLines conversions filter body (line :: lines) =
      line :: if body [] = none then convertedLines conversions filter body lines else [] := by
  obtain ⟨value, hgroups⟩ : ∃ value, filter.addGroups conversions 0 0 found.groups = some value :=
    Option.ne_none_iff_exists'.mp hvalue
  simp only [convertedLines, hbody, hgroups]

/-- At the end of a line only what is behind it is converted. -/
theorem numberConverted_newline
    (hends : ¬Converts conversions filter body []) (rest : List Char) :
    numberConverted conversions filter body ('\n' :: rest) =
      if body [] = none then
        (convertedLines conversions filter body (completeLines rest ++ [lastLine rest])).length
      else 0 := by
  rw [numberConverted, if_neg (List.cons_ne_nil _ _), completeLines_newline, lastLine_newline,
    List.cons_append]
  cases hempty : body [] with
  | none => simp [convertedLines, hempty]
  | some groups =>
      have hgroups : filter.addGroups conversions 0 0 groups = none := by
        by_contra hvalue
        exact hends ⟨groups, hempty, hvalue⟩
      simp [convertedLines, hempty, hgroups]

/-- A call pushes a value for each line that is converted. -/
theorem length_pushed (hanchored : filter.search = searchLines body)
    (hended : (drain conversions quantity filter start text).outcome ≠ .hung) :
    (drain conversions quantity filter start text).pushed.length =
      numberConverted conversions filter body text := by
  fun_induction drain conversions quantity filter start text with
  | case1 start text hnone =>
      by_cases hnil : text = []
      · simp [Drained.pushed, numberConverted, hnil]
      · rw [QuantityFilter.nextMatch, if_neg hnil, hanchored] at hnone
        obtain ⟨hlines, hlast⟩ := searchLines_eq_none hnone
        rw [numberConverted, if_neg hnil, convertedLines_skip hlines, convertedLines, hlast]
        rfl
  | case2 start text found hsome finding hthrows =>
      rw [QuantityFilter.nextMatch_eq_some_iff, hanchored] at hsome
      have hpushed : [finding].filter Finding.converted = [] := by
        simp [Finding.converted, hthrows]
      rw [Drained.pushed, hpushed, numberConverted, if_neg hsome.1]
      rcases searchLines_cases hsome.2 with ⟨-, hlast, hunmatched⟩ |
        ⟨before, line, rest, hsplit, hbefore, hline, -, -⟩
      · rw [convertedLines_skip hunmatched, convertedLines_of_throws hlast hthrows]
        rfl
      · rw [hsplit, List.append_assoc, convertedLines_skip hbefore, List.cons_append,
          convertedLines_of_throws hline hthrows]
        rfl
  | case3 => exact absurd rfl hended
  | case4 start text found hsome finding hvalue hmoves hlt rest ih =>
      rw [QuantityFilter.nextMatch_eq_some_iff, hanchored] at hsome
      have hpushed : (finding :: rest.findings).filter Finding.converted =
          finding :: rest.findings.filter Finding.converted :=
        List.filter_cons_of_pos (Option.isSome_iff_ne_none.mpr hvalue)
      have hrest : (rest.findings.filter Finding.converted).length =
          numberConverted conversions filter body (text.drop found.second) := ih hended
      rw [Drained.pushed, hpushed, List.length_cons, hrest, numberConverted, numberConverted,
        if_neg hsome.1]
      rcases searchLines_cases hsome.2 with ⟨hdrop, hlast, hunmatched⟩ |
        ⟨before, line, tail, hsplit, hbefore, hline, hlast, hdrop⟩
      · rw [convertedLines_skip hunmatched, convertedLines_of_value hlast hvalue, hdrop]
        simp [convertedLines]
      · have hends : ¬Converts conversions filter body [] := by
          intro hconverts
          have hhung := (drain_newline_hung_iff quantity hanchored tail).mpr hconverts
          rw [← hdrop, ← drain_outcome_start (start + found.second)] at hhung
          exact hended hhung
        have hbehind := numberConverted_newline hends tail
        rw [← hdrop, numberConverted] at hbehind
        rw [hbehind, hsplit, List.append_assoc, convertedLines_skip hbefore, List.cons_append,
          convertedLines_of_value hline hvalue, List.length_cons, hlast]
        split <;> rfl

theorem pushed_ordered
    (hended : (drain conversions quantity filter start text).outcome ≠ .hung) :
    (∀ finding ∈ (drain conversions quantity filter start text).pushed,
        start < finding.second) ∧
      (drain conversions quantity filter start text).pushed.Pairwise fun earlier later =>
        earlier.second < later.second := by
  fun_induction drain conversions quantity filter start text with
  | case1 => simp [Drained.pushed]
  | case2 start text found hsome finding hthrows =>
      simp [Drained.pushed, Finding.converted, hthrows]
  | case3 => exact absurd rfl hended
  | case4 start text found hsome finding hvalue hmoves hlt rest ih =>
      obtain ⟨hbehind, hordered⟩ := ih hended
      have hpushed : (finding :: rest.findings).filter Finding.converted = finding :: rest.pushed :=
        List.filter_cons_of_pos (Option.isSome_iff_ne_none.mpr hvalue)
      have hsecond : finding.second = start + found.second := rfl
      rw [Drained.pushed, hpushed]
      refine ⟨List.forall_mem_cons.mpr ⟨by omega, fun later hlater => ?_⟩,
        List.pairwise_cons.mpr ⟨fun later hlater => ?_, hordered⟩⟩
      · exact (Nat.le_add_right _ _).trans_lt (hbehind later hlater)
      · rw [hsecond]
        exact hbehind later hlater

theorem pushed_nodup
    (hended : (drain conversions quantity filter start text).outcome ≠ .hung) :
    (drain conversions quantity filter start text).pushed.Nodup := by
  refine (pushed_ordered hended).2.imp fun hlt heq => ?_
  rw [heq] at hlt
  exact lt_irrefl _ hlt

theorem converted_of_returned
    (hreturned : (drain conversions quantity filter start text).outcome = .returned) :
    (drain conversions quantity filter start text).pushed =
      (drain conversions quantity filter start text).findings := by
  fun_induction drain conversions quantity filter start text with
  | case1 => rfl
  | case2 => cases hreturned
  | case3 => cases hreturned
  | case4 start text found hsome finding hvalue hmoves hlt rest ih =>
      have hpushed : (finding :: rest.findings).filter Finding.converted = finding :: rest.pushed :=
        List.filter_cons_of_pos (Option.isSome_iff_ne_none.mpr hvalue)
      rw [Drained.pushed, hpushed, ih hreturned]

/-- What a call has pushed before it throws, the call with more text pushes again. -/
theorem exists_pushed_again (hanchored : filter.search = searchLines body)
    (hthrew : (drain conversions quantity filter start text).outcome = .threw)
    (hpushed : (drain conversions quantity filter start text).pushed ≠ []) (more : List Char) :
    ∃ finding ∈ (drain conversions quantity filter start text).pushed,
      finding ∈ (drain conversions quantity filter start (text ++ more)).pushed := by
  cases hnext : filter.nextMatch text with
  | none =>
      rw [drain_of_none hnext] at hthrew
      cases hthrew
  | some found =>
      have hvalue : (findingAt conversions start quantity filter found).value ≠ none := by
        intro hthrows
        rw [drain_of_some hnext] at hpushed
        simp [hthrows, Drained.pushed, Finding.converted] at hpushed
      have hmoves : found.second ≠ 0 := by
        intro hstuck
        rw [drain_of_some hnext] at hthrew
        simp [hvalue, hstuck] at hthrew
      rw [drain_of_moves hnext hvalue hmoves] at hthrew ⊢
      have hagain : filter.nextMatch (text ++ more) = some found := by
        rw [QuantityFilter.nextMatch_eq_some_iff, hanchored] at hnext ⊢
        refine ⟨by simp [hnext.1], searchLines_append hnext.2 ?_⟩
        rcases searchLines_cases hnext.2 with ⟨hdrop, -⟩ |
          ⟨before, line, rest, hsplit, -, hline, -⟩
        · -- nothing is left that could throw
          rw [hdrop, drain_nil] at hthrew
          cases hthrew
        · exact .inl ⟨line, by simp [hsplit], by simp [hline]⟩
      rw [drain_of_moves hagain hvalue hmoves]
      have hfirst : ∀ findings : List (Finding K),
          findingAt conversions start quantity filter found ∈
            (findingAt conversions start quantity filter found :: findings).filter
              Finding.converted :=
        fun _ => List.mem_filter.mpr ⟨List.mem_cons_self, Option.isSome_iff_ne_none.mpr hvalue⟩
      exact ⟨_, hfirst _, hfirst _⟩

end Pushed

/-! ## Borders of chunks -/

/-- A chunk after some text, with more to come, does no harm.  If something in
the text received so far stops the parser, the chunk must not have completed a
line that is converted before, because the next call would convert it again.
Otherwise the body must not match the received part of a line that goes on. -/
structure HarmlessBorder (conversions : Conversions K) (filter : QuantityFilter K)
    (body : Body) (text chunk more : List Char) : Prop where
  stopped : Stopped conversions filter body (text ++ chunk) →
    numberConverted conversions filter body (text ++ chunk) =
      numberConverted conversions filter body text
  goesOn : ¬Stopped conversions filter body (text ++ chunk) →
    text ++ chunk = [] ∨ body (lastLine (text ++ chunk)) = none ∨ LineEnd more

/-- No chunk but the last, after which there is no call, does harm. -/
def Harmless (conversions : Conversions K) (filter : QuantityFilter K)
    (body : Body) (text : List Char) (chunks : List (List Char)) : Prop :=
  ∀ before chunk after, chunks = before ++ chunk :: after → after ≠ [] →
    HarmlessBorder conversions filter body (text ++ before.flatten) chunk after.flatten

section Chunks

variable {conversions : Conversions K} {quantity : Quantity}
  {filter : QuantityFilter K} {body : Body} {text extra chunk more : List Char}
  {chunks : List (List Char)}

theorem harmless_nil : Harmless conversions filter body text [] := by
  intro before chunk after hsplit
  simp at hsplit

theorem harmless_cons_iff :
    Harmless conversions filter body text (chunk :: chunks) ↔
      (chunks ≠ [] → HarmlessBorder conversions filter body text chunk chunks.flatten) ∧
        Harmless conversions filter body (text ++ chunk) chunks := by
  constructor
  · intro hharmless
    constructor
    · intro hne
      simpa using hharmless [] chunk chunks rfl hne
    · intro before next after hsplit hne
      simpa using hharmless (chunk :: before) next after (by rw [hsplit]; rfl) hne
  · rintro ⟨hfirst, hmore⟩ before next after hsplit hne
    cases before with
    | nil =>
        rw [List.nil_append, List.cons.injEq] at hsplit
        obtain ⟨rfl, rfl⟩ := hsplit
        simpa using hfirst hne
    | cons head before =>
        rw [List.cons_append, List.cons.injEq] at hsplit
        obtain ⟨rfl, hsplit⟩ := hsplit
        simpa using hmore before next after hsplit hne

theorem CleanBorder.of_append
    (hborder : CleanBorder conversions filter body text (chunk ++ more)) :
    CleanBorder conversions filter body text chunk := by
  refine hborder.imp_right (Or.imp_right (Or.imp_right fun hend => ?_))
  cases chunk with
  | nil => exact .inl rfl
  | cons head chunk =>
      rcases hend with hnil | ⟨rest, hrest⟩
      · simp at hnil
      · rw [List.cons_append, List.cons.injEq] at hrest
        exact .inr ⟨chunk, by rw [hrest.1]⟩

theorem hung_append (hanchored : filter.search = searchLines body)
    (hhung : (drain conversions quantity filter 0 text).outcome = .hung) (more : List Char) :
    (drain conversions quantity filter 0 (text ++ more)).outcome = .hung := by
  have hborder : CleanBorder conversions filter body text more :=
    .inr (.inl (blocked_of_hung hanchored hhung))
  have hwhole := (drain_append quantity 0 hanchored hborder).2 (by rw [hhung]; decide)
  exact hwhole.2.trans hhung

/-- The values that a call with the text pushes. -/
def pushedBy (conversions : Conversions K) (quantity : Quantity) (filter : QuantityFilter K)
    (text : List Char) : List (Finding K) :=
  (drain conversions quantity filter 0 text).pushed

/-- The calls after one which has left the rest of a text, when more text has
been received since, and not been taken off. -/
def callsAfter (conversions : Conversions K) (quantity : Quantity) (filter : QuantityFilter K)
    (text extra : List Char) (chunks : List (List Char)) : Streamed K :=
  let first := drain conversions quantity filter 0 text
  drainChunks conversions quantity filter (text.length - first.rest.length)
    (first.rest ++ extra) chunks

/-- Where a text ends inside a line which the body matches so far, a call that
returns pushes what is not pushed for the whole stream. -/
theorem cleanBorder_of_pushed (hanchored : filter.search = searchLines body)
    (hreturned : (drain conversions quantity filter 0 text).outcome = .returned)
    (hpushed : pushedBy conversions quantity filter text ⊆
      pushedBy conversions quantity filter (text ++ more)) :
    CleanBorder conversions filter body text more := by
  by_contra hborder
  simp only [CleanBorder, not_or] at hborder
  obtain ⟨hne, hfree, hlast, hend⟩ := hborder
  obtain ⟨finding, hmem, hsecond⟩ :=
    drain_last_line quantity 0 hanchored hfree hne hlast
  rw [← converted_of_returned hreturned] at hmem
  obtain ⟨stop, hstop, hlineEnd⟩ :=
    drain_lineEnd hanchored (List.mem_of_mem_filter (hpushed hmem))
  obtain rfl : stop = text.length := by omega
  rw [List.drop_left] at hlineEnd
  exact hend hlineEnd

/-- The values of the next call come first. -/
theorem pushed_subset_drainChunks (start : ℕ) (chunks : List (List Char)) :
    (drain conversions quantity filter start (text ++ chunk)).pushed ⊆
      (drainChunks conversions quantity filter start text (chunk :: chunks)).pushed := by
  simp only [drainChunks]
  split
  · exact List.Subset.refl _
  · rw [Streamed.pushed, List.filter_append]
    exact List.subset_append_left _ _

/-- A call that throws leaves the text as it was, with one more chunk, and the next
call pushes something of it again. -/
structure Rejected (conversions : Conversions K) (quantity : Quantity)
    (filter : QuantityFilter K) (text extra chunk : List Char) (chunks : List (List Char))
    (again : List (Finding K)) : Prop where
  pushed : pushedBy conversions quantity filter (text ++ (extra ++ chunk)) =
    pushedBy conversions quantity filter text ++ again
  calls : (callsAfter conversions quantity filter text extra (chunk :: chunks)).pushed =
    again ++ (callsAfter conversions quantity filter text (extra ++ chunk) chunks).pushed
  ended : (callsAfter conversions quantity filter text extra (chunk :: chunks)).ended =
    (callsAfter conversions quantity filter text (extra ++ chunk) chunks).ended
  repeats : chunks ≠ [] → again ≠ [] → ∃ finding ∈ again,
    finding ∈ (callsAfter conversions quantity filter text (extra ++ chunk) chunks).pushed

/-- The next call returns, throws or does not end. -/
theorem callsAfter_cases (hanchored : filter.search = searchLines body)
    (hreturned : (drain conversions quantity filter 0 text).outcome = .returned)
    (hborder : CleanBorder conversions filter body text (extra ++ chunk))
    (chunks : List (List Char)) :
    let received := text ++ (extra ++ chunk)
    let outcome := (drain conversions quantity filter 0 received).outcome
    let later := callsAfter conversions quantity filter text extra (chunk :: chunks)
    let more := callsAfter conversions quantity filter received [] chunks
    (outcome = .returned ∧ later.ended = more.ended ∧
        pushedBy conversions quantity filter text ++ later.pushed =
          pushedBy conversions quantity filter received ++ more.pushed) ∨
      (outcome = .threw ∧
        ∃ again, Rejected conversions quantity filter text extra chunk chunks again) ∨
      (outcome = .hung ∧ later.ended = false) := by
  intro received outcome later more
  set first := drain conversions quantity filter 0 text with hfirst
  set start := text.length - first.rest.length with hstart
  set next := drain conversions quantity filter start (first.rest ++ (extra ++ chunk)) with hnext
  obtain ⟨hfindings, hrest, houtcome⟩ :
      (drain conversions quantity filter 0 received).findings = first.findings ++ next.findings ∧
        (drain conversions quantity filter 0 received).rest = next.rest ∧
          outcome = next.outcome := by
    have hjoined := (drain_append quantity 0 hanchored hborder).1 hreturned
    rwa [Nat.zero_add] at hjoined
  have hpushed : pushedBy conversions quantity filter received =
      pushedBy conversions quantity filter text ++ next.pushed := by
    simp only [pushedBy, Drained.pushed, hfindings, List.filter_append, hfirst]
  have hlater : later =
      if next.outcome = .hung then ⟨next.findings, false⟩
      else
        let kept := next.kept (first.rest ++ (extra ++ chunk))
        let more := drainChunks conversions quantity filter
          (start + ((first.rest ++ (extra ++ chunk)).length - kept.length)) kept chunks
        { more with findings := next.findings ++ more.findings } := by
    simp only [later, callsAfter, drainChunks, List.append_assoc]
    rfl
  cases hend : next.outcome with
  | hung => exact .inr (.inr ⟨houtcome.trans hend, by rw [hlater, if_pos hend]⟩)
  | returned =>
      have hlength : first.rest.length ≤ text.length := rest_length_le _ _ _ _ _
      have hnextLength : next.rest.length ≤ (first.rest ++ (extra ++ chunk)).length :=
        rest_length_le _ _ _ _ _
      have hmoved : start + ((first.rest ++ (extra ++ chunk)).length - next.rest.length) =
          received.length - next.rest.length := by
        simp only [hstart, received, List.length_append] at hnextLength ⊢
        omega
      rw [if_neg (by rw [hend]; decide), Drained.kept, if_pos hend] at hlater
      have hmore : more = drainChunks conversions quantity filter
          (received.length - next.rest.length) next.rest chunks := by
        simp only [more, callsAfter, hrest, List.append_nil]
      simp only [hmoved, ← hmore] at hlater
      refine .inl ⟨houtcome.trans hend, by rw [hlater], ?_⟩
      rw [hpushed, hlater, List.append_assoc, Streamed.pushed, List.filter_append]
      rfl
  | threw =>
      rw [if_neg (by rw [hend]; decide), Drained.kept, if_neg (by rw [hend]; decide)] at hlater
      simp only [Nat.sub_self, Nat.add_zero] at hlater
      refine .inr (.inl ⟨houtcome.trans hend, next.pushed, hpushed, ?_, ?_, ?_⟩)
      · change later.pushed = _
        rw [hlater, Streamed.pushed, List.filter_append]
        rfl
      · change later.ended = _
        rw [hlater]
        rfl
      · intro hne hagain
        obtain ⟨following, chunks, rfl⟩ := List.exists_cons_of_ne_nil hne
        obtain ⟨finding, hmem, hrepeated⟩ :=
          exists_pushed_again hanchored hend hagain following
        exact ⟨finding, hmem, pushed_subset_drainChunks start chunks hrepeated⟩

/-- A call has returned and left the rest of a text.  The calls since then have
thrown without pushing a value. -/
structure Between (conversions : Conversions K) (quantity : Quantity)
    (filter : QuantityFilter K) (body : Body) (text extra more : List Char) : Prop where
  returned : (drain conversions quantity filter 0 text).outcome = .returned
  clean : CleanBorder conversions filter body text (extra ++ more)
  silent : pushedBy conversions quantity filter (text ++ extra) =
    pushedBy conversions quantity filter text

theorem Between.of_returned
    (hreturned : (drain conversions quantity filter 0 text).outcome = .returned)
    (hclean : CleanBorder conversions filter body text more) :
    Between conversions quantity filter body text [] more :=
  ⟨hreturned, hclean, by rw [List.append_nil]⟩

theorem Between.of_rejected
    (hbetween : Between conversions quantity filter body text extra (chunk ++ more))
    (hrejected : Rejected conversions quantity filter text extra chunk chunks []) :
    Between conversions quantity filter body text (extra ++ chunk) more :=
  ⟨hbetween.returned, by rw [List.append_assoc]; exact hbetween.clean,
    by rw [hrejected.pushed, List.append_nil]⟩

/-- A call that throws pushes nothing iff the chunk completes no line that is
converted. -/
theorem Rejected.silent_iff {again : List (Finding K)}
    (hanchored : filter.search = searchLines body)
    (hbetween : Between conversions quantity filter body text extra (chunk ++ more))
    (hthrew : (drain conversions quantity filter 0 (text ++ (extra ++ chunk))).outcome = .threw)
    (hrejected : Rejected conversions quantity filter text extra chunk chunks again) :
    again = [] ↔
      numberConverted conversions filter body (text ++ extra ++ chunk) =
        numberConverted conversions filter body (text ++ extra) := by
  have hbefore : (drain conversions quantity filter 0 (text ++ extra)).outcome ≠ .hung := by
    intro hhung
    rw [← List.append_assoc, hung_append hanchored hhung chunk] at hthrew
    cases hthrew
  have hafter : (drain conversions quantity filter 0 (text ++ extra ++ chunk)).outcome ≠ .hung := by
    rw [List.append_assoc, hthrew]
    decide
  have hlength := congrArg List.length hrejected.pushed
  rw [← hbetween.silent, List.length_append, ← List.append_assoc] at hlength
  rw [← length_pushed hanchored hbefore, ← length_pushed hanchored hafter,
    ← List.length_eq_zero_iff]
  simp only [pushedBy] at hlength
  omega

/-- Without a harmful border the values of the calls are those of the whole. -/
theorem callsAfter_of_harmless (hanchored : filter.search = searchLines body)
    (hbetween : Between conversions quantity filter body text extra chunks.flatten)
    (hharmless : Harmless conversions filter body (text ++ extra) chunks)
    (hended : (drain conversions quantity filter 0
      (text ++ (extra ++ chunks.flatten))).outcome ≠ .hung) :
    pushedBy conversions quantity filter text ++
          (callsAfter conversions quantity filter text extra chunks).pushed =
        pushedBy conversions quantity filter (text ++ (extra ++ chunks.flatten)) ∧
      (callsAfter conversions quantity filter text extra chunks).ended = true := by
  induction chunks generalizing text extra with
  | nil =>
      rw [List.flatten_nil, List.append_nil, hbetween.silent]
      exact ⟨List.append_nil _, rfl⟩
  | cons chunk chunks ih =>
      obtain ⟨hhead, htail⟩ := harmless_cons_iff.mp hharmless
      rw [List.flatten_cons] at hbetween hended ⊢
      rw [← List.append_assoc extra] at hended ⊢
      have hborder := hbetween.clean
      rw [← List.append_assoc] at hborder
      have hstopped := drain_returned_iff conversions quantity 0 hanchored
        (text ++ extra ++ chunk)
      rw [List.append_assoc] at htail hstopped
      rcases callsAfter_cases hanchored hbetween.returned hborder.of_append chunks with
        ⟨houtcome, hlater, hpushed⟩ | ⟨houtcome, again, hrejected⟩ | ⟨houtcome, -⟩
      · have hclean : CleanBorder conversions filter body (text ++ (extra ++ chunk))
            chunks.flatten := by
          by_cases hlast : chunks = []
          · rw [hlast]
            exact .inr (.inr (.inr (.inl rfl)))
          · have hgoes := (hhead hlast).goesOn
            rw [List.append_assoc] at hgoes
            exact (hgoes (hstopped.mp houtcome)).imp_right .inr
        have hmore := ih (.of_returned houtcome hclean) (by rwa [List.append_nil])
          (by rwa [List.nil_append, List.append_assoc])
        rw [List.nil_append, List.append_assoc] at hmore
        rw [hpushed, hlater]
        exact hmore
      · by_cases hlast : chunks = []
        · subst hlast
          rw [hrejected.calls, hrejected.ended, List.flatten_nil, List.append_nil,
            hrejected.pushed]
          exact ⟨congrArg _ (List.append_nil _), rfl⟩
        · have hthrown : Stopped conversions filter body (text ++ extra ++ chunk) := by
            by_contra hgoes
            rw [List.append_assoc, ← hstopped, houtcome] at hgoes
            cases hgoes
          obtain rfl := (hrejected.silent_iff hanchored hbetween houtcome).mpr
            ((hhead hlast).stopped hthrown)
          rw [hrejected.calls, hrejected.ended, List.nil_append]
          exact ih (hbetween.of_rejected hrejected) htail hended
      · rw [← List.append_assoc text] at hended
        exact absurd (hung_append hanchored houtcome _) hended

/-- If the values of the calls are those of the whole, no border does harm. -/
theorem harmless_of_callsAfter (hanchored : filter.search = searchLines body)
    (hbetween : Between conversions quantity filter body text extra chunks.flatten)
    (hpushed : pushedBy conversions quantity filter text ++
        (callsAfter conversions quantity filter text extra chunks).pushed =
      pushedBy conversions quantity filter (text ++ (extra ++ chunks.flatten)))
    (hlater : (callsAfter conversions quantity filter text extra chunks).ended = true)
    (hended : (drain conversions quantity filter 0
      (text ++ (extra ++ chunks.flatten))).outcome ≠ .hung) :
    Harmless conversions filter body (text ++ extra) chunks := by
  induction chunks generalizing text extra with
  | nil => exact harmless_nil
  | cons chunk chunks ih =>
      rw [List.flatten_cons] at hbetween hended hpushed
      rw [← List.append_assoc extra] at hended hpushed
      have hborder := hbetween.clean
      rw [← List.append_assoc] at hborder
      have hstopped := drain_returned_iff conversions quantity 0 hanchored
        (text ++ extra ++ chunk)
      rw [List.append_assoc] at hstopped
      rw [harmless_cons_iff, List.append_assoc]
      rcases callsAfter_cases hanchored hbetween.returned hborder.of_append chunks with
        ⟨houtcome, hmore, hvalues⟩ | ⟨houtcome, again, hrejected⟩ | ⟨-, hhung⟩
      · rw [hvalues, ← List.append_assoc text (extra ++ chunk)] at hpushed
        have hclean := cleanBorder_of_pushed hanchored houtcome
          (hpushed ▸ List.subset_append_left _ _)
        refine ⟨fun _ => ⟨fun hthrown => ?_, fun hgoes => ?_⟩, ?_⟩
        · rw [List.append_assoc] at hthrown
          exact absurd hthrown (hstopped.mp houtcome)
        · rw [List.append_assoc] at hgoes ⊢
          rcases hclean with hnil | hblocked | hclean
          · exact .inl hnil
          · exact absurd (.inl hblocked) hgoes
          · exact .inr hclean
        · have hrest := ih (.of_returned houtcome hclean) (by rwa [List.nil_append])
            (hmore ▸ hlater) (by rwa [List.nil_append, List.append_assoc])
          rwa [List.append_nil] at hrest
      · rw [hrejected.ended] at hlater
        rw [hrejected.calls] at hpushed
        by_cases hlast : chunks = []
        · subst hlast
          exact ⟨fun hne => absurd rfl hne, harmless_nil⟩
        · -- what is pushed twice is pushed once for the whole
          have hsilent : again = [] := by
            by_contra hagain
            obtain ⟨finding, hmem, hrepeated⟩ := hrejected.repeats hlast hagain
            have hnodup : (pushedBy conversions quantity filter
                (text ++ (extra ++ chunk ++ chunks.flatten))).Nodup := pushed_nodup hended
            rw [← hpushed] at hnodup
            exact List.disjoint_of_nodup_append (List.nodup_append.mp hnodup).2.1 hmem hrepeated
          subst hsilent
          refine ⟨fun _ => ⟨fun _ => ?_, fun hgoes => ?_⟩, ?_⟩
          · exact (hrejected.silent_iff hanchored hbetween houtcome).mp rfl
          · rw [List.append_assoc, ← hstopped, houtcome] at hgoes
            cases hgoes
          · exact ih (hbetween.of_rejected hrejected) hpushed hlater hended
      · rw [hhung] at hlater
        cases hlater

end Chunks

/-! ## Chunks and the whole stream -/

/-- The calls for the chunks push the same values for the same places as one call
for the whole stream, and all calls end. -/
def SamePushed (inChunks atOnce : Streamed K) : Prop :=
  inChunks.pushed = atOnce.pushed ∧ inChunks.ended = true ∧ atOnce.ended = true

omit [Zero K] [Add K] [Mul K] in
theorem values_eq_filterMap_pushed (streamed : Streamed K) :
    streamed.values = streamed.pushed.filterMap Finding.value := by
  rw [Streamed.values, Streamed.pushed, List.filterMap_filter]
  refine List.filterMap_congr fun finding _ => ?_
  cases hvalue : finding.value <;> simp [Finding.converted, hvalue]

section Stream

variable {quantity : Quantity} {filter : QuantityFilter K} {body : Body}

theorem drainChunks_single (conversions : Conversions K) (quantity : Quantity)
    (filter : QuantityFilter K) (stream : List Char) :
    (drainChunks conversions quantity filter 0 [] [stream]).pushed =
        pushedBy conversions quantity filter stream ∧
      ((drainChunks conversions quantity filter 0 [] [stream]).ended = true ↔
        (drain conversions quantity filter 0 stream).outcome ≠ .hung) := by
  by_cases hhung : (drain conversions quantity filter 0 stream).outcome = .hung
  · simp [drainChunks, hhung, Streamed.pushed, pushedBy, Drained.pushed]
  · simp [drainChunks, hhung, Streamed.pushed, pushedBy, Drained.pushed]

/-- The calls from the start push the values of the whole iff no border does harm. -/
theorem drainChunks_pushed_iff (conversions : Conversions K)
    (hanchored : filter.search = searchLines body) (chunks : List (List Char))
    (hended : (drain conversions quantity filter 0 chunks.flatten).outcome ≠ .hung) :
    let later := drainChunks conversions quantity filter 0 [] chunks
    later.pushed = pushedBy conversions quantity filter chunks.flatten ∧ later.ended = true ↔
      Harmless conversions filter body [] chunks := by
  have hstart : callsAfter conversions quantity filter [] [] chunks =
      drainChunks conversions quantity filter 0 [] chunks := by
    simp [callsAfter]
  have hbetween : Between conversions quantity filter body [] [] chunks.flatten :=
    .of_returned (by rw [drain_nil]) (.inl rfl)
  have hnothing : pushedBy conversions quantity filter [] = [] := by
    simp [pushedBy, Drained.pushed]
  constructor
  · rintro ⟨hpushed, hlater⟩
    exact harmless_of_callsAfter hanchored hbetween (by rwa [hnothing, hstart])
      (by rwa [hstart]) hended
  · intro hharmless
    have hvalues := callsAfter_of_harmless hanchored hbetween hharmless hended
    rwa [hnothing, hstart] at hvalues

/-- Passed in chunks or at once, a stream of lines yields the same values at the
same places iff no border of the chunks does harm and the stream is not endless. -/
theorem samePushed_iff_harmless (conversions : Conversions K)
    (parser : RegexParser K) (received : List (K × List Char))
    (lines : List (List Char)) (stamp : K)
    (hsingle : parser.filters.entries = [(quantity, filter)])
    (hanchored : filter.search = searchLines body)
    (hbuffer : parser.buffer = [])
    (hlines : ∀ line ∈ lines, '\n' ∉ line)
    (hstream : (received.map Prod.snd).flatten = joinLines lines)
    (hsize : (joinLines lines).length < maxBuffered) :
    let inChunks := parser.calls conversions 0 received
    let atOnce := parser.calls conversions 0 [(stamp, joinLines lines)]
    let harmless := Harmless conversions filter body [] (received.map Prod.snd) ∧
      ¬Endless conversions filter body lines
    (SamePushed inChunks atOnce ↔ harmless) ∧
      (harmless → inChunks.values = atOnce.values) := by
  intro inChunks atOnce harmless
  suffices hiff : SamePushed inChunks atOnce ↔ harmless by
    refine ⟨hiff, fun hharmless => ?_⟩
    rw [values_eq_filterMap_pushed, values_eq_filterMap_pushed, (hiff.mpr hharmless).1]
  have hwithin : ∀ text found, filter.search text = some found →
      found.second ≤ text.length := by
    intro text found hfound
    rw [hanchored] at hfound
    exact searchLines_second_le hfound
  have hdrained : ∀ calls : List (K × List Char),
      (calls.map Prod.snd).flatten = joinLines lines →
        let drained := drainChunks conversions quantity filter 0 []
          (calls.map Prod.snd)
        (parser.calls conversions 0 calls).ended = drained.ended ∧
          (drained.ended = true →
            (parser.calls conversions 0 calls).pushed = drained.pushed) := by
    intro calls hcalls
    have heq := calls_eq_drainChunks conversions parser hsingle hwithin calls 0
      0 (by simp [hbuffer]) (by rw [hcalls]; omega)
    rw [hbuffer] at heq
    exact ⟨heq.1, fun hended => congrArg (List.filter Finding.converted) (heq.2 hended)⟩
  obtain ⟨hchunksEnded, hchunks⟩ := hdrained received hstream
  obtain ⟨honceEnded, honce⟩ := hdrained [(stamp, joinLines lines)] (by simp)
  obtain ⟨hwhole, hwholeEnded⟩ :=
    drainChunks_single conversions quantity filter (joinLines lines)
  simp only [List.map_singleton, hwhole] at honceEnded honce
  rw [← honceEnded] at hwholeEnded honce
  have hends : ¬Endless conversions filter body lines ↔ atOnce.ended = true := by
    rw [hwholeEnded, ne_eq, drain_hung_iff conversions quantity hanchored hlines]
  simp only [SamePushed, harmless, hends, ← and_assoc]
  refine and_congr_left fun hended => ?_
  have hiff := drainChunks_pushed_iff conversions hanchored (received.map Prod.snd)
    (hstream ▸ hwholeEnded.mp hended)
  simp only [hstream] at hiff
  rw [← hiff, honce hended, hchunksEnded]
  exact and_congr_left fun hlater => by rw [hchunks hlater]

end Stream

/-! ## Numbers in lines -/

def numberParser (body : Body) : RegexParser ℚ where
  buffer := []
  values := []
  filters :=
    { entries := [(.ax, numberFilter body)]
      ordered := List.pairwise_singleton _ _ }

/-- The body of `^([0-9\-.]+)$`. -/
def field (text : List Char) : Option (List (Option (List Char))) :=
  if isField text then some [some text] else none

/-- The first chunk ends inside a line without a number.  The call for the second
one throws at a part of a line, with nothing before it, and the call for the third
one throws at the whole line. -/
theorem samePushed_numbers :
    let received : List (ℚ × List Char) :=
      [(0, ['1', '2', '\n', 'x']), (1, ['1', '\n', '-']), (2, ['3', '\n'])]
    let lines := [['1', '2'], ['x', '1'], ['-', '3']]
    let inChunks := (numberParser field).calls onlyDigits 0 received
    let atOnce := (numberParser field).calls onlyDigits 0 [(0, joinLines lines)]
    SamePushed inChunks atOnce ∧ inChunks.values = atOnce.values := by
  intro received lines inChunks atOnce
  have hharmless : Harmless onlyDigits (numberFilter field) field []
      (received.map Prod.snd) := by
    refine harmless_cons_iff.mpr ⟨fun _ => ⟨fun hstopped => ?_, fun _ => ?_⟩,
      harmless_cons_iff.mpr ⟨fun _ => ⟨fun _ => ?_, fun hgoes => ?_⟩,
        harmless_cons_iff.mpr ⟨fun hne => absurd rfl hne, harmless_nil⟩⟩⟩
    · exact absurd hstopped (by decide +kernel)
    · exact .inr (.inl (by decide +kernel))
    · decide +kernel
    · exact absurd (by decide +kernel) hgoes
  have hends : ¬Endless onlyDigits (numberFilter field) field lines := by
    rintro ⟨⟨groups, hempty, -⟩, -⟩
    exact Option.some_ne_none groups hempty.symm
  obtain ⟨hiff, hvalues⟩ := samePushed_iff_harmless onlyDigits (numberParser field)
    received lines 0 rfl rfl rfl (by decide) rfl (by decide)
  exact ⟨hiff.mpr ⟨hharmless, hends⟩, hvalues ⟨hharmless, hends⟩⟩

/-- At the end of the first chunk `$` matches inside a number: the values are 12
and 34 instead of 1234. -/
theorem values_ne_of_cut_number :
    let received : List (ℚ × List Char) :=
      [(0, ['1', '2']), (1, ['3', '4', '\n'])]
    let lines := [['1', '2', '3', '4']]
    (received.map Prod.snd).flatten = joinLines lines ∧
      ((numberParser number).calls wholeNumbers 0 received).values ≠
        ((numberParser number).calls wholeNumbers 0 [(0, joinLines lines)]).values := by
  decide +kernel

end SensorHub.Regex
