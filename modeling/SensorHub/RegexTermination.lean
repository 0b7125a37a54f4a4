import SensorHub.RegexFailure

/-!
# Rounds that repeat themselves

The loop of `Regex_parser::parse` goes on while a filter matches, with the
cursor at the furthest end of a match.  When all matches of a round are empty
and start at the cursor, the next round searches the same text and finds the
same again.

The search functions are arbitrary, and so is the position at which the rounds
start.  A round is described by the ends of its matches; the rounds of a call
visit one position after the other.
-/

namespace SensorHub.Regex

variable {K : Type} [Zero K] [Add K] [Mul K]

/-! ## One round -/

def ConvertsAll (conversions : Conversions K) (buffer : List Char)
    (filters : List (Quantity × QuantityFilter K)) (cur : ℕ) : Prop :=
  ∀ entry ∈ filters, ∀ found, entry.2.search (buffer.drop cur) = some found →
    entry.2.matchValue conversions found ≠ none

omit [Zero K] [Add K] [Mul K] in
def matchEnds (buffer : List Char) (filters : List (Quantity × QuantityFilter K))
    (cur : ℕ) : List ℕ :=
  filters.filterMap fun entry =>
    (entry.2.search (buffer.drop cur)).map fun found => cur + found.second

def furthestEnd (buffer : List Char) (filters : List (Quantity × QuantityFilter K))
    (cur : ℕ) : ℕ :=
  (matchEnds buffer filters cur).foldl max cur

theorem searchRound_of_convertsAll {conversions : Conversions K} {buffer : List Char}
    {cur : ℕ} {filters : List (Quantity × QuantityFilter K)}
    (hconverts : ConvertsAll conversions buffer filters cur) (last : ℕ) :
    let round := searchRound conversions buffer cur filters last
    round.returned = true ∧
      (round.matched = true ↔ matchEnds buffer filters cur ≠ []) ∧
      round.last = (matchEnds buffer filters cur).foldl max last := by
  induction filters generalizing last with
  | nil => simp [searchRound, matchEnds]
  | cons entry filters ih =>
      obtain ⟨quantity, filter⟩ := entry
      obtain ⟨hentry, hfilters⟩ := List.forall_mem_cons.mp hconverts
      simp only [searchRound]
      cases hsearch : filter.search (buffer.drop cur) with
      | none =>
          simpa [matchEnds, hsearch] using ih hfilters last
      | some found =>
          obtain ⟨value, hvalue⟩ := Option.ne_none_iff_exists'.mp (hentry found hsearch)
          obtain ⟨hreturned, -, hlast⟩ := ih hfilters (max last (cur + found.second))
          simp only [findingAt, hvalue]
          refine ⟨hreturned, ?_, ?_⟩
          · simp [matchEnds, hsearch]
          · rw [hlast]
            simp [matchEnds, hsearch]

theorem searchRound_of_not_convertsAll {conversions : Conversions K} {buffer : List Char}
    {cur : ℕ} {filters : List (Quantity × QuantityFilter K)}
    (hconverts : ¬ConvertsAll conversions buffer filters cur) (last : ℕ) :
    (searchRound conversions buffer cur filters last).returned = false := by
  induction filters generalizing last with
  | nil => exact absurd (List.forall_mem_nil _) hconverts
  | cons entry filters ih =>
      obtain ⟨quantity, filter⟩ := entry
      rw [ConvertsAll, List.forall_mem_cons, not_and_or] at hconverts
      simp only [searchRound]
      cases hsearch : filter.search (buffer.drop cur) with
      | none =>
          refine ih (hconverts.resolve_left ?_) last
          simp [hsearch]
      | some found =>
          cases hvalue : filter.matchValue conversions found with
          | none => simp only [findingAt, hvalue]
          | some value =>
              simp only [findingAt, hvalue]
              refine ih (hconverts.resolve_left ?_) _
              simp [hsearch, hvalue]

/-! ## The positions of the rounds -/

/-- A round follows at the furthest end of the matches of one that converts them
all. -/
inductive Visits (conversions : Conversions K) (parser : RegexParser K) (start : ℕ) :
    ℕ → Prop where
  | start : Visits conversions parser start start
  | next {cur : ℕ} : Visits conversions parser start cur → cur ≠ parser.buffer.length →
      ConvertsAll conversions parser.buffer parser.filters.entries cur →
      matchEnds parser.buffer parser.filters.entries cur ≠ [] →
      Visits conversions parser start
        (furthestEnd parser.buffer parser.filters.entries cur)

/-- Text is left, something is found and converted, but all matches are empty
ones at the cursor. -/
structure Stuck (conversions : Conversions K) (parser : RegexParser K) (cur : ℕ) : Prop where
  unread : cur ≠ parser.buffer.length
  converts : ConvertsAll conversions parser.buffer parser.filters.entries cur
  found : matchEnds parser.buffer parser.filters.entries cur ≠ []
  empty : ∀ entry ∈ parser.filters.entries, ∀ found,
    entry.2.search (parser.buffer.drop cur) = some found → found.second = 0

/-- So many rounds from a position are enough for it to return or throw. -/
def RegexParser.EndsWithin (conversions : Conversions K) (parser : RegexParser K)
    (enough start : ℕ) : Prop :=
  ∃ result, result.outcome ≠ .hung ∧
    ∀ rounds ≥ enough, parser.parseRounds conversions rounds start = result

def RegexParser.Ends (conversions : Conversions K) (parser : RegexParser K)
    (start : ℕ) : Prop :=
  ∃ enough, parser.EndsWithin conversions enough start

variable {conversions : Conversions K} {parser : RegexParser K}

/-- What the rounds from a position do, by its first round. -/
theorem parseRounds_next {cur : ℕ} (hcur : cur ≠ parser.buffer.length)
    (hconverts : ConvertsAll conversions parser.buffer parser.filters.entries cur)
    (hfound : matchEnds parser.buffer parser.filters.entries cur ≠ []) (rounds : ℕ) :
    parser.parseRounds conversions (rounds + 1) cur =
      let rest := parser.parseRounds conversions rounds
        (furthestEnd parser.buffer parser.filters.entries cur)
      { rest with findings := (searchRound conversions parser.buffer cur
          parser.filters.entries cur).findings ++ rest.findings } := by
  obtain ⟨hreturned, hmatched, hlast⟩ := searchRound_of_convertsAll hconverts cur
  simp only [RegexParser.parseRounds, if_neg hcur, hreturned, hmatched.mpr hfound, if_true,
    hlast, furthestEnd]

theorem endsWithin_of_last {enough cur : ℕ} (result : Rounds K)
    (hresult : result.outcome ≠ .hung)
    (hround : ∀ rounds, parser.parseRounds conversions (rounds + 1) cur = result) :
    parser.EndsWithin conversions (enough + 1) cur := by
  refine ⟨result, hresult, fun rounds hrounds => ?_⟩
  obtain ⟨rounds, rfl⟩ := Nat.exists_eq_succ_of_ne_zero (Nat.ne_zero_of_lt hrounds)
  exact hround rounds

theorem endsWithin_of_next {enough cur : ℕ} (hcur : cur ≠ parser.buffer.length)
    (hconverts : ConvertsAll conversions parser.buffer parser.filters.entries cur)
    (hfound : matchEnds parser.buffer parser.filters.entries cur ≠ [])
    (hends : parser.EndsWithin conversions enough
      (furthestEnd parser.buffer parser.filters.entries cur)) :
    parser.EndsWithin conversions (enough + 1) cur := by
  obtain ⟨result, hresult, hrounds⟩ := hends
  let round := searchRound conversions parser.buffer cur parser.filters.entries cur
  refine ⟨{ result with findings := round.findings ++ result.findings }, hresult,
    fun rounds hle => ?_⟩
  obtain ⟨rounds, rfl⟩ := Nat.exists_eq_add_of_le' hle
  rw [← Nat.add_assoc, parseRounds_next hcur hconverts hfound,
    hrounds _ (Nat.le_add_left _ _)]

theorem RegexParser.EndsWithin.mono {enough more cur : ℕ} (hle : enough ≤ more)
    (hends : parser.EndsWithin conversions enough cur) :
    parser.EndsWithin conversions more cur := by
  obtain ⟨result, hresult, hrounds⟩ := hends
  exact ⟨result, hresult, fun rounds hmore => hrounds rounds (hle.trans hmore)⟩

section FurthestEnd

omit [Zero K] [Add K] [Mul K]

variable {buffer : List Char} {filters : List (Quantity × QuantityFilter K)} {cur : ℕ}

theorem mem_matchEnds_iff {stop : ℕ} :
    stop ∈ matchEnds buffer filters cur ↔
      ∃ entry ∈ filters, ∃ found,
        entry.2.search (buffer.drop cur) = some found ∧ cur + found.second = stop := by
  simp only [matchEnds, List.mem_filterMap, Option.map_eq_some_iff]

theorem le_furthestEnd : cur ≤ furthestEnd buffer filters cur :=
  (SearchRounds.Search.le_foldl_max _ cur).1

theorem furthestEnd_le_length {filters : QuantityFilters K} (hwithin : filters.Within)
    (hcur : cur ≤ buffer.length) :
    furthestEnd buffer filters.entries cur ≤ buffer.length := by
  refine SearchRounds.Search.foldl_max_le hcur fun stop hstop => ?_
  obtain ⟨entry, hentry, found, hsearch, rfl⟩ := mem_matchEnds_iff.mp hstop
  have hends := hwithin entry hentry _ found hsearch
  rw [List.length_drop] at hends
  omega

theorem furthestEnd_eq_self_iff :
    furthestEnd buffer filters cur = cur ↔
      ∀ entry ∈ filters, ∀ found,
        entry.2.search (buffer.drop cur) = some found → found.second = 0 := by
  constructor
  · intro heq entry hentry found hsearch
    have hle := (SearchRounds.Search.le_foldl_max (matchEnds buffer filters cur) cur).2 _
      (mem_matchEnds_iff.mpr ⟨entry, hentry, found, hsearch, rfl⟩)
    rw [← furthestEnd, heq] at hle
    omega
  · intro hempty
    refine le_antisymm (SearchRounds.Search.foldl_max_le le_rfl fun stop hstop => ?_)
      le_furthestEnd
    obtain ⟨entry, hentry, found, hsearch, rfl⟩ := mem_matchEnds_iff.mp hstop
    rw [hempty entry hentry found hsearch, Nat.add_zero]

end FurthestEnd

/-! ## Rounds that end -/

/-- From a position whose rounds never get stuck the rounds end: each of them
moves the cursor on. -/
theorem endsWithin_of_not_stuck (hwithin : parser.filters.Within) {start cur : ℕ}
    (hcur : cur ≤ parser.buffer.length) (hvisits : Visits conversions parser start cur)
    (hfree : ∀ later, Visits conversions parser start later →
      ¬Stuck conversions parser later) :
    parser.EndsWithin conversions (parser.buffer.length - cur + 1) cur := by
  induction hleft : parser.buffer.length - cur using Nat.strong_induction_on
    generalizing cur with
  | _ left ih =>
      subst hleft
      let round := searchRound conversions parser.buffer cur parser.filters.entries cur
      by_cases hend : cur = parser.buffer.length
      · exact endsWithin_of_last ⟨[], cur, .returned⟩ Outcome.noConfusion fun rounds => by
          rw [RegexParser.parseRounds, if_pos hend]
      by_cases hconverts :
          ConvertsAll conversions parser.buffer parser.filters.entries cur
      · by_cases hfound : matchEnds parser.buffer parser.filters.entries cur = []
        · obtain ⟨hreturned, hmatched, -⟩ := searchRound_of_convertsAll hconverts cur
          exact endsWithin_of_last ⟨round.findings, round.last, .returned⟩
              Outcome.noConfusion fun rounds => by
            rw [RegexParser.parseRounds, if_neg hend]
            simp only [round, hreturned, if_true,
              if_neg (hmatched.not.mpr (not_not_intro hfound))]
        · have hnext := hvisits.next hend hconverts hfound
          have hle : cur ≤ furthestEnd parser.buffer parser.filters.entries cur :=
            le_furthestEnd
          have hlength := furthestEnd_le_length hwithin hcur
          have hmoves : furthestEnd parser.buffer parser.filters.entries cur ≠ cur := by
            intro heq
            exact hfree cur hvisits
              ⟨hend, hconverts, hfound, furthestEnd_eq_self_iff.mp heq⟩
          have hrest := ih _ (by omega) hlength hnext rfl
          exact endsWithin_of_next hend hconverts hfound (hrest.mono (by omega))
      · have hthrows := searchRound_of_not_convertsAll hconverts cur
        exact endsWithin_of_last ⟨round.findings, cur, .threw⟩ Outcome.noConfusion
            fun rounds => by
          rw [RegexParser.parseRounds, if_neg hend]
          simp only [round, hthrows, Bool.false_eq_true, if_false]

theorem parseRounds_of_stuck {cur : ℕ} (hstuck : Stuck conversions parser cur)
    (rounds : ℕ) : (parser.parseRounds conversions rounds cur).outcome = .hung := by
  induction rounds with
  | zero => rfl
  | succ rounds ih =>
      rw [parseRounds_next hstuck.unread hstuck.converts hstuck.found,
        furthestEnd_eq_self_iff.mpr hstuck.empty]
      exact ih

/-- What hangs at a position that is visited hangs from the start. -/
theorem parseRounds_of_visits {start cur : ℕ} (hvisits : Visits conversions parser start cur)
    (hhangs : ∀ rounds, (parser.parseRounds conversions rounds cur).outcome = .hung)
    (rounds : ℕ) : (parser.parseRounds conversions rounds start).outcome = .hung := by
  induction hvisits with
  | start => exact hhangs rounds
  | next hvisits hend hconverts hfound ih =>
      refine ih fun rounds => ?_
      cases rounds with
      | zero => rfl
      | succ rounds =>
          rw [parseRounds_next hend hconverts hfound]
          exact hhangs rounds

theorem not_stuck_of_ends {start cur : ℕ} (hends : parser.Ends conversions start)
    (hvisits : Visits conversions parser start cur) : ¬Stuck conversions parser cur := by
  intro hstuck
  obtain ⟨enough, result, hresult, hrounds⟩ := hends
  have hhung := parseRounds_of_visits hvisits (parseRounds_of_stuck hstuck) enough
  rw [hrounds enough le_rfl] at hhung
  exact hresult hhung

/-- The number of rounds that `parse` is given is enough, if any is. -/
theorem parse_hung_iff (hwithin : parser.filters.Within) (stamp : K) :
    (parser.parse conversions stamp).outcome = .hung ↔ ¬parser.Ends conversions 0 := by
  constructor
  · intro hhung hends
    obtain ⟨result, hresult, hrounds⟩ := endsWithin_of_not_stuck hwithin (Nat.zero_le _)
      .start fun cur => not_stuck_of_ends hends
    simp only [RegexParser.parse, hrounds (parser.buffer.length + 1) le_rfl] at hhung
    exact hresult hhung
  · intro hnot
    obtain ⟨cur, hvisits, hstuck⟩ : ∃ cur, Visits conversions parser 0 cur ∧
        Stuck conversions parser cur := by
      by_contra hfree
      exact hnot ⟨_, endsWithin_of_not_stuck hwithin (Nat.zero_le _) .start
        fun cur hvisits hstuck => hfree ⟨cur, hvisits, hstuck⟩⟩
    exact parseRounds_of_visits hvisits (parseRounds_of_stuck hstuck) _

/-- The rounds from a position end iff none of the positions they visit has, with
text left and everything converted, only empty matches at the cursor. -/
theorem parser_ends_iff (hwithin : parser.filters.Within) {start : ℕ}
    (hstart : start ≤ parser.buffer.length) :
    parser.Ends conversions start ↔
      ∀ cur, Visits conversions parser start cur → ¬Stuck conversions parser cur := by
  constructor
  · exact fun hends cur => not_stuck_of_ends hends
  · exact fun hfree => ⟨_, endsWithin_of_not_stuck hwithin hstart .start hfree⟩

/-- Filters that match no empty text at the start of a text always end. -/
theorem ends_of_nonempty_matches (hwithin : parser.filters.Within)
    (hnonempty : ∀ entry ∈ parser.filters.entries, ∀ text found,
      entry.2.search text = some found → found.second ≠ 0)
    {start : ℕ} (hstart : start ≤ parser.buffer.length) :
    parser.Ends conversions start := by
  refine ⟨_, endsWithin_of_not_stuck hwithin hstart .start fun cur _ hstuck => ?_⟩
  obtain ⟨stop, hstop⟩ := List.exists_mem_of_ne_nil _ hstuck.found
  obtain ⟨entry, hentry, found, hsearch, -⟩ := mem_matchEnds_iff.mp hstop
  exact hnonempty entry hentry _ found hsearch (hstuck.empty entry hentry found hsearch)

/-- The expression `a*` finds a possibly empty run of the letter at the cursor. -/
def runOfA : QuantityFilters ℚ where
  entries := [(.ax, ⟨fun text => some ⟨0, (text.takeWhile (· = 'a')).length, []⟩, [], [], []⟩)]
  ordered := List.pairwise_singleton _ _

theorem runOfA_within : runOfA.Within := by
  intro entry hentry text found hsearch
  rw [List.mem_singleton.mp hentry, Option.some.injEq] at hsearch
  subst hsearch
  exact (List.takeWhile_prefix _).length_le

/-- From the first of two letters the rounds reach the end of the buffer. -/
theorem parser_ends_iff_letters :
    (RegexParser.mk ['a', 'a'] [] runOfA).Ends onlyDigits 0 := by
  refine (parser_ends_iff runOfA_within (Nat.zero_le _)).mpr ?_
  have hpositions : ∀ cur, Visits onlyDigits ⟨['a', 'a'], [], runOfA⟩ 0 cur →
      cur = 0 ∨ cur = 2 := by
    intro cur hvisits
    induction hvisits with
    | start => exact .inl rfl
    | next hvisits hend hconverts hfound ih =>
        rcases ih with rfl | rfl
        · exact .inr (by decide)
        · exact absurd rfl hend
  intro cur hvisits hstuck
  rcases hpositions cur hvisits with rfl | rfl
  · have hempty := hstuck.empty _ (List.mem_singleton_self _) _ rfl
    exact absurd hempty (by decide)
  · exact hstuck.unread rfl

/-- At another letter the expression matches the empty text, in every round. -/
theorem not_parser_ends :
    ¬∀ (conversions : Conversions ℚ) (parser : RegexParser ℚ) (start : ℕ),
      parser.filters.Within → start ≤ parser.buffer.length →
        parser.Ends conversions start := by
  intro hall
  obtain ⟨enough, result, hresult, hrounds⟩ :=
    hall onlyDigits ⟨['b'], [], runOfA⟩ 0 runOfA_within (Nat.zero_le _)
  have hstuck : Stuck onlyDigits ⟨['b'], [], runOfA⟩ 0 := by
    refine ⟨by decide, ?_, by decide, ?_⟩
    · intro entry hentry found hsearch
      rw [List.mem_singleton.mp hentry, Option.some.injEq] at hsearch
      rw [List.mem_singleton.mp hentry, ← hsearch]
      decide
    · intro entry hentry found hsearch
      rw [List.mem_singleton.mp hentry, Option.some.injEq] at hsearch
      rw [← hsearch]
      decide
  have hhung := parseRounds_of_stuck hstuck enough
  rw [hrounds enough le_rfl] at hhung
  exact hresult hhung

end SensorHub.Regex
