import SensorHub.EventRuns
import SensorHub.RegexLines

/-!
# Calls which an exception leaves

`Regex_parser::parse` pushes values while it searches and erases the buffer at
its end.  When a conversion throws, the text of the call stays in the buffer,
and the same parser goes on with it when the device has connected again.

Here calls follow each other whatever their outcome.  A match is kept with its
place in all that was received, so that matches of different calls can be
compared.
-/

namespace SensorHub.Regex

open EventRuns

variable {K : Type}

def QuantityFilters.Within (filters : QuantityFilters K) : Prop :=
  ∀ entry ∈ filters.entries, ∀ text found,
    entry.2.search text = some found → found.second ≤ text.length

def Finding.Apart (finding other : Finding K) : Prop :=
  Disjoint (Set.Ico finding.first finding.second)
    (Set.Ico other.first other.second)

theorem Finding.apart_of_le {finding other : Finding K}
    (hle : finding.second ≤ other.first) : finding.Apart other := by
  refine Set.disjoint_left.mpr fun place hplace hother => ?_
  have hbefore := hplace.2
  have hbehind := hother.1
  omega

theorem Finding.not_apart_self {finding : Finding K}
    (hlt : finding.first < finding.second) : ¬finding.Apart finding := by
  intro hapart
  exact Set.disjoint_left.mp hapart ⟨le_rfl, hlt⟩ ⟨le_rfl, hlt⟩

/-- A parser with the number of characters received so far, the matches of each
call so far and the outcome of the last one. -/
structure Session (K : Type) where
  parser : RegexParser K
  received : ℕ
  history : List (List (Finding K))
  last : Outcome

namespace Session

def fresh (filters : QuantityFilters K) : Session K :=
  ⟨⟨[], [], filters⟩, 0, [], .returned⟩

/-- No character is part of two matches for the same quantity from different
calls, or of two failed conversions from different calls. -/
structure ConvertedOnce (session : Session K) : Prop where
  pieces : session.history.Pairwise fun earlier later =>
    ∀ finding ∈ earlier, ∀ other ∈ later,
      finding.quantity = other.quantity → finding.Apart other
  failures : session.history.Pairwise fun earlier later =>
    ∀ finding ∈ earlier, ∀ other ∈ later,
      finding.value = none → other.value = none → finding.Apart other

/-- An exception left the last call, and the next one will not clear the
buffer. -/
def RetainsFailure (session : Session K) : Prop :=
  session.last = .threw ∧ session.parser.buffer.length ≤ maxBuffered

instance (session : Session K) : Decidable session.RetainsFailure :=
  inferInstanceAs (Decidable (_ ∧ _))

variable [Zero K] [Add K] [Mul K]

/-- The next call, with its matches at their places in all that was
received. -/
def call (conversions : Conversions K) (session : Session K) (stamp : K)
    (chunk : List Char) : Session K :=
  let received := session.received + chunk.length
  -- the buffer holds the end of what was received
  let start := received - (addToBuffer session.parser.buffer chunk).length
  let parsed := session.parser.addAndParse conversions stamp chunk
  { parser := parsed.parser
    received := received
    history := session.history ++ [parsed.findings.map (Finding.shift start)]
    last := parsed.outcome }

/-- There is no call after one that never ends. -/
def step (conversions : Conversions K) (session : Session K) :
    K × List Char → Option (Session K)
  | (stamp, chunk) =>
      if session.last = .hung then none
      else some (session.call conversions stamp chunk)

end Session

/-! ## Places of the matches of a call -/

variable [Zero K] [Add K] [Mul K] {conversions : Conversions K}
  {parser : RegexParser K}

theorem searchRound_places (conversions : Conversions K) {buffer : List Char}
    {cur : ℕ} (hcur : cur ≤ buffer.length)
    (filters : List (Quantity × QuantityFilter K))
    (hwithin : ∀ entry ∈ filters, ∀ text found,
      entry.2.search text = some found → found.second ≤ text.length)
    {last : ℕ} (hlast : last ≤ buffer.length) :
    let round := searchRound conversions buffer cur filters last
    last ≤ round.last ∧ round.last ≤ buffer.length ∧
      ∀ finding ∈ round.findings, finding.second ≤ round.last := by
  induction filters generalizing last with
  | nil => exact ⟨le_rfl, hlast, List.forall_mem_nil _⟩
  | cons entry filters ih =>
      obtain ⟨quantity, filter⟩ := entry
      rw [List.forall_mem_cons] at hwithin
      obtain ⟨hfilter, hfilters⟩ := hwithin
      simp only [searchRound]
      cases hsearch : filter.search (buffer.drop cur) with
      | none => exact ih hfilters hlast
      | some found =>
          have hends := hfilter _ _ hsearch
          rw [List.length_drop] at hends
          have hmax : max last (cur + found.second) ≤ buffer.length :=
            max_le hlast (by omega)
          have hsecond : (findingAt conversions cur quantity filter found).second ≤
              max last (cur + found.second) := le_max_right _ _
          dsimp only
          cases (findingAt conversions cur quantity filter found).value with
          | none =>
              exact ⟨le_max_left _ _, hmax, by simpa using hsecond⟩
          | some value =>
              obtain ⟨hle, hrest, hfindings⟩ := ih hfilters hmax
              refine ⟨(le_max_left _ _).trans hle, hrest, ?_⟩
              exact List.forall_mem_cons.mpr ⟨hsecond.trans hle, hfindings⟩

theorem parseRounds_places (conversions : Conversions K)
    (parser : RegexParser K) (hwithin : parser.filters.Within) (rounds : ℕ)
    {cur : ℕ} (hcur : cur ≤ parser.buffer.length) :
    let result := parser.parseRounds conversions rounds cur
    cur ≤ result.cur ∧ result.cur ≤ parser.buffer.length ∧
      (∀ finding ∈ result.findings, finding.second ≤ parser.buffer.length) ∧
      (result.outcome = .returned →
        ∀ finding ∈ result.findings, finding.second ≤ result.cur) := by
  induction rounds generalizing cur with
  | zero => exact ⟨le_rfl, hcur, by simp [RegexParser.parseRounds]⟩
  | succ rounds ih =>
      by_cases hend : cur = parser.buffer.length
      · simp [RegexParser.parseRounds, hend]
      · obtain ⟨hle, hlast, hfindings⟩ :=
          searchRound_places conversions hcur parser.filters.entries hwithin hcur
        simp only [RegexParser.parseRounds, if_neg hend]
        generalize searchRound conversions parser.buffer cur
          parser.filters.entries cur = round at *
        have hbuffer : ∀ finding ∈ round.findings,
            finding.second ≤ parser.buffer.length := fun finding hmem =>
          (hfindings finding hmem).trans hlast
        by_cases hreturned : round.returned = true
        · by_cases hmatched : round.matched = true
          · obtain ⟨hmore, hinside, hrest, hbefore⟩ := ih hlast
            rw [if_pos hreturned, if_pos hmatched]
            refine ⟨hle.trans hmore, hinside, ?_, fun houtcome => ?_⟩
            · exact List.forall_mem_append.mpr ⟨hbuffer, hrest⟩
            · refine List.forall_mem_append.mpr ⟨?_, hbefore houtcome⟩
              exact fun finding hmem => (hfindings finding hmem).trans hmore
          · rw [if_pos hreturned, if_neg hmatched]
            exact ⟨hle, hlast, hbuffer, fun _ => hfindings⟩
        · rw [if_neg hreturned]
          exact ⟨le_rfl, hcur, hbuffer, fun houtcome => by cases houtcome⟩

/-- The matches of a call are in the buffer, and before what is left of it when
the call returns. -/
theorem addAndParse_places (conversions : Conversions K)
    (parser : RegexParser K) (hwithin : parser.filters.Within) (stamp : K)
    (chunk : List Char) :
    let buffer := addToBuffer parser.buffer chunk
    let parsed := parser.addAndParse conversions stamp chunk
    parsed.parser.buffer.length ≤ buffer.length ∧
      (∀ finding ∈ parsed.findings, finding.second ≤ buffer.length) ∧
      (parsed.outcome = .returned → ∀ finding ∈ parsed.findings,
        finding.second + parsed.parser.buffer.length ≤ buffer.length) := by
  intro buffer parsed
  let result := RegexParser.parseRounds conversions
    { parser with buffer := buffer } (buffer.length + 1) 0
  obtain ⟨-, hcur, hfindings, hbefore⟩ :
      0 ≤ result.cur ∧ result.cur ≤ buffer.length ∧
        (∀ finding ∈ result.findings, finding.second ≤ buffer.length) ∧
        (result.outcome = .returned →
          ∀ finding ∈ result.findings, finding.second ≤ result.cur) :=
    parseRounds_places conversions { parser with buffer := buffer } hwithin _
      (Nat.zero_le _)
  simp only [parsed, RegexParser.addAndParse, RegexParser.parse]
  refine ⟨?_, hfindings, fun houtcome finding hmem => ?_⟩
  · split
    · rw [List.length_drop]
      exact Nat.sub_le _ _
    · exact le_rfl
  · have hle := hbefore houtcome finding hmem
    rw [if_pos houtcome, List.length_drop]
    change finding.second + (buffer.length - result.cur) ≤ buffer.length
    omega

/-! ## The call after a failure -/

theorem searchRound_congr (conversions : Conversions K)
    {buffer other : List Char} {cur : ℕ}
    (filters : List (Quantity × QuantityFilter K))
    (hsearch : ∀ entry ∈ filters,
      entry.2.search (other.drop cur) = entry.2.search (buffer.drop cur))
    (last : ℕ) :
    searchRound conversions other cur filters last =
      searchRound conversions buffer cur filters last := by
  induction filters generalizing last with
  | nil => rfl
  | cons entry filters ih =>
      rw [List.forall_mem_cons] at hsearch
      simp only [searchRound, hsearch.1, ih hsearch.2]

theorem exists_failed_searchRound (conversions : Conversions K)
    (buffer : List Char) (cur : ℕ) (filters : List (Quantity × QuantityFilter K))
    (hproper : ∀ entry ∈ filters, ∀ text found,
      entry.2.search text = some found → found.first < found.second)
    (last : ℕ)
    (hthrew : (searchRound conversions buffer cur filters last).returned = false) :
    ∃ finding ∈ (searchRound conversions buffer cur filters last).findings,
      finding.value = none ∧ finding.first < finding.second := by
  induction filters generalizing last with
  | nil => exact absurd hthrew Bool.true_eq_false.mp
  | cons entry filters ih =>
      obtain ⟨quantity, filter⟩ := entry
      rw [List.forall_mem_cons] at hproper
      obtain ⟨hfilter, hfilters⟩ := hproper
      simp only [searchRound] at hthrew ⊢
      cases hsearch : filter.search (buffer.drop cur) with
      | none =>
          rw [hsearch] at hthrew
          exact ih hfilters last hthrew
      | some found =>
          simp only [hsearch] at hthrew ⊢
          cases hvalue :
              (findingAt conversions cur quantity filter found).value with
          | none =>
              exact ⟨_, List.mem_singleton_self _, hvalue,
                Nat.add_lt_add_left (hfilter _ _ hsearch) cur⟩
          | some value =>
              rw [hvalue] at hthrew
              obtain ⟨finding, hmem, hfinding⟩ := ih hfilters _ hthrew
              exact ⟨finding, List.mem_cons_of_mem _ hmem, hfinding⟩

theorem exists_failed_parseRounds (conversions : Conversions K)
    (parser : RegexParser K)
    (hproper : ∀ entry ∈ parser.filters.entries, ∀ text found,
      entry.2.search text = some found → found.first < found.second)
    (rounds cur : ℕ)
    (hthrew : (parser.parseRounds conversions rounds cur).outcome = .threw) :
    ∃ finding ∈ (parser.parseRounds conversions rounds cur).findings,
      finding.value = none ∧ finding.first < finding.second := by
  induction rounds generalizing cur with
  | zero => exact absurd hthrew (by simp [RegexParser.parseRounds])
  | succ rounds ih =>
      have hfailed := exists_failed_searchRound conversions parser.buffer cur
        parser.filters.entries hproper cur
      simp only [RegexParser.parseRounds] at hthrew ⊢
      by_cases hend : cur = parser.buffer.length
      · simp [hend] at hthrew
      · rw [if_neg hend] at hthrew ⊢
        generalize searchRound conversions parser.buffer cur
          parser.filters.entries cur = round at *
        by_cases hreturned : round.returned = true
        · rw [if_pos hreturned] at hthrew ⊢
          by_cases hmatched : round.matched = true
          · rw [if_pos hmatched] at hthrew ⊢
            obtain ⟨finding, hmem, hfinding⟩ := ih _ hthrew
            exact ⟨finding, List.mem_append_right _ hmem, hfinding⟩
          · simp [hmatched] at hthrew
        · rw [if_neg hreturned]
          exact hfailed (Bool.eq_false_of_not_eq_true hreturned)

/-- Rounds that throw do the same when the filters find the same in a longer
buffer. -/
theorem parseRounds_append (conversions : Conversions K)
    {other : RegexParser K} {more : List Char} (hwithin : parser.filters.Within)
    (hfilters : other.filters = parser.filters)
    (hbuffer : other.buffer = parser.buffer ++ more)
    (hsame : ∀ entry ∈ parser.filters.entries, ∀ cur,
      entry.2.search ((parser.buffer ++ more).drop cur) =
        entry.2.search (parser.buffer.drop cur))
    {rounds later cur : ℕ} (hlater : rounds ≤ later)
    (hcur : cur ≤ parser.buffer.length)
    (hthrew : (parser.parseRounds conversions rounds cur).outcome = .threw) :
    other.parseRounds conversions later cur =
      parser.parseRounds conversions rounds cur := by
  induction rounds generalizing later cur with
  | zero => exact absurd hthrew (by simp [RegexParser.parseRounds])
  | succ rounds ih =>
      obtain ⟨later, rfl⟩ := Nat.exists_eq_succ_of_ne_zero
        (Nat.ne_zero_of_lt hlater)
      obtain ⟨-, hlast, -⟩ :=
        searchRound_places conversions hcur parser.filters.entries hwithin hcur
      have hround := searchRound_congr conversions parser.filters.entries
        (fun entry hentry => hsame entry hentry cur) cur
      simp only [RegexParser.parseRounds, hfilters, hbuffer] at hthrew ⊢
      by_cases hend : cur = parser.buffer.length
      · simp [hend] at hthrew
      · have hmore : cur ≠ (parser.buffer ++ more).length := by
          rw [List.length_append]
          omega
        rw [if_neg hend] at hthrew
        rw [if_neg hmore, if_neg hend, hround]
        generalize searchRound conversions parser.buffer cur
          parser.filters.entries cur = round at *
        by_cases hreturned : round.returned = true
        · rw [if_pos hreturned] at hthrew
          rw [if_pos hreturned, if_pos hreturned]
          by_cases hmatched : round.matched = true
          · rw [if_pos hmatched] at hthrew
            rw [if_pos hmatched, if_pos hmatched,
              ih (Nat.le_of_succ_le_succ hlater) hlast hthrew]
          · simp [hmatched] at hthrew
        · rw [if_neg hreturned, if_neg hreturned]

/-- A call that throws leaves the buffer as it is, and a call with a longer
buffer finds the same and throws again when the filters find the same. -/
theorem parse_after_failure (conversions : Conversions K)
    (parser : RegexParser K) (stamp : K) (hwithin : parser.filters.Within)
    (hthrew : (parser.parse conversions stamp).outcome = .threw) :
    (parser.parse conversions stamp).parser.buffer = parser.buffer ∧
      ∀ (other : RegexParser K) (more : List Char) (later : K),
        other.filters = parser.filters →
        other.buffer = parser.buffer ++ more →
        (∀ entry ∈ parser.filters.entries, ∀ cur,
          entry.2.search ((parser.buffer ++ more).drop cur) =
            entry.2.search (parser.buffer.drop cur)) →
        (other.parse conversions later).findings =
          (parser.parse conversions stamp).findings := by
  have hnot : (parser.parse conversions stamp).outcome ≠ .returned := by
    rw [hthrew]
    decide
  refine ⟨if_neg hnot, ?_⟩
  intro other more later hfilters hbuffer hsame
  have hlength : parser.buffer.length + 1 ≤ other.buffer.length + 1 := by
    rw [hbuffer, List.length_append]
    omega
  exact congrArg Rounds.findings (parseRounds_append conversions hwithin hfilters
    hbuffer hsame hlength (Nat.zero_le _) hthrew)

/-! ## Calls in sequence -/

namespace Session

/-- The condition on the calls is exact where the next text changes no match:
the call after a failure converts the same text and throws again. -/
theorem not_convertedOnce_after_failure (session : Session K)
    (hwithin : session.parser.filters.Within)
    (hproper : ∀ entry ∈ session.parser.filters.entries, ∀ text found,
      entry.2.search text = some found → found.first < found.second)
    {stamp : K} {chunk : List Char}
    (hretains : (session.call conversions stamp chunk).RetainsFailure)
    (later : K) {more : List Char}
    (hsame : ∀ entry ∈ session.parser.filters.entries, ∀ cur,
      let buffer := addToBuffer session.parser.buffer chunk
      entry.2.search ((buffer ++ more).drop cur) =
        entry.2.search (buffer.drop cur)) :
    ¬((session.call conversions stamp chunk).call conversions later
      more).ConvertedOnce := by
  obtain ⟨hthrew, hsize⟩ := hretains
  let parser : RegexParser K :=
    { session.parser with buffer := addToBuffer session.parser.buffer chunk }
  let failed := parser.parse conversions stamp
  obtain ⟨hkept, hagain⟩ :=
    parse_after_failure conversions parser stamp hwithin hthrew
  have hbuffer : addToBuffer failed.parser.buffer more = parser.buffer ++ more := by
    have hfailed : failed.parser.buffer.length ≤ maxBuffered := hsize
    rw [addToBuffer_of_le hfailed, hkept]
  have hfindings : (failed.parser.addAndParse conversions later more).findings =
      failed.findings := hagain _ more later rfl hbuffer hsame
  have hstart : session.received + chunk.length + more.length -
      (addToBuffer failed.parser.buffer more).length =
        session.received + chunk.length - parser.buffer.length := by
    rw [hbuffer, List.length_append]
    omega
  obtain ⟨finding, hmem, hnone, hlt⟩ : ∃ finding ∈ failed.findings,
      finding.value = none ∧ finding.first < finding.second :=
    exists_failed_parseRounds conversions parser hproper _ _ hthrew
  let findings := failed.findings.map
    (Finding.shift (session.received + chunk.length - parser.buffer.length))
  have hhistory : ((session.call conversions stamp chunk).call conversions later
      more).history = session.history ++ [findings] ++ [findings] := by
    change session.history ++ [findings] ++
      [(failed.parser.addAndParse conversions later more).findings.map
        (Finding.shift (session.received + chunk.length + more.length -
          (addToBuffer failed.parser.buffer more).length))] = _
    rw [hfindings, hstart]
  rintro ⟨-, hfailures⟩
  rw [hhistory, List.pairwise_append] at hfailures
  have hmem' := List.mem_map_of_mem (f := Finding.shift
    (session.received + chunk.length - parser.buffer.length)) hmem
  have hapart := hfailures.2.2 findings
    (List.mem_append_right _ (List.mem_singleton_self _)) findings
    (List.mem_singleton_self _) _ hmem' _ hmem' hnone hnone
  exact Finding.not_apart_self (Nat.add_lt_add_left hlt _) hapart

/-- What was matched lies in what was received, in the order of the calls; when
the last call returned, the buffer holds nothing of it. -/
structure Tracks (filters : QuantityFilters K) (session : Session K) : Prop where
  filters_eq : session.parser.filters = filters
  buffered : session.parser.buffer.length ≤ session.received
  inside : ∀ findings ∈ session.history, ∀ finding ∈ findings,
    finding.second ≤ session.received
  erased : session.last = .returned →
    ∀ findings ∈ session.history, ∀ finding ∈ findings,
      finding.second + session.parser.buffer.length ≤ session.received
  ordered : session.history.Pairwise fun earlier later =>
    ∀ finding ∈ earlier, ∀ other ∈ later, finding.second ≤ other.first

variable {filters : QuantityFilters K} {session next : Session K}

omit [Zero K] [Add K] [Mul K] in
theorem Tracks.convertedOnce (htracks : session.Tracks filters) :
    session.ConvertedOnce := by
  constructor
  · refine htracks.ordered.imp ?_
    intro earlier later hle finding hfinding other hother _
    exact Finding.apart_of_le (hle finding hfinding other hother)
  · refine htracks.ordered.imp ?_
    intro earlier later hle finding hfinding other hother _ _
    exact Finding.apart_of_le (hle finding hfinding other hother)

omit [Zero K] [Add K] [Mul K] in
theorem tracks_fresh (filters : QuantityFilters K) :
    (fresh filters).Tracks filters where
  filters_eq := rfl
  buffered := le_rfl
  inside := List.forall_mem_nil _
  erased := fun _ => List.forall_mem_nil _
  ordered := .nil

omit [Zero K] [Add K] [Mul K] in
/-- Unless the text of a failed call stays, the next call searches behind all
that was matched before. -/
theorem Tracks.second_le_start (htracks : session.Tracks filters)
    (hended : session.last ≠ .hung) (hgood : ¬session.RetainsFailure)
    (chunk : List Char) :
    ∀ findings ∈ session.history, ∀ finding ∈ findings,
      finding.second ≤ session.received + chunk.length -
        (addToBuffer session.parser.buffer chunk).length := by
  intro findings hfindings finding hfinding
  by_cases hsize : session.parser.buffer.length ≤ maxBuffered
  · -- the buffer is kept, so the last call returned
    have hreturned : session.last = .returned := by
      cases hlast : session.last with
      | returned => rfl
      | threw => exact absurd ⟨hlast, hsize⟩ hgood
      | hung => exact absurd hlast hended
    have herased := htracks.erased hreturned findings hfindings finding hfinding
    rw [addToBuffer_of_le hsize, List.length_append]
    omega
  · have hinside := htracks.inside findings hfindings finding hfinding
    rw [addToBuffer, if_pos (not_le.mp hsize), List.nil_append]
    omega

theorem Tracks.call (hwithin : filters.Within) (htracks : session.Tracks filters)
    (hended : session.last ≠ .hung) (hgood : ¬session.RetainsFailure)
    (stamp : K) (chunk : List Char) :
    (session.call conversions stamp chunk).Tracks filters := by
  obtain ⟨hbuffer, hinside, herased⟩ := addAndParse_places conversions
    session.parser (htracks.filters_eq ▸ hwithin) stamp chunk
  have hstart := htracks.second_le_start hended hgood chunk
  have hbuffered := htracks.buffered
  have hlength : (addToBuffer session.parser.buffer chunk).length ≤
      session.received + chunk.length := by
    rw [addToBuffer, List.length_append]
    split
    · rw [List.length_nil]
      omega
    · omega
  have hhistory : ∀ findings ∈ session.history, ∀ finding ∈ findings,
      finding.second ≤ session.received := htracks.inside
  refine ⟨htracks.filters_eq, ?_, ?_, ?_, ?_⟩
  · exact hbuffer.trans hlength
  · refine List.forall_mem_append.mpr ⟨?_, ?_⟩
    · intro findings hfindings finding hfinding
      exact (hhistory findings hfindings finding hfinding).trans
        (Nat.le_add_right _ _)
    · rw [List.forall_mem_singleton, List.forall_mem_map]
      intro finding hfinding
      have hle := hinside finding hfinding
      simp only [Session.call, Finding.shift]
      omega
  · intro hreturned
    refine List.forall_mem_append.mpr ⟨?_, ?_⟩
    · intro findings hfindings finding hfinding
      have hle := hstart findings hfindings finding hfinding
      simp only [Session.call] at hbuffer ⊢
      omega
    · rw [List.forall_mem_singleton, List.forall_mem_map]
      intro finding hfinding
      have hle := herased hreturned finding hfinding
      simp only [Session.call, Finding.shift]
      omega
  · refine List.pairwise_append.mpr ⟨htracks.ordered, List.pairwise_singleton _ _, ?_⟩
    intro earlier hearlier later hlater finding hfinding
    rw [List.mem_singleton.mp hlater, List.forall_mem_map]
    intro other hother
    exact (hstart earlier hearlier finding hfinding).trans
      (Nat.le_add_right _ _)

theorem Tracks.step (hwithin : filters.Within) (htracks : session.Tracks filters)
    (hgood : ¬session.RetainsFailure) {received : K × List Char}
    (hnext : step conversions session received = some next) :
    next.Tracks filters := by
  obtain ⟨stamp, chunk⟩ := received
  rw [Session.step] at hnext
  split at hnext
  · exact absurd hnext (Option.some_ne_none _).symm
  · next hended =>
      rw [← Option.some.inj hnext]
      exact htracks.call hwithin hended hgood stamp chunk

/-- Every piece of the input is converted in at most one call, as long as no
call follows one which an exception left with its text in the buffer. -/
theorem convertedOnce_of_no_retained_failure (conversions : Conversions K)
    (filters : QuantityFilters K) (hwithin : filters.Within)
    (received : List (K × List Char))
    (hgood : AllSteps (Session.step conversions) (fresh filters) received
      fun session _ => ¬session.RetainsFailure) :
    Throughout (Session.step conversions) (fresh filters) received
      ConvertedOnce :=
  (throughout_of_allSteps (tracks_fresh filters)
    (fun _ _ _ htracks hevent hnext => htracks.step hwithin hevent hnext)
    hgood).mono fun _ htracks => htracks.convertedOnce

end Session

/-! ## Two fields of a line -/

/-- The body of `^([0-9\-.]+),[0-9\-.]+$` or `^[0-9\-.]+,([0-9\-.]+)$`. -/
def fieldOfTwo (index : ℕ) : Body := fun line =>
  let fields := line.splitOn ','
  if fields.length = 2 && fields.all isField then some [fields[index]?] else none

def fieldFilters : QuantityFilters ℚ where
  entries :=
    [(.ax, numberFilter (fieldOfTwo 0)), (.ay, numberFilter (fieldOfTwo 1))]
  ordered := by decide

theorem fieldFilters_within : fieldFilters.Within := by
  intro entry hentry text found hfound
  rcases List.mem_pair.mp hentry with rfl | rfl <;>
    exact searchLines_second_le hfound

/-- The second call fails, and there is no further one. -/
theorem convertedOnce_last_fails :
    Throughout (Session.step onlyDigits) (Session.fresh fieldFilters)
      [(0, ['1', ',', '2', '\n']), (1, ['3', ',', '-', '\n'])]
      Session.ConvertedOnce := by
  refine Session.convertedOnce_of_no_retained_failure onlyDigits fieldFilters
    fieldFilters_within _ ?_
  refine allSteps_cons_iff.mpr ⟨by decide, fun next hnext => ?_⟩
  have hlast : next.last = .returned := by
    have hreturned : (Session.step onlyDigits (Session.fresh fieldFilters)
        (0, ['1', ',', '2', '\n'])).map Session.last = some .returned := by
      decide +kernel
    rw [hnext] at hreturned
    exact Option.some.inj hreturned
  refine allSteps_cons_iff.mpr ⟨fun hretains => ?_, fun _ _ => allSteps_nil _ _⟩
  rw [Session.RetainsFailure, hlast] at hretains
  exact absurd hretains.1 (by decide)

/-- The `1` is pushed twice, and the end of the line throws again. -/
theorem not_convertedOnce_dash :
    fieldFilters.Within ∧
      ¬Throughout (Session.step onlyDigits) (Session.fresh fieldFilters)
        [(0, ['1', ',', '-']), (1, ['\n'])] Session.ConvertedOnce := by
  refine ⟨fieldFilters_within, fun hall => ?_⟩
  let first : List (Finding ℚ) := [⟨.ax, 0, 3, some 1⟩, ⟨.ay, 0, 3, none⟩]
  have hhistory : (run (Session.step onlyDigits) (Session.fresh fieldFilters)
      [(0, ['1', ',', '-']), (1, ['\n'])]).map Session.history =
        some [first, first] := by
    decide +kernel
  obtain ⟨session, hsession, hfound⟩ := Option.map_eq_some_iff.mp hhistory
  have honce := (hall _ List.prefix_rfl session hsession).pieces
  rw [hfound, List.pairwise_pair] at honce
  exact Finding.not_apart_self (by decide)
    (honce ⟨.ax, 0, 3, some 1⟩ (by simp [first]) _ (by simp [first]) rfl)

end SensorHub.Regex
