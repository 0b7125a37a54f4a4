import SensorHub.RegexParser

/-!
# A parser with one filter

With one filter a call takes matches off the front of the buffer until nothing
matches.  It never ends when it comes to an empty match at the front, and a
sequence of calls takes the matches off what is left together with each chunk.
A call that throws leaves everything, also the matches it has taken.
-/

namespace SensorHub.Regex

/-- A filter is not applied to an empty range. -/
def QuantityFilter.nextMatch {K : Type} (filter : QuantityFilter K)
    (text : List Char) : Option RegexMatch :=
  if text = [] then none else filter.search text

theorem QuantityFilter.nextMatch_eq_some_iff {K : Type}
    {filter : QuantityFilter K} {text : List Char} {found : RegexMatch} :
    filter.nextMatch text = some found ↔
      text ≠ [] ∧ filter.search text = some found := by
  rw [nextMatch]
  split <;> simp_all

variable {K : Type} [Zero K] [Add K] [Mul K]

/-! ## Draining a text -/

/-- Result of taking matches off a text: the matches, the text left and the way
it ended. -/
structure Drained (K : Type) where
  findings : List (Finding K)
  rest : List Char
  outcome : Outcome

/-- Take the matches off a text that starts at some place of the stream. -/
def drain (conversions : Conversions K) (quantity : Quantity)
    (filter : QuantityFilter K) (start : ℕ) (text : List Char) : Drained K :=
  match hfound : filter.nextMatch text with
  | none => ⟨[], text, .returned⟩
  | some found =>
      let finding := findingAt conversions start quantity filter found
      if finding.value = none then
        ⟨[finding], text, .threw⟩
      else if hstuck : found.second = 0 then
        ⟨[finding], text, .hung⟩
      else
        have : (text.drop found.second).length < text.length := by
          have hne : text ≠ [] := fun hnil => by
            simp [QuantityFilter.nextMatch, hnil] at hfound
          have := List.length_pos_iff.mpr hne
          rw [List.length_drop]
          omega
        let rest := drain conversions quantity filter (start + found.second)
          (text.drop found.second)
        { rest with findings := finding :: rest.findings }
termination_by text.length

def Drained.pushed (drained : Drained K) : List (Finding K) :=
  drained.findings.filter Finding.converted

/-- What the buffer holds after a call with some text. -/
def Drained.kept (drained : Drained K) (text : List Char) : List Char :=
  if drained.outcome = .returned then drained.rest else text

/-- Take the matches off the chunks, keeping what is left between them. -/
def drainChunks (conversions : Conversions K) (quantity : Quantity)
    (filter : QuantityFilter K) : ℕ → List Char → List (List Char) → Streamed K
  | _, _, [] => ⟨[], true⟩
  | start, text, chunk :: chunks =>
      let first := drain conversions quantity filter start (text ++ chunk)
      if first.outcome = .hung then
        ⟨first.findings, false⟩
      else
        let kept := first.kept (text ++ chunk)
        let more := drainChunks conversions quantity filter
          (start + ((text ++ chunk).length - kept.length)) kept chunks
        { more with findings := first.findings ++ more.findings }

section Drain

variable {conversions : Conversions K} {quantity : Quantity}
  {filter : QuantityFilter K} {start : ℕ} {text : List Char}
  {found : RegexMatch}

theorem drain_of_none (hnext : filter.nextMatch text = none) :
    drain conversions quantity filter start text = ⟨[], text, .returned⟩ := by
  rw [drain]
  split
  · rfl
  · simp_all

theorem drain_of_some (hnext : filter.nextMatch text = some found) :
    drain conversions quantity filter start text =
      let finding := findingAt conversions start quantity filter found
      if finding.value = none then
        ⟨[finding], text, .threw⟩
      else if found.second = 0 then
        ⟨[finding], text, .hung⟩
      else
        let rest := drain conversions quantity filter (start + found.second)
          (text.drop found.second)
        { rest with findings := finding :: rest.findings } := by
  rw [drain]
  split
  · simp_all
  · next found' hnext' =>
      rw [hnext, Option.some.injEq] at hnext'
      subst hnext'
      rfl

theorem drain_of_moves (hnext : filter.nextMatch text = some found)
    (hvalue : (findingAt conversions start quantity filter found).value ≠ none)
    (hmoves : found.second ≠ 0) :
    drain conversions quantity filter start text =
      let rest := drain conversions quantity filter (start + found.second)
        (text.drop found.second)
      { rest with
        findings := findingAt conversions start quantity filter found ::
          rest.findings } := by
  simp only [drain_of_some hnext, if_neg hvalue, if_neg hmoves]

@[simp] theorem drain_nil :
    drain conversions quantity filter start [] = ⟨[], [], .returned⟩ :=
  drain_of_none rfl

theorem drain_shift (conversions : Conversions K) (quantity : Quantity)
    (filter : QuantityFilter K) (count start : ℕ) (text : List Char) :
    drain conversions quantity filter (count + start) text =
      { drain conversions quantity filter start text with
        findings :=
          (drain conversions quantity filter start text).findings.map
            (Finding.shift count) } := by
  have hfinding : ∀ start found,
      findingAt conversions (count + start) quantity filter found =
        (findingAt conversions start quantity filter found).shift count := by
    intro start found
    simp [findingAt, Finding.shift, Nat.add_assoc]
  fun_induction drain conversions quantity filter start text with
  | case1 start text hnone =>
      rw [drain_of_none hnone]
      rfl
  | case2 start text found hsome finding hthrows =>
      rw [drain_of_some hsome, hfinding]
      simp [finding, Finding.shift, hthrows]
  | case3 start text found hsome finding hvalue hstuck =>
      rw [drain_of_some hsome, hfinding]
      simp [finding, Finding.shift, hvalue, hstuck]
  | case4 start text found hsome finding hvalue hmoves hlt rest ih =>
      rw [drain_of_some hsome, hfinding, Nat.add_assoc, ih]
      simp [finding, rest, Finding.shift, hvalue, hmoves]

theorem rest_length_le (conversions : Conversions K) (quantity : Quantity)
    (filter : QuantityFilter K) (start : ℕ) (text : List Char) :
    (drain conversions quantity filter start text).rest.length ≤
      text.length := by
  fun_induction drain conversions quantity filter start text with
  | case1 => exact le_rfl
  | case2 => exact le_rfl
  | case3 => exact le_rfl
  | case4 start text found hsome finding hvalue hmoves hlt rest ih =>
      exact ih.trans hlt.le

end Drain

/-! ## Calls of the parser -/

section Calls

variable {conversions : Conversions K} {quantity : Quantity}
  {filter : QuantityFilter K} {parser : RegexParser K}

theorem searchRound_single (buffer : List Char) (cur : ℕ) :
    searchRound conversions buffer cur [(quantity, filter)] cur =
      match filter.search (buffer.drop cur) with
      | none => ⟨[], false, cur, true⟩
      | some found =>
          let finding := findingAt conversions cur quantity filter found
          ⟨[finding], true, cur + found.second, finding.value.isSome⟩ := by
  simp only [searchRound]
  cases filter.search (buffer.drop cur) with
  | none => rfl
  | some found =>
      simp only [max_eq_right (Nat.le_add_right cur found.second)]
      cases hvalue : (findingAt conversions cur quantity filter found).value <;>
        rfl

/-- An empty match at the cursor is found in every round. -/
theorem parseRounds_stuck
    (hsingle : parser.filters.entries = [(quantity, filter)]) {cur : ℕ}
    {found : RegexMatch} (hcur : cur ≠ parser.buffer.length)
    (hsearch : filter.search (parser.buffer.drop cur) = some found)
    (hvalue : (findingAt conversions cur quantity filter found).value ≠ none)
    (hstuck : found.second = 0) (rounds : ℕ) :
    (parser.parseRounds conversions rounds cur).outcome = .hung := by
  induction rounds with
  | zero => rfl
  | succ rounds ih =>
      simp only [RegexParser.parseRounds, if_neg hcur, hsingle,
        searchRound_single, hsearch, hstuck, Nat.add_zero,
        Option.isSome_iff_ne_none.mpr hvalue, if_true, ih]

/-- The rounds from a cursor take the matches off the text behind it. -/
theorem parseRounds_eq_drain (conversions : Conversions K)
    (parser : RegexParser K)
    (hsingle : parser.filters.entries = [(quantity, filter)])
    (hwithin : ∀ text found, filter.search text = some found →
      found.second ≤ text.length)
    (rounds cur : ℕ) (hrounds : parser.buffer.length < cur + rounds)
    (hcur : cur ≤ parser.buffer.length) :
    let result := parser.parseRounds conversions rounds cur
    let drained := drain conversions quantity filter cur
      (parser.buffer.drop cur)
    result.outcome = drained.outcome ∧
      (drained.outcome ≠ .hung → result.findings = drained.findings) ∧
      (drained.outcome = .returned →
        parser.buffer.drop result.cur = drained.rest) := by
  induction rounds generalizing cur with
  | zero => omega
  | succ rounds ih =>
      by_cases hend : cur = parser.buffer.length
      · have hnil : parser.buffer.drop cur = [] :=
          List.drop_eq_nil_of_le hend.ge
        simp [RegexParser.parseRounds, hend]
      · have hne : parser.buffer.drop cur ≠ [] := by
          rw [Ne, List.drop_eq_nil_iff]
          omega
        cases hsearch : filter.search (parser.buffer.drop cur) with
        | none =>
            have hnext : filter.nextMatch (parser.buffer.drop cur) = none := by
              rw [QuantityFilter.nextMatch, if_neg hne, hsearch]
            simp [RegexParser.parseRounds, hend, hsingle, searchRound_single,
              hsearch, drain_of_none hnext]
        | some found =>
            have hnext : filter.nextMatch (parser.buffer.drop cur) =
                some found :=
              QuantityFilter.nextMatch_eq_some_iff.mpr ⟨hne, hsearch⟩
            have hends := hwithin _ _ hsearch
            rw [List.length_drop] at hends
            rw [drain_of_some hnext]
            by_cases hvalue :
                (findingAt conversions cur quantity filter found).value = none
            · simp [RegexParser.parseRounds, hend, hsingle, searchRound_single,
                hsearch, hvalue]
            · by_cases hstuck : found.second = 0
              · have hhung := parseRounds_stuck hsingle hend hsearch hvalue
                  hstuck (rounds + 1)
                simp [hhung, hvalue, hstuck]
              · have hmore := ih (cur + found.second) (by omega) (by omega)
                rw [← List.drop_drop] at hmore
                obtain ⟨houtcome, hfindings, hrest⟩ := hmore
                simp only [RegexParser.parseRounds, if_neg hend, hsingle,
                  searchRound_single, hsearch, if_neg hvalue, if_neg hstuck,
                  Option.isSome_iff_ne_none.mpr hvalue, if_true]
                exact ⟨houtcome, fun hnot => by rw [hfindings hnot]; rfl, hrest⟩

theorem kept_length_le (conversions : Conversions K) (quantity : Quantity)
    (filter : QuantityFilter K) (start : ℕ) (text : List Char) :
    ((drain conversions quantity filter start text).kept text).length ≤ text.length := by
  unfold Drained.kept
  split
  · exact rest_length_le conversions quantity filter start text
  · exact le_rfl

/-- A call takes the matches off the buffer together with the chunk. -/
theorem addAndParse_eq_drain (conversions : Conversions K)
    (hsingle : parser.filters.entries = [(quantity, filter)])
    (hwithin : ∀ text found, filter.search text = some found →
      found.second ≤ text.length)
    (hsize : parser.buffer.length ≤ maxBuffered)
    (stamp : K) (chunk : List Char) (start : ℕ) :
    let parsed := parser.addAndParse conversions stamp chunk
    let drained := drain conversions quantity filter start
      (parser.buffer ++ chunk)
    parsed.parser.filters = parser.filters ∧
      parsed.outcome = drained.outcome ∧
      (drained.outcome ≠ .hung →
        parsed.findings.map (Finding.shift start) = drained.findings) ∧
      parsed.parser.buffer = drained.kept (parser.buffer ++ chunk) := by
  have hbuffer := addToBuffer_of_le hsize chunk
  obtain ⟨houtcome, hfindings, hrest⟩ := parseRounds_eq_drain conversions
    { parser with buffer := parser.buffer ++ chunk } hsingle hwithin
    ((parser.buffer ++ chunk).length + 1) 0 (by simp) (by simp)
  rw [List.drop_zero] at houtcome hfindings hrest
  have hshift := drain_shift conversions quantity filter start 0
    (parser.buffer ++ chunk)
  rw [Nat.add_zero] at hshift
  intro parsed drained
  have hdrained : drained = _ := hshift
  rw [hdrained]
  simp only [parsed, RegexParser.addAndParse, RegexParser.parse, hbuffer]
  refine ⟨trivial, houtcome, fun hnot => by rw [hfindings hnot], ?_⟩
  rw [houtcome, Drained.kept]
  split
  · next hreturned => exact hrest hreturned
  · rfl

/-- Calls take the matches off the chunks. -/
theorem calls_eq_drainChunks (conversions : Conversions K)
    (parser : RegexParser K)
    (hsingle : parser.filters.entries = [(quantity, filter)])
    (hwithin : ∀ text found, filter.search text = some found →
      found.second ≤ text.length)
    (received : List (K × List Char)) (start count : ℕ)
    (hcount : start + parser.buffer.length = count)
    (hsize : count + (received.map Prod.snd).flatten.length ≤ maxBuffered) :
    let streamed := parser.calls conversions count received
    let drained := drainChunks conversions quantity filter start parser.buffer
      (received.map Prod.snd)
    streamed.ended = drained.ended ∧
      (drained.ended = true → streamed.findings = drained.findings) := by
  induction received generalizing parser start count with
  | nil => exact ⟨rfl, fun _ => rfl⟩
  | cons call more ih =>
      obtain ⟨stamp, chunk⟩ := call
      simp only [List.map_cons, List.flatten_cons, List.length_append] at hsize
      obtain ⟨hfilters, houtcome, hfindings, hkept⟩ := addAndParse_eq_drain
        conversions hsingle hwithin
        (show parser.buffer.length ≤ maxBuffered by omega) stamp chunk start
      have hstart : count + chunk.length -
          (addToBuffer parser.buffer chunk).length = start := by
        rw [addToBuffer_of_le (by omega), List.length_append]
        omega
      simp only [RegexParser.calls, List.map_cons, drainChunks, hstart, houtcome]
      have hlength := kept_length_le conversions quantity filter start (parser.buffer ++ chunk)
      rw [← hkept, List.length_append] at hlength
      by_cases hhung : (drain conversions quantity filter start
          (parser.buffer ++ chunk)).outcome = .hung
      · rw [if_pos hhung, if_pos hhung]
        exact ⟨rfl, fun hended => absurd hended Bool.false_ne_true⟩
      · rw [if_neg hhung, if_neg hhung, ← hkept, List.length_append]
        obtain ⟨hmore, hmoreFindings⟩ := ih
          (parser.addAndParse conversions stamp chunk).parser
          (by rw [hfilters, hsingle])
          (start + (parser.buffer.length + chunk.length -
            (parser.addAndParse conversions stamp chunk).parser.buffer.length))
          (count + chunk.length) (by omega) (by omega)
        refine ⟨hmore, fun hended => ?_⟩
        rw [hfindings hhung, hmoreFindings hended]

end Calls

end SensorHub.Regex
