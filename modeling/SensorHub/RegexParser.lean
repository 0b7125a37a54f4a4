import SensorHub.PacketParser
import SensorHub.Quantities

/-!
# The regular expression parser

`Regex_parser::parse` searches the buffer for every configured filter, from one
cursor, and converts the groups of the matches to values.  After each round the
cursor moves to the furthest end of a match; the text before it is erased when
no filter matches any more.

The regular expressions are those of the Boost library: a filter comes with its
search function on the searched range.  So are the functions which convert
text to numbers and times.
-/

namespace SensorHub.Regex

/-- A match in the searched range, with the groups from the first on; a group
can be unmatched. -/
structure RegexMatch where
  first : ℕ
  second : ℕ
  groups : List (Option (List Char))
  deriving DecidableEq, Repr

/-- The match as seen from a position that many characters before. -/
def RegexMatch.shift (count : ℕ) (found : RegexMatch) : RegexMatch :=
  { found with first := count + found.first, second := count + found.second }

/-- Conversions of text; those which may throw return `none` then.  `unset` is
the value of the variable that is added for a group without a format. -/
structure Conversions (K : Type) where
  stod : List Char → Option K
  timeFromString : List Char → Option K
  fromIsoString : List Char → Option K
  getTime : List Char → List Char → K
  unset : K

structure QuantityFilter (K : Type) where
  search : List Char → Option RegexMatch
  multipliers : List K
  offsets : List K
  formats : List (List Char)

/-- The filters in the order of their quantities, at most one for each. -/
structure QuantityFilters (K : Type) where
  entries : List (Quantity × QuantityFilter K)
  ordered : entries.Pairwise fun a b => a.1.index < b.1.index

theorem QuantityFilters.quantities_nodup {K : Type}
    (filters : QuantityFilters K) : (filters.entries.map Prod.fst).Nodup := by
  rw [List.Nodup, List.pairwise_map]
  exact filters.ordered.imp fun hlt heq => by simp [heq] at hlt

/-- A match at its place in the buffer, with the value pushed for it; there is
none when a conversion throws. -/
structure Finding (K : Type) where
  quantity : Quantity
  first : ℕ
  second : ℕ
  value : Option K
  deriving DecidableEq, Repr

def Finding.shift {K : Type} (count : ℕ) (finding : Finding K) : Finding K :=
  { finding with
    first := count + finding.first, second := count + finding.second }

def Finding.pushed {K : Type} (stamp : K) (finding : Finding K) :
    Option (StampedQuantity K) :=
  finding.value.map fun value => ⟨⟨value, stamp⟩, finding.quantity⟩

def Finding.converted {K : Type} (finding : Finding K) : Bool :=
  finding.value.isSome

/-! ## Values of a match -/

section Values

variable {K : Type} [Zero K] [Add K] [Mul K]

def replaceLast (old new : Char) (text : List Char) : List Char :=
  (text.reverse.replace old new).reverse

/-- A decimal comma becomes a point and other commas are dropped. -/
def decimalPoint (text : List Char) : List Char :=
  let text := if '.' ∈ text then text else replaceLast ',' '.' text
  text.filter (· ≠ ',')

def Conversions.convert (conversions : Conversions K)
    (format text : List Char) : Option K :=
  if format = ['f'] then
    conversions.stod (decimalPoint text)
  else if format = ['d', 't'] then
    if 'T' ∈ text then conversions.fromIsoString text
    else conversions.timeFromString text
  else
    some (conversions.getTime format text)

namespace QuantityFilter

/-- The value of the group with some index, counted from zero. -/
def groupValue (conversions : Conversions K) (filter : QuantityFilter K)
    (index : ℕ) (text : List Char) : Option K :=
  let converted :=
    match filter.formats[index]? with
    | some format => conversions.convert format text
    | none => some conversions.unset
  converted.map fun value =>
    let value :=
      match filter.multipliers[index]? with
      | some multiplier => value * multiplier
      | none => value
    match filter.offsets[index]? with
    | some offset => value + offset
    | none => value

/-- The sum over the groups from an index on, added to a value. -/
def addGroups (conversions : Conversions K) (filter : QuantityFilter K) :
    ℕ → K → List (Option (List Char)) → Option K
  | _, value, [] => some value
  | index, value, none :: groups =>
      addGroups conversions filter (index + 1) value groups
  | index, value, some text :: groups =>
      match filter.groupValue conversions index text with
      | none => none
      | some summand =>
          addGroups conversions filter (index + 1) (value + summand) groups

omit [Zero K] in
theorem addGroups_ne_none {conversions : Conversions K}
    {filter : QuantityFilter K}
    (htotal : ∀ index text, filter.groupValue conversions index text ≠ none)
    (index : ℕ) (value : K) (groups : List (Option (List Char))) :
    filter.addGroups conversions index value groups ≠ none := by
  induction groups generalizing index value with
  | nil => exact Option.some_ne_none _
  | cons group groups ih =>
      cases group with
      | none => exact ih _ _
      | some text =>
          obtain ⟨summand, hsummand⟩ :=
            Option.ne_none_iff_exists'.mp (htotal index text)
          simp only [QuantityFilter.addGroups, hsummand]
          exact ih _ _

/-- The value of a match, `none` when a conversion throws. -/
def matchValue (conversions : Conversions K) (filter : QuantityFilter K)
    (found : RegexMatch) : Option K :=
  filter.addGroups conversions 0 0 found.groups

end QuantityFilter

end Values

/-! ## Parsing -/

variable {K : Type} [Zero K] [Add K] [Mul K]

/-- Result of a round: what was found, whether a filter matched, the furthest
end of a match, and whether the round returned or threw. -/
structure Round (K : Type) where
  findings : List (Finding K)
  matched : Bool
  last : ℕ
  returned : Bool

structure Rounds (K : Type) where
  findings : List (Finding K)
  cur : ℕ
  outcome : Outcome

structure RegexParser (K : Type) where
  buffer : List Char
  values : List (StampedQuantity K)
  filters : QuantityFilters K

structure Parsed (K : Type) where
  findings : List (Finding K)
  parser : RegexParser K
  outcome : Outcome

/-- Result of a sequence of calls, with the matches at their places in all that
was received, and whether every call has ended. -/
structure Streamed (K : Type) where
  findings : List (Finding K)
  ended : Bool

def Streamed.pushed (streamed : Streamed K) : List (Finding K) :=
  streamed.findings.filter Finding.converted

def Streamed.values (streamed : Streamed K) : List K :=
  streamed.findings.filterMap Finding.value

def findingAt (conversions : Conversions K) (cur : ℕ) (quantity : Quantity)
    (filter : QuantityFilter K) (found : RegexMatch) : Finding K :=
  ⟨quantity, cur + found.first, cur + found.second,
    filter.matchValue conversions found⟩

/-- The loop over the filters in one round. -/
def searchRound (conversions : Conversions K) (buffer : List Char) (cur : ℕ) :
    List (Quantity × QuantityFilter K) → ℕ → Round K
  | [], last => ⟨[], false, last, true⟩
  | (quantity, filter) :: filters, last =>
      match filter.search (buffer.drop cur) with
      | none => searchRound conversions buffer cur filters last
      | some found =>
          let last := max last (cur + found.second)
          let finding := findingAt conversions cur quantity filter found
          match finding.value with
          | none => ⟨[finding], true, last, false⟩
          | some _ =>
              let rest := searchRound conversions buffer cur filters last
              { rest with findings := finding :: rest.findings, matched := true }

namespace RegexParser

/-- A bounded number of rounds of the loop in `parse`. -/
def parseRounds (conversions : Conversions K) (parser : RegexParser K) :
    ℕ → ℕ → Rounds K
  | 0, cur => ⟨[], cur, .hung⟩
  | rounds + 1, cur =>
      if cur = parser.buffer.length then
        ⟨[], cur, .returned⟩
      else
        let round :=
          searchRound conversions parser.buffer cur parser.filters.entries cur
        if round.returned then
          if round.matched then
            let rest := parser.parseRounds conversions rounds round.last
            { rest with findings := round.findings ++ rest.findings }
          else
            ⟨round.findings, round.last, .returned⟩
        else
          ⟨round.findings, cur, .threw⟩

/-- Parse from the start of the buffer.  If every round moves the cursor, there
are at most as many rounds as characters, and one that finds nothing; otherwise
a round is repeated for ever. -/
def parse (conversions : Conversions K) (parser : RegexParser K) (stamp : K) :
    Parsed K :=
  let rounds := parser.parseRounds conversions (parser.buffer.length + 1) 0
  let buffer :=
    if rounds.outcome = .returned then parser.buffer.drop rounds.cur
    else parser.buffer
  let values := rounds.findings.filterMap (Finding.pushed stamp)
  ⟨rounds.findings,
    { parser with buffer := buffer, values := parser.values ++ values },
    rounds.outcome⟩

def addAndParse (conversions : Conversions K) (parser : RegexParser K)
    (stamp : K) (received : List Char) : Parsed K :=
  ({ parser with buffer := addToBuffer parser.buffer received }).parse
    conversions stamp

/-- A sequence of calls after so many characters.  The parser goes on after a
call which an exception leaves, when the device has connected again. -/
def calls (conversions : Conversions K) :
    ℕ → RegexParser K → List (K × List Char) → Streamed K
  | _, _, [] => ⟨[], true⟩
  | count, parser, (stamp, received) :: more =>
      let count := count + received.length
      -- the buffer holds the end of what was received
      let start := count - (addToBuffer parser.buffer received).length
      let parsed := parser.addAndParse conversions stamp received
      let findings := parsed.findings.map (Finding.shift start)
      if parsed.outcome = .hung then
        ⟨findings, false⟩
      else
        let rest := calls conversions count parsed.parser more
        { rest with findings := findings ++ rest.findings }

end RegexParser

end SensorHub.Regex
