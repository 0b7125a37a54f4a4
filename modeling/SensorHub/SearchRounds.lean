import Mathlib.Tactic

/-!
# Searchers with a common cursor

Several searchers look for hits in a text, each from the same cursor.  In every
round a searcher reports at most its first hit, and then the cursor jumps to the
furthest end of the hits of the round; the first round without a hit is the
last.

A searcher reports a given list of hits exactly when the rounds are aligned: in
the round with number `r` the search from the common cursor leads every searcher
to the hit number `r` of its list.  Only the last hit of a list can come in a
later round, because a searcher that does not find it at once has nothing else
left to find.
-/

namespace SearchRounds

variable {ι κ π : Type*}

/-- Searchers in a text of a certain size.  A hit knows its searcher by a
key. -/
structure Search (ι κ π : Type*) where
  searchers : List ι
  key : ι → κ
  owner : π → κ
  find : ι → ℕ → Option π
  stop : π → ℕ
  size : ℕ

/-- The keys are those of the searchers, and a hit ends behind the position from
which it was found. -/
structure Search.Lawful (search : Search ι κ π) : Prop where
  keys_nodup : (search.searchers.map search.key).Nodup
  owner_find : ∀ {searcher cursor hit},
    search.find searcher cursor = some hit →
      search.owner hit = search.key searcher
  stop_find : ∀ {searcher cursor hit}, searcher ∈ search.searchers →
    search.find searcher cursor = some hit →
      cursor < search.stop hit ∧ search.stop hit ≤ search.size

namespace Search

variable (search : Search ι κ π)

def hits (cursor : ℕ) : List π :=
  search.searchers.filterMap fun searcher => search.find searcher cursor

/-- The furthest end of some hits, or the cursor. -/
def furthest (cursor : ℕ) (hits : List π) : ℕ :=
  (hits.map search.stop).foldl max cursor

/-- All hits from a cursor on, in a bounded number of rounds. -/
def hitsFrom : ℕ → ℕ → List π
  | 0, _ => []
  | rounds + 1, cursor =>
      if (search.hits cursor).isEmpty then
        []
      else
        search.hits cursor ++
          hitsFrom rounds (search.furthest cursor (search.hits cursor))

/-- Where the cursor stands at the begin of a round. -/
def cursorAt : ℕ → ℕ
  | 0 => 0
  | round + 1 => search.furthest (cursorAt round) (search.hits (cursorAt round))

def found (searcher : ι) (round : ℕ) : Option π :=
  search.find searcher (search.cursorAt round)

/-- Where the cursor stands after some rounds, if these report what is due in
them. -/
def reach (due : ι → ℕ → Option π) : ℕ → ℕ
  | 0 => 0
  | round + 1 =>
      search.furthest (reach due round)
        (search.searchers.filterMap fun searcher => due searcher round)

/-- In every round each searcher finds what is due from where the cursor stands,
and nothing when nothing is due. -/
def Aligned (due : ι → ℕ → Option π) : Prop :=
  ∀ round, ∀ searcher ∈ search.searchers,
    search.find searcher (search.reach due round) = due searcher round

variable {search}

theorem le_foldl_max (ends : List ℕ) (cursor : ℕ) :
    cursor ≤ ends.foldl max cursor ∧ ∀ stop ∈ ends, stop ≤ ends.foldl max cursor := by
  induction ends generalizing cursor with
  | nil => simp
  | cons stop ends ih =>
      obtain ⟨hstart, hends⟩ := ih (max cursor stop)
      rw [List.foldl_cons, List.forall_mem_cons]
      exact ⟨(le_max_left _ _).trans hstart, (le_max_right _ _).trans hstart,
        hends⟩

theorem le_furthest (cursor : ℕ) (hits : List π) :
    cursor ≤ search.furthest cursor hits :=
  (le_foldl_max _ cursor).1

theorem mem_hits_iff {cursor : ℕ} {hit : π} :
    hit ∈ search.hits cursor ↔
      ∃ searcher ∈ search.searchers, search.find searcher cursor = some hit :=
  List.mem_filterMap

theorem lt_furthest_hits (hlawful : search.Lawful)
    {cursor : ℕ} (hhits : search.hits cursor ≠ []) :
    cursor < search.furthest cursor (search.hits cursor) := by
  obtain ⟨hit, hmem⟩ := List.exists_mem_of_ne_nil _ hhits
  obtain ⟨searcher, hsearcher, hfind⟩ := mem_hits_iff.mp hmem
  have hlt := (hlawful.stop_find hsearcher hfind).1
  exact hlt.trans_le
    ((le_foldl_max _ cursor).2 _ (List.mem_map_of_mem hmem))

theorem lt_size_of_hits (hlawful : search.Lawful)
    {cursor : ℕ} (hhits : search.hits cursor ≠ []) :
    cursor < search.size := by
  obtain ⟨hit, hmem⟩ := List.exists_mem_of_ne_nil _ hhits
  obtain ⟨searcher, hsearcher, hfind⟩ := mem_hits_iff.mp hmem
  have hbounds := hlawful.stop_find hsearcher hfind
  omega

theorem foldl_max_le {ends : List ℕ} {cursor bound : ℕ} (hcursor : cursor ≤ bound)
    (hends : ∀ stop ∈ ends, stop ≤ bound) : ends.foldl max cursor ≤ bound := by
  induction ends generalizing cursor with
  | nil => exact hcursor
  | cons stop ends ih =>
      rw [List.forall_mem_cons] at hends
      exact ih (max_le hcursor hends.1) hends.2

theorem furthest_hits_le_size (hlawful : search.Lawful) {cursor : ℕ}
    (hcursor : cursor ≤ search.size) :
    search.furthest cursor (search.hits cursor) ≤ search.size := by
  refine foldl_max_le hcursor ?_
  rw [List.forall_mem_map]
  intro hit hmem
  obtain ⟨searcher, hsearcher, hfind⟩ := mem_hits_iff.mp hmem
  exact (hlawful.stop_find hsearcher hfind).2

/-- Every hit was found from the cursor or behind it. -/
theorem exists_find_of_mem_hitsFrom {rounds cursor : ℕ} {hit : π}
    (hmem : hit ∈ search.hitsFrom rounds cursor) :
    ∃ searcher ∈ search.searchers, ∃ later, cursor ≤ later ∧
      search.find searcher later = some hit := by
  induction rounds generalizing cursor with
  | zero => simp [hitsFrom] at hmem
  | succ rounds ih =>
      rw [hitsFrom] at hmem
      split at hmem
      · simp at hmem
      · rcases List.mem_append.mp hmem with hhere | hlater
        · obtain ⟨searcher, hsearcher, hfind⟩ := mem_hits_iff.mp hhere
          exact ⟨searcher, hsearcher, cursor, le_rfl, hfind⟩
        · obtain ⟨searcher, hsearcher, later, hle, hfind⟩ := ih hlater
          exact ⟨searcher, hsearcher, later, (le_furthest _ _).trans hle, hfind⟩

/-- The rounds are as planned when each reports what is due. -/
theorem aligned_iff {due : ι → ℕ → Option π} :
    search.Aligned due ↔
      ∀ round, ∀ searcher ∈ search.searchers,
        search.found searcher round = due searcher round := by
  -- as long as the rounds report what is due, the two cursors are the same
  have hreach : ∀ round, (∀ earlier < round, ∀ searcher ∈ search.searchers,
      search.found searcher earlier = due searcher earlier) →
        search.reach due round = search.cursorAt round := by
    intro round hbefore
    induction round with
    | zero => rfl
    | succ round ih =>
        rw [reach, cursorAt, ih fun earlier hlt => hbefore earlier (Nat.lt_succ_of_lt hlt), hits]
        congr 1
        exact List.filterMap_congr fun searcher hsearcher =>
          (hbefore round (Nat.lt_succ_self round) searcher hsearcher).symm
  constructor
  · intro haligned round
    induction round using Nat.strong_induction_on with
    | _ round ih =>
        intro searcher hsearcher
        rw [← haligned round searcher hsearcher, hreach round ih]
        rfl
  · intro hfound round searcher hsearcher
    rw [hreach round fun earlier _ => hfound earlier]
    exact hfound round searcher hsearcher

/-- Without a hit nothing changes any more. -/
theorem found_eq_none_of_no_hits {round : ℕ}
    (hempty : search.hits (search.cursorAt round) = []) {later : ℕ} (hle : round ≤ later)
    {searcher : ι} (hsearcher : searcher ∈ search.searchers) :
    search.found searcher later = none := by
  have hstays : search.cursorAt later = search.cursorAt round := by
    induction later, hle using Nat.le_induction with
    | base => rfl
    | succ later hle ih =>
        rw [cursorAt, ih, hempty]
        rfl
  rw [found, hstays]
  exact List.filterMap_eq_nil_iff.mp hempty searcher hsearcher

theorem cursorAt_mono : Monotone search.cursorAt :=
  monotone_nat_of_le_succ fun _ => le_furthest _ _

/-- Every round before a hit has moved the cursor. -/
theorem le_cursorAt_of_found (hlawful : search.Lawful) {searcher : ι}
    (hsearcher : searcher ∈ search.searchers) {round : ℕ}
    (hfound : search.found searcher round ≠ none) : round ≤ search.cursorAt round := by
  have hhits : ∀ earlier < round, search.hits (search.cursorAt earlier) ≠ [] :=
    fun earlier hlt hempty => hfound (found_eq_none_of_no_hits hempty hlt.le hsearcher)
  clear hfound
  induction round with
  | zero => exact Nat.zero_le _
  | succ round ih =>
      have hbefore := ih fun earlier hlt => hhits earlier (Nat.lt_succ_of_lt hlt)
      have hmoves := lt_furthest_hits hlawful (hhits round (Nat.lt_succ_self round))
      rw [cursorAt]
      omega

theorem found_eq_none_of_size_le (hlawful : search.Lawful) {searcher : ι}
    (hsearcher : searcher ∈ search.searchers) {round : ℕ} (hsize : search.size ≤ round) :
    search.found searcher round = none := by
  by_contra hfound
  have hle := le_cursorAt_of_found hlawful hsearcher hfound
  obtain ⟨hit, hhit⟩ := Option.ne_none_iff_exists'.mp hfound
  have hbounds := hlawful.stop_find hsearcher hhit
  omega

/-- Hits of one searcher in different rounds end at different places. -/
theorem stop_lt_of_found (hlawful : search.Lawful) {searcher : ι}
    (hsearcher : searcher ∈ search.searchers) {round later : ℕ} (hlt : round < later)
    {hit next : π} (hhit : search.found searcher round = some hit)
    (hnext : search.found searcher later = some next) : search.stop hit < search.stop next := by
  have hmem : hit ∈ search.hits (search.cursorAt round) :=
    mem_hits_iff.mpr ⟨searcher, hsearcher, hhit⟩
  have hjump : search.stop hit ≤ search.cursorAt (round + 1) :=
    (le_foldl_max _ _).2 _ (List.mem_map_of_mem hmem)
  exact (hjump.trans (cursorAt_mono hlt)).trans_lt (hlawful.stop_find hsearcher hnext).1

/-! ## Lists with a late entry -/

/-- The entries of a list are due in the rounds with their numbers, the last one
so many rounds late. -/
def dueWith (late : ℕ) : List π → ℕ → Option π
  | [], _ => none
  | [last], round => if round = late then some last else none
  | hit :: _ :: _, 0 => some hit
  | _ :: next :: rest, round + 1 => dueWith late (next :: rest) round

theorem dueWith_zero (list : List π) : dueWith 0 list = fun round => list[round]? := by
  funext round
  induction list generalizing round with
  | nil => rfl
  | cons hit rest ih =>
      cases rest with
      | nil => cases round <;> simp [dueWith]
      | cons next rest =>
          cases round with
          | zero => rfl
          | succ round => simpa [dueWith] using ih round

theorem dueWith_eq_none {late : ℕ} {list : List π} {round : ℕ}
    (hround : list.length + late ≤ round) : dueWith late list round = none := by
  induction list generalizing round with
  | nil => rfl
  | cons hit rest ih =>
      rw [List.length_cons] at hround
      cases rest with
      | nil => exact if_neg (by omega)
      | cons next rest =>
          cases round with
          | zero => omega
          | succ round => exact ih (by omega)

theorem filterMap_dueWith {late : ℕ} {list : List π} {rounds : ℕ}
    (hrounds : list.length + late ≤ rounds) :
    (List.range rounds).filterMap (dueWith late list) = list := by
  induction list generalizing rounds with
  | nil => exact List.filterMap_eq_nil_iff.mpr fun _ _ => rfl
  | cons hit rest ih =>
      rw [List.length_cons] at hrounds
      cases rest with
      | nil =>
          obtain ⟨more, rfl⟩ := Nat.exists_eq_add_of_le (show late + 1 ≤ rounds by omega)
          have hbefore : ∀ round ∈ List.range late, dueWith late [hit] round = none :=
            fun round hmem => if_neg (List.mem_range.mp hmem).ne
          have hbehind : ∀ round ∈ (List.range more).map (late + 1 + ·),
              dueWith late [hit] round = none := by
            intro round hmem
            obtain ⟨skip, -, rfl⟩ := List.mem_map.mp hmem
            exact if_neg (by omega)
          rw [List.range_add, List.range_succ, List.filterMap_append, List.filterMap_append,
            List.filterMap_eq_nil_iff.mpr hbefore, List.filterMap_eq_nil_iff.mpr hbehind]
          simp [dueWith]
      | cons next rest =>
          obtain ⟨rounds, rfl⟩ := Nat.exists_eq_add_of_le' (show 1 ≤ rounds by omega)
          rw [List.range_succ_eq_map, List.filterMap_cons, List.filterMap_map]
          exact congrArg (hit :: ·) (ih (by omega))

/-- A sequence that has at most one entry behind its first gap is that of a list
with a late last entry. -/
theorem exists_late {found : ℕ → Option π} {rounds : ℕ}
    (hend : ∀ round, rounds ≤ round → found round = none)
    (honce : ∀ gap round, gap < round → found gap = none → found round ≠ none →
      ∀ later, round < later → found later = none) :
    ∃ late, ∀ round, found round = dueWith late ((List.range rounds).filterMap found) round := by
  induction rounds generalizing found with
  | zero => exact ⟨0, fun round => hend round (Nat.zero_le round)⟩
  | succ rounds ih =>
      obtain ⟨late, hlate⟩ := @ih (found ∘ Nat.succ)
        (fun round hle => hend (round + 1) (by omega))
        (fun gap round hlt hgap hfound later hlater =>
          honce (gap + 1) (round + 1) (by omega) hgap hfound (later + 1) (by omega))
      rw [List.range_succ_eq_map, List.filterMap_cons, List.filterMap_map]
      generalize (List.range rounds).filterMap (found ∘ Nat.succ) = rest at hlate ⊢
      cases hfirst : found 0 with
      | some hit =>
          cases rest with
          | nil =>
              refine ⟨0, fun round => ?_⟩
              cases round with
              | zero => exact hfirst
              | succ round => exact hlate round
          | cons next rest =>
              refine ⟨late, fun round => ?_⟩
              cases round with
              | zero => exact hfirst
              | succ round => exact hlate round
      | none =>
          match rest with
          | [] =>
              refine ⟨0, fun round => ?_⟩
              cases round with
              | zero => exact hfirst
              | succ round => exact hlate round
          | [last] =>
              refine ⟨late + 1, fun round => ?_⟩
              cases round with
              | zero => exact hfirst
              | succ round => simpa [dueWith] using hlate round
          | hit :: next :: rest =>
              -- the gap is followed by two entries
              have hhit : found 1 ≠ none := by
                rw [show found 1 = some hit from hlate 0]
                exact Option.some_ne_none hit
              have hnone : ∀ round, dueWith late (next :: rest) round = none := by
                intro round
                have hlater := hlate (round + 1)
                rwa [Function.comp_apply,
                  honce 0 1 Nat.zero_lt_one hfirst hhit _ (by omega), eq_comm] at hlater
              have hlist := filterMap_dueWith (le_refl ((next :: rest).length + late))
              rw [List.filterMap_eq_nil_iff.mpr fun round _ => hnone round] at hlist
              cases hlist

/-- Alignment is a matter of the rounds in which something is due, and of the one
behind them. -/
theorem aligned_of_rounds {due : ι → ℕ → Option π} (bound : ℕ)
    (hbound : ∀ round, bound ≤ round → ∀ searcher ∈ search.searchers, due searcher round = none)
    (hrounds : ∀ round ≤ bound, ∀ searcher ∈ search.searchers,
      search.find searcher (search.reach due round) = due searcher round) :
    search.Aligned due := by
  intro round
  rcases Nat.le_total round bound with hle | hge
  · exact hrounds round hle
  · have hstays : search.reach due round = search.reach due bound := by
      induction round, hge using Nat.le_induction with
      | base => rfl
      | succ round hle ih =>
          rw [reach, List.filterMap_eq_nil_iff.mpr (hbound round hle), ih]
          rfl
    intro searcher hsearcher
    rw [hstays, hrounds bound le_rfl searcher hsearcher, hbound bound le_rfl searcher hsearcher,
      hbound round hge searcher hsearcher]

section Reports

variable [DecidableEq κ]

def hitsOf (search : Search ι κ π) (searcher : ι) (hits : List π) : List π :=
  hits.filter fun hit => search.owner hit = search.key searcher

theorem hitsOf_filterMap_of_not_mem (hlawful : search.Lawful)
    {searcher : ι} {searchers : List ι}
    (hnot : search.key searcher ∉ searchers.map search.key) (cursor : ℕ) :
    search.hitsOf searcher
      (searchers.filterMap fun other => search.find other cursor) = [] := by
  rw [hitsOf, List.filter_eq_nil_iff]
  intro hit hmem howner
  obtain ⟨other, hother, hfind⟩ := List.mem_filterMap.mp hmem
  rw [decide_eq_true_eq, hlawful.owner_find hfind] at howner
  exact hnot (howner ▸ List.mem_map_of_mem hother)

theorem hitsOf_hits (hlawful : search.Lawful) {searcher : ι}
    (hmem : searcher ∈ search.searchers)
    (cursor : ℕ) :
    search.hitsOf searcher (search.hits cursor) =
      (search.find searcher cursor).toList := by
  have hgeneral : ∀ searchers : List ι, (searchers.map search.key).Nodup →
      searcher ∈ searchers →
      search.hitsOf searcher
          (searchers.filterMap fun other => search.find other cursor) =
        (search.find searcher cursor).toList := by
    intro searchers hnodup hin
    induction searchers with
    | nil => simp at hin
    | cons other searchers ih =>
        rw [List.map_cons, List.nodup_cons] at hnodup
        have hsplit : search.hitsOf searcher
              ((other :: searchers).filterMap
                fun other => search.find other cursor) =
            search.hitsOf searcher (search.find other cursor).toList ++
              search.hitsOf searcher
                (searchers.filterMap fun other => search.find other cursor) := by
          rw [hitsOf, hitsOf, hitsOf, ← List.filter_append]
          cases hfind : search.find other cursor <;> simp [hfind]
        rw [hsplit]
        rcases List.mem_cons.mp hin with rfl | htail
        · rw [hitsOf_filterMap_of_not_mem hlawful hnodup.1, List.append_nil]
          cases hfind : search.find searcher cursor with
          | none => rfl
          | some hit => simp [hitsOf, hlawful.owner_find hfind]
        · have hne : search.key other ≠ search.key searcher := by
            intro heq
            exact hnodup.1 (heq ▸ List.mem_map_of_mem htail)
          rw [ih hnodup.2 htail]
          cases hfind : search.find other cursor with
          | none => rfl
          | some hit => simp [hitsOf, hlawful.owner_find hfind, hne]
  exact hgeneral _ hlawful.keys_nodup hmem

/-- What a searcher reports in a round, and what it reports from then on. -/
theorem hitsOf_hitsFrom_succ (hlawful : search.Lawful) {cursor : ℕ}
    (hhits : search.hits cursor ≠ []) {searcher : ι}
    (hsearcher : searcher ∈ search.searchers) (rounds : ℕ) :
    search.hitsOf searcher (search.hitsFrom (rounds + 1) cursor) =
      (search.find searcher cursor).toList ++
        search.hitsOf searcher
          (search.hitsFrom rounds
            (search.furthest cursor (search.hits cursor))) := by
  have hhere := hitsOf_hits hlawful hsearcher cursor
  rw [hitsFrom, if_neg (by simpa using hhits)]
  rw [hitsOf] at hhere ⊢
  rw [List.filter_append, hhere, hitsOf]

/-- All that a searcher reports is what it finds in the rounds. -/
theorem hitsOf_hitsFrom (hlawful : search.Lawful) {searcher : ι}
    (hsearcher : searcher ∈ search.searchers) (rounds round : ℕ) :
    search.hitsOf searcher (search.hitsFrom rounds (search.cursorAt round)) =
      (List.range' round rounds).filterMap (search.found searcher) := by
  induction rounds generalizing round with
  | zero => rfl
  | succ rounds ih =>
      by_cases hempty : search.hits (search.cursorAt round) = []
      · have hnone : ∀ later ∈ List.range' round (rounds + 1),
            search.found searcher later = none := by
          intro later hmem
          exact found_eq_none_of_no_hits hempty (List.mem_range'_1.mp hmem).1 hsearcher
        rw [hitsFrom, hempty, List.filterMap_eq_nil_iff.mpr hnone]
        rfl
      · rw [hitsOf_hitsFrom_succ hlawful hempty hsearcher, List.range'_succ, List.filterMap_cons]
        have hrest := ih (round + 1)
        rw [cursorAt] at hrest
        rw [hrest, found]
        cases search.find searcher (search.cursorAt round) <;> rfl

variable {targets : ι → List π}

theorem hitsOf_eq_filterMap_found (hlawful : search.Lawful) {searcher : ι}
    (hsearcher : searcher ∈ search.searchers) {rounds : ℕ} (hrounds : search.size ≤ rounds)
    (more : ℕ) :
    search.hitsOf searcher (search.hitsFrom rounds 0) =
      (List.range (rounds + more)).filterMap (search.found searcher) := by
  have hbehind : ∀ round ∈ (List.range more).map (rounds + ·),
      search.found searcher round = none := by
    intro round hmem
    obtain ⟨skip, -, rfl⟩ := List.mem_map.mp hmem
    exact found_eq_none_of_size_le hlawful hsearcher (by omega)
  rw [List.range_add, List.filterMap_append, List.filterMap_eq_nil_iff.mpr hbehind,
    List.append_nil, List.range_eq_range']
  exact hitsOf_hitsFrom hlawful hsearcher rounds 0

/-- Aligned searchers report their lists. -/
theorem hitsOf_of_aligned (hlawful : search.Lawful) {late : ι → ℕ}
    (haligned : search.Aligned fun searcher => dueWith (late searcher) (targets searcher))
    {rounds : ℕ} (hrounds : search.size ≤ rounds) {searcher : ι}
    (hsearcher : searcher ∈ search.searchers) :
    search.hitsOf searcher (search.hitsFrom rounds 0) = targets searcher := by
  have hfound : search.found searcher = dueWith (late searcher) (targets searcher) :=
    funext fun round => aligned_iff.mp haligned round searcher hsearcher
  rw [hitsOf_eq_filterMap_found hlawful hsearcher hrounds
    ((targets searcher).length + late searcher), hfound, filterMap_dueWith (by omega)]

/-- Each searcher reports exactly its list iff the rounds are aligned with some
of the last entries late, for searchers which can find nothing but the last entry
of their list after a search in vain. -/
theorem hitsOf_eq_iff_aligned (hlawful : search.Lawful)
    (hlast : ∀ searcher ∈ search.searchers, ∀ cursor later hit,
      hit ∈ targets searcher → cursor ≤ later → search.find searcher cursor = none →
        search.find searcher later = some hit → (targets searcher).getLast? = some hit)
    {rounds : ℕ} (hrounds : search.size ≤ rounds) :
    (∀ searcher ∈ search.searchers,
        search.hitsOf searcher (search.hitsFrom rounds 0) = targets searcher) ↔
      ∃ late : ι → ℕ,
        search.Aligned fun searcher => dueWith (late searcher) (targets searcher) := by
  constructor
  · intro hall
    have hlate : ∀ searcher, ∃ late, searcher ∈ search.searchers → ∀ round,
        search.found searcher round = dueWith late (targets searcher) round := by
      intro searcher
      by_cases hsearcher : searcher ∈ search.searchers
      · have htargets := hitsOf_eq_filterMap_found hlawful hsearcher hrounds 0
        rw [hall searcher hsearcher, Nat.add_zero] at htargets
        have hmem : ∀ {round hit}, search.found searcher round = some hit →
            hit ∈ targets searcher := by
          intro round hit hhit
          rw [htargets, List.mem_filterMap]
          refine ⟨round, List.mem_range.mpr ?_, hhit⟩
          by_contra hge
          rw [found_eq_none_of_size_le hlawful hsearcher (by omega)] at hhit
          cases hhit
        have honce : ∀ gap round, gap < round → search.found searcher gap = none →
            search.found searcher round ≠ none →
              ∀ later, round < later → search.found searcher later = none := by
          intro gap round hgap hnone hfound later hlater
          by_contra hagain
          obtain ⟨hit, hhit⟩ := Option.ne_none_iff_exists'.mp hfound
          obtain ⟨next, hnext⟩ := Option.ne_none_iff_exists'.mp hagain
          have hlastHit := hlast searcher hsearcher _ _ hit (hmem hhit)
            (cursorAt_mono hgap.le) hnone hhit
          have hlastNext := hlast searcher hsearcher _ _ next (hmem hnext)
            (cursorAt_mono (hgap.trans hlater).le) hnone hnext
          obtain rfl : hit = next := Option.some.inj (hlastHit.symm.trans hlastNext)
          exact lt_irrefl _ (stop_lt_of_found hlawful hsearcher hlater hhit hnext)
        obtain ⟨late, hlate⟩ := exists_late
          (fun round hle => found_eq_none_of_size_le hlawful hsearcher (hrounds.trans hle)) honce
        exact ⟨late, fun _ => htargets ▸ hlate⟩
      · exact ⟨0, fun h => absurd h hsearcher⟩
    choose late hlate using hlate
    exact ⟨late, aligned_iff.mpr fun round searcher hsearcher => hlate searcher hsearcher round⟩
  · rintro ⟨late, haligned⟩ searcher hsearcher
    exact hitsOf_of_aligned hlawful haligned hrounds hsearcher

end Reports

end Search

end SearchRounds
