import SensorHub.Statistics

/-!
# Arrival time and count of a statistic

`time` is stored at one of the exits of `insert_value` only, the one behind the
loop that drops expired samples.  The first sample of a quantity leaves earlier,
and so does a sample after which all others have expired; both leave the time
that was there.  The count is stored at every exit, as an `int`.

So the stored time is that of the last sample which came at most `period` after
the one before, by the rounded difference of their stamps.
-/

namespace SensorHub

variable {K : Type*} [ExactDouble K]

theorem sizeToInt_eq_iff (size : ℕ) : sizeToInt size = size ↔ size < 2 ^ 31 := by
  have hhalf : (((2 ^ 32 : ℕ) : ℤ) + 1) / 2 = ((2 ^ 31 : ℕ) : ℤ) := by norm_num
  constructor
  · intro heq
    have hlt := Int.bmod_lt (x := (size : ℤ)) (show 0 < 2 ^ 32 by norm_num)
    rw [hhalf] at hlt
    exact_mod_cast heq.symm.trans_lt hlt
  · intro hlt
    refine Int.bmod_eq_of_le (by omega) ?_
    rw [hhalf]
    exact_mod_cast hlt

@[simp] theorem sizeToInt_one : sizeToInt 1 = 1 :=
  (sizeToInt_eq_iff 1).mpr (by norm_num)

/-- The accepted samples that came at most `period` after the one before. -/
def continued (rounding : Rounding K) (period : K) : List (StampedValue K) → List (StampedValue K)
  | older :: newer :: rest =>
      if rounding.round (newer.stamp - older.stamp) ≤ period then
        newer :: continued rounding period (newer :: rest)
      else
        continued rounding period (newer :: rest)
  | _ => []

/-- The stamp of the last of them, or the initial zero. -/
def storedTime (rounding : Rounding K) (period : K) (taken : List (StampedValue K)) : K :=
  ((continued rounding period taken).getLast?.map StampedValue.stamp).getD 0

variable {rounding : Rounding K}

theorem continued_append_singleton (period : K) (init : List (StampedValue K))
    (previous sample : StampedValue K) :
    continued rounding period (init ++ [previous] ++ [sample]) =
      continued rounding period (init ++ [previous]) ++
        if rounding.round (sample.stamp - previous.stamp) ≤ period then [sample] else [] := by
  induction init with
  | nil => simp [continued]
  | cons older init ih =>
      -- the next sample is the head of what follows
      cases init with
      | nil =>
          simp only [List.cons_append, List.nil_append, continued]
          split <;> simp
      | cons newer init =>
          simp only [List.cons_append, continued] at ih ⊢
          split
          · rw [ih, List.cons_append]
          · exact ih

theorem mem_of_mem_continued {period : K} {taken : List (StampedValue K)}
    {sample : StampedValue K} (hmem : sample ∈ continued rounding period taken) :
    sample ∈ taken := by
  match taken with
  | [] => exact hmem
  | [_] => cases hmem
  | older :: newer :: rest =>
      have htail : sample ∈ continued rounding period (newer :: rest) → sample ∈ newer :: rest :=
        mem_of_mem_continued
      rw [continued] at hmem
      split at hmem
      · rcases List.mem_cons.mp hmem with rfl | hlater
        · exact List.mem_cons_of_mem _ List.mem_cons_self
        · exact List.mem_cons_of_mem _ (htail hlater)
      · exact List.mem_cons_of_mem _ (htail hmem)

theorem storedTime_append_singleton (period : K) (init : List (StampedValue K))
    (previous sample : StampedValue K) :
    storedTime rounding period (init ++ [previous] ++ [sample]) =
      if rounding.round (sample.stamp - previous.stamp) ≤ period then sample.stamp
      else storedTime rounding period (init ++ [previous]) := by
  rw [storedTime, continued_append_singleton]
  split
  · rw [List.getLast?_concat]
    rfl
  · rw [List.append_nil, storedTime]

/-! ## One call -/

/-- The loop that drops expired samples stores the count, and the time unless it
leaves early. -/
theorem dropExpired_fields (rounding : Rounding K) {period : K} (hperiod : 0 ≤ period)
    {value : StampedQuantity K} {init : List (StampedValue K)} {previous : StampedValue K}
    (hchron : Chronological (init ++ [previous] ++ [value.toStampedValue]))
    (stat : Statistic K) :
    let result :=
      dropExpired rounding period value (init ++ [previous] ++ [value.toStampedValue]) stat
    result.2.n = sizeToInt result.1.length ∧
      result.2.time =
        if rounding.round (value.stamp - previous.stamp) ≤ period then value.stamp
        else stat.time := by
  refine dropExpired_induction (motive := fun samples stat result => ∀ init previous,
    samples = init ++ [previous] ++ [value.toStampedValue] →
      result.2.n = sizeToInt result.1.length ∧ result.2.time =
        if rounding.round (value.stamp - previous.stamp) ≤ period then value.stamp else stat.time)
    hperiod ?_ ?_ ?_ hchron List.getLast?_concat stat init previous rfl
  · intro popped rest stat hchron hin init previous hsamples
    have hle : popped.stamp ≤ previous.stamp := by
      cases init with
      | nil =>
          obtain ⟨rfl, -⟩ := List.cons.inj hsamples
          exact le_rfl
      | cons first init =>
          obtain ⟨rfl, rfl⟩ := List.cons.inj hsamples
          exact ((List.pairwise_cons.mp hchron).1 previous (by simp)).le
    have hkept : rounding.round (value.stamp - previous.stamp) ≤ period :=
      (rounding.monotone_round (sub_le_sub_left hle value.stamp)).trans hin
    simp only [if_pos hkept, and_self]
  · intro popped stat hexpired init previous hsamples
    have hpair : [popped] = init ++ [previous] :=
      (List.append_inj' (show [popped] ++ [value.toStampedValue] = _ from hsamples) rfl).1
    obtain ⟨-, hprevious⟩ := List.append_inj' (show [] ++ [popped] = _ from hpair) rfl
    rw [← List.singleton_inj.mp hprevious]
    simp only [Statistic.setSingle, if_neg (not_le.mpr hexpired), List.length_singleton,
      sizeToInt_one, and_self]
  · intro popped front next tail stat result hchron hexpired hresult init previous hsamples
    cases init with
    | nil => simp at hsamples
    | cons first init =>
        obtain ⟨-, hrest⟩ := List.cons.inj hsamples
        exact hresult init previous hrest

/-- What list, time and count of one quantity are after some samples were
accepted. -/
structure FieldsFollow (rounding : Rounding K) (period : K) (taken : List (StampedValue K))
    (list : List (StampedValue K)) (stat : Option (Statistic K)) : Prop where
  chronological : Chronological taken
  list_eq : list = window rounding period taken
  present : taken ≠ [] → ∃ kept, stat = some kept ∧
    kept.n = sizeToInt list.length ∧ kept.time = storedTime rounding period taken
  absent : taken = [] → stat = none

theorem FieldsFollow.insertSample {period : K} (hperiod : 0 ≤ period)
    {taken list : List (StampedValue K)} {stat : Option (Statistic K)}
    (hfollows : FieldsFollow rounding period taken list stat) (value : StampedQuantity K) :
    let result := Statistics.insertSample rounding period value list
      (stat.getD Statistic.zero)
    FieldsFollow rounding period (accept taken value.toStampedValue) result.1
      (some result.2) := by
  have hchron :=
    chronological_accept hfollows.chronological value.toStampedValue
  obtain rfl := hfollows.list_eq
  rcases insertSample_cases hperiod value hfollows.chronological
    (stat.getD Statistic.zero) with rfl | ⟨htaken, haccept, hinsert⟩ |
      ⟨front, rest, haccepting⟩
  · rw [insertSample_of_nil hperiod, hfollows.absent rfl]
    exact {
      chronological := hchron
      list_eq := rfl
      present := fun _ => ⟨_, rfl, by
        simp [accept, window, hperiod, Statistic.setSingle], rfl⟩
      absent := fun h => absurd h (List.cons_ne_nil _ _) }
  · obtain ⟨kept, hkept, hfields⟩ := hfollows.present htaken
    rw [haccept, hinsert]
    exact {
      chronological := hfollows.chronological
      list_eq := rfl
      present := fun _ => ⟨kept, by rw [hkept, Option.getD_some], hfields⟩
      absent := fun h => absurd h htaken }
  · have hne : taken ≠ [] := by
      rintro rfl
      cases haccepting.window_eq
    obtain ⟨kept, hkept, -, htime⟩ := hfollows.present hne
    have hlist := haccepting.list_eq hperiod hfollows.chronological
    rw [haccepting.accept_eq] at hchron ⊢
    rw [haccepting.window_eq]
    -- the last sample in the window is the last one accepted
    set back := (front :: rest).getLast (List.cons_ne_nil front rest) with hback
    have hsplit : (front :: rest).dropLast ++ [back] = front :: rest :=
      List.dropLast_append_getLast (List.cons_ne_nil front rest)
    obtain ⟨init, hinit⟩ : ∃ init, taken = init ++ [back] := by
      refine List.getLast?_eq_some_iff.mp ?_
      rw [← getLast?_window hperiod, haccepting.window_eq,
        List.getLast?_eq_some_getLast (List.cons_ne_nil front rest)]
    have hchronWindow := haccepting.chronological
    rw [← hsplit] at hchronWindow
    refine {
      chronological := hchron
      list_eq := hlist
      present := fun _ => ⟨_, rfl, ?_⟩
      absent := fun h => absurd h (by simp) }
    have hfields := dropExpired_fields rounding hperiod hchronWindow
      (kept.addInterval value.quantity (back.stamp - front.stamp)
        (value.stamp - back.stamp)
        (intervalAverage value.quantity value.value back.value))
    rw [haccepting.insert_eq, hkept, Option.getD_some]
    rw [hsplit] at hfields
    rw [hinit, storedTime_append_singleton, ← hinit, ← htime]
    exact hfields

/-! ## Whole runs -/

theorem Statistics.fieldsFollow_insertValues (rounding : Rounding K) {period : K}
    (hperiod : 0 ≤ period)
    (quantity : Quantity) (samples : List (StampedQuantity K)) :
    FieldsFollow rounding period (accepted quantity samples)
      (((fresh period).insertValues rounding samples).data quantity)
      (((fresh period).insertValues rounding samples).statistics quantity) := by
  refine entry_induction ?_
    (fun _ _ _ value _ hfollows => hfollows.insertSample hperiod value) samples
  exact {
    chronological := List.Pairwise.nil
    list_eq := rfl
    present := fun h => absurd rfl h
    absent := fun _ => rfl }

/-- The last sample came at most `period` after the one before. -/
def EndsContinued (rounding : Rounding K) (period : K) (taken : List (StampedValue K)) : Prop :=
  ∃ init previous last, taken = init ++ [previous] ++ [last] ∧
    rounding.round (last.stamp - previous.stamp) ≤ period

theorem endsContinued_append_iff {period : K} {init : List (StampedValue K)}
    {previous last : StampedValue K} :
    EndsContinued rounding period (init ++ [previous] ++ [last]) ↔
      rounding.round (last.stamp - previous.stamp) ≤ period := by
  constructor
  · rintro ⟨other, previous', last', heq, hle⟩
    obtain ⟨hinit, hlast⟩ := List.append_inj' heq rfl
    obtain ⟨-, hprevious⟩ := List.append_inj' hinit rfl
    rw [List.singleton_inj] at hlast hprevious
    rwa [hlast, hprevious]
  · exact fun hle => ⟨init, previous, last, rfl, hle⟩

/-- The stored time is that of the last sample iff this one came in time after
the one before, or none ever did and its stamp is the initial zero. -/
theorem storedTime_eq_iff (rounding : Rounding K) (period : K) {init : List (StampedValue K)}
    {last : StampedValue K} (hchron : Chronological (init ++ [last])) :
    storedTime rounding period (init ++ [last]) = last.stamp ↔
      EndsContinued rounding period (init ++ [last]) ∨
        (continued rounding period (init ++ [last]) = [] ∧ last.stamp = 0) := by
  rcases List.eq_nil_or_concat init with rfl | ⟨init, previous, rfl⟩
  · have hfirst : ¬EndsContinued rounding period ([] ++ [last]) := by
      rintro ⟨init, previous, last', heq, -⟩
      have hlength := congrArg List.length heq
      simp only [List.length_append, List.length_cons, List.length_nil] at hlength
      omega
    rw [List.nil_append] at hfirst ⊢
    simp [hfirst, storedTime, continued, eq_comm]
  · rw [List.concat_eq_append] at hchron ⊢
    rw [endsContinued_append_iff, storedTime_append_singleton, continued_append_singleton]
    by_cases hin : rounding.round (last.stamp - previous.stamp) ≤ period
    · simp [hin]
    · rw [if_neg hin, if_neg hin, List.append_nil, or_iff_right hin]
      cases hlater : (continued rounding period (init ++ [previous])).getLast? with
      | none =>
          rw [storedTime, hlater, List.getLast?_eq_none_iff.mp hlater]
          simp [eq_comm]
      | some sample =>
          -- an older sample has an older stamp
          have hmem := List.mem_of_getLast? hlater
          have hlt : sample.stamp < last.stamp :=
            (List.pairwise_append.mp hchron).2.2 sample (mem_of_mem_continued hmem) last
              (List.mem_singleton_self last)
          have hne : continued rounding period (init ++ [previous]) ≠ [] := List.ne_nil_of_mem hmem
          simp [storedTime, hlater, hlt.ne, hne]

/-- Time and count of a quantity are those of its last accepted sample and of
its window. -/
def ShowsLastSample (rounding : Rounding K) (period : K) (quantity : Quantity)
    (samples : List (StampedQuantity K)) : Prop :=
  ∃ stat last,
    ((Statistics.fresh period).insertValues rounding samples).statistics quantity = some stat ∧
      (accepted quantity samples).getLast? = some last ∧
      stat.time = last.stamp ∧
      stat.n = (window rounding period (accepted quantity samples)).length

/-- After each call time and count are right iff the last accepted sample came
at most `period` after the one before, by the rounded difference, or none ever
did and its stamp is zero, and the window is small enough for its size to be an
`int`. -/
theorem showsLastSample_iff (rounding : Rounding K) (period : K) (hperiod : 0 ≤ period)
    (quantity : Quantity) (samples : List (StampedQuantity K))
    (haccepted : accepted quantity samples ≠ []) :
    ShowsLastSample rounding period quantity samples ↔
      (EndsContinued rounding period (accepted quantity samples) ∨
        (continued rounding period (accepted quantity samples) = [] ∧
          ∀ last ∈ (accepted quantity samples).getLast?, last.stamp = 0)) ∧
      (window rounding period (accepted quantity samples)).length < 2 ^ 31 := by
  have hfollows := Statistics.fieldsFollow_insertValues rounding hperiod quantity samples
  obtain ⟨kept, hkept, hn, htime⟩ := hfollows.present haccepted
  have hchron := hfollows.chronological
  rw [hfollows.list_eq] at hn
  obtain ⟨last, hlast⟩ : ∃ last, (accepted quantity samples).getLast? = some last :=
    ⟨_, List.getLast?_eq_some_getLast haccepted⟩
  obtain ⟨init, hinit⟩ := List.getLast?_eq_some_iff.mp hlast
  have hshows : ShowsLastSample rounding period quantity samples ↔
      kept.time = last.stamp ∧
        kept.n = (window rounding period (accepted quantity samples)).length := by
    constructor
    · rintro ⟨stat, newest, hstat, hnewest, htimes, hcount⟩
      rw [hkept, Option.some.injEq] at hstat
      rw [hlast, Option.some.injEq] at hnewest
      subst hstat hnewest
      exact ⟨htimes, hcount⟩
    · exact fun hfields => ⟨kept, last, hkept, hlast, hfields⟩
  rw [hinit] at hchron htime
  have htimes := storedTime_eq_iff rounding period hchron
  rw [hshows, htime, hn, sizeToInt_eq_iff, htimes, ← hinit, hlast]
  simp

/-- Two accelerations that are an hour apart by the rounded difference. -/
theorem showsLastSample_iff_two :
    ShowsLastSample .binary64 (3600 : ℚ) .ax
      [⟨⟨3, 1 - 1 / 2 ^ 53⟩, .ax⟩, ⟨⟨4, 3601⟩, .ax⟩] := by
  have haccepted : accepted .ax [⟨⟨3, 1 - 1 / 2 ^ 53⟩, .ax⟩, ⟨⟨4, 3601⟩, .ax⟩] =
      [⟨3, 1 - 1 / 2 ^ 53⟩, (⟨4, 3601⟩ : StampedValue ℚ)] := by
    decide +kernel
  refine (showsLastSample_iff .binary64 3600 (by norm_num) .ax _ ?_).mpr ⟨.inl ?_, ?_⟩
  · rw [haccepted]
    exact List.cons_ne_nil _ _
  · rw [haccepted]
    exact ⟨[], _, _, rfl, by decide +kernel⟩
  · rw [haccepted]
    decide +kernel

/-- The first sample of a quantity leaves the time at zero. -/
theorem not_showsLastSample_first :
    ¬∀ (period : ℚ) (quantity : Quantity) (samples : List (StampedQuantity ℚ)),
      0 ≤ period → accepted quantity samples ≠ [] →
        ShowsLastSample .binary64 period quantity samples := by
  intro hall
  obtain ⟨stat, last, hstat, hlast, htime, -⟩ :=
    hall 1 .ax [⟨⟨3, 5⟩, .ax⟩] (by norm_num) (by decide +kernel)
  have hstored : ((Statistics.fresh (1 : ℚ)).insertValues .binary64
      [⟨⟨3, 5⟩, .ax⟩]).statistics .ax = some ⟨0, 1, 3, 0⟩ := by
    decide +kernel
  have hnewest : (accepted .ax [⟨⟨3, 5⟩, .ax⟩]).getLast? =
      some (⟨3, 5⟩ : StampedValue ℚ) := by
    decide +kernel
  rw [hstored, Option.some.injEq] at hstat
  rw [hnewest, Option.some.injEq] at hlast
  subst hstat hlast
  exact absurd htime (by decide +kernel)

end SensorHub
