import SensorHub.Quantities
import SensorHub.Rounding
import SensorHub.WeightedMoments

/-!
# The statistics processor

`Statistics::insert_value` keeps, for every quantity, the samples of the last
`period` seconds together with a running mean and variance.  A new sample is
folded in with one weighted update, and every expired sample is taken out again
with a reverse update.  Which samples have expired is decided by the rounded
difference of the stamps; mean and variance are computed exactly.

The second half proves that the running values are those of the samples which
are in the window: the update and its reverse are the two incremental laws of
weighted moments, applied to the averages over the sampling intervals.
-/

namespace SensorHub

variable {K : Type*} [ExactDouble K]

def sqr (value : K) : K :=
  value * value

/-- Conversion of a container size to `int`. -/
def sizeToInt (size : ℕ) : ℤ :=
  (size : ℤ).bmod (2 ^ 32)

structure Statistic (K : Type*) where
  time : K
  n : ℤ
  mean : K
  variance : K
  deriving DecidableEq, Repr

namespace Statistic

def zero : Statistic K where
  time := 0
  n := 0
  mean := 0
  variance := 0

def setSingle (stat : Statistic K) (value : K) : Statistic K :=
  { stat with n := 1, mean := value, variance := 0 }

/-- Update mean and variance with the average over a new interval. -/
def addInterval (quantity : Quantity) (span interval avg : K)
    (stat : Statistic K) : Statistic K :=
  let mean := valueNorm quantity (stat.mean +
    valueDiff quantity avg stat.mean * interval / (interval + span))
  let meanShift2 := sqr (valueDiff quantity stat.mean mean)
  let meanDiff2 := sqr (valueDiff quantity avg mean)
  { stat with
    mean := mean
    variance :=
      (span * (stat.variance + meanShift2) + interval * meanDiff2) /
        (span + interval) }

/-- Reverse the effect of a dropped value on the mean and variance. -/
def removeInterval (quantity : Quantity) (span interval avg : K)
    (stat : Statistic K) : Statistic K :=
  let mean := valueNorm quantity (stat.mean -
    valueDiff quantity avg stat.mean * interval / span)
  let meanShift2 := sqr (valueDiff quantity stat.mean mean)
  let meanDiff2 := sqr (valueDiff quantity avg stat.mean)
  { stat with
    mean := mean
    variance :=
      ((span + interval) * stat.variance - interval * meanDiff2) / span -
        meanShift2 }

end Statistic

/-- Average over an interval, measured back from one of its ends so that the
difference can be wrapped. -/
def intervalAverage (quantity : Quantity) (value other : K) : K :=
  valueNorm quantity (value - 1 / 2 * valueDiff quantity value other)

/-- Drop the values that have expired `period`, given the sample just appended.
The branch for an emptied list is where the source would read past the end; a
negative period is needed to get there. -/
def dropExpired (rounding : Rounding K) (period : K) (value : StampedQuantity K) :
    List (StampedValue K) → Statistic K →
      List (StampedValue K) × Statistic K
  | [], stat => ([], stat)
  | popped :: rest, stat =>
      if rounding.round (value.stamp - popped.stamp) > period then
        match rest with
        | [] => ([], stat)
        | [last] => ([last], stat.setSingle value.value)
        | front :: next :: tail =>
            let back := (next :: tail).getLast (List.cons_ne_nil next tail)
            let span := back.stamp - front.stamp
            let interval := front.stamp - popped.stamp
            let avg := intervalAverage value.quantity popped.value front.value
            dropExpired rounding period value (front :: next :: tail)
              (stat.removeInterval value.quantity span interval avg)
      else
        (popped :: rest,
          { stat with
            n := sizeToInt (popped :: rest).length
            time := value.stamp })

structure Statistics (K : Type*) where
  data : Quantity → List (StampedValue K)
  statistics : Quantity → Option (Statistic K)
  period : K
  filter : List Quantity

namespace Statistics

/-- A processor that has not received anything, without a filter. -/
def fresh (period : K) : Statistics K where
  data := fun _ => []
  statistics := fun _ => none
  period := period
  filter := []

def store (stats : Statistics K) (quantity : Quantity)
    (entry : List (StampedValue K) × Statistic K) : Statistics K :=
  { stats with
    data := Function.update stats.data quantity entry.1
    statistics := Function.update stats.statistics quantity (some entry.2) }

/-- What `insert_value` does with the list and the statistic of the quantity. -/
def insertSample (rounding : Rounding K) (period : K) (value : StampedQuantity K)
    (list : List (StampedValue K)) (stat : Statistic K) :
    List (StampedValue K) × Statistic K :=
  match list with
  | [] => ([value.toStampedValue], stat.setSingle value.value)
  | front :: rest =>
      let back := (front :: rest).getLast (List.cons_ne_nil front rest)
      let span := back.stamp - front.stamp
      let interval := value.stamp - back.stamp
      -- strictly increasing sample times are required
      if interval ≤ 0 then
        (front :: rest, stat)
      else
        let avg := intervalAverage value.quantity value.value back.value
        dropExpired rounding period value (front :: rest ++ [value.toStampedValue])
          (stat.addInterval value.quantity span interval avg)

def insertValue (rounding : Rounding K) (stats : Statistics K) (value : StampedQuantity K) :
    Statistics K :=
  if stats.filter ≠ [] ∧ value.quantity ∉ stats.filter then
    stats
  else
    stats.store value.quantity
      (insertSample rounding stats.period value (stats.data value.quantity)
        ((stats.statistics value.quantity).getD Statistic.zero))

def insertValues (rounding : Rounding K) (stats : Statistics K)
    (values : List (StampedQuantity K)) : Statistics K :=
  values.foldl (insertValue rounding) stats

end Statistics

/-! ## The batch values of a window -/

/-- Take a sample if it is the first or newer than the last one taken. -/
def accept (taken : List (StampedValue K)) (sample : StampedValue K) :
    List (StampedValue K) :=
  match taken.getLast? with
  | none => [sample]
  | some last => if last.stamp < sample.stamp then taken ++ [sample] else taken

/-- The accepted samples of one quantity. -/
def accepted (quantity : Quantity) (samples : List (StampedQuantity K)) :
    List (StampedValue K) :=
  ((samples.filter fun sample => sample.quantity = quantity).map
    StampedQuantity.toStampedValue).foldl accept []

/-- The accepted samples which are at most `period` older than the newest, by the
rounded difference. -/
def window (rounding : Rounding K) (period : K) (taken : List (StampedValue K)) :
    List (StampedValue K) :=
  match taken.getLast? with
  | none => []
  | some newest =>
      taken.filter fun sample => rounding.round (newest.stamp - sample.stamp) ≤ period

/-- Length and average value of the intervals between consecutive samples. -/
def intervals : List (StampedValue K) → List (K × K)
  | older :: newer :: rest =>
      (newer.stamp - older.stamp, (newer.value + older.value) / 2) ::
        intervals (newer :: rest)
  | _ => []

def batchMean : List (StampedValue K) → K
  | [sample] => sample.value
  | samples => WeightedMoments.mean (intervals samples)

def batchVariance : List (StampedValue K) → K
  | [_] => 0
  | samples => WeightedMoments.variance (intervals samples)

def Chronological (samples : List (StampedValue K)) : Prop :=
  samples.Pairwise fun older newer => older.stamp < newer.stamp

@[simp] theorem intervals_singleton (sample : StampedValue K) :
    intervals [sample] = [] := rfl

theorem intervals_append_singleton (front : StampedValue K)
    (rest : List (StampedValue K)) (sample : StampedValue K) :
    intervals (front :: rest ++ [sample]) =
      intervals (front :: rest) ++
        [(sample.stamp -
            ((front :: rest).getLast (List.cons_ne_nil front rest)).stamp,
          (sample.value +
            ((front :: rest).getLast (List.cons_ne_nil front rest)).value) / 2)] := by
  induction rest generalizing front with
  | nil => rfl
  | cons next rest ih =>
      simp only [List.cons_append, intervals]
      rw [← List.cons_append, ih next]
      rfl

theorem total_intervals (front : StampedValue K)
    (rest : List (StampedValue K)) :
    WeightedMoments.total (intervals (front :: rest)) =
      ((front :: rest).getLast (List.cons_ne_nil front rest)).stamp -
        front.stamp := by
  induction rest generalizing front with
  | nil => simp
  | cons next rest ih =>
      rw [intervals, WeightedMoments.total_cons, ih next,
        List.getLast_cons (List.cons_ne_nil next rest)]
      ring

theorem Chronological.stamp_le_last {front : StampedValue K}
    {rest : List (StampedValue K)} (hchron : Chronological (front :: rest)) :
    ∀ sample ∈ front :: rest, sample.stamp ≤
      ((front :: rest).getLast (List.cons_ne_nil front rest)).stamp := by
  induction rest generalizing front with
  | nil => simp
  | cons next rest ih =>
      have htail := ih (List.pairwise_cons.mp hchron).2
      have hlt : front.stamp < next.stamp :=
        (List.pairwise_cons.mp hchron).1 next List.mem_cons_self
      rw [List.getLast_cons (List.cons_ne_nil next rest)]
      intro sample hsample
      rcases List.mem_cons.mp hsample with heq | hmem
      · subst heq
        exact hlt.le.trans (htail next List.mem_cons_self)
      · exact htail sample hmem

theorem Chronological.total_pos {front next : StampedValue K}
    {rest : List (StampedValue K)}
    (hchron : Chronological (front :: next :: rest)) :
    0 < WeightedMoments.total (intervals (front :: next :: rest)) := by
  have htail : Chronological (next :: rest) := (List.pairwise_cons.mp hchron).2
  have hlt : front.stamp < next.stamp :=
    (List.pairwise_cons.mp hchron).1 next List.mem_cons_self
  have hle := htail.stamp_le_last next List.mem_cons_self
  rw [total_intervals, List.getLast_cons (List.cons_ne_nil next rest)]
  linarith

theorem Chronological.interval_pos {samples : List (StampedValue K)}
    (hchron : Chronological samples) :
    ∀ pair ∈ intervals samples, 0 < pair.1 := by
  match samples with
  | [] => simp [intervals]
  | [_] => simp
  | older :: newer :: rest =>
      have htail : Chronological (newer :: rest) :=
        (List.pairwise_cons.mp hchron).2
      have hlt : older.stamp < newer.stamp :=
        (List.pairwise_cons.mp hchron).1 newer List.mem_cons_self
      intro pair hpair
      rw [intervals] at hpair
      rcases List.mem_cons.mp hpair with heq | hmem
      · subst heq
        exact sub_pos.mpr hlt
      · exact htail.interval_pos pair hmem

theorem batchVariance_nonneg {samples : List (StampedValue K)}
    (hchron : Chronological samples) : 0 ≤ batchVariance samples := by
  have hvariance : 0 ≤ WeightedMoments.variance (intervals samples) :=
    WeightedMoments.variance_nonneg _ fun pair hpair =>
      (hchron.interval_pos pair hpair).le
  unfold batchVariance
  split
  · exact le_rfl
  · exact hvariance

/-! ## One update and one reverse update -/

/-- The stored mean and variance are those of the given samples. -/
structure Tracks (samples : List (StampedValue K)) (stat : Statistic K) :
    Prop where
  mean : stat.mean = batchMean samples
  variance : stat.variance = batchVariance samples

theorem tracks_setSingle (sample : StampedValue K) (stat : Statistic K) :
    Tracks [sample] (stat.setSingle sample.value) :=
  ⟨rfl, rfl⟩

theorem intervalAverage_of_not_angular {quantity : Quantity}
    (hquantity : quantity.angular = false) (value other : K) :
    intervalAverage quantity value other = (value + other) / 2 := by
  rw [intervalAverage, valueNorm_of_not_angular hquantity,
    valueDiff_of_not_angular hquantity]
  ring

theorem Statistic.addInterval_of_not_angular {quantity : Quantity}
    (hquantity : quantity.angular = false) (span interval avg : K)
    (stat : Statistic K) :
    stat.addInterval quantity span interval avg =
      { stat with
        mean :=
          stat.mean + (avg - stat.mean) * interval / (interval + span)
        variance :=
          (span * (stat.variance + (stat.mean -
              (stat.mean + (avg - stat.mean) * interval / (interval + span))) ^ 2) +
            interval * (avg -
              (stat.mean + (avg - stat.mean) * interval / (interval + span))) ^ 2) /
            (span + interval) } := by
  simp only [Statistic.addInterval, valueNorm_of_not_angular hquantity,
    valueDiff_of_not_angular hquantity, sqr, ← pow_two]

theorem Statistic.removeInterval_of_not_angular {quantity : Quantity}
    (hquantity : quantity.angular = false) (span interval avg : K)
    (stat : Statistic K) :
    stat.removeInterval quantity span interval avg =
      { stat with
        mean := stat.mean - (avg - stat.mean) * interval / span
        variance :=
          ((span + interval) * stat.variance -
              interval * (avg - stat.mean) ^ 2) / span -
            (stat.mean - (stat.mean - (avg - stat.mean) * interval / span)) ^ 2 } := by
  simp only [Statistic.removeInterval, valueNorm_of_not_angular hquantity,
    valueDiff_of_not_angular hquantity, sqr, ← pow_two]

/-- The update turns the batch values of a list into those of the list with
one more sample. -/
theorem Tracks.addInterval {quantity : Quantity}
    (hquantity : quantity.angular = false) {front : StampedValue K}
    {rest : List (StampedValue K)} {stat : Statistic K}
    (htracks : Tracks (front :: rest) stat)
    (hchron : Chronological (front :: rest)) (sample : StampedValue K)
    (hlater :
      ((front :: rest).getLast (List.cons_ne_nil front rest)).stamp <
        sample.stamp) :
    let back := (front :: rest).getLast (List.cons_ne_nil front rest)
    Tracks (front :: rest ++ [sample])
      (stat.addInterval quantity (back.stamp - front.stamp)
        (sample.stamp - back.stamp)
        (intervalAverage quantity sample.value back.value)) := by
  intro back
  rw [Statistic.addInterval_of_not_angular hquantity,
    intervalAverage_of_not_angular hquantity]
  cases rest with
  | nil =>
      have hpos : sample.stamp - front.stamp ≠ 0 := sub_ne_zero.mpr hlater.ne'
      have hback : back = front := rfl
      rw [hback]
      constructor
      · simp [batchMean, intervals, WeightedMoments.mean, htracks.mean, hpos]
      · simp [batchVariance, intervals, WeightedMoments.variance,
          WeightedMoments.mean, htracks.mean, hpos]
  | cons next rest =>
      have htotal := (hchron.total_pos).ne'
      have hspan := total_intervals front (next :: rest)
      have hweight : 0 < sample.stamp - back.stamp := sub_pos.mpr hlater
      have hsum :
          (sample.stamp - back.stamp) +
            WeightedMoments.total (intervals (front :: next :: rest)) ≠ 0 :=
        (add_pos hweight hchron.total_pos).ne'
      have hmean := htracks.mean
      have hvariance := htracks.variance
      change stat.mean =
        WeightedMoments.mean (intervals (front :: next :: rest)) at hmean
      change stat.variance =
        WeightedMoments.variance (intervals (front :: next :: rest)) at hvariance
      rw [← hspan, hmean, hvariance,
        ← WeightedMoments.mean_append_singleton _ _ _ htotal hsum]
      constructor
      · change _ = WeightedMoments.mean (intervals (front :: next :: rest ++ [sample]))
        rw [intervals_append_singleton]
      · change _ =
          WeightedMoments.variance (intervals (front :: next :: rest ++ [sample]))
        rw [intervals_append_singleton,
          WeightedMoments.variance_append_singleton _ _ _ htotal]

/-- The reverse update turns them into those of the list without its first
sample, as long as two samples are left. -/
theorem Tracks.removeInterval {quantity : Quantity}
    (hquantity : quantity.angular = false)
    {popped front next : StampedValue K} {tail : List (StampedValue K)}
    {stat : Statistic K}
    (htracks : Tracks (popped :: front :: next :: tail) stat)
    (hchron : Chronological (popped :: front :: next :: tail)) :
    let back := (next :: tail).getLast (List.cons_ne_nil next tail)
    Tracks (front :: next :: tail)
      (stat.removeInterval quantity (back.stamp - front.stamp)
        (front.stamp - popped.stamp)
        (intervalAverage quantity popped.value front.value)) := by
  intro back
  have htailChron : Chronological (front :: next :: tail) :=
    (List.pairwise_cons.mp hchron).2
  have hspan :
      WeightedMoments.total (intervals (front :: next :: tail)) =
        back.stamp - front.stamp := by
    rw [total_intervals, List.getLast_cons (List.cons_ne_nil next tail)]
  have htotal := htailChron.total_pos.ne'
  have hsum :
      (front.stamp - popped.stamp) +
        WeightedMoments.total (intervals (front :: next :: tail)) ≠ 0 := by
    have hpos := hchron.total_pos
    rw [intervals, WeightedMoments.total_cons] at hpos
    exact hpos.ne'
  have hmean := htracks.mean
  have hvariance := htracks.variance
  change stat.mean = WeightedMoments.mean
    ((front.stamp - popped.stamp, (front.value + popped.value) / 2) ::
      intervals (front :: next :: tail)) at hmean
  change stat.variance = WeightedMoments.variance
    ((front.stamp - popped.stamp, (front.value + popped.value) / 2) ::
      intervals (front :: next :: tail)) at hvariance
  rw [Statistic.removeInterval_of_not_angular hquantity,
    intervalAverage_of_not_angular hquantity,
    add_comm popped.value front.value, ← hspan, hmean, hvariance,
    ← WeightedMoments.mean_tail _ _ _ htotal hsum]
  constructor
  · rfl
  · exact (WeightedMoments.variance_tail _ _ _ htotal hsum).symm

/-! ## Dropping expired samples -/

variable {rounding : Rounding K}

/-- The loop on samples that end with the new one: nothing has expired, only the
new one is left, or the loop goes on without the first. -/
theorem dropExpired_induction {period : K} (hperiod : 0 ≤ period) {value : StampedQuantity K}
    {motive : List (StampedValue K) → Statistic K →
      List (StampedValue K) × Statistic K → Prop}
    (kept : ∀ popped rest stat, Chronological (popped :: rest) →
      rounding.round (value.stamp - popped.stamp) ≤ period →
        motive (popped :: rest) stat (popped :: rest,
          { stat with n := sizeToInt (popped :: rest).length, time := value.stamp }))
    (single : ∀ popped stat, rounding.round (value.stamp - popped.stamp) > period →
      motive [popped, value.toStampedValue] stat
        ([value.toStampedValue], stat.setSingle value.value))
    (dropped : ∀ popped front next tail stat result,
      Chronological (popped :: front :: next :: tail) →
        rounding.round (value.stamp - popped.stamp) > period →
          motive (front :: next :: tail)
            (stat.removeInterval value.quantity
              (((next :: tail).getLast (List.cons_ne_nil next tail)).stamp - front.stamp)
              (front.stamp - popped.stamp)
              (intervalAverage value.quantity popped.value front.value)) result →
            motive (popped :: front :: next :: tail) stat result)
    {samples : List (StampedValue K)} (hchron : Chronological samples)
    (hlast : samples.getLast? = some value.toStampedValue) (stat : Statistic K) :
    motive samples stat (dropExpired rounding period value samples stat) := by
  induction samples generalizing stat with
  | nil => simp at hlast
  | cons popped rest ih =>
      by_cases hexpired : rounding.round (value.stamp - popped.stamp) > period
      · match rest with
        | [] =>
            have hpopped : popped = value.toStampedValue := by simpa using hlast
            rw [hpopped, sub_self, Rounding.round_zero] at hexpired
            exact absurd hexpired (not_lt.mpr hperiod)
        | [last] =>
            obtain rfl : last = value.toStampedValue := by simpa using hlast
            simp only [dropExpired, if_pos hexpired]
            exact single popped stat hexpired
        | front :: next :: tail =>
            have hlastTail :
                (front :: next :: tail).getLast? = some value.toStampedValue := by
              simpa using hlast
            simp only [dropExpired, if_pos hexpired]
            exact dropped popped front next tail stat _ hchron hexpired
              (ih (List.pairwise_cons.mp hchron).2 hlastTail _)
      · rw [dropExpired.eq_def]
        simp only [if_neg hexpired]
        exact kept popped rest stat hchron (not_lt.mp hexpired)

theorem dropExpired_list {period : K} (hperiod : 0 ≤ period)
    {value : StampedQuantity K} {samples : List (StampedValue K)}
    (hchron : Chronological samples)
    (hlast : samples.getLast? = some value.toStampedValue) (stat : Statistic K) :
    (dropExpired rounding period value samples stat).1 =
      samples.filter fun sample => rounding.round (value.stamp - sample.stamp) ≤ period := by
  refine dropExpired_induction (motive := fun samples _ result =>
    result.1 = samples.filter fun sample => rounding.round (value.stamp - sample.stamp) ≤ period)
    hperiod ?_ ?_ ?_ hchron hlast stat
  · intro popped rest stat hchron hin
    have hkept : ∀ sample ∈ popped :: rest,
        rounding.round (value.stamp - sample.stamp) ≤ period := by
      intro sample hsample
      have hle : popped.stamp ≤ sample.stamp := by
        rcases List.mem_cons.mp hsample with heq | hmem
        · rw [heq]
        · exact ((List.pairwise_cons.mp hchron).1 sample hmem).le
      exact (rounding.monotone_round (sub_le_sub_left hle value.stamp)).trans hin
    exact (List.filter_eq_self.mpr fun sample hsample => by
      simpa using hkept sample hsample).symm
  · intro popped stat hexpired
    rw [List.filter_cons_of_neg (by simpa only [decide_eq_true_eq, not_le] using hexpired),
      List.filter_cons_of_pos (by simp [hperiod]), List.filter_nil]
  · intro popped front next tail stat result hchron hexpired hresult
    rw [List.filter_cons_of_neg (by simpa only [decide_eq_true_eq, not_le] using hexpired)]
    exact hresult

theorem dropExpired_tracks {period : K} (hperiod : 0 ≤ period)
    {value : StampedQuantity K} (hquantity : value.quantity.angular = false)
    {samples : List (StampedValue K)} {stat : Statistic K}
    (hchron : Chronological samples)
    (hlast : samples.getLast? = some value.toStampedValue)
    (htracks : Tracks samples stat) :
    let result := dropExpired rounding period value samples stat
    Tracks result.1 result.2 := by
  revert htracks
  refine dropExpired_induction (motive := fun samples stat result =>
    Tracks samples stat → Tracks result.1 result.2) hperiod ?_ ?_ ?_ hchron hlast stat
  · intro popped rest stat hchron hin htracks
    exact ⟨htracks.mean, htracks.variance⟩
  · intro popped stat hexpired htracks
    exact tracks_setSingle value.toStampedValue stat
  · intro popped front next tail stat result hchron hexpired hresult htracks
    exact hresult (htracks.removeInterval hquantity hchron)

/-- A window is extended by appending the newest sample and dropping what is
too old for it. -/
theorem window_append_singleton {period : K} {taken : List (StampedValue K)}
    {sample : StampedValue K} (hchron : Chronological (taken ++ [sample])) :
    window rounding period (taken ++ [sample]) =
      (window rounding period taken ++ [sample]).filter
        fun other => rounding.round (sample.stamp - other.stamp) ≤ period := by
  unfold window
  rw [List.getLast?_concat]
  cases hlast : taken.getLast? with
  | none =>
      have hnil : taken = [] := List.getLast?_eq_none_iff.mp hlast
      simp [hnil]
  | some newest =>
      have hnewest : newest ∈ taken := List.mem_of_getLast? hlast
      have hlt : newest.stamp < sample.stamp :=
        (List.pairwise_append.mp hchron).2.2 newest hnewest sample
          (List.mem_singleton_self sample)
      simp only [List.filter_append, List.filter_filter]
      congr 1
      apply List.filter_congr
      intro other _
      rw [Bool.eq_iff_iff]
      simp only [decide_eq_true_eq, Bool.and_eq_true]
      constructor
      · intro h
        exact ⟨h, (rounding.monotone_round (sub_le_sub_right hlt.le other.stamp)).trans h⟩
      · exact fun h => h.1

theorem window_ne_nil {period : K} (hperiod : 0 ≤ period)
    {taken : List (StampedValue K)} (htaken : taken ≠ []) :
    window rounding period taken ≠ [] := by
  obtain ⟨newest, hnewest⟩ : ∃ newest, taken.getLast? = some newest :=
    ⟨_, List.getLast?_eq_some_getLast htaken⟩
  have hmem : newest ∈ window rounding period taken := by
    rw [window, hnewest]
    exact List.mem_filter.mpr
      ⟨List.mem_of_getLast? hnewest, by simpa using hperiod⟩
  exact List.ne_nil_of_mem hmem

theorem getLast?_window {period : K} (hperiod : 0 ≤ period)
    (taken : List (StampedValue K)) :
    (window rounding period taken).getLast? = taken.getLast? := by
  unfold window
  cases hlast : taken.getLast? with
  | none => rfl
  | some newest =>
      obtain ⟨init, hinit⟩ := List.getLast?_eq_some_iff.mp hlast
      rw [hinit]
      simp [List.filter_append, hperiod]

theorem chronological_window (period : K) {taken : List (StampedValue K)}
    (hchron : Chronological taken) : Chronological (window rounding period taken) := by
  unfold window
  split
  · exact List.Pairwise.nil
  · exact hchron.filter _

/-! ## Whole runs -/

/-- What list and statistic of one quantity are after some samples were
accepted. -/
structure Follows (rounding : Rounding K) (period : K) (taken : List (StampedValue K))
    (list : List (StampedValue K)) (stat : Option (Statistic K)) : Prop where
  chronological : Chronological taken
  list_eq : list = window rounding period taken
  absent : taken = [] → stat = none
  present : taken ≠ [] → ∃ kept, stat = some kept ∧ Tracks list kept

theorem chronological_accept {taken : List (StampedValue K)}
    (hchron : Chronological taken) (sample : StampedValue K) :
    Chronological (accept taken sample) := by
  unfold accept
  cases hlast : taken.getLast? with
  | none => exact List.pairwise_singleton _ sample
  | some last =>
      by_cases hlater : last.stamp < sample.stamp
      · simp only [if_pos hlater]
        obtain ⟨init, rfl⟩ := List.getLast?_eq_some_iff.mp hlast
        refine List.pairwise_append.mpr
          ⟨hchron, List.pairwise_singleton _ sample, ?_⟩
        intro older holder newer hnewer
        rw [List.mem_singleton.mp hnewer]
        rcases List.mem_append.mp holder with hinit | heq
        · exact ((List.pairwise_append.mp hchron).2.2 older hinit last
            (List.mem_singleton_self last)).trans hlater
        · rw [List.mem_singleton.mp heq]
          exact hlater
      · simpa only [if_neg hlater] using hchron

/-- An accepted sample is appended to the window, then expired samples are
dropped. -/
structure Accepting (rounding : Rounding K) (period : K) (value : StampedQuantity K)
    (taken : List (StampedValue K)) (stat : Statistic K)
    (front : StampedValue K) (rest : List (StampedValue K)) : Prop where
  window_eq : window rounding period taken = front :: rest
  accept_eq : accept taken value.toStampedValue = taken ++ [value.toStampedValue]
  later : ((front :: rest).getLast (List.cons_ne_nil front rest)).stamp < value.stamp
  chronological : Chronological (front :: rest ++ [value.toStampedValue])
  insert_eq :
    let back := (front :: rest).getLast (List.cons_ne_nil front rest)
    Statistics.insertSample rounding period value (front :: rest) stat =
      dropExpired rounding period value (front :: rest ++ [value.toStampedValue])
        (stat.addInterval value.quantity (back.stamp - front.stamp)
          (value.stamp - back.stamp)
          (intervalAverage value.quantity value.value back.value))

/-- A sample is the first one, comes too late or is accepted. -/
theorem insertSample_cases {period : K} (hperiod : 0 ≤ period)
    (value : StampedQuantity K) {taken : List (StampedValue K)}
    (hchron : Chronological taken) (stat : Statistic K) :
    taken = [] ∨
      (taken ≠ [] ∧ accept taken value.toStampedValue = taken ∧
        Statistics.insertSample rounding period value (window rounding period taken) stat =
          (window rounding period taken, stat)) ∨
      ∃ front rest, Accepting rounding period value taken stat front rest := by
  cases hlast : taken.getLast? with
  | none => exact .inl (List.getLast?_eq_none_iff.mp hlast)
  | some last =>
      right
      have htaken : taken ≠ [] := by
        rintro rfl
        simp at hlast
      have hlastEq : (window rounding period taken).getLast? = _ := getLast?_window hperiod taken
      rw [hlast] at hlastEq
      cases hwindow : window rounding period taken with
      | nil =>
          rw [hwindow] at hlastEq
          simp at hlastEq
      | cons front rest =>
          rw [hwindow] at hlastEq
          have hback :
              (front :: rest).getLast (List.cons_ne_nil front rest) = last := by
            rw [List.getLast?_eq_some_getLast (List.cons_ne_nil front rest)]
              at hlastEq
            exact Option.some.inj hlastEq
          by_cases hlater : last.stamp < value.stamp
          · right
            have hwindowChron : Chronological (front :: rest) :=
              hwindow ▸ chronological_window period hchron
            have hnot : ¬ value.stamp - last.stamp ≤ 0 :=
              not_le.mpr (sub_pos.mpr hlater)
            refine ⟨front, rest, hwindow, ?_, ?_, ?_, ?_⟩
            · simp [accept, hlast, hlater]
            · rwa [hback]
            · refine List.pairwise_append.mpr
                ⟨hwindowChron, List.pairwise_singleton _ _, ?_⟩
              intro older holder newer hnewer
              rw [List.mem_singleton.mp hnewer]
              have hle := hwindowChron.stamp_le_last older holder
              rw [hback] at hle
              exact hle.trans_lt hlater
            · simp only [Statistics.insertSample, hback, if_neg hnot]
          · left
            have hle : value.stamp - last.stamp ≤ 0 :=
              sub_nonpos.mpr (not_lt.mp hlater)
            refine ⟨htaken, ?_, ?_⟩
            · simp [accept, hlast, hlater]
            · simp only [Statistics.insertSample, hback, if_pos hle]

theorem insertSample_of_nil {period : K} (hperiod : 0 ≤ period)
    (value : StampedQuantity K) (stat : Statistic K) :
    Statistics.insertSample rounding period value (window rounding period []) stat =
      (window rounding period (accept [] value.toStampedValue), stat.setSingle value.value) := by
  simp [Statistics.insertSample, window, accept, hperiod]

theorem Accepting.list_eq {period : K} (hperiod : 0 ≤ period)
    {value : StampedQuantity K} {taken : List (StampedValue K)} {stat : Statistic K}
    {front : StampedValue K} {rest : List (StampedValue K)}
    (haccepting : Accepting rounding period value taken stat front rest)
    (hchron : Chronological taken) :
    (Statistics.insertSample rounding period value (front :: rest) stat).1 =
      window rounding period (taken ++ [value.toStampedValue]) := by
  have htaken := chronological_accept hchron value.toStampedValue
  rw [haccepting.accept_eq] at htaken
  rw [haccepting.insert_eq, dropExpired_list hperiod haccepting.chronological
    List.getLast?_concat, window_append_singleton htaken, haccepting.window_eq]

/-- One call keeps list and statistic in step with the accepted samples. -/
theorem Follows.insertSample {period : K} (hperiod : 0 ≤ period)
    {value : StampedQuantity K} (hquantity : value.quantity.angular = false)
    {taken list : List (StampedValue K)} {stat : Option (Statistic K)}
    (hfollows : Follows rounding period taken list stat) :
    let result := Statistics.insertSample rounding period value list
      (stat.getD Statistic.zero)
    Follows rounding period (accept taken value.toStampedValue) result.1
      (some result.2) := by
  have hchron :=
    chronological_accept hfollows.chronological value.toStampedValue
  obtain rfl := hfollows.list_eq
  rcases insertSample_cases hperiod value hfollows.chronological
    (stat.getD Statistic.zero) with rfl | ⟨htaken, haccept, hinsert⟩ |
      ⟨front, rest, haccepting⟩
  · rw [insertSample_of_nil hperiod]
    exact {
      chronological := hchron
      list_eq := rfl
      absent := fun h => absurd h (List.cons_ne_nil _ _)
      present := fun _ => ⟨_, rfl, by
        simpa [accept, window, hperiod] using tracks_setSingle value.toStampedValue _⟩ }
  · obtain ⟨kept, hkept, htracks⟩ := hfollows.present htaken
    rw [haccept, hinsert]
    exact {
      chronological := hfollows.chronological
      list_eq := rfl
      absent := fun h => absurd h htaken
      present := fun _ => ⟨kept, by rw [hkept, Option.getD_some], htracks⟩ }
  · have hne : taken ≠ [] := by
      rintro rfl
      cases haccepting.window_eq
    obtain ⟨kept, hkept, htracks⟩ := hfollows.present hne
    have hlist := haccepting.list_eq hperiod hfollows.chronological
    rw [haccepting.accept_eq] at hchron ⊢
    rw [haccepting.window_eq] at htracks ⊢
    refine {
      chronological := hchron
      list_eq := hlist
      absent := fun h => absurd h (by simp)
      present := fun _ => ⟨_, rfl, ?_⟩ }
    have hwindowChron := (List.pairwise_append.mp haccepting.chronological).1
    have hupdated := htracks.addInterval hquantity hwindowChron value.toStampedValue
      haccepting.later
    rw [haccepting.insert_eq, hkept, Option.getD_some]
    exact dropExpired_tracks hperiod hquantity haccepting.chronological
      List.getLast?_concat hupdated

theorem accepted_append_singleton (quantity : Quantity)
    (samples : List (StampedQuantity K)) (value : StampedQuantity K) :
    accepted quantity (samples ++ [value]) =
      if value.quantity = quantity then
        accept (accepted quantity samples) value.toStampedValue
      else
        accepted quantity samples := by
  by_cases h : value.quantity = quantity <;> simp [accepted, h]

namespace Statistics

theorem insertValues_append_singleton (stats : Statistics K)
    (samples : List (StampedQuantity K)) (value : StampedQuantity K) :
    stats.insertValues rounding (samples ++ [value]) =
      (stats.insertValues rounding samples).insertValue rounding value := by
  simp [insertValues]

theorem insertValue_of_no_filter {stats : Statistics K}
    (hfilter : stats.filter = []) (value : StampedQuantity K) :
    stats.insertValue rounding value =
      stats.store value.quantity
        (insertSample rounding stats.period value (stats.data value.quantity)
          ((stats.statistics value.quantity).getD Statistic.zero)) := by
  simp [insertValue, hfilter]

theorem insertValues_settings (rounding : Rounding K) (period : K)
    (samples : List (StampedQuantity K)) :
    ((fresh period).insertValues rounding samples).period = period ∧
      ((fresh period).insertValues rounding samples).filter = [] := by
  induction samples using List.reverseRecOn with
  | nil => exact ⟨rfl, rfl⟩
  | append_singleton samples value ih =>
      rw [insertValues_append_singleton, insertValue_of_no_filter ih.2]
      exact ih

/-- The entry of one quantity after one more call. -/
theorem insertValues_step (rounding : Rounding K) (period : K) (samples : List (StampedQuantity K))
    (value : StampedQuantity K) (quantity : Quantity) :
    let before := (fresh period).insertValues rounding samples
    let after := (fresh period).insertValues rounding (samples ++ [value])
    (value.quantity ≠ quantity →
      after.data quantity = before.data quantity ∧
        after.statistics quantity = before.statistics quantity) ∧
    (value.quantity = quantity →
      let result := insertSample rounding period value (before.data quantity)
        ((before.statistics quantity).getD Statistic.zero)
      after.data quantity = result.1 ∧
        after.statistics quantity = some result.2) := by
  obtain ⟨hperiod, hfilter⟩ := insertValues_settings rounding period samples
  simp only [insertValues_append_singleton, insertValue_of_no_filter hfilter,
    hperiod, store]
  constructor
  · intro hne
    simp [Function.update_of_ne hne.symm]
  · rintro rfl
    simp

/-- What every call for a quantity keeps true of its accepted samples, its list
and its statistic, is true after every run. -/
theorem entry_induction {period : K} {quantity : Quantity}
    {motive : List (StampedValue K) → List (StampedValue K) →
      Option (Statistic K) → Prop}
    (hnil : motive [] [] none)
    (hstep : ∀ taken list stat (value : StampedQuantity K), value.quantity = quantity →
      motive taken list stat →
        let result := insertSample rounding period value list (stat.getD Statistic.zero)
        motive (accept taken value.toStampedValue) result.1 (some result.2))
    (samples : List (StampedQuantity K)) :
    motive (accepted quantity samples)
      (((fresh period).insertValues rounding samples).data quantity)
      (((fresh period).insertValues rounding samples).statistics quantity) := by
  induction samples using List.reverseRecOn with
  | nil => exact hnil
  | append_singleton samples value ih =>
      obtain ⟨hother, hsame⟩ := insertValues_step rounding period samples value quantity
      rw [accepted_append_singleton]
      by_cases heq : value.quantity = quantity
      · obtain ⟨hdata, hstat⟩ := hsame heq
        rw [if_pos heq, hdata, hstat]
        exact hstep _ _ _ value heq ih
      · obtain ⟨hdata, hstat⟩ := hother heq
        rw [if_neg heq, hdata, hstat]
        exact ih

/-- After every run the entry of a non-angular quantity is determined by its
accepted samples. -/
theorem follows_insertValues {period : K} (hperiod : 0 ≤ period)
    {quantity : Quantity} (hquantity : quantity.angular = false)
    (samples : List (StampedQuantity K)) :
    Follows rounding period (accepted quantity samples)
      (((fresh period).insertValues rounding samples).data quantity)
      (((fresh period).insertValues rounding samples).statistics quantity) := by
  refine entry_induction ?_ (fun taken list stat value heq hfollows => ?_) samples
  · exact {
      chronological := List.Pairwise.nil
      list_eq := rfl
      absent := fun _ => rfl
      present := fun h => absurd rfl h }
  · exact hfollows.insertSample hperiod (heq ▸ hquantity)

/-- Leaving out the samples of all other quantities changes nothing for a
quantity. -/
theorem insertValues_filter (rounding : Rounding K) (period : K) (quantity : Quantity)
    (samples : List (StampedQuantity K)) :
    let all := (fresh period).insertValues rounding samples
    let own := (fresh period).insertValues rounding
      (samples.filter fun sample => sample.quantity = quantity)
    all.data quantity = own.data quantity ∧
      all.statistics quantity = own.statistics quantity := by
  induction samples using List.reverseRecOn with
  | nil => exact ⟨rfl, rfl⟩
  | append_singleton samples value ih =>
      obtain ⟨hother, hsame⟩ := insertValues_step rounding period samples value quantity
      by_cases heq : value.quantity = quantity
      · have hfilter :
            (samples ++ [value]).filter (fun sample => sample.quantity = quantity) =
              samples.filter (fun sample => sample.quantity = quantity) ++
                [value] := by
          simp [heq]
        obtain ⟨hdata, hstat⟩ := hsame heq
        obtain ⟨hownData, hownStat⟩ :=
          (insertValues_step rounding period
            (samples.filter fun sample => sample.quantity = quantity)
            value quantity).2 heq
        simp only [hfilter, hdata, hstat, hownData, hownStat, ih.1, ih.2,
          and_self]
      · obtain ⟨hdata, hstat⟩ := hother heq
        simpa [heq, hdata, hstat] using ih

end Statistics

/-- After each call the stored mean and variance of a non-angular quantity are
the batch values of its window, whatever was inserted for other quantities. -/
theorem statistics_eq_batch (period : K) (hperiod : 0 ≤ period)
    (quantity : Quantity) (hquantity : quantity.angular = false)
    (samples : List (StampedQuantity K)) :
    let stats := (Statistics.fresh period).insertValues .exact samples
    let own := (Statistics.fresh period).insertValues .exact
      (samples.filter fun sample => sample.quantity = quantity)
    let inWindow := window .exact period (accepted quantity samples)
    stats.data quantity = inWindow ∧
      (inWindow = [] → stats.statistics quantity = none) ∧
      (inWindow ≠ [] → ∃ stat,
        stats.statistics quantity = some stat ∧
          stat.mean = batchMean inWindow ∧
          stat.variance = batchVariance inWindow ∧
          0 ≤ stat.variance) ∧
      stats.statistics quantity = own.statistics quantity := by
  intro stats own inWindow
  have hfollows : Follows .exact period _ _ _ :=
    Statistics.follows_insertValues hperiod hquantity samples
  have hwindow : Chronological inWindow :=
    chronological_window period hfollows.chronological
  refine ⟨hfollows.list_eq, ?_, ?_,
    (Statistics.insertValues_filter .exact period quantity samples).2⟩
  · intro hnil
    by_cases htaken : accepted quantity samples = []
    · exact hfollows.absent htaken
    · exact absurd hnil (window_ne_nil hperiod htaken)
  · intro hne
    have htaken : accepted quantity samples ≠ [] := by
      intro hnil
      apply hne
      change window .exact period (accepted quantity samples) = []
      rw [hnil]
      rfl
    obtain ⟨kept, hkept, htracks⟩ := hfollows.present htaken
    rw [hfollows.list_eq] at htracks
    refine ⟨kept, hkept, htracks.mean, htracks.variance, ?_⟩
    rw [htracks.variance]
    exact batchVariance_nonneg hwindow

/-- Three accelerations, the first of which expires, with a heading between
them. -/
theorem statistics_eq_batch_three :
    let samples : List (StampedQuantity ℚ) :=
      [⟨⟨4, 0⟩, .ax⟩, ⟨⟨1, 1⟩, .hdg⟩, ⟨⟨2, 1⟩, .ax⟩, ⟨⟨6, 5 / 2⟩, .ax⟩]
    ∃ stat,
      ((Statistics.fresh 2).insertValues .exact samples).statistics .ax = some stat ∧
        stat.mean = 4 ∧ stat.variance = 0 := by
  intro samples
  obtain ⟨-, -, hpresent, -⟩ :=
    statistics_eq_batch 2 (by norm_num) .ax rfl samples
  have hwindow : window .exact 2 (accepted .ax samples) =
      [⟨2, 1⟩, ⟨6, 5 / 2⟩] := by
    simp [samples, accepted, accept, window]
    norm_num
  rw [hwindow] at hpresent
  obtain ⟨stat, hstat, hmean, hvariance, -⟩ := hpresent (by simp)
  refine ⟨stat, hstat, hmean.trans ?_, hvariance.trans ?_⟩
  · norm_num [batchMean, intervals, WeightedMoments.mean]
  · norm_num [batchVariance, intervals, WeightedMoments.variance,
      WeightedMoments.mean]

end SensorHub
