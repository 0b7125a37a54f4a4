import SensorHub.Statistics
import SensorHub.Wrapping

/-!
# Statistics of angles

The samples of an angular quantity are lifted to numbers on the line, in an
interval shorter than half a turn.  On such numbers the running update of the
statistics computes, up to whole turns, what the update of a quantity that is
not wrapped computes from the lifted samples, because no difference it takes
ever reaches half a turn.

Two such lifts of the same samples differ by a number of whole turns, so that
the values of a window do not depend on the lift.
-/

namespace SensorHub

variable {K : Type*} [ExactDouble K]

/-! ## Lifts -/

/-- A representative of a sample on the line. -/
structure Lifts (sample lifted : StampedValue K) : Prop where
  stamp : lifted.stamp = sample.stamp
  value : sample.value ≡ lifted.value [PMOD 2 * mPi]

def Narrow (samples : List (StampedValue K)) : Prop :=
  ∃ low high : K, high - low < mPi ∧
    ∀ sample ∈ samples, sample.value ∈ Set.Icc low high

/-- The samples fit in an arc shorter than half a turn. -/
def FitsArc (samples : List (StampedValue K)) : Prop :=
  ∃ lifted, List.Forall₂ Lifts samples lifted ∧ Narrow lifted

theorem abs_sub_lt_of_mem {low high x y : K} (hnarrow : high - low < mPi)
    (hx : x ∈ Set.Icc low high) (hy : y ∈ Set.Icc low high) : |x - y| < mPi := by
  obtain ⟨hxlow, hxhigh⟩ := hx
  obtain ⟨hylow, hyhigh⟩ := hy
  refine abs_lt.mpr ⟨?_, ?_⟩ <;> linarith

def shiftSample (offset : K) (sample : StampedValue K) : StampedValue K :=
  { sample with value := sample.value + offset }

/-- Two lifts near the same representative of a first sample are the same up to
the turns between those representatives. -/
theorem lifts_eq_of_near {samples first second : List (StampedValue K)} {x y : K}
    (hmod : x ≡ y [PMOD 2 * mPi])
    (hfirst : List.Forall₂ Lifts samples first) (hsecond : List.Forall₂ Lifts samples second)
    (hx : ∀ sample ∈ first, |sample.value - x| < mPi)
    (hy : ∀ sample ∈ second, |sample.value - y| < mPi) :
    second = first.map (shiftSample (y - x)) := by
  induction hfirst generalizing second with
  | nil =>
      cases hsecond
      rfl
  | @cons sample lifted samples first hhead htail ih =>
      cases hsecond with
      | @cons _ lifted' _ second hhead' htail' =>
          rw [List.forall_mem_cons] at hx hy
          have hsame : lifted.value - x ≡ lifted'.value - y [PMOD 2 * mPi] :=
            (hhead.value.symm.trans hhead'.value).sub hmod
          have hnear : |lifted'.value - y - (lifted.value - x)| < 2 * mPi := by
            have hle := abs_sub (lifted'.value - y) (lifted.value - x)
            linarith [hx.1, hy.1]
          have heq := eq_of_modEq hsame hnear
          have hlifted : lifted' = shiftSample (y - x) lifted := by
            have hstamp : lifted'.stamp = lifted.stamp :=
              hhead'.stamp.trans hhead.stamp.symm
            have hvalue : lifted'.value = lifted.value + (y - x) := by
              linear_combination -heq
            cases lifted'
            simp only at hstamp hvalue
            simp only [shiftSample, hstamp, hvalue]
          rw [List.map_cons, ← ih htail' hx.2 hy.2, hlifted]

theorem Narrow.eq_shift {samples first second : List (StampedValue K)}
    (hfirst : List.Forall₂ Lifts samples first)
    (hsecond : List.Forall₂ Lifts samples second) (hnarrow : Narrow first)
    (hnarrow' : Narrow second) :
    ∃ offset : K, offset ≡ 0 [PMOD 2 * mPi] ∧ second = first.map (shiftSample offset) := by
  cases samples with
  | nil =>
      cases hfirst
      cases hsecond
      exact ⟨0, AddCommGroup.modEq_rfl, rfl⟩
  | cons sample samples =>
      obtain ⟨base, rest, hbase, hrest, rfl⟩ := List.forall₂_cons_left_iff.mp hfirst
      obtain ⟨base', rest', hbase', hrest', rfl⟩ := List.forall₂_cons_left_iff.mp hsecond
      obtain ⟨low, high, hlength, hmem⟩ := hnarrow
      obtain ⟨low', high', hlength', hmem'⟩ := hnarrow'
      have hmod : base.value ≡ base'.value [PMOD 2 * mPi] :=
        hbase.value.symm.trans hbase'.value
      refine ⟨base'.value - base.value, ?_, ?_⟩
      · exact AddCommGroup.sub_modEq_zero.mpr hmod.symm
      · exact lifts_eq_of_near hmod hfirst hsecond
          (fun sample hsample =>
            abs_sub_lt_of_mem hlength (hmem sample hsample) (hmem base List.mem_cons_self))
          (fun sample hsample =>
            abs_sub_lt_of_mem hlength' (hmem' sample hsample)
              (hmem' base' List.mem_cons_self))

/-! ## Batch values of lifted samples -/

theorem intervals_shift (offset : K) (samples : List (StampedValue K)) :
    intervals (samples.map (shiftSample offset)) =
      WeightedMoments.shift offset (intervals samples) := by
  match samples with
  | [] => rfl
  | [_] => rfl
  | older :: newer :: rest =>
      have htail := intervals_shift offset (newer :: rest)
      rw [List.map_cons] at htail
      simp only [List.map_cons, intervals, WeightedMoments.shift, List.cons.injEq] at htail ⊢
      refine ⟨Prod.ext rfl ?_, htail⟩
      simp only [shiftSample]
      ring

theorem batch_shift (offset : K) {samples : List (StampedValue K)}
    (hchron : Chronological samples) (hne : samples ≠ []) :
    batchMean (samples.map (shiftSample offset)) = batchMean samples + offset ∧
      batchVariance (samples.map (shiftSample offset)) = batchVariance samples := by
  match samples with
  | [] => exact absurd rfl hne
  | [_] => exact ⟨rfl, rfl⟩
  | older :: newer :: rest =>
      have htotal := hchron.total_pos.ne'
      have hshift := intervals_shift offset (older :: newer :: rest)
      constructor
      · change WeightedMoments.mean
          (intervals ((older :: newer :: rest).map (shiftSample offset))) = _
        rw [hshift, WeightedMoments.mean_shift offset _ htotal]
        rfl
      · change WeightedMoments.variance
          (intervals ((older :: newer :: rest).map (shiftSample offset))) = _
        rw [hshift, WeightedMoments.variance_shift offset _ htotal]
        rfl

theorem half_sum_mem_Icc {low high x y : K} (hx : x ∈ Set.Icc low high)
    (hy : y ∈ Set.Icc low high) : (x + y) / 2 ∈ Set.Icc low high := by
  obtain ⟨hxlow, hxhigh⟩ := hx
  obtain ⟨hylow, hyhigh⟩ := hy
  constructor <;> linarith

theorem intervals_mem_Icc {low high : K} {samples : List (StampedValue K)}
    (hmem : ∀ sample ∈ samples, sample.value ∈ Set.Icc low high) :
    ∀ pair ∈ intervals samples, pair.2 ∈ Set.Icc low high := by
  match samples with
  | [] => simp [intervals]
  | [_] => simp
  | older :: newer :: rest =>
      rw [List.forall_mem_cons] at hmem
      rw [intervals, List.forall_mem_cons]
      exact ⟨half_sum_mem_Icc (hmem.2 newer List.mem_cons_self) hmem.1,
        intervals_mem_Icc hmem.2⟩

theorem batchMean_mem_Icc {low high : K} {samples : List (StampedValue K)}
    (hchron : Chronological samples) (hne : samples ≠ [])
    (hmem : ∀ sample ∈ samples, sample.value ∈ Set.Icc low high) :
    batchMean samples ∈ Set.Icc low high := by
  match samples with
  | [] => exact absurd rfl hne
  | [sample] => exact hmem sample List.mem_cons_self
  | older :: newer :: rest =>
      exact WeightedMoments.mean_mem_Icc
        (fun pair hpair => (hchron.interval_pos pair hpair).le) hchron.total_pos
        (intervals_mem_Icc hmem)

/-! ## Updates up to whole turns -/

/-- A quantity that is not wrapped. -/
def flat : Quantity := .ax

theorem flat_not_angular : flat.angular = false := rfl

structure SameMoments (stat flatStat : Statistic K) : Prop where
  mean : stat.mean ≡ flatStat.mean [PMOD 2 * mPi]
  variance : stat.variance = flatStat.variance

variable {quantity : Quantity}

theorem intervalAverage_modEq (hangular : quantity.angular = true) {x y u v : K}
    (hx : x ≡ u [PMOD 2 * mPi]) (hy : y ≡ v [PMOD 2 * mPi]) (hnear : |u - v| < mPi) :
    intervalAverage quantity x y ≡ intervalAverage flat u v [PMOD 2 * mPi] := by
  unfold intervalAverage
  rw [valueDiff_eq_sub hangular hx hy hnear, valueNorm_of_not_angular flat_not_angular,
    valueDiff_of_not_angular flat_not_angular]
  exact (valueNorm_modEq _ _).trans (hx.sub_right _)

theorem SameMoments.addInterval (hangular : quantity.angular = true)
    {stat flatStat : Statistic K} (hsame : SameMoments stat flatStat)
    {avg flatAvg : K} (havg : avg ≡ flatAvg [PMOD 2 * mPi]) (span interval : K)
    (hbefore : |flatAvg - flatStat.mean| < mPi)
    (hshift : |flatStat.mean - (flatStat.addInterval flat span interval flatAvg).mean| < mPi)
    (hafter : |flatAvg - (flatStat.addInterval flat span interval flatAvg).mean| < mPi) :
    SameMoments (stat.addInterval quantity span interval avg)
      (flatStat.addInterval flat span interval flatAvg) := by
  have hmean : (stat.addInterval quantity span interval avg).mean ≡
      (flatStat.addInterval flat span interval flatAvg).mean [PMOD 2 * mPi] := by
    simp only [Statistic.addInterval, valueNorm_of_not_angular flat_not_angular,
      valueDiff_of_not_angular flat_not_angular,
      valueDiff_eq_sub hangular havg hsame.mean hbefore]
    exact (valueNorm_modEq _ _).trans (hsame.mean.add_right _)
  have hshifted := valueDiff_eq_sub hangular hsame.mean hmean hshift
  have hdiff := valueDiff_eq_sub hangular havg hmean hafter
  refine ⟨hmean, ?_⟩
  simp only [Statistic.addInterval, valueNorm_of_not_angular flat_not_angular,
    valueDiff_of_not_angular flat_not_angular] at hshifted hdiff ⊢
  rw [hshifted, hdiff, hsame.variance]

theorem SameMoments.removeInterval (hangular : quantity.angular = true)
    {stat flatStat : Statistic K} (hsame : SameMoments stat flatStat)
    {avg flatAvg : K} (havg : avg ≡ flatAvg [PMOD 2 * mPi]) (span interval : K)
    (hbefore : |flatAvg - flatStat.mean| < mPi)
    (hshift :
      |flatStat.mean - (flatStat.removeInterval flat span interval flatAvg).mean| < mPi) :
    SameMoments (stat.removeInterval quantity span interval avg)
      (flatStat.removeInterval flat span interval flatAvg) := by
  have hmean : (stat.removeInterval quantity span interval avg).mean ≡
      (flatStat.removeInterval flat span interval flatAvg).mean [PMOD 2 * mPi] := by
    simp only [Statistic.removeInterval, valueNorm_of_not_angular flat_not_angular,
      valueDiff_of_not_angular flat_not_angular,
      valueDiff_eq_sub hangular havg hsame.mean hbefore]
    exact (valueNorm_modEq _ _).trans (hsame.mean.sub_right _)
  have hshifted := valueDiff_eq_sub hangular hsame.mean hmean hshift
  have hdiff := valueDiff_eq_sub hangular havg hsame.mean hbefore
  refine ⟨hmean, ?_⟩
  simp only [Statistic.removeInterval, valueNorm_of_not_angular flat_not_angular,
    valueDiff_of_not_angular flat_not_angular] at hshifted hdiff ⊢
  rw [hshifted, hdiff, hsame.variance]

theorem Tracks.mean_mem_Icc {low high : K} {samples : List (StampedValue K)}
    {stat : Statistic K} (htracks : Tracks samples stat) (hchron : Chronological samples)
    (hne : samples ≠ []) (hmem : ∀ sample ∈ samples, sample.value ∈ Set.Icc low high) :
    stat.mean ∈ Set.Icc low high :=
  htracks.mean ▸ batchMean_mem_Icc hchron hne hmem

theorem flatAverage_mem_Icc {low high x y : K} (hx : x ∈ Set.Icc low high)
    (hy : y ∈ Set.Icc low high) : intervalAverage flat x y ∈ Set.Icc low high := by
  rw [intervalAverage_of_not_angular flat_not_angular]
  exact half_sum_mem_Icc hx hy

theorem lifts_getLast {samples lifted : List (StampedValue K)}
    (hlifts : List.Forall₂ Lifts samples lifted) (hne : samples ≠ []) (hne' : lifted ≠ []) :
    Lifts (samples.getLast hne) (lifted.getLast hne') := by
  induction hlifts with
  | nil => exact absurd rfl hne
  | @cons sample lifted samples rest hhead htail ih =>
      cases htail with
      | nil => exact hhead
      | cons hnext hmore =>
          rw [List.getLast_cons (List.cons_ne_nil _ _), List.getLast_cons (List.cons_ne_nil _ _)]
          exact ih _ _

/-- The expired samples are dropped alike, and each reverse update is that of
the lifted samples. -/
theorem dropExpired_lift (period : K) {low high : K} (hlength : high - low < mPi)
    (value flatValue : StampedQuantity K) (hangular : value.quantity.angular = true)
    (hflat : flatValue.quantity = flat)
    (hvalue : Lifts value.toStampedValue flatValue.toStampedValue)
    {samples lifted : List (StampedValue K)} {stat flatStat : Statistic K}
    (hlifts : List.Forall₂ Lifts samples lifted)
    (hmem : ∀ sample ∈ lifted, sample.value ∈ Set.Icc low high)
    (hchron : Chronological lifted) (hsame : SameMoments stat flatStat)
    (htracks : Tracks lifted flatStat) :
    let result := dropExpired .exact period value samples stat
    let flatResult := dropExpired .exact period flatValue lifted flatStat
    List.Forall₂ Lifts result.1 flatResult.1 ∧ SameMoments result.2 flatResult.2 := by
  induction hlifts generalizing stat flatStat with
  | nil => exact ⟨.nil, hsame⟩
  | @cons popped flatPopped rest flatRest hpopped hrest ih =>
      have hexpired : Rounding.exact.round (value.stamp - popped.stamp) > period ↔
          Rounding.exact.round (flatValue.stamp - flatPopped.stamp) > period := by
        rw [hvalue.stamp, hpopped.stamp]
      by_cases hlate : Rounding.exact.round (value.stamp - popped.stamp) > period
      · have hflatLate := hexpired.mp hlate
        cases hrest with
        | nil =>
            simp only [dropExpired, if_pos hlate, if_pos hflatLate]
            exact ⟨.nil, hsame⟩
        | @cons front flatFront rest flatRest hfront hrest =>
            cases hrest with
            | nil =>
                simp only [dropExpired, if_pos hlate, if_pos hflatLate]
                exact ⟨.cons hfront .nil, hvalue.value, rfl⟩
            | @cons next flatNext tail flatTail hnext htail =>
                simp only [dropExpired, if_pos hlate, if_pos hflatLate]
                have hback := lifts_getLast (.cons hnext htail)
                  (List.cons_ne_nil next tail) (List.cons_ne_nil flatNext flatTail)
                have hrestMem := (List.forall_mem_cons.mp hmem).2
                have hpoppedMem := hmem flatPopped List.mem_cons_self
                have hfrontMem := hrestMem flatFront List.mem_cons_self
                have hrestChron := (List.pairwise_cons.mp hchron).2
                have havg := intervalAverage_modEq hangular hpopped.value hfront.value
                  (abs_sub_lt_of_mem hlength hpoppedMem hfrontMem)
                have hflatAvg := flatAverage_mem_Icc hpoppedMem hfrontMem
                have hreversed := htracks.removeInterval flat_not_angular hchron
                dsimp only at hreversed
                have hbefore := htracks.mean_mem_Icc hchron (List.cons_ne_nil _ _) hmem
                have hafter := hreversed.mean_mem_Icc hrestChron (List.cons_ne_nil _ _)
                  hrestMem
                have hremoved := hsame.removeInterval hangular havg _ _
                  (abs_sub_lt_of_mem hlength hflatAvg hbefore)
                  (abs_sub_lt_of_mem hlength hbefore hafter)
                rw [hback.stamp, hfront.stamp, hpopped.stamp] at hremoved hreversed
                rw [hflat, hback.stamp, hfront.stamp, hpopped.stamp]
                exact ih hrestMem hrestChron hremoved hreversed
      · have hflatLate := mt hexpired.mpr hlate
        rw [dropExpired.eq_def, dropExpired.eq_def .exact period flatValue]
        simp only [if_neg hlate, if_neg hflatLate]
        exact ⟨.cons hpopped hrest, hsame.mean, hsame.variance⟩

/-! ## Whole runs -/

/-- What list and statistic of one angular quantity are after some samples were
accepted. -/
structure FollowsLifts (period : K) (taken list : List (StampedValue K))
    (stat : Option (Statistic K)) : Prop where
  chronological : Chronological taken
  list_eq : list = window .exact period taken
  absent : taken = [] → stat = none
  present : taken ≠ [] → ∃ kept, stat = some kept ∧
    ∀ lifted, List.Forall₂ Lifts list lifted → Narrow lifted →
      kept.mean ≡ batchMean lifted [PMOD 2 * mPi] ∧
        kept.variance = batchVariance lifted

theorem lifts_chronological {samples lifted : List (StampedValue K)}
    (hlifts : List.Forall₂ Lifts samples lifted) (hchron : Chronological samples) :
    Chronological lifted := by
  have hstamps : lifted.map StampedValue.stamp = samples.map StampedValue.stamp := by
    induction hlifts with
    | nil => rfl
    | cons hhead htail ih =>
        rw [List.map_cons, List.map_cons, hhead.stamp,
          ih (List.pairwise_cons.mp hchron).2]
  have hpairs : (samples.map StampedValue.stamp).Pairwise (· < ·) :=
    List.pairwise_map.mpr hchron
  rw [← hstamps] at hpairs
  exact List.pairwise_map.mp hpairs

theorem batch_eq_of_lifts {samples first second : List (StampedValue K)}
    (hchron : Chronological samples) (hne : samples ≠ [])
    (hfirst : List.Forall₂ Lifts samples first)
    (hsecond : List.Forall₂ Lifts samples second) (hnarrow : Narrow first)
    (hnarrow' : Narrow second) :
    batchMean first ≡ batchMean second [PMOD 2 * mPi] ∧
      batchVariance first = batchVariance second := by
  have hneFirst : first ≠ [] := by
    rintro rfl
    cases hfirst
    exact hne rfl
  obtain ⟨offset, hoffset, rfl⟩ := hnarrow.eq_shift hfirst hsecond hnarrow'
  obtain ⟨hmean, hvariance⟩ :=
    batch_shift offset (lifts_chronological hfirst hchron) hneFirst
  rw [hmean, hvariance]
  refine ⟨?_, rfl⟩
  simpa using (hoffset.add_left (batchMean first)).symm

/-- The values which one lift of the window has are those of every lift. -/
theorem FollowsLifts.of_lift {period : K} {taken list lifted : List (StampedValue K)}
    {kept flatKept : Statistic K} (hchron : Chronological taken)
    (hlist : list = window .exact period taken) (hne : taken ≠ []) (hlistNe : list ≠ [])
    (hlistChron : Chronological list) (hlifts : List.Forall₂ Lifts list lifted)
    (hnarrow : Narrow lifted) (hsame : SameMoments kept flatKept)
    (htracks : Tracks lifted flatKept) : FollowsLifts period taken list (some kept) where
  chronological := hchron
  list_eq := hlist
  absent := fun h => absurd h hne
  present := by
    refine fun _ => ⟨kept, rfl, fun other hother hotherNarrow => ?_⟩
    obtain ⟨hmean, hvariance⟩ :=
      batch_eq_of_lifts hlistChron hlistNe hlifts hother hnarrow hotherNarrow
    rw [← htracks.mean] at hmean
    rw [← htracks.variance] at hvariance
    exact ⟨hsame.mean.trans hmean, hsame.variance.trans hvariance⟩

theorem narrow_dropExpired {period : K} (hperiod : 0 ≤ period)
    {value : StampedQuantity K} {samples : List (StampedValue K)}
    (hchron : Chronological samples)
    (hlast : samples.getLast? = some value.toStampedValue) (hnarrow : Narrow samples)
    (stat : Statistic K) : Narrow (dropExpired .exact period value samples stat).1 := by
  obtain ⟨low, high, hlength, hmem⟩ := hnarrow
  refine ⟨low, high, hlength, fun sample hsample => hmem sample ?_⟩
  rw [dropExpired_list hperiod hchron hlast] at hsample
  exact List.mem_of_mem_filter hsample

theorem lifts_concat {samples lifted : List (StampedValue K)} {sample : StampedValue K}
    (hlifts : List.Forall₂ Lifts (samples ++ [sample]) lifted) :
    ∃ first last, lifted = first ++ [last] ∧ List.Forall₂ Lifts samples first ∧
      Lifts sample last := by
  induction samples generalizing lifted with
  | nil =>
      cases hlifts with
      | @cons _ last _ _ hlast hnil =>
          cases hnil
          exact ⟨[], last, rfl, .nil, hlast⟩
  | cons head samples ih =>
      cases hlifts with
      | @cons _ lifted' _ _ hhead htail =>
          obtain ⟨first, last, rfl, hfirst, hlast⟩ := ih htail
          exact ⟨lifted' :: first, last, rfl, .cons hhead hfirst, hlast⟩

/-- The update with an accepted sample, followed on a lift of the window. -/
theorem Accepting.lift {period : K} (hperiod : 0 ≤ period)
    {value : StampedQuantity K} (hangular : value.quantity.angular = true)
    {taken : List (StampedValue K)} {kept : Statistic K} {front : StampedValue K}
    {rest : List (StampedValue K)}
    (haccepting : Accepting .exact period value taken kept front rest)
    (hmoments : ∀ lifted, List.Forall₂ Lifts (front :: rest) lifted → Narrow lifted →
      kept.mean ≡ batchMean lifted [PMOD 2 * mPi] ∧ kept.variance = batchVariance lifted)
    (hfits : FitsArc (front :: rest ++ [value.toStampedValue])) :
    let result := Statistics.insertSample .exact period value (front :: rest) kept
    ∃ lifted flatKept, List.Forall₂ Lifts result.1 lifted ∧ Narrow lifted ∧
      SameMoments result.2 flatKept ∧ Tracks lifted flatKept := by
  obtain ⟨lifted, hlifts, low, high, hlength, hmem⟩ := hfits
  have hallChron := lifts_chronological hlifts haccepting.chronological
  obtain ⟨first, last, rfl, hfirst, hlast⟩ := lifts_concat hlifts
  obtain ⟨flatFront, flatRest, hfront, hrest, rfl⟩ := List.forall₂_cons_left_iff.mp hfirst
  have hfirstMem : ∀ sample ∈ flatFront :: flatRest, sample.value ∈ Set.Icc low high :=
    fun sample hsample => hmem sample (List.mem_append_left _ hsample)
  have hfirstChron := (List.pairwise_append.mp hallChron).1
  obtain ⟨hmean, hvariance⟩ := hmoments _ hfirst ⟨low, high, hlength, hfirstMem⟩
  let flatKept : Statistic K :=
    { kept with
      mean := batchMean (flatFront :: flatRest)
      variance := batchVariance (flatFront :: flatRest) }
  have hsame : SameMoments kept flatKept := ⟨hmean, hvariance⟩
  have htracks : Tracks (flatFront :: flatRest) flatKept := ⟨rfl, rfl⟩
  have hback := lifts_getLast hfirst (List.cons_ne_nil front rest)
    (List.cons_ne_nil flatFront flatRest)
  have hbackMem := hfirstMem _ (List.getLast_mem (List.cons_ne_nil flatFront flatRest))
  have hlastMem := hmem last (List.mem_append_right _ (List.mem_singleton_self last))
  have hlater := haccepting.later
  rw [← hback.stamp, ← hlast.stamp] at hlater
  have hupdated := htracks.addInterval flat_not_angular hfirstChron last hlater
  dsimp only at hupdated
  have havg := intervalAverage_modEq hangular hlast.value hback.value
    (abs_sub_lt_of_mem hlength hlastMem hbackMem)
  have hflatAvg := flatAverage_mem_Icc hlastMem hbackMem
  have hbefore := htracks.mean_mem_Icc hfirstChron (List.cons_ne_nil _ _) hfirstMem
  have hafter := hupdated.mean_mem_Icc hallChron (by simp) hmem
  have hadded := hsame.addInterval hangular havg _ _
    (abs_sub_lt_of_mem hlength hflatAvg hbefore)
    (abs_sub_lt_of_mem hlength hbefore hafter)
    (abs_sub_lt_of_mem hlength hflatAvg hafter)
  rw [hback.stamp, hfront.stamp, hlast.stamp] at hadded hupdated
  obtain ⟨hresultLifts, hresultSame⟩ := dropExpired_lift period hlength value ⟨last, flat⟩
    hangular rfl hlast hlifts hmem hallChron hadded hupdated
  rw [haccepting.insert_eq]
  exact ⟨_, _, hresultLifts,
    narrow_dropExpired hperiod hallChron List.getLast?_concat ⟨low, high, hlength, hmem⟩ _,
    hresultSame,
    dropExpired_tracks hperiod flat_not_angular hallChron List.getLast?_concat hupdated⟩

/-- One call, when the window fits in an arc together with the new sample. -/
theorem FollowsLifts.insertSample {period : K} (hperiod : 0 ≤ period)
    {value : StampedQuantity K} (hangular : value.quantity.angular = true)
    {taken list : List (StampedValue K)} {stat : Option (Statistic K)}
    (hfollows : FollowsLifts period taken list stat)
    (hfits : accept taken value.toStampedValue = taken ++ [value.toStampedValue] →
      FitsArc (window .exact period taken ++ [value.toStampedValue])) :
    let result := Statistics.insertSample .exact period value list (stat.getD Statistic.zero)
    FollowsLifts period (accept taken value.toStampedValue) result.1 (some result.2) := by
  have hchron :=
    chronological_accept hfollows.chronological value.toStampedValue
  obtain rfl := hfollows.list_eq
  rcases insertSample_cases hperiod value hfollows.chronological
    (stat.getD Statistic.zero) with rfl | ⟨htaken, haccept, hinsert⟩ |
      ⟨front, rest, haccepting⟩
  · rw [insertSample_of_nil hperiod]
    have hwindow : window .exact period (accept [] value.toStampedValue) =
        [value.toStampedValue] := by simp [accept, window, hperiod]
    exact {
      chronological := hchron
      list_eq := rfl
      absent := fun h => absurd h (List.cons_ne_nil _ _)
      present := fun _ => ⟨_, rfl, by
        intro lifted hlifts _
        rw [hwindow] at hlifts
        obtain ⟨first, rest, hfirst, hrest, rfl⟩ := List.forall₂_cons_left_iff.mp hlifts
        cases hrest
        exact ⟨hfirst.value, rfl⟩⟩ }
  · obtain ⟨kept, hkept, hmoments⟩ := hfollows.present htaken
    rw [haccept, hinsert]
    exact {
      chronological := hfollows.chronological
      list_eq := rfl
      absent := fun h => absurd h htaken
      present := fun _ => ⟨kept, by rw [hkept, Option.getD_some], hmoments⟩ }
  · have hne : taken ≠ [] := by
      rintro rfl
      cases haccepting.window_eq
    obtain ⟨kept, hkept, hmoments⟩ := hfollows.present hne
    have harc := hfits haccepting.accept_eq
    have hlist := haccepting.list_eq hperiod hfollows.chronological
    rw [haccepting.accept_eq] at hchron ⊢
    rw [haccepting.window_eq] at hmoments harc ⊢
    rw [hkept, Option.getD_some] at haccepting hlist ⊢
    obtain ⟨lifted, flatKept, hlifts, hnarrow, hsame, htracks⟩ :=
      haccepting.lift hperiod hangular hmoments harc
    have hneAll : taken ++ [value.toStampedValue] ≠ [] := by simp
    refine .of_lift hchron hlist hneAll ?_ ?_ hlifts hnarrow hsame htracks
    · rw [hlist]
      exact window_ne_nil hperiod hneAll
    · rw [hlist]
      exact chronological_window period hchron

/-- Each sample that is accepted for a quantity fits in an arc shorter than half
a turn with the window before it. -/
def FitsThroughout (period : K) (quantity : Quantity)
    (samples : List (StampedQuantity K)) : Prop :=
  ∀ before value, before ++ [value] <+: samples → value.quantity = quantity →
    accept (accepted quantity before) value.toStampedValue =
        accepted quantity before ++ [value.toStampedValue] →
      FitsArc (window .exact period (accepted quantity before) ++ [value.toStampedValue])

theorem Statistics.followsLifts_insertValues {period : K} (hperiod : 0 ≤ period)
    {quantity : Quantity} (hangular : quantity.angular = true)
    {samples : List (StampedQuantity K)} (hfits : FitsThroughout period quantity samples) :
    FollowsLifts period (accepted quantity samples)
      (((fresh period).insertValues .exact samples).data quantity)
      (((fresh period).insertValues .exact samples).statistics quantity) := by
  induction samples using List.reverseRecOn with
  | nil =>
      exact {
        chronological := List.Pairwise.nil
        list_eq := rfl
        absent := fun _ => rfl
        present := fun h => absurd rfl h }
  | append_singleton samples value ih =>
      have hbefore := ih fun before value hstarts =>
        hfits before value (hstarts.trans (List.prefix_append _ _))
      obtain ⟨hother, hsame⟩ := insertValues_step .exact period samples value quantity
      rw [accepted_append_singleton]
      by_cases heq : value.quantity = quantity
      · obtain ⟨hdata, hstat⟩ := hsame heq
        rw [if_pos heq, hdata, hstat]
        exact hbefore.insertSample hperiod (heq ▸ hangular)
          (hfits samples value List.prefix_rfl heq)
      · obtain ⟨hdata, hstat⟩ := hother heq
        rw [if_neg heq, hdata, hstat]
        exact hbefore

/-! ## Signals that stay in one arc -/

theorem fitsArc_of_forall {low high : K} (hlength : high - low < mPi)
    {samples : List (StampedValue K)}
    (hlift : ∀ sample ∈ samples, ∃ lifted ∈ Set.Icc low high,
      sample.value ≡ lifted [PMOD 2 * mPi]) : FitsArc samples := by
  suffices hlifted : ∃ lifted, List.Forall₂ Lifts samples lifted ∧
      ∀ sample ∈ lifted, sample.value ∈ Set.Icc low high by
    obtain ⟨lifted, hlifts, hmem⟩ := hlifted
    exact ⟨lifted, hlifts, low, high, hlength, hmem⟩
  induction samples with
  | nil => exact ⟨[], .nil, by simp⟩
  | cons sample samples ih =>
      rw [List.forall_mem_cons] at hlift
      obtain ⟨value, hvalue, hmod⟩ := hlift.1
      obtain ⟨lifted, hlifts, hmem⟩ := ih hlift.2
      exact ⟨⟨value, sample.stamp⟩ :: lifted, .cons ⟨rfl, hmod⟩ hlifts,
        List.forall_mem_cons.mpr ⟨hvalue, hmem⟩⟩

theorem exists_of_mem_accepted {quantity : Quantity} {samples : List (StampedQuantity K)}
    {sample : StampedValue K} (hsample : sample ∈ accepted quantity samples) :
    ∃ value ∈ samples, value.quantity = quantity ∧ value.toStampedValue = sample := by
  induction samples using List.reverseRecOn with
  | nil => cases hsample
  | append_singleton samples value ih =>
      have hearlier : sample ∈ accepted quantity samples →
          ∃ other ∈ samples ++ [value], other.quantity = quantity ∧
            other.toStampedValue = sample := by
        intro hmem
        obtain ⟨other, hother, hrest⟩ := ih hmem
        exact ⟨other, List.mem_append_left _ hother, hrest⟩
      rw [accepted_append_singleton] at hsample
      split at hsample
      · next hquantity =>
        unfold accept at hsample
        split at hsample
        · rw [List.mem_singleton] at hsample
          exact ⟨value, by simp, hquantity, hsample.symm⟩
        · split at hsample
          · rcases List.mem_append.mp hsample with hmem | heq
            · exact hearlier hmem
            · rw [List.mem_singleton] at heq
              exact ⟨value, by simp, hquantity, heq.symm⟩
          · exact hearlier hsample
      · exact hearlier hsample

theorem mem_of_mem_window {period : K} {taken : List (StampedValue K)}
    {sample : StampedValue K} (hsample : sample ∈ window .exact period taken) : sample ∈ taken := by
  unfold window at hsample
  split at hsample
  · cases hsample
  · exact List.mem_of_mem_filter hsample

/-- Samples that all lie in one arc fit in it at every call. -/
theorem fitsThroughout_of_arc (period : K) {low high : K} (hlength : high - low < mPi)
    {quantity : Quantity} {samples : List (StampedQuantity K)}
    (hlift : ∀ sample ∈ samples, sample.quantity = quantity →
      ∃ lifted ∈ Set.Icc low high, sample.value ≡ lifted [PMOD 2 * mPi]) :
    FitsThroughout period quantity samples := by
  intro before value hstarts hquantity _
  refine fitsArc_of_forall hlength fun sample hsample => ?_
  rcases List.mem_append.mp hsample with hwindow | heq
  · obtain ⟨other, hother, hsame, rfl⟩ :=
      exists_of_mem_accepted (mem_of_mem_window hwindow)
    exact hlift other (hstarts.subset (List.mem_append_left _ hother)) hsame
  · rw [List.mem_singleton] at heq
    subst heq
    exact hlift value (hstarts.subset (by simp)) hquantity

/-- After each call the stored mean and variance of an angular quantity are, up
to whole turns of the mean, the batch values of any lift of its window. -/
theorem angularStatistics_eq_batch (period : K) (hperiod : 0 ≤ period)
    (quantity : Quantity) (hangular : quantity.angular = true)
    (samples : List (StampedQuantity K)) (hfits : FitsThroughout period quantity samples) :
    let stats := (Statistics.fresh period).insertValues .exact samples
    let inWindow := window .exact period (accepted quantity samples)
    stats.data quantity = inWindow ∧
      (inWindow = [] → stats.statistics quantity = none) ∧
      (inWindow ≠ [] → ∃ stat, stats.statistics quantity = some stat ∧
        ∀ lifted, List.Forall₂ Lifts inWindow lifted → Narrow lifted →
          stat.mean ≡ batchMean lifted [PMOD 2 * mPi] ∧
            stat.variance = batchVariance lifted) := by
  intro stats inWindow
  have hfollows := Statistics.followsLifts_insertValues hperiod hangular hfits
  refine ⟨hfollows.list_eq, ?_, ?_⟩
  · intro hnil
    by_cases htaken : accepted quantity samples = []
    · exact hfollows.absent htaken
    · exact absurd hnil (window_ne_nil hperiod htaken)
  · intro hne
    have htaken : accepted quantity samples ≠ [] := by
      intro hnil
      apply hne
      change window .exact period (accepted quantity samples) = []
      rw [hnil]
      rfl
    obtain ⟨kept, hkept, hmoments⟩ := hfollows.present htaken
    rw [hfollows.list_eq] at hmoments
    exact ⟨kept, hkept, hmoments⟩

/-- Three headings, the first of them west of north and the others east. -/
theorem angularStatistics_eq_batch_three :
    let samples : List (StampedQuantity ℚ) :=
      [⟨⟨2 * mPi - 1 / 4, 0⟩, .hdg⟩, ⟨⟨1 / 4, 1⟩, .hdg⟩, ⟨⟨3 / 4, 2⟩, .hdg⟩]
    ∃ stat, ((Statistics.fresh 2).insertValues .exact samples).statistics .hdg = some stat ∧
      stat.mean ≡ 1 / 4 [PMOD 2 * mPi] ∧ stat.variance = 1 / 16 := by
  intro samples
  have hmod : (2 * mPi - 1 / 4 : ℚ) ≡ -1 / 4 [PMOD 2 * mPi] := by
    refine AddCommGroup.modEq_iff_eq_add_zsmul.mpr ⟨-1, ?_⟩
    rw [neg_one_zsmul]
    ring
  have hlength : (3 / 4 - (-1 / 4) : ℚ) < mPi := by
    norm_num [mPi]
  have hfits : FitsThroughout 2 .hdg samples := by
    refine fitsThroughout_of_arc 2 hlength ?_
    simp only [samples, List.forall_mem_cons]
    refine ⟨fun _ => ⟨-1 / 4, ?_, hmod⟩, fun _ => ⟨1 / 4, ?_, AddCommGroup.modEq_rfl⟩,
      fun _ => ⟨3 / 4, ?_, AddCommGroup.modEq_rfl⟩, by simp⟩ <;>
      constructor <;> norm_num
  obtain ⟨-, -, hpresent⟩ :=
    angularStatistics_eq_batch 2 (by norm_num) .hdg rfl samples hfits
  have hwindow : window .exact 2 (accepted .hdg samples) =
      [⟨2 * mPi - 1 / 4, 0⟩, ⟨1 / 4, 1⟩, ⟨3 / 4, 2⟩] := by
    simp [samples, accepted, accept, window]
  rw [hwindow] at hpresent
  obtain ⟨stat, hstat, hmoments⟩ := hpresent (by simp)
  let lifted : List (StampedValue ℚ) := [⟨-1 / 4, 0⟩, ⟨1 / 4, 1⟩, ⟨3 / 4, 2⟩]
  have hlifts : List.Forall₂ Lifts
      [⟨2 * mPi - 1 / 4, 0⟩, ⟨1 / 4, 1⟩, ⟨3 / 4, 2⟩] lifted :=
    .cons ⟨rfl, hmod⟩ (.cons ⟨rfl, AddCommGroup.modEq_rfl⟩
      (.cons ⟨rfl, AddCommGroup.modEq_rfl⟩ .nil))
  have hnarrow : Narrow lifted := by
    refine ⟨-1 / 4, 3 / 4, hlength, ?_⟩
    simp only [lifted, List.forall_mem_cons, Set.mem_Icc]
    norm_num
  obtain ⟨hmean, hvariance⟩ := hmoments lifted hlifts hnarrow
  have hbatchMean : batchMean lifted = 1 / 4 := by
    norm_num [lifted, batchMean, intervals, WeightedMoments.mean]
  refine ⟨stat, hstat, hbatchMean ▸ hmean, hvariance.trans ?_⟩
  norm_num [lifted, batchVariance, intervals, WeightedMoments.variance,
    WeightedMoments.mean]

end SensorHub
