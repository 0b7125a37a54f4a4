import Mathlib.Data.List.MinMax
import SensorHub.ListRuns
import SensorHub.Statistics

/-!
# The acceleration history processor

`Acceleration_history::insert_value` evaluates a sample when the next one of its
axis arrives.  Samples above the threshold build up the current peak with a
running mean and mean square; the first sample which is not above it closes the
peak, and a peak that took long enough goes to the front of the history.

The second half proves that the history holds the last qualifying runs of the
samples that were evaluated, for a processor which watches one axis.  The square
root is a parameter.
-/

namespace SensorHub

variable {K : Type*}

structure AccelerationPeak (K : Type*) where
  start : K
  duration : K
  peak : K
  mean : K
  rms : K
  deriving DecidableEq, Repr

structure AccelerationHistory (K : Type*) where
  current : AccelerationPeak K
  peaks : List (AccelerationPeak K)
  valueThreshold : K
  durationThreshold : K
  itemCount : ℕ
  direction : ℕ
  fax : StampedValue K
  fay : StampedValue K
  faz : StampedValue K

namespace AccelerationHistory

def xDir : ℕ := 1
def yDir : ℕ := 2
def zDir : ℕ := 4

/-- `while (peaks.size() > item_count) peaks.pop_back()` -/
def trim (itemCount : ℕ) (peaks : List (AccelerationPeak K)) :
    List (AccelerationPeak K) :=
  if itemCount < peaks.length then trim itemCount peaks.dropLast else peaks
termination_by peaks.length
decreasing_by
  rw [List.length_dropLast]
  omega

variable [ExactDouble K]

def peakZero : AccelerationPeak K :=
  ⟨0, 0, 0, 0, 0⟩

def zero : StampedValue K :=
  ⟨0, 0⟩

def fresh (valueThreshold durationThreshold : K) (itemCount direction : ℕ) :
    AccelerationHistory K :=
  ⟨peakZero, [], valueThreshold, durationThreshold, itemCount, direction,
    zero, zero, zero⟩

def extendPeak (amp sqamp stamp : K) (current : AccelerationPeak K) :
    AccelerationPeak K :=
  if current.start = 0 then
    ⟨stamp, 0, amp, amp, sqamp⟩
  else
    let current :=
      if |amp| > |current.peak| then { current with peak := amp } else current
    let newDuration := stamp - current.start
    let interval := newDuration - current.duration
    if newDuration > 0 then
      { current with
        duration := newDuration
        mean := current.mean + (amp - current.mean) * interval / newDuration
        rms := current.rms + (sqamp - current.rms) * interval / newDuration }
    else
      current

def closePeak (sqrt : K → K) (history : AccelerationHistory K) :
    AccelerationHistory K :=
  if history.current.duration > history.durationThreshold then
    let current := { history.current with rms := sqrt history.current.rms }
    { history with
      peaks := trim history.itemCount (current :: history.peaks)
      current := peakZero }
  else
    { history with current := peakZero }

/-- Value and square of the sample, by the direction. -/
def amplitude (sqrt : K → K) (history : AccelerationHistory K) : K × K :=
  if history.direction = xDir then (history.fax.value, sqr history.fax.value)
  else if history.direction = yDir then
    (history.fay.value, sqr history.fay.value)
  else if history.direction = zDir then
    (history.faz.value, sqr history.faz.value)
  else
    let sqamp := sqr history.fax.value + sqr history.fay.value +
      sqr history.faz.value
    (sqrt sqamp, sqamp)

def evaluate (sqrt : K → K) (amp sqamp stamp : K)
    (history : AccelerationHistory K) : AccelerationHistory K :=
  if |amp| > history.valueThreshold then
    { history with current := extendPeak amp sqamp stamp history.current }
  else
    history.closePeak sqrt

def handleValue (sqrt : K → K) (history : AccelerationHistory K) :
    AccelerationHistory K :=
  let (amp, sqamp) := history.amplitude sqrt
  let stamp := max (max history.fax.stamp history.fay.stamp) history.faz.stamp
  { history.evaluate sqrt amp sqamp stamp with
    fax := zero, fay := zero, faz := zero }

def insertValue (sqrt : K → K) (history : AccelerationHistory K)
    (value : StampedQuantity K) : AccelerationHistory K :=
  if history.direction &&& xDir ≠ 0 ∧ value.quantity = .fax then
    let history :=
      if history.fax.stamp ≠ 0 then history.handleValue sqrt else history
    { history with fax := value.toStampedValue }
  else if history.direction &&& yDir ≠ 0 ∧ value.quantity = .fay then
    let history :=
      if history.fay.stamp ≠ 0 then history.handleValue sqrt else history
    { history with fay := value.toStampedValue }
  else if history.direction &&& zDir ≠ 0 ∧ value.quantity = .faz then
    let history :=
      if history.faz.stamp ≠ 0 then history.handleValue sqrt else history
    { history with faz := value.toStampedValue }
  else
    history

def insertValues (sqrt : K → K) (history : AccelerationHistory K)
    (values : List (StampedQuantity K)) : AccelerationHistory K :=
  values.foldl (insertValue sqrt) history

end AccelerationHistory

/-! ## Qualifying runs -/

section Runs

variable [ExactDouble K]

def notAbove (valueThreshold : K) (sample : StampedValue K) : Bool :=
  ¬|sample.value| > valueThreshold

def firstStamp : List (StampedValue K) → K
  | [] => 0
  | first :: _ => first.stamp

def lastStamp (run : List (StampedValue K)) : K :=
  (run.getLast?.map StampedValue.stamp).getD 0

def runDuration (run : List (StampedValue K)) : K :=
  lastStamp run - firstStamp run

/-- The value of the first sample with the largest absolute value. -/
def runPeak (run : List (StampedValue K)) : K :=
  ((run.argmax fun sample => |sample.value|).map StampedValue.value).getD 0

/-- The samples but the first, each with the time since the one before it. -/
def weightedSamples : List (StampedValue K) → List (K × K)
  | older :: newer :: rest =>
      (newer.stamp - older.stamp, newer.value) :: weightedSamples (newer :: rest)
  | _ => []

/-- Mean of an observable of the samples over the duration of a run. -/
def runMean (observable : K → K) (run : List (StampedValue K)) : K :=
  WeightedMoments.moment observable (weightedSamples run) / runDuration run

/-- The runs which have ended and lasted longer than the threshold. -/
def qualifyingRuns (valueThreshold durationThreshold : K)
    (samples : List (StampedValue K)) : List (List (StampedValue K)) :=
  (ListRuns.closedRuns (notAbove valueThreshold) samples).filter fun run =>
    runDuration run > durationThreshold

/-- The record of a qualifying run. -/
def runRecord (sqrt : K → K) (run : List (StampedValue K)) :
    AccelerationPeak K where
  start := firstStamp run
  duration := runDuration run
  peak := runPeak run
  mean := runMean id run
  rms := sqrt (runMean sqr run)

/-! ## Growing runs -/

@[simp] theorem lastStamp_append (run : List (StampedValue K))
    (sample : StampedValue K) : lastStamp (run ++ [sample]) = sample.stamp := by
  simp [lastStamp]

theorem firstStamp_append {run : List (StampedValue K)} (hrun : run ≠ [])
    (sample : StampedValue K) :
    firstStamp (run ++ [sample]) = firstStamp run := by
  cases run with
  | nil => exact absurd rfl hrun
  | cons first rest => rfl

theorem runDuration_append {run : List (StampedValue K)} (hrun : run ≠ [])
    (sample : StampedValue K) :
    runDuration (run ++ [sample]) = sample.stamp - firstStamp run := by
  rw [runDuration, lastStamp_append, firstStamp_append hrun]

theorem runPeak_append {run : List (StampedValue K)} (hrun : run ≠ [])
    (sample : StampedValue K) :
    runPeak (run ++ [sample]) =
      if |sample.value| > |runPeak run| then sample.value else runPeak run := by
  unfold runPeak
  rw [List.argmax_concat]
  cases hpeak : run.argmax fun sample => |sample.value| with
  | none => exact absurd (List.argmax_eq_none.mp hpeak) hrun
  | some peak =>
      by_cases hlarger : |peak.value| < |sample.value| <;> simp [hlarger]

theorem weightedSamples_append {run : List (StampedValue K)} (hrun : run ≠ [])
    (sample : StampedValue K) :
    weightedSamples (run ++ [sample]) =
      weightedSamples run ++ [(sample.stamp - lastStamp run, sample.value)] := by
  induction run with
  | nil => exact absurd rfl hrun
  | cons first rest ih =>
      cases rest with
      | nil => rfl
      | cons next rest =>
          have htail := ih (List.cons_ne_nil next rest)
          simp only [List.cons_append, weightedSamples] at htail ⊢
          rw [htail]
          simp [lastStamp]

theorem runDuration_append_pos {run : List (StampedValue K)} (hrun : run ≠ [])
    {sample : StampedValue K} (hchron : Chronological (run ++ [sample])) :
    0 < runDuration (run ++ [sample]) := by
  rw [runDuration_append hrun, sub_pos]
  cases run with
  | nil => exact absurd rfl hrun
  | cons first rest =>
      apply (List.pairwise_cons.mp hchron).1
      simp

/-- The running mean of an open run: the mean over its duration, or the value
itself while there is only one. -/
def openMean (observable : K → K) : List (StampedValue K) → K
  | [only] => observable only.value
  | run => runMean observable run

theorem openMean_eq_runMean (observable : K → K) {run : List (StampedValue K)}
    (hrun : run ≠ []) (sample : StampedValue K) :
    openMean observable (run ++ [sample]) = runMean observable (run ++ [sample]) := by
  cases run with
  | nil => exact absurd rfl hrun
  | cons first rest => cases rest <;> rfl

theorem openMean_mul (observable : K → K) {run : List (StampedValue K)}
    (hchron : Chronological run) :
    openMean observable run * runDuration run =
      WeightedMoments.moment observable (weightedSamples run) := by
  rcases List.eq_nil_or_concat' run with rfl | ⟨before, sample, rfl⟩
  · simp [openMean, runMean, weightedSamples]
  · by_cases hbefore : before = []
    · subst hbefore
      simp [runDuration, lastStamp, firstStamp, weightedSamples]
    · have hpos := runDuration_append_pos hbefore hchron
      rw [openMean_eq_runMean observable hbefore, runMean,
        div_mul_cancel₀ _ hpos.ne']

theorem openMean_append (observable : K → K) {run : List (StampedValue K)}
    (hrun : run ≠ []) {sample : StampedValue K}
    (hchron : Chronological (run ++ [sample])) :
    openMean observable (run ++ [sample]) =
      openMean observable run +
        (observable sample.value - openMean observable run) *
          (runDuration (run ++ [sample]) - runDuration run) /
            runDuration (run ++ [sample]) := by
  have hpos := runDuration_append_pos hrun hchron
  have hmul := openMean_mul observable (List.pairwise_append.mp hchron).1
  have hinterval : runDuration (run ++ [sample]) - runDuration run =
      sample.stamp - lastStamp run := by
    rw [runDuration_append hrun, runDuration]
    ring
  have hmoment :
      WeightedMoments.moment observable (weightedSamples (run ++ [sample])) =
        openMean observable run * runDuration run +
          observable sample.value *
            (runDuration (run ++ [sample]) - runDuration run) := by
    rw [weightedSamples_append hrun, WeightedMoments.moment_append, hmul, hinterval]
    simp
  rw [openMean_eq_runMean observable hrun, runMean, hmoment]
  field_simp
  ring

/-- The peak that is built up while a run is open. -/
def openPeak (run : List (StampedValue K)) : AccelerationPeak K :=
  if run = [] then AccelerationHistory.peakZero
  else ⟨firstStamp run, runDuration run, runPeak run, openMean id run,
    openMean sqr run⟩

theorem extendPeak_of_started {current : AccelerationPeak K}
    (hstart : current.start ≠ 0) {stamp : K} (hlater : current.start < stamp)
    (amp sqamp : K) :
    AccelerationHistory.extendPeak amp sqamp stamp current =
      ⟨current.start, stamp - current.start,
        if |amp| > |current.peak| then amp else current.peak,
        current.mean + (amp - current.mean) *
          (stamp - current.start - current.duration) / (stamp - current.start),
        current.rms + (sqamp - current.rms) *
          (stamp - current.start - current.duration) / (stamp - current.start)⟩ := by
  have hpos : stamp - current.start > 0 := sub_pos.mpr hlater
  unfold AccelerationHistory.extendPeak
  rw [if_neg hstart]
  by_cases hpeak : |amp| > |current.peak|
  · simp only [if_pos hpeak, if_pos hpos]
  · simp only [if_neg hpeak, if_pos hpos]

theorem openPeak_append {run : List (StampedValue K)}
    {sample : StampedValue K} (hchron : Chronological (run ++ [sample]))
    (hpositive : ∀ other ∈ run, 0 < other.stamp) :
    openPeak (run ++ [sample]) =
      AccelerationHistory.extendPeak sample.value (sqr sample.value)
        sample.stamp (openPeak run) := by
  unfold openPeak
  rw [if_neg (List.append_ne_nil_of_right_ne_nil run (List.cons_ne_nil sample []))]
  by_cases hrun : run = []
  · subst hrun
    simp [AccelerationHistory.extendPeak, AccelerationHistory.peakZero,
      firstStamp, runDuration, lastStamp, runPeak, openMean]
  · have hstart : firstStamp run ≠ 0 := by
      cases run with
      | nil => exact absurd rfl hrun
      | cons first rest => exact (hpositive first List.mem_cons_self).ne'
    have hpos := runDuration_append_pos hrun hchron
    have hduration := runDuration_append hrun sample
    rw [hduration, sub_pos] at hpos
    rw [if_neg hrun, extendPeak_of_started hstart hpos, ← hduration,
      firstStamp_append hrun, runPeak_append hrun, openMean_append id hrun hchron,
      openMean_append sqr hrun hchron]
    rfl

/-! ## The history of one axis -/

namespace AccelerationHistory

omit [ExactDouble K] in
theorem trim_eq_take (itemCount : ℕ) (peaks : List (AccelerationPeak K)) :
    trim itemCount peaks = peaks.take itemCount := by
  induction peaks using List.reverseRecOn with
  | nil => simp [trim]
  | append_singleton peaks peak ih =>
      unfold trim
      split
      · next hlonger =>
          rw [List.dropLast_concat, ih, List.take_append_of_le_length]
          rw [List.length_append, List.length_singleton] at hlonger
          omega
      · next hshort => rw [List.take_of_length_le (not_lt.mp hshort)]

inductive Axis where
  | x
  | y
  | z

namespace Axis

def direction : Axis → ℕ
  | x => xDir
  | y => yDir
  | z => zDir

def quantity : Axis → Quantity
  | x => .fax
  | y => .fay
  | z => .faz

def place (axis : Axis) (sample : StampedValue K)
    (history : AccelerationHistory K) : AccelerationHistory K :=
  match axis with
  | x => { history with fax := sample }
  | y => { history with fay := sample }
  | z => { history with faz := sample }

end Axis

structure Clear (history : AccelerationHistory K) : Prop where
  fax : history.fax = zero
  fay : history.fay = zero
  faz : history.faz = zero

/-- Evaluation of a sample of the only axis. -/
def handleSample (sqrt : K → K) (history : AccelerationHistory K)
    (sample : StampedValue K) : AccelerationHistory K :=
  history.evaluate sqrt sample.value (sqr sample.value) sample.stamp

structure SameParameters (history history' : AccelerationHistory K) : Prop where
  valueThreshold : history'.valueThreshold = history.valueThreshold
  durationThreshold : history'.durationThreshold = history.durationThreshold
  itemCount : history'.itemCount = history.itemCount
  direction : history'.direction = history.direction

theorem sameParameters_handleSample (sqrt : K → K)
    (history : AccelerationHistory K) (sample : StampedValue K) :
    history.SameParameters (history.handleSample sqrt sample) := by
  unfold handleSample evaluate closePeak
  split_ifs <;> exact ⟨rfl, rfl, rfl, rfl⟩

theorem clear_handleSample (sqrt : K → K) {history : AccelerationHistory K}
    (hclear : history.Clear) (sample : StampedValue K) :
    (history.handleSample sqrt sample).Clear := by
  unfold handleSample evaluate closePeak
  split_ifs <;> exact ⟨hclear.fax, hclear.fay, hclear.faz⟩

theorem Clear.eq_cleared {history : AccelerationHistory K}
    (hclear : history.Clear) :
    { history with fax := zero, fay := zero, faz := zero } = history := by
  rcases history
  obtain ⟨rfl, rfl, rfl⟩ := hclear
  rfl

theorem cleared_evaluate_place (sqrt : K → K) (amp sqamp stamp : K)
    (history : AccelerationHistory K) (axis : Axis) (sample : StampedValue K) :
    { (axis.place sample history).evaluate sqrt amp sqamp stamp with
      fax := zero, fay := zero, faz := zero } =
    { history.evaluate sqrt amp sqamp stamp with
      fax := zero, fay := zero, faz := zero } := by
  unfold evaluate closePeak
  by_cases habove : |amp| > history.valueThreshold <;>
    by_cases hlong : history.current.duration > history.durationThreshold <;>
      cases axis <;> simp [Axis.place, habove, hlong]

theorem handleValue_place (sqrt : K → K) {history : AccelerationHistory K}
    (hclear : history.Clear) {axis : Axis}
    (haxis : history.direction = axis.direction) {sample : StampedValue K}
    (hpositive : 0 < sample.stamp) :
    (axis.place sample history).handleValue sqrt =
      history.handleSample sqrt sample := by
  have hamplitude : (axis.place sample history).amplitude sqrt =
      (sample.value, sqr sample.value) := by
    unfold amplitude
    cases axis <;>
      simp [Axis.place, haxis, Axis.direction, xDir, yDir, zDir]
  have hmax : max (max (axis.place sample history).fax.stamp
      (axis.place sample history).fay.stamp)
      (axis.place sample history).faz.stamp = sample.stamp := by
    cases axis <;>
      simp [Axis.place, hclear.fax, hclear.fay, hclear.faz, zero, hpositive.le]
  unfold handleValue
  rw [hamplitude, hmax, ← (clear_handleSample sqrt hclear sample).eq_cleared]
  exact cleared_evaluate_place sqrt _ _ _ history axis sample

theorem insertValue_clear (sqrt : K → K) {history : AccelerationHistory K}
    (hclear : history.Clear) {axis : Axis}
    (haxis : history.direction = axis.direction) (sample : StampedValue K) :
    history.insertValue sqrt ⟨sample, axis.quantity⟩ =
      axis.place sample history := by
  unfold insertValue
  cases axis <;>
    simp [haxis, Axis.direction, Axis.quantity, Axis.place, xDir, yDir, zDir,
      hclear.fax, hclear.fay, hclear.faz, zero]

theorem insertValue_place (sqrt : K → K) {history : AccelerationHistory K}
    (hclear : history.Clear) {axis : Axis}
    (haxis : history.direction = axis.direction) {sample : StampedValue K}
    (hpositive : 0 < sample.stamp) (next : StampedValue K) :
    (axis.place sample history).insertValue sqrt ⟨next, axis.quantity⟩ =
      axis.place next (history.handleSample sqrt sample) := by
  rw [← handleValue_place sqrt hclear haxis hpositive]
  unfold insertValue
  cases axis <;>
    simp [haxis, Axis.direction, Axis.quantity, Axis.place, xDir, yDir, zDir,
      hpositive.ne']

theorem foldl_handleSample (sqrt : K → K) {history : AccelerationHistory K}
    (hclear : history.Clear) (samples : List (StampedValue K)) :
    (samples.foldl (handleSample sqrt) history).Clear ∧
      history.SameParameters (samples.foldl (handleSample sqrt) history) := by
  induction samples generalizing history with
  | nil => exact ⟨hclear, rfl, rfl, rfl, rfl⟩
  | cons sample samples ih =>
      have hfirst := sameParameters_handleSample sqrt history sample
      obtain ⟨hclear', hmore⟩ := ih (clear_handleSample sqrt hclear sample)
      exact ⟨hclear', hmore.valueThreshold.trans hfirst.valueThreshold,
        hmore.durationThreshold.trans hfirst.durationThreshold,
        hmore.itemCount.trans hfirst.itemCount,
        hmore.direction.trans hfirst.direction⟩

/-- All samples but the last one have been evaluated. -/
theorem insertValues_append (sqrt : K → K) {axis : Axis}
    {history : AccelerationHistory K} (hclear : history.Clear)
    (haxis : history.direction = axis.direction)
    (samples : List (StampedValue K)) (last : StampedValue K)
    (hpositive : ∀ sample ∈ samples, 0 < sample.stamp) :
    history.insertValues sqrt
        ((samples ++ [last]).map fun sample => ⟨sample, axis.quantity⟩) =
      axis.place last (samples.foldl (handleSample sqrt) history) := by
  induction samples using List.reverseRecOn generalizing last with
  | nil => exact insertValue_clear sqrt hclear haxis last
  | append_singleton samples sample ih =>
      obtain ⟨hbefore, hsample⟩ := List.forall_mem_append.mp hpositive
      obtain ⟨hclear', hsame⟩ := foldl_handleSample sqrt hclear samples
      have hinserted := ih sample hbefore
      unfold insertValues at hinserted ⊢
      rw [List.map_append, List.foldl_append, hinserted, List.foldl_append]
      exact insertValue_place sqrt hclear' (hsame.direction.trans haxis)
        (hsample sample List.mem_cons_self) last

/-- What the processor keeps of the samples it has evaluated. -/
structure Follows (sqrt : K → K) (history : AccelerationHistory K)
    (samples : List (StampedValue K)) : Prop where
  current : history.current =
    openPeak (ListRuns.openRun (notAbove history.valueThreshold) samples)
  peaks : history.peaks =
    ((qualifyingRuns history.valueThreshold history.durationThreshold
      samples).map (runRecord sqrt)).reverse.take history.itemCount

theorem openPeak_duration (run : List (StampedValue K)) :
    (openPeak run).duration = runDuration run := by
  unfold openPeak
  split
  · next hrun => simp [hrun, peakZero, runDuration, lastStamp, firstStamp]
  · rfl

/-- A run that has lasted has the means of its record. -/
theorem openPeak_eq_runRecord (sqrt : K → K) {run : List (StampedValue K)}
    (hlong : 0 < runDuration run) :
    { openPeak run with rms := sqrt (openPeak run).rms } = runRecord sqrt run := by
  rcases List.eq_nil_or_concat' run with rfl | ⟨before, sample, rfl⟩
  · simp [runDuration, lastStamp, firstStamp] at hlong
  · by_cases hbefore : before = []
    · subst hbefore
      simp [runDuration, lastStamp, firstStamp] at hlong
    · unfold openPeak
      rw [if_neg (List.append_ne_nil_of_left_ne_nil hbefore [sample]),
        openMean_eq_runMean id hbefore, openMean_eq_runMean sqr hbefore]
      rfl

theorem Follows.handleSample_above {sqrt : K → K}
    {history : AccelerationHistory K} {samples : List (StampedValue K)}
    (hfollows : Follows sqrt history samples) {sample : StampedValue K}
    (habove : |sample.value| > history.valueThreshold)
    (hchron : Chronological (samples ++ [sample]))
    (hpositive : ∀ other ∈ samples, 0 < other.stamp) :
    Follows sqrt (history.handleSample sqrt sample) (samples ++ [sample]) := by
  have hseparates : notAbove history.valueThreshold sample = false := by
    simp [notAbove, habove]
  have hsuffix :=
    ListRuns.openRun_suffix (notAbove history.valueThreshold) samples
  have hopen : Chronological
      (ListRuns.openRun (notAbove history.valueThreshold) samples ++ [sample]) :=
    hchron.sublist (hsuffix.sublist.append (List.Sublist.refl [sample]))
  unfold handleSample evaluate
  rw [if_pos habove]
  constructor
  · simp only [hfollows.current, ListRuns.openRun_append hseparates]
    exact (openPeak_append hopen fun other hother =>
      hpositive other (hsuffix.mem hother)).symm
  · unfold qualifyingRuns
    simp only [ListRuns.closedRuns_append hseparates]
    exact hfollows.peaks

omit [ExactDouble K] in
theorem take_cons_take (count : ℕ) (peak : AccelerationPeak K)
    (peaks : List (AccelerationPeak K)) :
    (peak :: peaks.take count).take count = (peak :: peaks).take count := by
  cases count with
  | zero => rfl
  | succ count => rw [List.take_succ_cons, List.take_succ_cons, List.take_take,
      min_eq_left (Nat.le_succ count)]

theorem Follows.handleSample_not_above {sqrt : K → K}
    {history : AccelerationHistory K} {samples : List (StampedValue K)}
    (hfollows : Follows sqrt history samples)
    (hduration : 0 ≤ history.durationThreshold) {sample : StampedValue K}
    (habove : ¬|sample.value| > history.valueThreshold) :
    Follows sqrt (history.handleSample sqrt sample) (samples ++ [sample]) := by
  have hseparates : notAbove history.valueThreshold sample = true := by
    simp [notAbove, habove]
  have hlasted : history.current.duration = runDuration
      (ListRuns.openRun (notAbove history.valueThreshold) samples) := by
    rw [hfollows.current, openPeak_duration]
  have hempty : openPeak ([] : List (StampedValue K)) = peakZero := rfl
  unfold handleSample evaluate closePeak
  rw [if_neg habove]
  by_cases hlong : history.current.duration > history.durationThreshold
  · rw [if_pos hlong]
    rw [hlasted] at hlong
    have hrun : ListRuns.openRun (notAbove history.valueThreshold) samples ≠ [] := by
      intro hnil
      rw [hnil] at hlong
      simp [runDuration, lastStamp, firstStamp] at hlong
      linarith
    have hrecord := openPeak_eq_runRecord sqrt (hduration.trans_lt hlong)
    rw [← hfollows.current] at hrecord
    constructor
    · simp only [ListRuns.openRun_append_of_separates hseparates, hempty]
    · unfold qualifyingRuns
      simp only [ListRuns.closedRuns_append_of_separates hseparates,
        List.filter_append, List.map_append, List.reverse_append]
      rw [trim_eq_take, hrecord, hfollows.peaks, take_cons_take]
      simp [hrun, hlong, qualifyingRuns]
  · rw [if_neg hlong]
    rw [hlasted] at hlong
    constructor
    · simp only [ListRuns.openRun_append_of_separates hseparates, hempty]
    · unfold qualifyingRuns
      simp only [ListRuns.closedRuns_append_of_separates hseparates,
        List.filter_append, List.map_append, List.reverse_append]
      rw [hfollows.peaks]
      simp [hlong, qualifyingRuns, List.filter_filter]

theorem clear_fresh (valueThreshold durationThreshold : K)
    (itemCount direction : ℕ) :
    (fresh valueThreshold durationThreshold itemCount direction).Clear :=
  ⟨rfl, rfl, rfl⟩

theorem follows_foldl (sqrt : K → K) (valueThreshold : K) {durationThreshold : K}
    (hduration : 0 ≤ durationThreshold) (itemCount direction : ℕ)
    {samples : List (StampedValue K)} (hchron : Chronological samples)
    (hpositive : ∀ sample ∈ samples, 0 < sample.stamp) :
    Follows sqrt (samples.foldl (handleSample sqrt)
      (fresh valueThreshold durationThreshold itemCount direction)) samples := by
  induction samples using List.reverseRecOn with
  | nil => exact ⟨rfl, by simp [fresh, qualifyingRuns]⟩
  | append_singleton samples sample ih =>
      have hbefore := (List.forall_mem_append.mp hpositive).1
      have hfollows := ih (List.pairwise_append.mp hchron).1 hbefore
      obtain ⟨-, hsame⟩ := foldl_handleSample sqrt
        (clear_fresh valueThreshold durationThreshold itemCount direction) samples
      rw [List.foldl_append]
      by_cases habove : |sample.value| > valueThreshold
      · apply hfollows.handleSample_above _ hchron hbefore
        rwa [hsame.valueThreshold]
      · apply hfollows.handleSample_not_above
        · rwa [hsame.durationThreshold]
        · rwa [hsame.valueThreshold]

/-- After each sample the history holds the records of the last qualifying runs
of the samples before it, newest first. -/
theorem peaks_eq_qualifyingRuns (sqrt : K → K) (axis : Axis)
    (valueThreshold durationThreshold : K) (hduration : 0 ≤ durationThreshold)
    (itemCount : ℕ) (samples : List (StampedValue K))
    (hchron : Chronological samples)
    (hpositive : ∀ sample ∈ samples, 0 < sample.stamp) :
    ((fresh valueThreshold durationThreshold itemCount axis.direction).insertValues
        sqrt (samples.map fun sample => ⟨sample, axis.quantity⟩)).peaks =
      ((qualifyingRuns valueThreshold durationThreshold samples.dropLast).map
        (runRecord sqrt)).reverse.take itemCount := by
  rcases List.eq_nil_or_concat' samples with rfl | ⟨before, last, rfl⟩
  · simp [insertValues, fresh, qualifyingRuns]
  · have hbefore := (List.forall_mem_append.mp hpositive).1
    have hclear := clear_fresh valueThreshold durationThreshold itemCount
      axis.direction
    have hfollows := follows_foldl sqrt valueThreshold hduration itemCount
      axis.direction (List.pairwise_append.mp hchron).1 hbefore
    obtain ⟨-, hsame⟩ := foldl_handleSample sqrt hclear before
    have hpeaks := hfollows.peaks
    rw [hsame.valueThreshold, hsame.durationThreshold, hsame.itemCount] at hpeaks
    rw [insertValues_append sqrt hclear rfl before last hbefore,
      List.dropLast_concat]
    refine Eq.trans ?_ hpeaks
    cases axis <;> rfl

/-- The square root of a fraction of squares. -/
def rootOfSquares (value : ℚ) : ℚ :=
  mkRat value.num.toNat.sqrt value.den.sqrt

/-- A run of three samples, and one too short, of the `y` axis. -/
theorem peaks_eq_qualifyingRuns_two :
    ((fresh 1 (1 / 2) 10 yDir).insertValues rootOfSquares
        [⟨⟨2, 1⟩, .fay⟩, ⟨⟨4, 2⟩, .fay⟩, ⟨⟨-4, 3⟩, .fay⟩, ⟨⟨0, 4⟩, .fay⟩,
          ⟨⟨3, 5⟩, .fay⟩, ⟨⟨0, 6⟩, .fay⟩, ⟨⟨0, 7⟩, .fay⟩]).peaks =
      [(⟨1, 2, 4, 0, 4⟩ : AccelerationPeak ℚ)] := by
  have hpeaks := peaks_eq_qualifyingRuns rootOfSquares .y 1 (1 / 2) (by norm_num) 10
    [⟨2, 1⟩, ⟨4, 2⟩, ⟨-4, 3⟩, ⟨0, 4⟩, ⟨3, 5⟩, ⟨0, 6⟩, ⟨0, 7⟩]
    (by simp [Chronological]; norm_num) (by simp)
  refine Eq.trans hpeaks ?_
  decide +kernel

end AccelerationHistory

end Runs

end SensorHub
