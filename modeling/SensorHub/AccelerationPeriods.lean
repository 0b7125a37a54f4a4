import SensorHub.ProcessorOutput

/-!
# Periods in the acceleration history

Samples of several axes are collected until an axis that has a sample gets the
next one; what was collected is then evaluated at its latest stamp.  With stamps
that do not decrease the evaluations move forward in time, so the recorded peaks
are separate periods, the newest first.
-/

namespace SensorHub

variable {K : Type*} [ExactDouble K]

open JsonEvents Modbus

def AccelerationPeak.finish (peak : AccelerationPeak K) : K :=
  peak.start + peak.duration

namespace AccelerationHistory

/-- A sample that is waiting came after the last evaluation. -/
def Waiting (handled now : K) (sample : StampedValue K) : Prop :=
  sample.stamp = 0 ∨ 0 < sample.stamp ∧ handled ≤ sample.stamp ∧ sample.stamp ≤ now

/-- The records are separate periods up to the last evaluation. -/
structure Recorded (history : AccelerationHistory K) (handled : K) : Prop where
  count : history.peaks.length ≤ history.itemCount
  separate : history.peaks.Pairwise fun newer older => older.finish ≤ newer.start
  past : ∀ peak ∈ history.peaks, peak.finish ≤ handled
  start_pos : ∀ peak ∈ history.peaks, 0 < peak.start
  long : ∀ peak ∈ history.peaks, history.durationThreshold < peak.duration
  high : ∀ peak ∈ history.peaks, history.valueThreshold < |peak.peak|

/-- A peak that has begun, after all records. -/
structure Growing (history : AccelerationHistory K) (handled : K) : Prop where
  start_pos : 0 < history.current.start
  past : history.current.finish ≤ handled
  high : history.valueThreshold < |history.current.peak|
  after : ∀ peak ∈ history.peaks, peak.finish ≤ history.current.start

structure Orderly (history : AccelerationHistory K) (handled now : K) : Prop where
  handled_le : handled ≤ now
  duration_nonneg : 0 ≤ history.durationThreshold
  recorded : history.Recorded handled
  current : history.current = peakZero ∨ history.Growing handled
  fax : Waiting handled now history.fax
  fay : Waiting handled now history.fay
  faz : Waiting handled now history.faz

theorem orderly_fresh {durationThreshold : K} (hduration : 0 ≤ durationThreshold)
    (valueThreshold : K) (itemCount direction : ℕ) :
    (fresh valueThreshold durationThreshold itemCount direction).Orderly 0 0 where
  handled_le := le_rfl
  duration_nonneg := hduration
  recorded := by constructor <;> simp [fresh]
  current := Or.inl rfl
  fax := Or.inl rfl
  fay := Or.inl rfl
  faz := Or.inl rfl

/-! ## One evaluation -/

theorem Recorded.later {history : AccelerationHistory K} {handled stamp : K}
    (hrecorded : history.Recorded handled) (hstamp : handled ≤ stamp) :
    history.Recorded stamp :=
  { hrecorded with past := fun peak hpeak => (hrecorded.past peak hpeak).trans hstamp }

/-- The peak begins or goes on. -/
theorem Orderly.growing {history : AccelerationHistory K} {handled now stamp amp : K}
    (horderly : history.Orderly handled now) (hstamp : handled ≤ stamp) (hpos : 0 < stamp)
    (hhigh : history.valueThreshold < |amp|) (sqamp : K) :
    { history with current := extendPeak amp sqamp stamp history.current }.Growing stamp := by
  have hpast := horderly.recorded.past
  rcases horderly.current with hzero | hgrowing
  · have hextend : extendPeak amp sqamp stamp history.current = ⟨stamp, 0, amp, amp, sqamp⟩ := by
      rw [hzero, extendPeak]
      exact if_pos rfl
    refine ⟨?_, ?_, ?_, ?_⟩
    · rw [hextend]
      exact hpos
    · rw [hextend, AccelerationPeak.finish, add_zero]
    · rw [hextend]
      exact hhigh
    · intro peak hpeak
      rw [hextend]
      exact (hpast peak hpeak).trans hstamp
  · have hstart : (extendPeak amp sqamp stamp history.current).start = history.current.start := by
      rw [extendPeak, if_neg hgrowing.start_pos.ne']
      simp only
      split_ifs <;> rfl
    have hpeak : history.valueThreshold < |(extendPeak amp sqamp stamp history.current).peak| := by
      rw [extendPeak, if_neg hgrowing.start_pos.ne']
      simp only
      split_ifs
      · exact hhigh
      · exact hhigh
      · exact hgrowing.high
      · exact hgrowing.high
    have hfinish : (extendPeak amp sqamp stamp history.current).finish ≤ stamp := by
      have hbefore : history.current.start + history.current.duration ≤ stamp :=
        hgrowing.past.trans hstamp
      rw [AccelerationPeak.finish, hstart, extendPeak, if_neg hgrowing.start_pos.ne']
      simp only
      split_ifs <;> first
        | exact hbefore
        | exact (add_sub_cancel _ _).le
    refine ⟨?_, hfinish, hpeak, ?_⟩
    · exact hgrowing.start_pos.trans_eq hstart.symm
    · intro peak hpeak'
      exact (hgrowing.after peak hpeak').trans_eq hstart.symm

/-- The peak is closed, and recorded when it took long enough. -/
theorem Orderly.closed {history : AccelerationHistory K} {handled now : K}
    (horderly : history.Orderly handled now) (sqrt : K → K) :
    (history.closePeak sqrt).Recorded handled ∧ (history.closePeak sqrt).current = peakZero := by
  have hrecorded := horderly.recorded
  unfold closePeak
  by_cases hlong : history.current.duration > history.durationThreshold
  · rw [if_pos hlong]
    refine ⟨?_, rfl⟩
    rcases horderly.current with hzero | hgrowing
    · have hnot : (0 : K) > history.durationThreshold := by
        rw [hzero] at hlong
        exact hlong
      exact absurd horderly.duration_nonneg (not_le.mpr hnot)
    · have hall : ∀ peak, peak ∈ ({ history.current with rms := sqrt history.current.rms } ::
          history.peaks).take history.itemCount →
          peak = { history.current with rms := sqrt history.current.rms } ∨
            peak ∈ history.peaks :=
        fun peak hpeak => List.mem_cons.mp (List.mem_of_mem_take hpeak)
      simp only [trim_eq_take]
      refine ⟨?_, ?_, ?_, ?_, ?_, ?_⟩
      · exact List.length_take_le _ _
      · refine (List.Pairwise.sublist (List.take_sublist _ _) ?_)
        exact List.pairwise_cons.mpr ⟨hgrowing.after, hrecorded.separate⟩
      · intro peak hpeak
        rcases hall peak hpeak with rfl | hbefore
        · exact hgrowing.past
        · exact hrecorded.past peak hbefore
      · intro peak hpeak
        rcases hall peak hpeak with rfl | hbefore
        · exact hgrowing.start_pos
        · exact hrecorded.start_pos peak hbefore
      · intro peak hpeak
        rcases hall peak hpeak with rfl | hbefore
        · exact hlong
        · exact hrecorded.long peak hbefore
      · intro peak hpeak
        rcases hall peak hpeak with rfl | hbefore
        · exact hgrowing.high
        · exact hrecorded.high peak hbefore
  · rw [if_neg hlong]
    exact ⟨⟨hrecorded.count, hrecorded.separate, hrecorded.past, hrecorded.start_pos,
      hrecorded.long, hrecorded.high⟩, rfl⟩

/-- The latest of what was collected, when there is something. -/
def latest (history : AccelerationHistory K) : K :=
  max (max history.fax.stamp history.fay.stamp) history.faz.stamp

theorem Waiting.le_now {handled now : K} {sample : StampedValue K} (hnow : 0 ≤ now)
    (hwaiting : Waiting handled now sample) : sample.stamp ≤ now := by
  rcases hwaiting with hzero | ⟨-, -, hle⟩
  · rwa [hzero]
  · exact hle

/-- A sample that is there puts the evaluation after the one before. -/
theorem Orderly.latest_mem {history : AccelerationHistory K} {handled now : K}
    (horderly : history.Orderly handled now) (hnow : 0 ≤ now) {sample : StampedValue K}
    (hle : sample.stamp ≤ history.latest) (hwaiting : Waiting handled now sample)
    (hsome : sample.stamp ≠ 0) :
    0 < history.latest ∧ handled ≤ history.latest ∧ history.latest ≤ now := by
  obtain ⟨hpos, hhandled, -⟩ := hwaiting.resolve_left hsome
  refine ⟨hpos.trans_le hle, hhandled.trans hle, ?_⟩
  exact max_le (max_le (horderly.fax.le_now hnow) (horderly.fay.le_now hnow))
    (horderly.faz.le_now hnow)

theorem Orderly.collect {history : AccelerationHistory K} {handled now : K}
    (horderly : history.Orderly handled now) {fax fay faz : StampedValue K}
    (hfax : Waiting handled now fax) (hfay : Waiting handled now fay)
    (hfaz : Waiting handled now faz) :
    { history with fax := fax, fay := fay, faz := faz }.Orderly handled now where
  handled_le := horderly.handled_le
  duration_nonneg := horderly.duration_nonneg
  recorded :=
    let hrecorded := horderly.recorded
    ⟨hrecorded.count, hrecorded.separate, hrecorded.past, hrecorded.start_pos,
      hrecorded.long, hrecorded.high⟩
  current := horderly.current.imp id fun hgrowing =>
    ⟨hgrowing.start_pos, hgrowing.past, hgrowing.high, hgrowing.after⟩
  fax := hfax
  fay := hfay
  faz := hfaz

/-- The evaluation, before the collected samples are cleared. -/
theorem Orderly.evaluate {history : AccelerationHistory K} {handled now stamp : K}
    (horderly : history.Orderly handled now) (sqrt : K → K) (amp sqamp : K)
    (hpos : 0 < stamp) (hstamp : handled ≤ stamp) :
    (history.evaluate sqrt amp sqamp stamp).Recorded stamp ∧
      ((history.evaluate sqrt amp sqamp stamp).current = peakZero ∨
        (history.evaluate sqrt amp sqamp stamp).Growing stamp) ∧
      (history.evaluate sqrt amp sqamp stamp).durationThreshold =
        history.durationThreshold := by
  unfold AccelerationHistory.evaluate
  by_cases hhigh : |amp| > history.valueThreshold
  · rw [if_pos hhigh]
    have hrecorded := horderly.recorded.later hstamp
    exact ⟨⟨hrecorded.count, hrecorded.separate, hrecorded.past, hrecorded.start_pos,
      hrecorded.long, hrecorded.high⟩,
      Or.inr (horderly.growing hstamp hpos hhigh sqamp), rfl⟩
  · rw [if_neg hhigh]
    obtain ⟨hclosed, hcurrent⟩ := horderly.closed sqrt
    refine ⟨hclosed.later hstamp, Or.inl hcurrent, ?_⟩
    unfold closePeak
    split <;> rfl

theorem Orderly.handleValue {history : AccelerationHistory K} {handled now : K}
    (horderly : history.Orderly handled now) (sqrt : K → K) (hpos : 0 < history.latest)
    (hstamp : handled ≤ history.latest) (hnow : history.latest ≤ now) :
    (history.handleValue sqrt).Orderly history.latest now := by
  obtain ⟨hrecorded, hcurrent, hthreshold⟩ := horderly.evaluate sqrt
    (history.amplitude sqrt).1 (history.amplitude sqrt).2 hpos hstamp
  refine ⟨hnow, ?_, ?_, ?_, Or.inl rfl, Or.inl rfl, Or.inl rfl⟩
  · exact horderly.duration_nonneg.trans_eq hthreshold.symm
  · exact ⟨hrecorded.count, hrecorded.separate, hrecorded.past, hrecorded.start_pos,
      hrecorded.long, hrecorded.high⟩
  · exact hcurrent.imp id fun hgrowing =>
      ⟨hgrowing.start_pos, hgrowing.past, hgrowing.high, hgrowing.after⟩

/-! ## Whole runs -/

theorem Orderly.wait {history : AccelerationHistory K} {handled now later : K}
    (horderly : history.Orderly handled now) (hlater : now ≤ later) :
    history.Orderly handled later := by
  have hwait : ∀ {sample}, Waiting handled now sample → Waiting handled later sample := by
    rintro sample (hzero | ⟨hpos, hhandled, hle⟩)
    · exact Or.inl hzero
    · exact Or.inr ⟨hpos, hhandled, hle.trans hlater⟩
  exact ⟨horderly.handled_le.trans hlater, horderly.duration_nonneg, horderly.recorded,
    horderly.current, hwait horderly.fax, hwait horderly.fay, hwait horderly.faz⟩

/-- The axis that gets a sample is evaluated first when it has one already. -/
theorem Orderly.evaluated {history : AccelerationHistory K} {handled now : K}
    (horderly : history.Orderly handled now) (sqrt : K → K) (hnow : 0 ≤ now)
    {sample : StampedValue K} (hle : sample.stamp ≤ history.latest)
    (hwaiting : Waiting handled now sample) :
    ∃ handled', (if sample.stamp ≠ 0 then history.handleValue sqrt else history).Orderly
      handled' now := by
  by_cases hsome : sample.stamp ≠ 0
  · rw [if_pos hsome]
    obtain ⟨hpos, hhandled, hlatest⟩ := horderly.latest_mem hnow hle hwaiting hsome
    exact ⟨_, horderly.handleValue sqrt hpos hhandled hlatest⟩
  · rw [if_neg hsome]
    exact ⟨handled, horderly⟩

theorem Orderly.insertValue {history : AccelerationHistory K} {handled now : K}
    (horderly : history.Orderly handled now) (sqrt : K → K) (hnow : 0 ≤ now)
    {value : StampedQuantity K} (hpos : 0 < value.stamp) (hlater : now ≤ value.stamp) :
    ∃ handled', (history.insertValue sqrt value).Orderly handled' value.stamp := by
  have harrived : ∀ {handled'}, handled' ≤ now →
      Waiting handled' value.stamp value.toStampedValue :=
    fun hle => Or.inr ⟨hpos, hle.trans hlater, le_rfl⟩
  unfold AccelerationHistory.insertValue
  by_cases hx : history.direction &&& xDir ≠ 0 ∧ value.quantity = .fax
  · rw [if_pos hx]
    obtain ⟨handled', hevaluated⟩ := horderly.evaluated sqrt hnow
      ((le_max_left _ _).trans (le_max_left _ _)) horderly.fax
    have hwait := hevaluated.wait hlater
    exact ⟨handled', hwait.collect (harrived hevaluated.handled_le) hwait.fay hwait.faz⟩
  · rw [if_neg hx]
    by_cases hy : history.direction &&& yDir ≠ 0 ∧ value.quantity = .fay
    · rw [if_pos hy]
      obtain ⟨handled', hevaluated⟩ := horderly.evaluated sqrt hnow
        ((le_max_right _ _).trans (le_max_left _ _)) horderly.fay
      have hwait := hevaluated.wait hlater
      exact ⟨handled', hwait.collect hwait.fax (harrived hevaluated.handled_le) hwait.faz⟩
    · rw [if_neg hy]
      by_cases hz : history.direction &&& zDir ≠ 0 ∧ value.quantity = .faz
      · rw [if_pos hz]
        obtain ⟨handled', hevaluated⟩ := horderly.evaluated sqrt hnow (le_max_right _ _)
          horderly.faz
        have hwait := hevaluated.wait hlater
        exact ⟨handled', hwait.collect hwait.fax hwait.fay (harrived hevaluated.handled_le)⟩
      · rw [if_neg hz]
        exact ⟨handled, horderly.wait hlater⟩

/-- The parameters that were set are not changed by samples. -/
structure Parameters (history history' : AccelerationHistory K) : Prop where
  valueThreshold : history'.valueThreshold = history.valueThreshold
  durationThreshold : history'.durationThreshold = history.durationThreshold
  itemCount : history'.itemCount = history.itemCount

theorem parameters_handleValue (sqrt : K → K) (history : AccelerationHistory K) :
    history.Parameters (history.handleValue sqrt) := by
  unfold handleValue evaluate closePeak
  simp only
  split_ifs <;> exact ⟨rfl, rfl, rfl⟩

theorem parameters_insertValue (sqrt : K → K) (history : AccelerationHistory K)
    (value : StampedQuantity K) : history.Parameters (history.insertValue sqrt value) := by
  have hhandle := parameters_handleValue sqrt history
  unfold insertValue
  simp only
  split_ifs
  all_goals first
    | exact ⟨rfl, rfl, rfl⟩
    | exact ⟨hhandle.valueThreshold, hhandle.durationThreshold, hhandle.itemCount⟩

def lastArrival (values : List (StampedQuantity K)) : K :=
  (values.getLast?.map fun value => value.stamp).getD 0

theorem orderly_insertValues (sqrt : K → K) (valueThreshold : K) {durationThreshold : K}
    (hduration : 0 ≤ durationThreshold) (itemCount direction : ℕ)
    {values : List (StampedQuantity K)}
    (hordered : values.Pairwise fun earlier later => earlier.stamp ≤ later.stamp)
    (hpositive : ∀ value ∈ values, 0 < value.stamp) :
    ∃ handled, ((fresh valueThreshold durationThreshold itemCount direction).insertValues
        sqrt values).Orderly handled (lastArrival values) ∧
      (fresh valueThreshold durationThreshold itemCount direction).Parameters
        ((fresh valueThreshold durationThreshold itemCount direction).insertValues
          sqrt values) := by
  induction values using List.reverseRecOn with
  | nil => exact ⟨0, orderly_fresh hduration _ _ _, rfl, rfl, rfl⟩
  | append_singleton values value ih =>
      obtain ⟨hbefore, -, hlater⟩ := List.pairwise_append.mp hordered
      obtain ⟨hpositive', hpos⟩ := List.forall_mem_append.mp hpositive
      obtain ⟨handled, horderly, hparameters⟩ := ih hbefore hpositive'
      have hlast : 0 ≤ lastArrival values ∧ lastArrival values ≤ value.stamp := by
        unfold lastArrival
        cases hvalue : values.getLast? with
        | none => exact ⟨le_rfl, (hpos value (List.mem_singleton_self _)).le⟩
        | some last =>
            have hmem := List.mem_of_getLast? hvalue
            exact ⟨(hpositive' last hmem).le,
              hlater last hmem value (List.mem_singleton_self _)⟩
      obtain ⟨handled', hnext⟩ := horderly.insertValue sqrt hlast.1
        (hpos value (List.mem_singleton_self _)) hlast.2
      have hkept := parameters_insertValue sqrt
        ((fresh valueThreshold durationThreshold itemCount direction).insertValues sqrt values)
        value
      have harrival : lastArrival (values ++ [value]) = value.stamp := by
        simp [lastArrival]
      rw [harrival, insertValues, List.foldl_append]
      exact ⟨handled', hnext, hkept.valueThreshold.trans hparameters.valueThreshold,
        hkept.durationThreshold.trans hparameters.durationThreshold,
        hkept.itemCount.trans hparameters.itemCount⟩

/-- Two shocks, sampled on the horizontal axes at the same moments. -/
def shocks : List (StampedQuantity ℚ) :=
  [⟨⟨3, 1⟩, .fax⟩, ⟨⟨0, 1⟩, .fay⟩, ⟨⟨4, 2⟩, .fax⟩, ⟨⟨0, 2⟩, .fay⟩, ⟨⟨4, 4⟩, .fax⟩,
    ⟨⟨0, 4⟩, .fay⟩, ⟨⟨0, 5⟩, .fax⟩, ⟨⟨2, 6⟩, .fax⟩, ⟨⟨0, 6⟩, .fay⟩, ⟨⟨5, 8⟩, .fax⟩,
    ⟨⟨0, 9⟩, .fax⟩, ⟨⟨0, 10⟩, .fax⟩]

def peakDocument (peak : AccelerationPeak K) : Json K :=
  .object [("time", .number peak.start), ("duration", .number peak.duration),
    ("peak", .number peak.peak), ("mean", .number peak.mean), ("rms", .number peak.rms)]

def historyDocument (name : String) (history : AccelerationHistory K) : Json K :=
  .object [("name", .string name), ("data", .array (history.peaks.map peakDocument))]

omit [ExactDouble K] in
theorem getJson_history {double : IeeeDouble K → Event K} (hdouble : WritesDouble double)
    (name : String) (history : AccelerationHistory K) :
    history.getJson double name = (historyDocument name history).events := by
  have hpeak : peakEvents double = Json.events ∘ peakDocument := by
    funext peak
    simp [peakEvents, peakDocument, Json.events, memberEvents, hdouble.finite]
  have hdata : history.peaks.flatMap (peakEvents double) =
      itemEvents (history.peaks.map peakDocument) := by
    rw [itemEvents_map, hpeak]
    rfl
  simp only [getJson, hdata, historyDocument, Json.events, memberEvents, List.cons_append,
    List.nil_append, List.append_assoc]

/-- The registers of one record, without one all zero. -/
def peakRegisters (toBits : K → UInt64) (scaler : Scaler) :
    Option (AccelerationPeak K) → List UInt16
  | none => [0, 0, 0, 0, 0, 0]
  | some peak =>
      [halfRegister true (scaler.scaleTo32 .ut (toBits peak.start)),
        halfRegister false (scaler.scaleTo32 .ut (toBits peak.start)),
        scaler.scaleTo16 .du (toBits peak.duration), scaler.scaleTo16 .ax (toBits peak.peak),
        scaler.scaleTo16 .ax (toBits peak.mean), scaler.scaleTo16 .ax (toBits peak.rms)]

/-- The document lists the records, and each block of six registers holds the
record with its number. -/
theorem acceleration_output {double : IeeeDouble K → Event K} (hdouble : WritesDouble double)
    (toBits : K → UInt64) (name : String) (history : AccelerationHistory K) {handler : Handler}
    {unitId : UInt8}
    (hprocessor : handler.processors[Handler.unitIndex unitId]? =
      some ⟨history.getModbusReg toBits⟩) :
    (∃ json, readDocument (history.getJson double name) = some json ∧
      json.get "data" = some (.array (history.peaks.map peakDocument))) ∧
    ∀ i, outputRegisters handler unitId (6 * i) 6 =
      peakRegisters toBits handler.scaler history.peaks[i]? := by
  constructor
  · refine ⟨_, (readDocument_eq_some_iff _ _).mpr (getJson_history hdouble name history), ?_⟩
    simp [historyDocument, Json.get]
  · intro i
    have hdiv : ∀ k < 6, (6 * i + k) / 6 = i := by
      intro k hk
      omega
    rw [outputRegisters_eq hprocessor]
    cases hpeak : history.peaks[i]? <;>
      simp [List.range_succ, getModbusReg, AccelerationPeak.size, hdiv, hpeak, peakRegisters,
        AccelerationPeak.get]

end AccelerationHistory

end SensorHub
