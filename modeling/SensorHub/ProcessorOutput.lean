import SensorHub.AccelerationHistory
import SensorHub.DeviceReport
import SensorHub.ModbusHandler
import SensorHub.StatisticFields

/-!
# What the processors put out

A statistics processor takes the samples that pass its filter.  It shows one
statistic for every quantity it has seen, in five registers and as a member of
its document; an acceleration history shows one record for every peak, in six
registers and as an item of its document.  A time is spread over two registers.

Registers hold scaled values: the scaler takes the bits of a double.  A document
holds the values themselves, unless the square root of a variance is refused.
-/

namespace SensorHub

open JsonEvents Modbus
open AccelerationHistory (rootOfSquares)
open Scaling (quantityName)

variable {K : Type*}

/-! ## The filter -/

def getQuantity (quantityText : String) : Quantity :=
  (Quantity.all.find? fun quantity => quantityText = quantityName quantity).getD .end_

/-- The parts between the commas. -/
def filterFields (filter : String) : List String :=
  (filter.toList.splitOn ',').map String.ofList

def Statistics.insertFilter (stats : Statistics K) (quantityText : String) : Statistics K :=
  let quantity := getQuantity quantityText
  if quantity ≠ .end_ then { stats with filter := stats.filter.insert quantity } else stats

def Statistics.setFilter (stats : Statistics K) (filter : String) : Statistics K :=
  (filterFields filter).foldl Statistics.insertFilter stats

/-- The filter names the quantity, or it names none at all. -/
def Passes (filter : String) (quantity : Quantity) : Prop :=
  (∀ named ∈ Quantity.all, quantityName named ∉ filterFields filter) ∨
    quantity ∈ Quantity.all ∧ quantityName quantity ∈ filterFields filter

instance (filter : String) : DecidablePred (Passes filter) :=
  fun _ => inferInstanceAs (Decidable (_ ∨ _))

theorem quantityName_injective {quantity other : Quantity} (hquantity : quantity ∈ Quantity.all)
    (hother : other ∈ Quantity.all) (hname : quantityName quantity = quantityName other) :
    quantity = other :=
  List.inj_on_of_nodup_map quantityNames_nodup hquantity hother hname

theorem end_not_mem_all : Quantity.end_ ∉ Quantity.all := by
  simp [Quantity.all]

theorem getQuantity_eq_iff {quantity : Quantity} (hquantity : quantity ∈ Quantity.all)
    (quantityText : String) :
    getQuantity quantityText = quantity ↔ quantityText = quantityName quantity := by
  unfold getQuantity
  constructor
  · intro hget
    cases hfind : Quantity.all.find? fun quantity => quantityText = quantityName quantity with
    | none =>
        rw [hfind, Option.getD_none] at hget
        exact absurd (hget ▸ hquantity) end_not_mem_all
    | some found =>
        rw [hfind, Option.getD_some] at hget
        have hname := List.find?_some hfind
        rw [← hget]
        exact of_decide_eq_true hname
  · rintro rfl
    cases hfind : Quantity.all.find? fun other => quantityName quantity = quantityName other with
    | none =>
        have hnot := List.find?_eq_none.mp hfind quantity hquantity
        simp at hnot
    | some found =>
        have hname : quantityName quantity = quantityName found :=
          of_decide_eq_true (List.find?_some (p := fun other =>
            decide (quantityName quantity = quantityName other)) hfind)
        exact (quantityName_injective hquantity (List.mem_of_find?_eq_some hfind) hname).symm

theorem getQuantity_mem (quantityText : String) :
    getQuantity quantityText = .end_ ∨ getQuantity quantityText ∈ Quantity.all := by
  unfold getQuantity
  cases hfind : Quantity.all.find? fun quantity => quantityText = quantityName quantity with
  | none => exact Or.inl rfl
  | some found => exact Or.inr (List.mem_of_find?_eq_some hfind)

/-- Only the filter changes, by the known quantities among the names. -/
structure SetsFilter (fields : List String) (stats stats' : Statistics K) : Prop where
  period : stats'.period = stats.period
  data : stats'.data = stats.data
  statistics : stats'.statistics = stats.statistics
  filter : ∀ quantity, quantity ∈ stats'.filter ↔ quantity ∈ stats.filter ∨
    quantity ∈ Quantity.all ∧ quantityName quantity ∈ fields

theorem setsFilter_insertFilter (stats : Statistics K) (field : String) :
    SetsFilter [field] stats (stats.insertFilter field) := by
  unfold Statistics.insertFilter
  by_cases hend : getQuantity field = .end_
  · simp only [ne_eq, hend, not_true, if_false]
    refine ⟨rfl, rfl, rfl, fun quantity => ?_⟩
    refine ⟨Or.inl, fun h => h.resolve_right ?_⟩
    rintro ⟨hmem, hname⟩
    have hget := (getQuantity_eq_iff hmem field).mpr (List.mem_singleton.mp hname).symm
    exact end_not_mem_all (hend.symm.trans hget ▸ hmem)
  · simp only [ne_eq, hend, not_false_iff, if_true]
    refine ⟨rfl, rfl, rfl, fun quantity => ?_⟩
    have hknown := (getQuantity_mem field).resolve_left hend
    simp only [List.mem_insert_iff, List.mem_singleton]
    constructor
    · rintro (rfl | hbefore)
      · exact Or.inr ⟨hknown, ((getQuantity_eq_iff hknown field).mp rfl).symm⟩
      · exact Or.inl hbefore
    · rintro (hbefore | ⟨hmem, hname⟩)
      · exact Or.inr hbefore
      · exact Or.inl ((getQuantity_eq_iff hmem field).mpr hname.symm).symm

theorem setsFilter_foldl (stats : Statistics K) (fields : List String) :
    SetsFilter fields stats (fields.foldl Statistics.insertFilter stats) := by
  induction fields generalizing stats with
  | nil => exact ⟨rfl, rfl, rfl, by simp⟩
  | cons field fields ih =>
      have hfirst := setsFilter_insertFilter stats field
      have hrest := ih (stats.insertFilter field)
      refine ⟨hrest.period.trans hfirst.period, hrest.data.trans hfirst.data,
        hrest.statistics.trans hfirst.statistics, fun quantity => ?_⟩
      rw [List.foldl_cons, hrest.filter, hfirst.filter]
      rw [List.mem_singleton, List.mem_cons]
      tauto

theorem setsFilter_fresh (period : K) (filter : String) :
    SetsFilter (filterFields filter) (Statistics.fresh period)
      ((Statistics.fresh period).setFilter filter) :=
  setsFilter_foldl _ _

/-- A sample is taken exactly when its quantity passes. -/
theorem ignores_iff (period : K) (filter : String) (quantity : Quantity) :
    (((Statistics.fresh period).setFilter filter).filter ≠ [] ∧
        quantity ∉ ((Statistics.fresh period).setFilter filter).filter) ↔
      ¬Passes filter quantity := by
  have hfilter := (setsFilter_fresh period filter).filter
  have hfresh : (Statistics.fresh period).filter = [] := rfl
  simp only [hfresh, List.not_mem_nil, false_or] at hfilter
  have hne : ((Statistics.fresh period).setFilter filter).filter ≠ [] ↔
      ∃ named, named ∈ ((Statistics.fresh period).setFilter filter).filter :=
    ⟨List.exists_mem_of_ne_nil _, fun ⟨_, hmem⟩ => List.ne_nil_of_mem hmem⟩
  simp only [hne, hfilter, Passes, not_or, not_forall, not_not, exists_prop]

section Filtered

variable [ExactDouble K]

/-- The lists and statistics of two processors are the same. -/
structure SameOutput (stats stats' : Statistics K) : Prop where
  period : stats.period = stats'.period
  data : stats.data = stats'.data
  statistics : stats.statistics = stats'.statistics

theorem insertValue_keeps (stats : Statistics K) (value : StampedQuantity K) :
    (stats.insertValue .exact value).filter = stats.filter := by
  unfold Statistics.insertValue Statistics.store
  split <;> rfl

/-- A processor with a filter works like one without that is given the samples
which pass. -/
theorem sameOutput_filtered (period : K) (filter : String) (samples : List (StampedQuantity K)) :
    SameOutput (((Statistics.fresh period).setFilter filter).insertValues .exact samples)
        ((Statistics.fresh period).insertValues .exact
          (samples.filter fun sample => Passes filter sample.quantity)) ∧
      (((Statistics.fresh period).setFilter filter).insertValues .exact samples).filter =
        ((Statistics.fresh period).setFilter filter).filter := by
  induction samples using List.reverseRecOn with
  | nil =>
      have hset := setsFilter_fresh period filter
      exact ⟨⟨hset.period, hset.data, hset.statistics⟩, rfl⟩
  | append_singleton samples value ih =>
      obtain ⟨hsame, hfilter⟩ := ih
      rw [Statistics.insertValues_append_singleton, insertValue_keeps]
      refine ⟨?_, hfilter⟩
      have hignores := ignores_iff period filter value.quantity
      rw [← hfilter] at hignores
      by_cases hpasses : Passes filter value.quantity
      · have htaken : (samples ++ [value]).filter (fun sample => Passes filter sample.quantity) =
            samples.filter (fun sample => Passes filter sample.quantity) ++ [value] := by
          simp [hpasses]
        rw [htaken, Statistics.insertValues_append_singleton, Statistics.insertValue,
          if_neg (fun h => (hignores.mp h) hpasses),
          Statistics.insertValue_of_no_filter (Statistics.insertValues_settings .exact period _).2]
        refine ⟨?_, ?_, ?_⟩
        · exact hsame.period
        · simp only [Statistics.store, hsame.data, hsame.statistics, hsame.period]
        · simp only [Statistics.store, hsame.data, hsame.statistics, hsame.period]
      · have htaken : (samples ++ [value]).filter (fun sample => Passes filter sample.quantity) =
            samples.filter (fun sample => Passes filter sample.quantity) := by
          simp [hpasses]
        rw [htaken, Statistics.insertValue, if_pos (hignores.mpr hpasses)]
        exact hsame

end Filtered

/-! ## Registers -/

/-- The registers of the processor in the region of processor output. -/
def outputRegisters (handler : Handler) (unitId : UInt8) (regIndex count : ℕ) : List UInt16 :=
  handler.handle unitId (processorBaseAddress + regIndex) count

section Output

variable (sqrt : K → K) (toBits : K → UInt64)

namespace Statistic

def size : ℕ := 4

end Statistic

namespace Statistics

def getModbusReg (stats : Statistics K) (index : ℕ) (scaler : Scaler) : UInt16 :=
  match castQuantity (index / (Statistic.size + 1)) with
  | none => 0
  | some quantity =>
      match stats.statistics quantity with
      | none => 0
      | some stat =>
          match index % (Statistic.size + 1) with
          | 0 => halfRegister true (scaler.scaleTo32 .ut (toBits stat.time))
          | 1 => halfRegister false (scaler.scaleTo32 .ut (toBits stat.time))
          | 2 => UInt16.ofInt stat.n
          | 3 => scaler.scaleTo16 quantity (toBits stat.mean)
          | 4 => scaler.scaleTo16 quantity (toBits (sqrt stat.variance))
          | _ => 0

/-- The square root of a negative variance is not a number. -/
def statisticEvents [IntCast K] (double : IeeeDouble K → Event K) (sqrt : K → IeeeDouble K)
    (quantity : Quantity) (stat : Statistic K) : List (Event K) :=
  [.string (quantityName quantity), .startObject, .string "time", double (.finite stat.time),
    .string "samples", .number stat.n, .string "mean", double (.finite stat.mean),
    .string "stddev", double (sqrt stat.variance), .endObject]

def getJson [IntCast K] (double : IeeeDouble K → Event K) (sqrt : K → IeeeDouble K)
    (name : String) (stats : Statistics K) : List (Event K) :=
  [.startObject, .string "name", .string name, .string "data", .startObject] ++
  (Quantity.all.flatMap fun quantity =>
    match stats.statistics quantity with
    | none => []
    | some stat => statisticEvents double sqrt quantity stat) ++
  [.endObject, .endObject]

end Statistics

namespace AccelerationPeak

def size : ℕ := 5

def get [Zero K] (peak : AccelerationPeak K) (index : ℕ) : K :=
  match index with
  | 0 => peak.start
  | 1 => peak.duration
  | 2 => peak.peak
  | 3 => peak.mean
  | 4 => peak.rms
  | _ => 0

end AccelerationPeak

namespace AccelerationHistory

def getModbusReg [Zero K] (history : AccelerationHistory K) (index : ℕ)
    (scaler : Scaler) : UInt16 :=
  match history.peaks[index / (AccelerationPeak.size + 1)]? with
  | none => 0
  | some peak =>
      match index % (AccelerationPeak.size + 1) with
      | 0 => halfRegister true (scaler.scaleTo32 .ut (toBits peak.start))
      | 1 => halfRegister false (scaler.scaleTo32 .ut (toBits peak.start))
      | 2 => scaler.scaleTo16 .du (toBits peak.duration)
      | m => scaler.scaleTo16 .ax (toBits (peak.get (m - 1)))

def peakEvents (double : IeeeDouble K → Event K) (peak : AccelerationPeak K) :
    List (Event K) :=
  [.startObject, .string "time", double (.finite peak.start), .string "duration",
    double (.finite peak.duration), .string "peak", double (.finite peak.peak), .string "mean",
    double (.finite peak.mean), .string "rms", double (.finite peak.rms), .endObject]

def getJson (double : IeeeDouble K → Event K) (name : String)
    (history : AccelerationHistory K) : List (Event K) :=
  [.startObject, .string "name", .string name, .string "data", .startArray] ++
    history.peaks.flatMap (peakEvents double) ++ [.endArray, .endObject]

end AccelerationHistory

theorem outputRegisters_eq {handler : Handler} {unitId : UInt8} {processor : Modbus.Processor}
    (hprocessor : handler.processors[Handler.unitIndex unitId]? = some processor)
    (regIndex count : ℕ) :
    outputRegisters handler unitId regIndex count =
      (List.range count).map fun i => processor.getModbusReg (regIndex + i) handler.scaler := by
  have hmap : outputRegisters handler unitId regIndex count =
      processorMap handler.scaler processor regIndex (List.replicate count 0) := by
    rw [outputRegisters, Handler.handle, if_pos (Nat.le_add_right _ _), hprocessor,
      Nat.add_sub_cancel_left]
  apply List.ext_getElem?
  intro i
  rw [hmap]
  by_cases hi : i < count
  · rw [getElem?_processorMap handler.scaler processor regIndex _ (by simpa using hi)]
    simp [hi]
  · have hlength : ∀ start values, (processorMap handler.scaler processor start values).length =
        values.length := by
      intro start values
      induction values generalizing start with
      | nil => rfl
      | cons value values ih => simp [processorMap, ih]
    rw [List.getElem?_eq_none (by rw [hlength]; simp; omega),
      List.getElem?_eq_none (by simp; omega)]

/-- The registers of one statistic, without one all zero. -/
def statisticRegisters (scaler : Scaler) (quantity : Quantity) : Option (Statistic K) → List UInt16
  | none => [0, 0, 0, 0, 0]
  | some stat =>
      [halfRegister true (scaler.scaleTo32 .ut (toBits stat.time)),
        halfRegister false (scaler.scaleTo32 .ut (toBits stat.time)), UInt16.ofInt stat.n,
        scaler.scaleTo16 quantity (toBits stat.mean),
        scaler.scaleTo16 quantity (toBits (sqrt stat.variance))]

theorem castQuantity_of_mem {quantity : Quantity} (hquantity : quantity ∈ Quantity.all) :
    castQuantity quantity.index = some quantity := by
  have hindex : quantity.index < Quantity.all.length := List.idxOf_lt_length_of_mem hquantity
  rw [castQuantity, List.getElem?_append_left hindex, List.getElem?_eq_getElem hindex]
  exact congrArg some (List.getElem_idxOf hindex)

theorem registers_statistic (stats : Statistics K) (scaler : Scaler) {quantity : Quantity}
    (hquantity : quantity ∈ Quantity.all) :
    ((List.range 5).map fun i =>
        stats.getModbusReg sqrt toBits (5 * quantity.index + i) scaler) =
      statisticRegisters sqrt toBits scaler quantity (stats.statistics quantity) := by
  have hdiv : ∀ i < 5, (5 * quantity.index + i) / 5 = quantity.index := by
    intro i hi
    omega
  have hcast := castQuantity_of_mem hquantity
  cases hstat : stats.statistics quantity <;>
    simp [List.range_succ, Statistics.getModbusReg, Statistic.size, hdiv, hcast, hstat,
      statisticRegisters]

end Output

/-! ## The statistics of a run -/

section Runs

variable [ExactDouble K]

/-- The statistic of the accepted samples of a quantity, from their window. -/
def windowStatistic (period : K) (taken : List (StampedValue K)) : Option (Statistic K) :=
  if taken = [] then none
  else
    some
      { time := storedTime .exact period taken
        n := sizeToInt (window .exact period taken).length
        mean := batchMean (window .exact period taken)
        variance := batchVariance (window .exact period taken) }

/-- The variance of a window is not negative. -/
theorem variance_windowStatistic {period : K} {taken : List (StampedValue K)}
    (hchron : Chronological taken) {stat : Statistic K}
    (hstat : windowStatistic period taken = some stat) : 0 ≤ stat.variance := by
  unfold windowStatistic at hstat
  split_ifs at hstat
  cases hstat
  exact batchVariance_nonneg (chronological_window period hchron)

theorem statistics_insertValues {period : K} (hperiod : 0 ≤ period) {quantity : Quantity}
    (hangular : quantity.angular = false) (samples : List (StampedQuantity K)) :
    ((Statistics.fresh period).insertValues .exact samples).statistics quantity =
      windowStatistic period (accepted quantity samples) := by
  have hfollows : Follows .exact period _ _ _ :=
    Statistics.follows_insertValues hperiod hangular samples
  have hfields := Statistics.fieldsFollow_insertValues .exact hperiod quantity samples
  unfold windowStatistic
  by_cases htaken : accepted quantity samples = []
  · rw [if_pos htaken]
    exact hfollows.absent htaken
  · rw [if_neg htaken]
    obtain ⟨kept, hkept, htracks⟩ := hfollows.present htaken
    obtain ⟨kept', hkept', hcount, htime⟩ := hfields.present htaken
    obtain rfl : kept = kept' := Option.some.inj (hkept.symm.trans hkept')
    rw [hfollows.list_eq] at htracks hcount
    rw [hkept, Option.some.injEq, ← htime, ← hcount, ← htracks.mean, ← htracks.variance]

/-- The samples that pass a filter, accepted for one quantity. -/
def acceptedThrough (filter : String) (quantity : Quantity) (samples : List (StampedQuantity K)) :
    List (StampedValue K) :=
  accepted quantity (samples.filter fun sample => Passes filter sample.quantity)

/-- A statistics processor with a period and a filter, after some samples. -/
def configured (period : K) (filter : String) (samples : List (StampedQuantity K)) :
    Statistics K :=
  ((Statistics.fresh period).setFilter filter).insertValues .exact samples

theorem statistics_configured {period : K} (hperiod : 0 ≤ period) (filter : String)
    {quantity : Quantity} (hangular : quantity.angular = false)
    (samples : List (StampedQuantity K)) :
    (configured period filter samples).statistics quantity =
      windowStatistic period (acceptedThrough filter quantity samples) := by
  rw [configured, (sameOutput_filtered period filter samples).1.statistics]
  exact statistics_insertValues hperiod hangular _

/-- After any samples the five registers of a quantity hold the statistic of the
window of those that pass the filter, the time in two halves. -/
theorem statistics_registers (sqrt : K → K) (toBits : K → UInt64) {period : K}
    (hperiod : 0 ≤ period) (filter : String) (samples : List (StampedQuantity K))
    {quantity : Quantity} (hquantity : quantity ∈ Quantity.all)
    (hangular : quantity.angular = false) {handler : Handler} {unitId : UInt8}
    (hprocessor : handler.processors[Handler.unitIndex unitId]? =
      some ⟨(configured period filter samples).getModbusReg sqrt toBits⟩) :
    outputRegisters handler unitId (5 * quantity.index) 5 =
      statisticRegisters sqrt toBits handler.scaler quantity
        (windowStatistic period (acceptedThrough filter quantity samples)) := by
  rw [outputRegisters_eq hprocessor, ← statistics_configured hperiod filter hangular samples]
  exact registers_statistic sqrt toBits _ handler.scaler hquantity

/-- Three speeds with a height between them, which the filter leaves out. -/
def filteredSpeeds : List (StampedQuantity ℚ) :=
  [⟨⟨4, 10⟩, .vog⟩, ⟨⟨50, 11⟩, .hmsl⟩, ⟨⟨6, 12⟩, .vog⟩, ⟨⟨10, 14⟩, .vog⟩]

/-- A handler whose only processor is the one with the filter, at whole numbers. -/
def speedHandler : Handler :=
  { devices := []
    processors :=
      [⟨(configured 60 "vog,hdg" filteredSpeeds).getModbusReg rootOfSquares
        fun x => .ofInt x.floor⟩]
    scaler := ⟨fun _ bits => bits.toUInt32, fun _ bits => bits.toUInt16⟩ }

theorem windowStatistic_speeds :
    windowStatistic 60 (acceptedThrough "vog,hdg" .vog filteredSpeeds) =
      some ⟨14, 3, 13 / 2, 9 / 4⟩ := by
  decide +kernel

theorem statistics_registers_speeds :
    outputRegisters speedHandler 0 (5 * Quantity.vog.index) 5 = [0, 14, 3, 6, 1] := by
  have hprocessor : speedHandler.processors[Handler.unitIndex 0]? =
      some ⟨(configured 60 "vog,hdg" filteredSpeeds).getModbusReg rootOfSquares
        fun x => .ofInt x.floor⟩ := by
    simp [speedHandler, Handler.unitIndex]
  have hperiod : (0 : ℚ) ≤ 60 := by
    decide +kernel
  have hknown : Quantity.vog ∈ Quantity.all := by
    simp [Quantity.all]
  have hregisters := statistics_registers rootOfSquares _ hperiod "vog,hdg" filteredSpeeds hknown
    rfl hprocessor
  rw [windowStatistic_speeds] at hregisters
  exact hregisters.trans (by decide +kernel)

/-! ## The documents -/

/-- The behaviour of `std::sqrt`. -/
structure SquareRoots (sqrt : K → IeeeDouble K) : Prop where
  of_nonneg : ∀ value, 0 ≤ value → ∃ root, sqrt value = .finite root
  of_neg : ∀ value, value < 0 → sqrt value = .nan

def statisticDocument (stat : Statistic K) (deviation : K) : Json K :=
  .object [("time", .number stat.time), ("samples", .number stat.n),
    ("mean", .number stat.mean), ("stddev", .number deviation)]

def statisticsDocument (name : String) (stats : Statistics K) (deviation : Statistic K → K) :
    Json K :=
  .object [("name", .string name),
    ("data", .object (Quantity.all.filterMap fun quantity =>
      ((stats.statistics quantity).map fun stat => statisticDocument stat (deviation stat)).map
        fun json => (quantityName quantity, json)))]

section Documents

variable {double : IeeeDouble K → Event K} (hdouble : WritesDouble double)
  {sqrt : K → IeeeDouble K} (hsqrt : SquareRoots sqrt)

include hdouble

theorem getJson_statistics (name : String) (stats : Statistics K) {deviation : Statistic K → K}
    (hdeviation : ∀ quantity ∈ Quantity.all, ∀ stat, stats.statistics quantity = some stat →
      sqrt stat.variance = .finite (deviation stat)) :
    stats.getJson double sqrt name = (statisticsDocument name stats deviation).events := by
  have hdata : (Quantity.all.flatMap fun quantity =>
      match stats.statistics quantity with
      | none => []
      | some stat => Statistics.statisticEvents double sqrt quantity stat) =
      memberEvents (Quantity.all.filterMap fun quantity =>
        ((stats.statistics quantity).map fun stat =>
          statisticDocument stat (deviation stat)).map fun json =>
            (quantityName quantity, json)) := by
    rw [memberEvents_filterMap]
    refine List.flatMap_congr fun quantity hquantity => ?_
    cases hstat : stats.statistics quantity with
    | none => rfl
    | some stat =>
        simp only [Option.map_some, Statistics.statisticEvents, hdouble.finite,
          hdeviation quantity hquantity stat hstat]
        rfl
  simp only [Statistics.getJson, hdata, statisticsDocument, Json.events, memberEvents,
    List.cons_append, List.nil_append, List.append_assoc]

include hsqrt

/-- A negative variance leaves a refused value in the events. -/
theorem readDocument_of_neg (name : String) {stats : Statistics K} {quantity : Quantity}
    (hquantity : quantity ∈ Quantity.all) {stat : Statistic K}
    (hstat : stats.statistics quantity = some stat) (hneg : stat.variance < 0) :
    readDocument (stats.getJson double sqrt name) = none := by
  have hmem : Event.refused ∈ stats.getJson double sqrt name := by
    simp only [Statistics.getJson, List.mem_append, List.mem_flatMap]
    refine Or.inl (Or.inr ⟨quantity, hquantity, ?_⟩)
    rw [hstat]
    simp [Statistics.statisticEvents, hsqrt.of_neg _ hneg, hdouble.nan]
  exact readDocument_refused hmem

omit hdouble in
theorem exists_deviation {stats : Statistics K}
    (hnonneg : ∀ quantity ∈ Quantity.all, ∀ stat, stats.statistics quantity = some stat →
      0 ≤ stat.variance) :
    ∃ deviation : Statistic K → K, ∀ quantity ∈ Quantity.all, ∀ stat,
      stats.statistics quantity = some stat → sqrt stat.variance = .finite (deviation stat) := by
  have hroots : ∀ stat : Statistic K, ∃ root, 0 ≤ stat.variance →
      sqrt stat.variance = .finite root := by
    intro stat
    by_cases hvariance : 0 ≤ stat.variance
    · obtain ⟨root, hroot⟩ := hsqrt.of_nonneg _ hvariance
      exact ⟨root, fun _ => hroot⟩
    · exact ⟨0, fun h => absurd h hvariance⟩
  choose deviation hdeviation using hroots
  exact ⟨deviation, fun quantity hquantity stat hstat =>
    hdeviation stat (hnonneg quantity hquantity stat hstat)⟩

/-- After any samples the document of the processor is read back iff no variance
of an angle is negative.  It then has a member for every quantity of which a
sample passed the filter. -/
theorem statistics_document (name : String) {period : K} (hperiod : 0 ≤ period)
    (filter : String) (samples : List (StampedQuantity K)) :
    let stats := configured period filter samples
    ((∃ json, readDocument (stats.getJson double sqrt name) = some json) ↔
      ∀ quantity ∈ Quantity.all, quantity.angular = true →
        ∀ stat, stats.statistics quantity = some stat → 0 ≤ stat.variance) ∧
    ∀ json, readDocument (stats.getJson double sqrt name) = some json →
      ∀ quantity ∈ Quantity.all, quantity.angular = false →
        match windowStatistic period (acceptedThrough filter quantity samples) with
        | none => (json.get "data").bind (Json.get (quantityName quantity)) = none
        | some stat => ∃ deviation, sqrt stat.variance = .finite deviation ∧
            (json.get "data").bind (Json.get (quantityName quantity)) =
              some (statisticDocument stat deviation) := by
  intro stats
  have hnonneg : ∀ quantity ∈ Quantity.all, quantity.angular = false → ∀ stat,
      stats.statistics quantity = some stat → 0 ≤ stat.variance := by
    intro quantity _ hangular stat hstat
    rw [statistics_configured hperiod filter hangular] at hstat
    have hfollows : Follows .exact period _ _ _ := Statistics.follows_insertValues hperiod hangular
      (samples.filter fun sample => Passes filter sample.quantity)
    exact variance_windowStatistic hfollows.chronological hstat
  have hread : ∀ json, readDocument (stats.getJson double sqrt name) = some json →
      ∀ quantity ∈ Quantity.all, ∀ stat, stats.statistics quantity = some stat →
        0 ≤ stat.variance := by
    intro json hjson quantity hquantity stat hstat
    by_contra hneg
    rw [readDocument_of_neg hdouble hsqrt name hquantity hstat (not_le.mp hneg)] at hjson
    cases hjson
  refine ⟨⟨?_, ?_⟩, ?_⟩
  · rintro ⟨json, hjson⟩ quantity hquantity _
    exact hread json hjson quantity hquantity
  · intro hangles
    obtain ⟨deviation, hdeviation⟩ := exists_deviation hsqrt fun quantity hquantity => by
      cases hangular : quantity.angular with
      | true => exact hangles quantity hquantity hangular
      | false => exact hnonneg quantity hquantity hangular
    exact ⟨_, (readDocument_eq_some_iff _ _).mpr (getJson_statistics hdouble name stats hdeviation)⟩
  · intro json hjson quantity hquantity hangular
    obtain ⟨deviation, hdeviation⟩ := exists_deviation hsqrt (hread json hjson)
    rw [getJson_statistics hdouble name stats hdeviation,
      (readDocument_eq_some_iff _ _).mpr rfl, Option.some.injEq] at hjson
    have hdata : (statisticsDocument name stats deviation).get "data" =
        some (.object (Quantity.all.filterMap fun quantity =>
          ((stats.statistics quantity).map fun stat =>
            statisticDocument stat (deviation stat)).map fun json =>
              (quantityName quantity, json))) := by
      simp [statisticsDocument, Json.get]
    have hmember : (json.get "data").bind (Json.get (quantityName quantity)) =
        (stats.statistics quantity).map fun stat => statisticDocument stat (deviation stat) := by
      rw [← hjson, hdata, Option.bind_some, get_filterMap quantityNames_nodup hquantity]
    rw [← statistics_configured hperiod filter hangular samples]
    change match stats.statistics quantity with
      | none => _
      | some stat => _
    cases hstat : stats.statistics quantity with
    | none => rw [hmember, hstat, Option.map_none]
    | some stat =>
        exact ⟨deviation stat, hdeviation quantity hquantity stat hstat, by
          rw [hmember, hstat, Option.map_some]⟩

end Documents

/-- `rootOfSquares`, with no root below zero. -/
def sqrtOfSquares (value : ℚ) : IeeeDouble ℚ :=
  if value < 0 then .nan else .finite (rootOfSquares value)

theorem squareRoots_sqrtOfSquares : SquareRoots sqrtOfSquares := by
  constructor
  · intro value hvalue
    exact ⟨_, if_neg (not_lt.mpr hvalue)⟩
  · intro value hvalue
    exact if_pos hvalue

theorem statistics_document_speeds :
    ∃ json, readDocument ((configured 60 "vog,hdg" filteredSpeeds).getJson doubleEvent
        sqrtOfSquares "speed") = some json ∧
      (json.get "data").bind (Json.get "vog") =
        some (statisticDocument ⟨14, 3, 13 / 2, 9 / 4⟩ (3 / 2)) := by
  have hperiod : (0 : ℚ) ≤ 60 := by
    decide +kernel
  obtain ⟨hreadable, hmembers⟩ := statistics_document writesDouble_doubleEvent
    squareRoots_sqrtOfSquares "speed" hperiod "vog,hdg" filteredSpeeds
  have habsent : ∀ quantity ∈ Quantity.all, quantity.angular = true →
      (configured 60 "vog,hdg" filteredSpeeds).statistics quantity = none := by
    decide +kernel
  obtain ⟨json, hjson⟩ := hreadable.mpr fun quantity hquantity hangular stat hstat => by
    rw [habsent quantity hquantity hangular] at hstat
    cases hstat
  have hmember := hmembers json hjson .vog (by simp [Quantity.all]) rfl
  rw [windowStatistic_speeds] at hmember
  obtain ⟨deviation, hdeviation, hvog⟩ := hmember
  have hroot : sqrtOfSquares (9 / 4) = .finite (3 / 2) := by
    decide +kernel
  obtain rfl : (3 / 2 : ℚ) = deviation := by
    injection hroot.symm.trans hdeviation
  exact ⟨json, hjson, hvog⟩

end Runs

end SensorHub
