import SensorHub.Clock
import SensorHub.Rounding
import Mathlib.Data.List.DropRight

/-!
# The sample cache of a device

`Device::insert_value` appends a sample to the queue of its quantity and passes
it to the processors.  The queue is then pruned from the front, as long as it is
too long or its first sample is more than an hour older than the new one, by the
rounded difference of the stamps.  Each call looks only at what the calls before
it have left over, so what is cached is compared here with the complete sequence
of samples.
-/

namespace SensorHub

open EventRuns

variable {K : Type*} [ExactDouble K] {P : Type*}

def maxCached : ℕ := 0x0040000

/-- The processors are of any type with an operation that takes a sample. -/
structure Device (K P : Type*) where
  data : Quantity → Option (List (StampedValue K))
  processors : List P
  useAsTimeSource : Bool

namespace Device

def fresh (processors : List P) (useAsTimeSource : Bool) : Device K P where
  data := fun _ => none
  processors := processors
  useAsTimeSource := useAsTimeSource

def getSample (device : Device K P) (quantity : Quantity) : Option (StampedValue K) :=
  match device.data quantity with
  | none => none
  | some queue => queue.getLast?

def getValue (device : Device K P) (quantity : Quantity) : Option K :=
  match device.data quantity with
  | none => none
  | some queue => queue.getLast?.map StampedValue.value

/-- The pruning loop.  There is no front of an empty queue to be read. -/
def prune (rounding : Rounding K) (stamp : K) :
    List (StampedValue K) → Option (List (StampedValue K))
  | [] => none
  | front :: queue =>
      if (front :: queue).length > maxCached ∨
          rounding.round (stamp - front.stamp) > 3600 then
        prune rounding stamp queue
      else
        some (front :: queue)

/-- The central clock is adjusted by a time source. -/
def insertValue (rounding : Rounding K) (processorInsert : P → StampedQuantity K → P)
    (state : Clock K × Device K P) (value : StampedQuantity K) :
    Option (Clock K × Device K P) :=
  let (clock, device) := state
  let clock := clock.insertValue device.useAsTimeSource value
  let queue := (device.data value.quantity).getD [] ++ [⟨value.value, value.stamp⟩]
  let processors := device.processors.map fun processor =>
    processorInsert processor value
  match prune rounding value.stamp queue with
  | none => none
  | some queue =>
      some (clock, { device with
        data := Function.update device.data value.quantity (some queue)
        processors := processors })

end Device

/-! ## What is retained of a sequence of samples -/

def samplesOf (quantity : Quantity) (values : List (StampedQuantity K)) :
    List (StampedValue K) :=
  (values.filter fun value => value.quantity = quantity).map
    StampedQuantity.toStampedValue

/-- The sample is at most an hour old, by the rounded difference. -/
def Recent (rounding : Rounding K) (stamp : K) (sample : StampedValue K) : Prop :=
  rounding.round (stamp - sample.stamp) ≤ 3600

instance (rounding : Rounding K) (stamp : K) : DecidablePred (Recent rounding stamp) :=
  fun _ => inferInstanceAs (Decidable (_ ≤ _))

/-- Those of the last samples that are at most an hour older than the last one. -/
def retained (rounding : Rounding K) (samples : List (StampedValue K)) :
    List (StampedValue K) :=
  match samples.getLast? with
  | none => []
  | some last =>
      (samples.rtake maxCached).filter fun sample => Recent rounding last.stamp sample

def Ordered (samples : List (StampedValue K)) : Prop :=
  samples.Pairwise fun earlier later => earlier.stamp ≤ later.stamp

/-! ## The pruning loop -/

section LastItems

variable {α : Type*}

theorem rtake_cons_of_lt {item : α} {items : List α} {n : ℕ} (hlt : items.length < n) :
    (item :: items).rtake n = item :: items := by
  rw [List.rtake, List.length_cons, Nat.sub_eq_zero_of_le hlt, List.drop_zero]

theorem rtake_cons_of_le {item : α} {items : List α} {n : ℕ} (hle : n ≤ items.length) :
    (item :: items).rtake n = items.rtake n := by
  rw [List.rtake, List.rtake, List.length_cons, Nat.succ_sub hle, List.drop_succ_cons]

theorem rtake_of_le {items : List α} {n : ℕ} (hle : items.length ≤ n) :
    items.rtake n = items := by
  rw [List.rtake, Nat.sub_eq_zero_of_le hle, List.drop_zero]

/-- An item at the front that does not pass is of no account. -/
theorem filter_rtake_cons (test : α → Bool) {item : α} (hfails : test item = false)
    (items : List α) (n : ℕ) :
    ((item :: items).rtake n).filter test = (items.rtake n).filter test := by
  rcases Nat.lt_or_ge items.length n with hlt | hle
  · rw [rtake_cons_of_lt hlt, rtake_of_le hlt.le, List.filter_cons_of_neg (by simp [hfails])]
  · rw [rtake_cons_of_le hle]

theorem rtake_rtake_append (items : List α) (item : α) (n : ℕ) :
    (items.rtake n ++ [item]).rtake n = (items ++ [item]).rtake n := by
  induction items with
  | nil => simp
  | cons first items ih =>
      rcases Nat.lt_or_ge items.length n with hlt | hle
      · rw [rtake_cons_of_lt hlt]
      · rw [rtake_cons_of_le hle, ih, List.cons_append, rtake_cons_of_le]
        rw [List.length_append]
        omega

end LastItems

theorem ordered_cons_iff {sample : StampedValue K} {samples : List (StampedValue K)} :
    Ordered (sample :: samples) ↔
      (∀ later ∈ samples, sample.stamp ≤ later.stamp) ∧ Ordered samples :=
  List.pairwise_cons

variable {rounding : Rounding K}

theorem recent_self (sample : StampedValue K) : Recent rounding sample.stamp sample := by
  rw [Recent, sub_self, Rounding.round_zero]
  norm_num

theorem Recent.of_later {stamp : K} {earlier later : StampedValue K}
    (hrecent : Recent rounding stamp earlier) (hle : earlier.stamp ≤ later.stamp) :
    Recent rounding stamp later :=
  (rounding.monotone_round (sub_le_sub_left hle stamp)).trans hrecent

theorem Recent.of_sooner {stamp next : K} {sample : StampedValue K}
    (hrecent : Recent rounding next sample) (hle : stamp ≤ next) :
    Recent rounding stamp sample :=
  (rounding.monotone_round (sub_le_sub_right hle _)).trans hrecent

/-- The loop leaves the samples that are neither too many nor too old. -/
theorem prune_append (samples : List (StampedValue K)) (sample : StampedValue K)
    (hordered : Ordered (samples ++ [sample])) :
    Device.prune rounding sample.stamp (samples ++ [sample]) =
      some (((samples ++ [sample]).rtake maxCached).filter fun earlier =>
        Recent rounding sample.stamp earlier) := by
  induction samples with
  | nil =>
      have hself : Recent rounding sample.stamp sample := recent_self sample
      have hfresh : ¬(([sample].length > maxCached) ∨
          rounding.round (sample.stamp - sample.stamp) > 3600) := by
        rw [not_or, not_lt, not_lt]
        exact ⟨by simp [maxCached], hself⟩
      rw [List.nil_append, Device.prune, if_neg hfresh, rtake_of_le (by simp [maxCached])]
      simp [hself]
  | cons first samples ih =>
      rw [List.cons_append] at hordered ⊢
      obtain ⟨hfirst, hrest⟩ := ordered_cons_iff.mp hordered
      rw [Device.prune]
      split
      · next hdrop =>
          rw [ih hrest]
          rcases Nat.lt_or_ge (samples ++ [sample]).length maxCached with hlt | hle
          · have hold : ¬Recent rounding sample.stamp first := by
              rcases hdrop with hlong | hold
              · exact absurd hlong (Nat.not_lt.mpr hlt)
              · exact not_le.mpr hold
            rw [filter_rtake_cons
              (fun earlier : StampedValue K => decide (Recent rounding sample.stamp earlier))
              (decide_eq_false hold)]
          · rw [rtake_cons_of_le hle]
      · next hkeep =>
          rw [not_or, not_lt, not_lt] at hkeep
          obtain ⟨hlength, hyoung⟩ := hkeep
          have hrecent : Recent rounding sample.stamp first := hyoung
          rw [rtake_of_le hlength, eq_comm, Option.some.injEq, List.filter_eq_self]
          intro later hlater
          rw [decide_eq_true_eq]
          rcases List.mem_cons.mp hlater with rfl | hmem
          · exact hrecent
          · exact hrecent.of_later (hfirst later hmem)

theorem retained_sublist (samples : List (StampedValue K)) :
    (retained rounding samples).Sublist samples := by
  unfold retained
  split
  · exact List.nil_sublist _
  · exact List.filter_sublist.trans (List.drop_sublist _ _)

theorem retained_concat (samples : List (StampedValue K)) (sample : StampedValue K) :
    retained rounding (samples ++ [sample]) =
      ((samples ++ [sample]).rtake maxCached).filter fun earlier =>
        Recent rounding sample.stamp earlier := by
  simp only [retained, List.getLast?_concat]

/-- What a filter that lets less and less pass has held back is of no account. -/
theorem filter_rtake_filter {before after : K} (hle : before ≤ after)
    (samples : List (StampedValue K)) (sample : StampedValue K)
    (hordered : Ordered samples) (n : ℕ) :
    ((samples.filter (fun earlier => Recent rounding before earlier) ++ [sample]).rtake n).filter
        (fun earlier => Recent rounding after earlier) =
      ((samples ++ [sample]).rtake n).filter fun earlier => Recent rounding after earlier := by
  induction samples with
  | nil => rfl
  | cons first samples ih =>
      obtain ⟨hfirst, hrest⟩ := ordered_cons_iff.mp hordered
      by_cases hpasses : Recent rounding before first
      · have hall : (first :: samples).filter (fun earlier => Recent rounding before earlier) =
            first :: samples := by
          rw [List.filter_eq_self]
          intro later hlater
          rw [decide_eq_true_eq]
          rcases List.mem_cons.mp hlater with rfl | hmem
          · exact hpasses
          · exact hpasses.of_later (hfirst later hmem)
        rw [hall]
      · have hfails : ¬Recent rounding after first := fun hafter =>
          hpasses (hafter.of_sooner hle)
        rw [List.filter_cons_of_neg (by simpa using hpasses), ih hrest, List.cons_append,
          filter_rtake_cons (fun earlier : StampedValue K => decide (Recent rounding after earlier))
            (decide_eq_false hfails)]

theorem prune_retained (samples : List (StampedValue K)) (sample : StampedValue K)
    (hordered : Ordered (samples ++ [sample])) :
    Device.prune rounding sample.stamp (retained rounding samples ++ [sample]) =
      some (retained rounding (samples ++ [sample])) := by
  have hqueue : Ordered (retained rounding samples ++ [sample]) :=
    hordered.sublist ((retained_sublist samples).append_right [sample])
  rw [prune_append _ _ hqueue, retained_concat, Option.some.injEq]
  rcases List.eq_nil_or_concat samples with rfl | ⟨earlier, last, rfl⟩
  · rfl
  · rw [List.concat_eq_append] at hordered ⊢
    have hbefore : Ordered (earlier ++ [last]) :=
      hordered.sublist (List.sublist_append_left _ _)
    have hle : last.stamp ≤ sample.stamp :=
      (List.pairwise_append.mp hordered).2.2 last (by simp) sample (by simp)
    have hcached : Ordered ((earlier ++ [last]).rtake maxCached) :=
      hbefore.sublist (List.drop_sublist _ _)
    rw [retained_concat, filter_rtake_filter hle _ _ hcached, rtake_rtake_append]

/-! ## Runs -/

omit [ExactDouble K] in
theorem samplesOf_concat (quantity : Quantity) (values : List (StampedQuantity K))
    (value : StampedQuantity K) :
    samplesOf quantity (values ++ [value]) =
      if value.quantity = quantity then
        samplesOf quantity values ++ [value.toStampedValue]
      else
        samplesOf quantity values := by
  unfold samplesOf
  split
  · next heq => simp [heq]
  · next hne => simp [hne]

/-- The device caches what is retained of the samples inserted, and each of its
processors has been given all of them. -/
structure Caches (rounding : Rounding K)
    (processorInsert : P → StampedQuantity K → P) (processors : List P)
    (values : List (StampedQuantity K)) (device : Device K P) : Prop where
  data : ∀ quantity, device.data quantity =
    if samplesOf quantity values = [] then none
    else some (retained rounding (samplesOf quantity values))
  processors : device.processors =
    processors.map fun processor => values.foldl processorInsert processor

theorem caches_fresh (rounding : Rounding K)
    (processorInsert : P → StampedQuantity K → P) (processors : List P)
    (useAsTimeSource : Bool) :
    Caches rounding processorInsert processors []
      (Device.fresh processors useAsTimeSource : Device K P) where
  data := fun _ => rfl
  processors := (List.map_id' processors).symm

theorem Caches.insertValue {processorInsert : P → StampedQuantity K → P}
    {processors : List P} {values : List (StampedQuantity K)} {device : Device K P}
    (hcaches : Caches rounding processorInsert processors values device)
    (clock : Clock K) (value : StampedQuantity K)
    (hordered : Ordered (samplesOf value.quantity values ++ [value.toStampedValue])) :
    ∃ clock' device', Device.insertValue rounding processorInsert (clock, device) value =
        some (clock', device') ∧
      Caches rounding processorInsert processors (values ++ [value]) device' := by
  have hqueue : (device.data value.quantity).getD [] =
      retained rounding (samplesOf value.quantity values) := by
    rw [hcaches.data]
    split
    · next hempty => rw [hempty]; rfl
    · rfl
  set queue := retained rounding (samplesOf value.quantity values ++ [value.toStampedValue])
    with hretained
  have hpruned : Device.prune rounding value.stamp
      (retained rounding (samplesOf value.quantity values) ++ [value.toStampedValue]) =
        some queue :=
    prune_retained _ value.toStampedValue hordered
  refine ⟨clock.insertValue device.useAsTimeSource value,
    { device with
      data := Function.update device.data value.quantity (some queue)
      processors := device.processors.map fun processor =>
        processorInsert processor value }, ?_, ?_, ?_⟩
  · simp only [Device.insertValue, hqueue]
    rw [hpruned]
  · intro quantity
    simp only [samplesOf_concat]
    by_cases hquantity : value.quantity = quantity
    · subst hquantity
      rw [Function.update_self, if_pos rfl, if_neg (by simp), hretained]
    · rw [Function.update_of_ne (Ne.symm hquantity), if_neg hquantity]
      exact hcaches.data quantity
  · simp only [hcaches.processors, List.map_map, List.foldl_append, List.foldl_cons,
      List.foldl_nil]
    rfl

theorem ordered_samplesOf {values : List (StampedQuantity K)}
    (hordered : values.Pairwise fun earlier later => earlier.stamp ≤ later.stamp)
    (quantity : Quantity) : Ordered (samplesOf quantity values) :=
  List.pairwise_map.mpr (hordered.sublist List.filter_sublist)

theorem run_caches (rounding : Rounding K)
    (processorInsert : P → StampedQuantity K → P) (processors : List P)
    (useAsTimeSource : Bool) (clock : Clock K) (values : List (StampedQuantity K))
    (hordered : values.Pairwise fun earlier later => earlier.stamp ≤ later.stamp) :
    ∃ clock' device, run (Device.insertValue rounding processorInsert)
        (clock, .fresh processors useAsTimeSource) values = some (clock', device) ∧
      Caches rounding processorInsert processors values device := by
  induction values using List.reverseRecOn with
  | nil => exact ⟨clock, _, rfl, caches_fresh rounding processorInsert processors useAsTimeSource⟩
  | append_singleton values value ih =>
      obtain ⟨clock', device, hrun, hcaches⟩ :=
        ih (hordered.sublist (List.sublist_append_left _ _))
      have hsamples := ordered_samplesOf hordered value.quantity
      rw [samplesOf_concat, if_pos rfl] at hsamples
      obtain ⟨clock'', device', hinsert, hcaches'⟩ :=
        hcaches.insertValue clock' value hsamples
      refine ⟨clock'', device', ?_, hcaches'⟩
      rw [run_append, hrun, Option.bind_some, run_cons, hinsert]
      rfl

theorem getLast?_retained (samples : List (StampedValue K)) :
    (retained rounding samples).getLast? = samples.getLast? := by
  rcases List.eq_nil_or_concat samples with rfl | ⟨earlier, last, rfl⟩
  · rfl
  · rw [List.concat_eq_append, retained_concat, maxCached]
    rw [List.rtake_concat_succ, List.filter_append]
    simp [recent_self]

theorem Caches.getSample_eq {processorInsert : P → StampedQuantity K → P}
    {processors : List P} {values : List (StampedQuantity K)} {device : Device K P}
    (hcaches : Caches rounding processorInsert processors values device) (quantity : Quantity) :
    device.getSample quantity = (samplesOf quantity values).getLast? := by
  rw [Device.getSample, hcaches.data]
  split_ifs with hempty
  · rw [hempty]
    rfl
  · exact getLast?_retained _

/-- Of four samples the first is too old for the cache when the last of its
quantity comes, the second is exactly an hour old. -/
def fourValues : List (StampedQuantity ℚ) :=
  [⟨⟨1, 0⟩, .la⟩, ⟨⟨2, 1⟩, .la⟩, ⟨⟨2, 1⟩, .lo⟩, ⟨⟨3, 3601⟩, .la⟩]

/-- The largest number below 1, and 3601. -/
def hourApart : List (StampedQuantity ℚ) :=
  [⟨⟨1, 1 - 1 / 2 ^ 53⟩, .la⟩, ⟨⟨2, 3601⟩, .la⟩]

end SensorHub
