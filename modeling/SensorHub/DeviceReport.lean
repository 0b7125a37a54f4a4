import SensorHub.IeeeDouble
import SensorHub.JsonEvents
import SensorHub.SampleCache
import SensorHub.ScaleConfig

/-!
# The document about a device

`get_device_json` writes the name, the state and the last sample of every
quantity of a device.  A sample can hold a value from the wire that is no number,
and the writer refuses such a value, so that the text is a document only when all
samples are numbers.

`Writer::Double` is a parameter here, of which only this much is assumed.
-/

namespace SensorHub

open JsonEvents EventRuns
open Scaling (quantityName)

variable {K : Type*}

/-! ## What is written -/

/-- The behaviour of `Writer::Double`: numbers are written, the infinities and
what is not a number are refused. -/
structure WritesDouble (double : IeeeDouble K → Event K) : Prop where
  finite : ∀ value, double (.finite value) = .number value
  posInf : double .posInf = .refused
  negInf : double .negInf = .refused
  nan : double .nan = .refused

def doubleEvent : IeeeDouble K → Event K
  | .finite value => .number value
  | _ => .refused

theorem writesDouble_doubleEvent : WritesDouble (doubleEvent : IeeeDouble K → Event K) :=
  ⟨fun _ => rfl, rfl, rfl, rfl⟩

variable (double : IeeeDouble K → Event K)

structure ReportedDevice (K : Type*) where
  name : String
  id : String
  isConnected : Bool
  getSample : Quantity → Option (StampedValue (IeeeDouble K))

def sampleEvents (quantity : Quantity) (sample : StampedValue (IeeeDouble K)) :
    List (Event K) :=
  [.string (quantityName quantity), .startObject, .string "time", double sample.stamp,
    .string "value", double sample.value, .endObject]

def getDeviceJson (time : K) (device : ReportedDevice K) : List (Event K) :=
  [.startObject, .string "name", .string device.name, .string "id", .string device.id,
    .string "connected", .bool device.isConnected, .string "time", double (.finite time),
    .string "data", .startObject] ++
  (Quantity.all.flatMap fun quantity =>
    match device.getSample quantity with
    | none => []
    | some sample => sampleEvents double quantity sample) ++
  [.endObject, .endObject]

/-! ## The document -/

def sampleDocument (sample : StampedValue K) : Json K :=
  .object [("time", .number sample.stamp), ("value", .number sample.value)]

def dataDocument (samples : Quantity → Option (StampedValue K)) : Json K :=
  .object (Quantity.all.filterMap fun quantity =>
    ((samples quantity).map sampleDocument).map fun json => (quantityName quantity, json))

def deviceDocument (time : K) (name id : String) (isConnected : Bool)
    (samples : Quantity → Option (StampedValue K)) : Json K :=
  .object [("name", .string name), ("id", .string id), ("connected", .bool isConnected),
    ("time", .number time), ("data", dataDocument samples)]

def StampedValue.ofExact (sample : StampedValue K) : StampedValue (IeeeDouble K) :=
  ⟨.finite sample.value, .finite sample.stamp⟩

/-- The sample as numbers, when it is. -/
def StampedValue.toExact : StampedValue (IeeeDouble K) → Option (StampedValue K)
  | ⟨.finite value, .finite stamp⟩ => some ⟨value, stamp⟩
  | _ => none

theorem StampedValue.ofExact_of_toExact {sample : StampedValue (IeeeDouble K)}
    {exact : StampedValue K} (hexact : sample.toExact = some exact) :
    sample = exact.ofExact := by
  unfold StampedValue.toExact at hexact
  split at hexact
  · cases hexact
    rfl
  · cases hexact

variable {double} (hdouble : WritesDouble double)

include hdouble

/-- A sample that is no number leaves a refused value in the events. -/
theorem refused_mem_sampleEvents {sample : StampedValue (IeeeDouble K)}
    (hexact : sample.toExact = none) (quantity : Quantity) :
    Event.refused ∈ sampleEvents double quantity sample := by
  obtain ⟨value, stamp⟩ := sample
  cases value <;> cases stamp <;>
    simp [StampedValue.toExact] at hexact <;>
      simp [sampleEvents, hdouble.posInf, hdouble.negInf, hdouble.nan]

theorem getDeviceJson_ofExact (time : K) (device : ReportedDevice K)
    {samples : Quantity → Option (StampedValue K)}
    (hsamples : ∀ quantity ∈ Quantity.all,
      device.getSample quantity = (samples quantity).map StampedValue.ofExact) :
    getDeviceJson double time device =
      (deviceDocument time device.name device.id device.isConnected samples).events := by
  have hdata : (Quantity.all.flatMap fun quantity =>
      match device.getSample quantity with
      | none => []
      | some sample => sampleEvents double quantity sample) =
      memberEvents (Quantity.all.filterMap fun quantity =>
        ((samples quantity).map sampleDocument).map fun json => (quantityName quantity, json)) := by
    rw [memberEvents_filterMap]
    refine List.flatMap_congr fun quantity hquantity => ?_
    rw [hsamples quantity hquantity]
    cases samples quantity with
    | none => rfl
    | some sample =>
        simp only [Option.map_some, StampedValue.ofExact, sampleEvents, hdouble.finite]
        rfl
  simp only [getDeviceJson, hdata, hdouble.finite, deviceDocument, dataDocument, Json.events,
    memberEvents, List.cons_append, List.nil_append, List.append_assoc]

omit hdouble

/-- The samples of a device that has seen a depth only. -/
def depthOnly (quantity : Quantity) : Option (StampedValue ℚ) :=
  if quantity = .hmsl then some ⟨-3, 11⟩ else none

theorem quantityNames_nodup : (Quantity.all.map quantityName).Nodup := by
  decide

variable [ExactDouble K] {P : Type*}

/-- The device with what the document reports of it.  What was inserted are
numbers here. -/
def Device.report (name id : String) (isConnected : Bool) (device : Device K P) :
    ReportedDevice K where
  name := name
  id := id
  isConnected := isConnected
  getSample := fun quantity => (device.getSample quantity).map StampedValue.ofExact

/-- Two headings and a depth below the surface. -/
def threeSamples : List (StampedQuantity ℚ) :=
  [⟨⟨1, 10⟩, .hdg⟩, ⟨⟨2, 11⟩, .hdg⟩, ⟨⟨-3, 11⟩, .hmsl⟩]

end SensorHub
