import SensorHub.Quantities

/-!
# Position deltas for SignalK

The converter keeps the last value of every quantity.  A latitude or a longitude
produces a position when the last value of the other one has the same time
stamp, and an angle of the attitude when those of both others have.  The text of
a delta is left to the JSON library; here a delta is what is written.

Fixes read in one chunk have equal stamps.  The second half counts the
positions that are sent for a sequence of fixes.
-/

namespace SensorHub.SignalK

variable {K : Type*} [ExactDouble K]

/-- The value written in a delta. -/
inductive DeltaValue (K : Type*) where
  | time (seconds : K)
  | position (latitude longitude : K)
  | attitude (roll pitch yaw : K)
  | number (value : K)
  deriving DecidableEq, Repr

structure Delta (K : Type*) where
  timestamp : K
  path : String
  value : DeltaValue K
  deriving DecidableEq, Repr

/-- The last value of every quantity. -/
structure Converter (K : Type*) where
  cache : Quantity → StampedQuantity K

def getPath : Quantity → String
  | .ut => "navigation.datetime"
  | .la => "navigation.position"
  | .lo => "navigation.position"
  | .vog => "navigation.speedOverGround"
  | .vtw => "navigation.speedThroughWater"
  | .hdg => "navigation.headingTrue"
  | .crs => "navigation.courseOverGroundTrue"
  | .mn => "navigation.headingMagnetic"
  | .ro => "navigation.attitude"
  | .pi => "navigation.attitude"
  | .ya => "navigation.attitude"
  | .wtmp => "environment.water.temperature"
  | _ => ""

namespace Converter

def fresh : Converter K where
  cache := fun _ => ⟨⟨0, 0⟩, .end_⟩

def addToCache (converter : Converter K) (q : StampedQuantity K) :
    Converter K where
  cache := Function.update converter.cache q.quantity q

def producesDelta (converter : Converter K) (q : StampedQuantity K) :
    Bool × Converter K :=
  let converter := converter.addToCache q
  let simultaneous := fun quantity => q.stamp = (converter.cache quantity).stamp
  (match q.quantity with
    | .la => simultaneous .lo
    | .lo => simultaneous .la
    | .ro => simultaneous .pi ∧ simultaneous .ya
    | .pi => simultaneous .ro ∧ simultaneous .ya
    | .ya => simultaneous .pi ∧ simultaneous .ro
    | quantity => getPath quantity ≠ "",
    converter)

def getValue (converter : Converter K) (q : StampedQuantity K) :
    DeltaValue K :=
  match q.quantity with
  | .ut => .time q.value
  | .lo | .la =>
      .position ((converter.cache .la).value * 180 / mPi)
        ((converter.cache .lo).value * 180 / mPi)
  | .ro | .pi | .ya =>
      .attitude (converter.cache .ro).value (converter.cache .pi).value
        (converter.cache .ya).value
  | _ => .number q.value

def getDelta (converter : Converter K) (q : StampedQuantity K) : Delta K where
  timestamp := q.stamp
  path := getPath q.quantity
  value := converter.getValue q

end Converter

structure Pusher (K : Type*) where
  converter : Converter K
  sent : List (Delta K)

namespace Pusher

def fresh : Pusher K where
  converter := Converter.fresh
  sent := []

def insertValue (pusher : Pusher K) (q : StampedQuantity K) : Pusher K :=
  let (produces, converter) := pusher.converter.producesDelta q
  if produces then ⟨converter, pusher.sent ++ [converter.getDelta q]⟩
  else ⟨converter, pusher.sent⟩

def insertValues (pusher : Pusher K) (values : List (StampedQuantity K)) :
    Pusher K :=
  values.foldl insertValue pusher

end Pusher

/-! ## Fixes -/

/-- A position fix, as a decoder emits it. -/
structure Fix (K : Type*) where
  la : K
  lo : K
  stamp : K
  deriving DecidableEq, Repr

inductive Reading (K : Type*) where
  | fix (taken : Fix K)
  | other (value : StampedQuantity K) (notLa : value.quantity ≠ .la)
      (notLo : value.quantity ≠ .lo)

namespace Reading

def values : Reading K → List (StampedQuantity K)
  | .fix taken =>
      [⟨⟨taken.la, taken.stamp⟩, .la⟩, ⟨⟨taken.lo, taken.stamp⟩, .lo⟩]
  | .other value _ _ => [value]

end Reading

def fixes : List (Reading K) → List (Fix K)
  | [] => []
  | .fix taken :: readings => taken :: fixes readings
  | .other _ _ _ :: readings => fixes readings

/-- The position delta with a latitude and a longitude in radians. -/
def positionDelta (stamp la lo : K) : Delta K :=
  ⟨stamp, "navigation.position", .position (la * 180 / mPi) (lo * 180 / mPi)⟩

def Fix.delta (fix : Fix K) : Delta K :=
  positionDelta fix.stamp fix.la fix.lo

def Pusher.positions (pusher : Pusher K) : List (Delta K) :=
  pusher.sent.filter fun delta => delta.path = "navigation.position"

/-- The position deltas for readings after a last longitude: a fix with the
stamp of the one before is also paired with the longitude of that one. -/
def positionsFrom : StampedQuantity K → List (Reading K) → List (Delta K)
  | _, [] => []
  | lastLo, .fix taken :: readings =>
      (if taken.stamp = lastLo.stamp then
          [positionDelta taken.stamp taken.la lastLo.value]
        else []) ++
        taken.delta :: positionsFrom ⟨⟨taken.lo, taken.stamp⟩, .lo⟩ readings
  | lastLo, .other _ _ _ :: readings => positionsFrom lastLo readings

theorem insertValue_converter (pusher : Pusher K) (q : StampedQuantity K) :
    (pusher.insertValue q).converter = pusher.converter.addToCache q := by
  unfold Pusher.insertValue
  by_cases hproduces : (pusher.converter.producesDelta q).1 = true
  · simp only [hproduces, if_true]
    rfl
  · simp only [hproduces]
    rfl

theorem insertValue_la (pusher : Pusher K) (la stamp : K) :
    (pusher.insertValue ⟨⟨la, stamp⟩, .la⟩).positions =
        pusher.positions ++
          (if stamp = (pusher.converter.cache .lo).stamp then
            [positionDelta stamp la (pusher.converter.cache .lo).value]
          else []) := by
  unfold Pusher.insertValue Converter.producesDelta
  by_cases hstamp : stamp = (pusher.converter.cache .lo).stamp <;>
    simp [Converter.addToCache, hstamp, Pusher.positions, Converter.getDelta,
      getPath, Converter.getValue, positionDelta]

theorem insertValue_lo (pusher : Pusher K) (lo stamp : K)
    (hla : (pusher.converter.cache .la).stamp = stamp) :
    (pusher.insertValue ⟨⟨lo, stamp⟩, .lo⟩).positions =
        pusher.positions ++
          [positionDelta stamp (pusher.converter.cache .la).value lo] := by
  unfold Pusher.insertValue Converter.producesDelta
  simp [Converter.addToCache, hla, Pusher.positions, Converter.getDelta, getPath,
    Converter.getValue, positionDelta]

theorem getPath_ne_position {quantity : Quantity} (hla : quantity ≠ .la)
    (hlo : quantity ≠ .lo) : getPath quantity ≠ "navigation.position" := by
  revert hla hlo
  cases quantity <;> simp [getPath]

/-- A value of another quantity sends no position. -/
theorem positions_insertValue_other (pusher : Pusher K)
    {value : StampedQuantity K} (hla : value.quantity ≠ .la)
    (hlo : value.quantity ≠ .lo) :
    (pusher.insertValue value).positions = pusher.positions := by
  have hpath := getPath_ne_position hla hlo
  unfold Pusher.insertValue
  by_cases hproduces : (pusher.converter.producesDelta value).1 = true <;>
    simp [hproduces, Pusher.positions, Converter.getDelta, hpath]

namespace Pusher

def insertReadings (pusher : Pusher K) (readings : List (Reading K)) :
    Pusher K :=
  pusher.insertValues (readings.map Reading.values).flatten

theorem positions_insertReadings (pusher : Pusher K)
    (readings : List (Reading K)) :
    (pusher.insertReadings readings).positions =
      pusher.positions ++
        positionsFrom (pusher.converter.cache .lo) readings := by
  unfold insertReadings insertValues
  induction readings generalizing pusher with
  | nil => simp [positionsFrom]
  | cons reading readings ih =>
      rw [List.map_cons, List.flatten_cons, List.foldl_append, ih]
      cases reading with
      | fix taken =>
          have hla : ((pusher.insertValue
              ⟨⟨taken.la, taken.stamp⟩, .la⟩).converter.cache .la) =
              ⟨⟨taken.la, taken.stamp⟩, .la⟩ := by
            rw [insertValue_converter]
            simp [Converter.addToCache]
          have hlo := insertValue_lo (pusher.insertValue
            ⟨⟨taken.la, taken.stamp⟩, .la⟩) taken.lo taken.stamp (by rw [hla])
          simp only [Reading.values, List.foldl_cons, List.foldl_nil]
          rw [hlo, insertValue_la, hla, insertValue_converter]
          simp [Converter.addToCache, positionsFrom, Fix.delta]
      | other value hla hlo =>
          simp only [Reading.values, List.foldl_cons, List.foldl_nil]
          rw [positions_insertValue_other pusher hla hlo, insertValue_converter]
          simp only [Converter.addToCache, Function.update_of_ne hlo.symm]
          rfl

end Pusher

theorem length_positionsFrom (lastLo : StampedQuantity K)
    (readings : List (Reading K)) :
    (fixes readings).length ≤
      (positionsFrom lastLo readings).length := by
  induction readings generalizing lastLo with
  | nil => simp [fixes]
  | cons reading readings ih =>
      cases reading with
      | fix taken =>
          have hrest := ih ⟨⟨taken.lo, taken.stamp⟩, .lo⟩
          simp only [fixes, positionsFrom,
            List.length_append, List.length_cons]
          omega
      | other value hla hlo => exact ih lastLo

/-- Each fix has its own position and no other exactly when no fix has the stamp
of the one before. -/
theorem positionsFrom_eq_iff (lastLo : StampedQuantity K)
    (readings : List (Reading K)) :
    positionsFrom lastLo readings =
        (fixes readings).map Fix.delta ↔
      List.IsChain (· ≠ ·) (lastLo.stamp ::
        (fixes readings).map Fix.stamp) := by
  induction readings generalizing lastLo with
  | nil => simp [positionsFrom, fixes]
  | cons reading readings ih =>
      cases reading with
      | fix taken =>
          have hrest := ih ⟨⟨taken.lo, taken.stamp⟩, .lo⟩
          have hlength := length_positionsFrom ⟨⟨taken.lo, taken.stamp⟩, .lo⟩ readings
          simp only [fixes, positionsFrom,
            List.map_cons, List.isChain_cons_cons]
          rw [← hrest]
          by_cases hstamp : taken.stamp = lastLo.stamp
          · refine iff_of_false ?_ fun h => h.1 hstamp.symm
            rw [if_pos hstamp]
            intro heq
            have hcount := congrArg List.length heq
            simp only [List.length_append, List.length_cons, List.length_nil,
              List.length_map] at hcount
            omega
          · rw [if_neg hstamp, List.nil_append, List.cons.injEq]
            simp [Ne.symm hstamp]
      | other value hla hlo => exact ih lastLo

end SensorHub.SignalK
