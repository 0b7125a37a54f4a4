import SensorHub.EventRuns
import SensorHub.Quantities

/-!
# The central clock

The clock is the system clock with an offset, and it never goes back: the value
it has shown is held until the system clock and the offset have caught up.  A
device that is used as time source adjusts the offset by a part of the
difference between its time and the time stamp of the sample, and the time stamp
is the value that is held.

The offset should come closer to that of the device with every sample, and not
pass it.  The second half says at which samples this is so.
-/

namespace SensorHub

variable {K : Type*} [ExactDouble K]

structure Clock (K : Type*) where
  value : K
  offset : K
  adjustRate : K
  deriving DecidableEq, Repr

namespace Clock

def getClock (clock : Clock K) (sysClock : K) : K :=
  sysClock + clock.offset

/-- Clock should be monotonous, so never allow a decreasing value -/
def setValue (clock : Clock K) (value : K) : Clock K :=
  if value > clock.value then { clock with value := value } else clock

def getTime (clock : Clock K) (sysClock : K) : K × Clock K :=
  let clock := clock.setValue (clock.getClock sysClock)
  (clock.value, clock)

def adjustDiff (clock : Clock K) (diff : K) : Clock K :=
  { clock with offset := clock.offset + clock.adjustRate * diff }

def adjust (clock : Clock K) (sysClock towardsTime : K) : Clock K :=
  clock.adjustDiff (towardsTime - clock.getClock sysClock)

/-- What `Device::insert_value` does with the clock. -/
def insertValue (clock : Clock K) (useAsTimeSource : Bool)
    (value : StampedQuantity K) : Clock K :=
  if useAsTimeSource ∧ value.quantity = .ut then
    clock.adjustDiff (value.value - value.stamp)
  else
    clock

end Clock

/-! ## Runs -/

/-- The time is asked for, or the time source has a sample, at some moment of
the system clock. -/
inductive ClockEvent (K : Type*) where
  | read (sysClock : K)
  | sample (sysClock : K)
  deriving DecidableEq, Repr

structure ClockState (K : Type*) where
  clock : Clock K
  sysClock : K
  deriving DecidableEq, Repr

namespace ClockState

/-- The system clock does not decrease.  The signal of the time source is the
system clock and a constant. -/
def step (constant : K) (state : ClockState K) :
    ClockEvent K → Option (ClockState K)
  | .read sysClock =>
      if sysClock < state.sysClock then none
      else some ⟨(state.clock.getTime sysClock).2, sysClock⟩
  | .sample sysClock =>
      if sysClock < state.sysClock then none
      else
        let (stamp, clock) := state.clock.getTime sysClock
        some ⟨clock.insertValue true ⟨⟨sysClock + constant, stamp⟩, .ut⟩,
          sysClock⟩

def error (constant : K) (state : ClockState K) : K :=
  |state.clock.offset - constant|

/-- How far the clock is held above the system clock with its offset. -/
def heldBack (state : ClockState K) (sysClock : K) : K :=
  max 0 (state.clock.value - state.clock.getClock sysClock)

/-- The offset does not come to the other side of the constant. -/
def SameSide (constant : K) (state next : ClockState K) : Prop :=
  (constant ≤ state.clock.offset → constant ≤ next.clock.offset) ∧
    (state.clock.offset ≤ constant → next.clock.offset ≤ constant)

/-- No event of the run adjusts the offset too far. -/
def NeverOvershoots (constant : K) (start : ClockState K) (events : List (ClockEvent K)) :
    Prop :=
  EventRuns.AllSteps (step constant) start events fun state event =>
    ∀ next, step constant state event = some next → SameSide constant state next

/-- At a sample the clock is not held back too far: at most by the error when
the offset is too small, and by `1 / rate - 1` times the error otherwise. -/
def NotHeldTooFar (constant : K) (state : ClockState K) :
    ClockEvent K → Prop
  | .read _ => True
  | .sample sysClock =>
      if constant ≤ state.clock.offset then
        state.clock.adjustRate * state.heldBack sysClock ≤
          (1 - state.clock.adjustRate) * (state.clock.offset - constant)
      else
        state.heldBack sysClock ≤ constant - state.clock.offset

/-! ## Steps -/

theorem getTime_fst (clock : Clock K) (sysClock : K) :
    (clock.getTime sysClock).1 =
      clock.getClock sysClock + max 0 (clock.value - clock.getClock sysClock) := by
  unfold Clock.getTime Clock.setValue
  by_cases hlater : clock.getClock sysClock > clock.value
  · have hneg : clock.value - clock.getClock sysClock ≤ 0 := by linarith
    simp [hlater, max_eq_left hneg]
  · have hpos : 0 ≤ clock.value - clock.getClock sysClock := by linarith
    simp [hlater, max_eq_right hpos]

theorem getTime_snd (clock : Clock K) (sysClock : K) :
    (clock.getTime sysClock).2.offset = clock.offset ∧
      (clock.getTime sysClock).2.adjustRate = clock.adjustRate := by
  unfold Clock.getTime Clock.setValue
  by_cases hlater : clock.getClock sysClock > clock.value <;> simp [hlater]

theorem step_read {constant : K} {state next : ClockState K} {sysClock : K}
    (hstep : state.step constant (.read sysClock) = some next) :
    next.clock.adjustRate = state.clock.adjustRate ∧
      next.clock.offset = state.clock.offset := by
  simp only [step] at hstep
  split at hstep
  · cases hstep
  · cases hstep
    exact (getTime_snd state.clock sysClock).symm

/-- The error that is left after a sample. -/
theorem step_sample {constant : K} {state next : ClockState K} {sysClock : K}
    (hstep : state.step constant (.sample sysClock) = some next) :
    next.clock.adjustRate = state.clock.adjustRate ∧
      next.clock.offset - constant =
        (1 - state.clock.adjustRate) * (state.clock.offset - constant) -
          state.clock.adjustRate * state.heldBack sysClock := by
  obtain ⟨hoffset, hrate⟩ := getTime_snd state.clock sysClock
  have hstamp := getTime_fst state.clock sysClock
  simp only [step] at hstep
  split at hstep
  · cases hstep
  · cases hstep
    simp only [Clock.insertValue, Clock.adjustDiff, and_self, if_true, hoffset,
      hrate, hstamp, true_and, heldBack, Clock.getClock]
    ring

/-- What is left of an error, when a part `rate` of the error and of the held
amount is taken off, is not larger and has not changed its sign. -/
theorem remaining_iff {rate held : K} (error : K) (hrate : 0 < rate) (hrate' : rate ≤ 1)
    (hheld : 0 ≤ held) :
    |(1 - rate) * error - rate * held| ≤ |error| ∧
        (0 ≤ error → 0 ≤ (1 - rate) * error - rate * held) ∧
        (error ≤ 0 → (1 - rate) * error - rate * held ≤ 0) ↔
      if 0 ≤ error then rate * held ≤ (1 - rate) * error else held ≤ -error := by
  have hpart : 0 ≤ rate * held := mul_nonneg hrate.le hheld
  split
  · next herror =>
      have hrest : 0 ≤ rate * error := mul_nonneg hrate.le herror
      constructor
      · rintro ⟨-, hsame, -⟩
        linarith [hsame herror]
      · intro hle
        have hsame : 0 ≤ (1 - rate) * error - rate * held := by linarith
        refine ⟨?_, fun _ => hsame, fun hnonpos => ?_⟩
        · rw [abs_of_nonneg hsame, abs_of_nonneg herror]
          linarith
        · obtain rfl : error = 0 := le_antisymm hnonpos herror
          linarith
  · next herror =>
      rw [not_le] at herror
      have hrest : (1 - rate) * error ≤ 0 :=
        mul_nonpos_of_nonneg_of_nonpos (by linarith) herror.le
      have hsame : (1 - rate) * error - rate * held ≤ 0 := by linarith
      rw [abs_of_neg herror, abs_of_nonpos hsame]
      constructor
      · rintro ⟨hle, -, -⟩
        have hscaled : rate * held ≤ rate * -error := by linarith
        exact le_of_mul_le_mul_left hscaled hrate
      · intro hle
        have hscaled : rate * held ≤ rate * -error :=
          mul_le_mul_of_nonneg_left hle hrate.le
        exact ⟨by linarith, fun hnonneg => absurd hnonneg herror.not_ge, fun _ => hsame⟩

theorem step_iff {constant : K} {state next : ClockState K}
    {event : ClockEvent K} (hrate : 0 < state.clock.adjustRate)
    (hrate' : state.clock.adjustRate ≤ 1)
    (hstep : state.step constant event = some next) :
    next.error constant ≤ state.error constant ∧ SameSide constant state next ↔
      state.NotHeldTooFar constant event := by
  cases event with
  | read sysClock =>
      refine iff_of_true ?_ trivial
      unfold error SameSide
      rw [(step_read hstep).2]
      exact ⟨le_rfl, id, id⟩
  | sample sysClock =>
      have hheld : 0 ≤ state.heldBack sysClock := le_max_left _ _
      have hremaining := remaining_iff (state.clock.offset - constant) hrate hrate' hheld
      rw [← (step_sample hstep).2] at hremaining
      simpa only [error, SameSide, NotHeldTooFar, sub_nonneg, sub_nonpos, neg_sub] using hremaining

/-- The clock error never increases in a run and the adjustment never overshoots
exactly when the clock is not held too far at any of the samples. -/
theorem neverIncreases_neverOvershoots_iff (constant : K) (start final : ClockState K)
    (events : List (ClockEvent K)) (hrate : 0 < start.clock.adjustRate)
    (hrate' : start.clock.adjustRate ≤ 1)
    (hrun : EventRuns.run (step constant) start events = some final) :
    EventRuns.NeverIncreases (step constant) start events (error constant) ∧
        NeverOvershoots constant start events ↔
      EventRuns.AllSteps (step constant) start events
        (NotHeldTooFar constant) := by
  rw [EventRuns.neverIncreases_iff_allSteps, NeverOvershoots, ← EventRuns.allSteps_and_iff]
  refine EventRuns.allSteps_congr
    (fun state => 0 < state.clock.adjustRate ∧ state.clock.adjustRate ≤ 1)
    hrun ⟨hrate, hrate'⟩ ?_ ?_
  · intro state event next hstate hstep
    have hsame : next.clock.adjustRate = state.clock.adjustRate := by
      cases event with
      | read sysClock => exact (step_read hstep).1
      | sample sysClock => exact (step_sample hstep).1
    rwa [hsame]
  · intro state event next hstate hstep
    rw [← step_iff hstate.1 hstate.2 hstep]
    simp only [hstep, Option.some.injEq, forall_eq']

/-- A clock that has to be moved back by ten seconds, and is still held after
one second. -/
theorem neverIncreases_neverOvershoots_back :
    EventRuns.NeverIncreases (step (-10)) (⟨⟨0, 0, 1 / 2⟩, 0⟩ : ClockState ℚ)
        [.sample 100, .sample 101] (error (-10)) ∧
      NeverOvershoots (-10) (⟨⟨0, 0, 1 / 2⟩, 0⟩ : ClockState ℚ) [.sample 100, .sample 101] := by
  have hfirst : step (-10) (⟨⟨0, 0, 1 / 2⟩, 0⟩ : ClockState ℚ) (.sample 100) =
      some ⟨⟨100, -5, 1 / 2⟩, 100⟩ := by decide +kernel
  have hsecond : step (-10) (⟨⟨100, -5, 1 / 2⟩, 100⟩ : ClockState ℚ) (.sample 101) =
      some ⟨⟨100, -19 / 2, 1 / 2⟩, 101⟩ := by decide +kernel
  apply (neverIncreases_neverOvershoots_iff (-10) _ ⟨⟨100, -19 / 2, 1 / 2⟩, 101⟩
    [.sample 100, .sample 101] (by norm_num) (by norm_num)
    (by decide +kernel)).mpr
  simp only [EventRuns.allSteps_cons_iff, hfirst, hsecond, EventRuns.allSteps_nil,
    Option.some.injEq, forall_eq', and_true]
  norm_num [NotHeldTooFar, heldBack, Clock.getClock]

/-- Two samples at the same moment move the clock back twice. -/
theorem not_neverIncreases_neverOvershoots :
    ¬(EventRuns.NeverIncreases (step (-10)) (⟨⟨0, 0, 1⟩, 0⟩ : ClockState ℚ)
        [.sample 100, .sample 100] (error (-10)) ∧
      NeverOvershoots (-10) (⟨⟨0, 0, 1⟩, 0⟩ : ClockState ℚ) [.sample 100, .sample 100]) := by
  rintro ⟨hnever, -⟩
  have hle := hnever [.sample 100] [.sample 100] (List.prefix_refl _)
    ⟨⟨100, -10, 1⟩, 100⟩ ⟨⟨100, -20, 1⟩, 100⟩ (by decide +kernel)
    (by decide +kernel)
  norm_num [error] at hle

end ClockState

end SensorHub
