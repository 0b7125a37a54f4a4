import SensorHub.TimerChains

/-!
# The services of the loop and the uptime

`one_second_service` counts its ticks in a static variable and looks at it again
after `one_minute_service`, which may have waited for devices while later ticks
counted on.  The services every five minutes and every hour are run if the count
is right by then.  They log the uptime from counters of their own.
-/

namespace SensorHub.ServiceLoop

open EventRuns TimerChains

/-- `suspended` are the ticks whose `one_minute_service` waits and `running` the
one that is in it; `ended` counts, for the statements only, how many have come
back in the present second. -/
structure Uptime where
  timer : Timer
  counter : ℕ
  minutes : ℕ
  hours : ℕ
  fed : ℕ
  running : Option ℕ
  suspended : List ℕ
  ended : ℕ
  deriving DecidableEq, Repr

inductive UptimeEvent where
  | wait
  | expire
  | tick
  | suspend
  | resume (position : ℕ)
  | done (threw : Bool)
  deriving DecidableEq, Repr

namespace Uptime

/-- `run()` sets the timer and starts the first coroutine. -/
def initial : Uptime :=
  ⟨Timer.unset.start, 0, 0, 0, 0, none, [], 0⟩

def fiveMinutesService (uptime : Uptime) : Uptime :=
  { uptime with minutes := uptime.minutes + 5 }

def hourlyService (uptime : Uptime) : Uptime :=
  { uptime with hours := uptime.hours + 1 }

def feedWatchdog (uptime : Uptime) : Uptime :=
  { uptime with fed := uptime.fed + 1 }

/-- What follows `one_minute_service` in a tick. -/
def laterServices (uptime : Uptime) : Uptime :=
  let uptime := if uptime.counter % 300 = 0 then uptime.fiveMinutesService else uptime
  if uptime.counter % 3600 = 0 then uptime.hourlyService else uptime

/-- `ten_seconds_service` does nothing. -/
def oneSecondService (uptime : Uptime) : Uptime :=
  let uptime := { uptime with counter := uptime.counter + 1, ended := 0 }
  if uptime.counter % 60 = 0 then { uptime with running := some uptime.counter }
  else uptime.laterServices.feedWatchdog

def step (uptime : Uptime) : UptimeEvent → Option Uptime
  | .wait => (uptime.timer.step .wait).map fun timer => { uptime with timer := timer }
  | .expire => (uptime.timer.step .expire).map fun timer => { uptime with timer := timer }
  | .tick =>
      if uptime.running = none then
        (uptime.timer.step .resume).map fun timer =>
          ({ uptime with timer := timer } : Uptime).oneSecondService
      else none
  | .suspend =>
      uptime.running.map fun tick =>
        { uptime with running := none, suspended := tick :: uptime.suspended }
  | .resume position =>
      if uptime.running = none then
        uptime.suspended[position]?.map fun tick =>
          { uptime with running := some tick, suspended := uptime.suspended.eraseIdx position }
      else none
  | .done threw =>
      uptime.running.map fun _ =>
        let uptime := { uptime with running := none }
        let uptime :=
          if threw then uptime else { uptime with ended := uptime.ended + 1 }.laterServices
        uptime.feedWatchdog

/-- The logged uptime is that of the count. -/
def Right (uptime : Uptime) : Prop :=
  uptime.minutes = 5 * (uptime.counter / 300) ∧ uptime.hours = uptime.counter / 3600

/-- In the second that ends, one `one_minute_service` has come back if five
minutes are full. -/
def OneEnded (uptime : Uptime) : Prop :=
  uptime.counter % 300 = 0 → 0 < uptime.counter → uptime.ended = 1

/-- Every tick is for an expiry of the timer and feeds the watchdog when it is
over. -/
structure Paced (uptime : Uptime) : Prop where
  single : uptime.timer.Single
  counter_eq : uptime.counter = uptime.timer.resumed
  fed_eq : uptime.fed + uptime.suspended.length + uptime.running.toList.length = uptime.counter

/-- The uptime was right when the present second began. -/
structure Counted (uptime : Uptime) : Prop where
  young : uptime.counter < 60 →
    uptime.running = none ∧ uptime.suspended = [] ∧ uptime.ended = 0
  minutes_eq : uptime.minutes =
    5 * ((uptime.counter - 1) / 300) + if uptime.counter % 300 = 0 then 5 * uptime.ended else 0
  hours_eq : uptime.hours =
    (uptime.counter - 1) / 3600 + if uptime.counter % 3600 = 0 then uptime.ended else 0

theorem laterServices_eq (uptime : Uptime) :
    uptime.laterServices = { uptime with
      minutes := uptime.minutes + if uptime.counter % 300 = 0 then 5 else 0
      hours := uptime.hours + if uptime.counter % 3600 = 0 then 1 else 0 } := by
  unfold laterServices fiveMinutesService hourlyService
  by_cases hfive : uptime.counter % 300 = 0 <;>
    by_cases hhour : uptime.counter % 3600 = 0 <;> simp [hfive, hhour]

/-- Between two full minutes there is nothing to do later. -/
theorem oneSecondService_eq (uptime : Uptime) :
    uptime.oneSecondService = { uptime with
      counter := uptime.counter + 1
      ended := 0
      fed := uptime.fed + if (uptime.counter + 1) % 60 = 0 then 0 else 1
      running := if (uptime.counter + 1) % 60 = 0 then some (uptime.counter + 1)
        else uptime.running } := by
  unfold oneSecondService
  by_cases hminute : (uptime.counter + 1) % 60 = 0
  · simp [hminute]
  · have hfive : ¬(uptime.counter + 1) % 300 = 0 := by
      omega
    have hhour : ¬(uptime.counter + 1) % 3600 = 0 := by
      omega
    simp [hminute, laterServices_eq, feedWatchdog, hfive, hhour]

theorem paced_initial : initial.Paced :=
  ⟨⟨by decide, rfl⟩, rfl, rfl⟩

theorem counted_initial : initial.Counted :=
  ⟨fun _ => ⟨rfl, rfl, rfl⟩, rfl, rfl⟩

/-- A step of the timer other than a start keeps its chain. -/
theorem single_of_step {timer next : Timer} {event : TimerChains.Event} (hsingle : timer.Single)
    (hstart : event ≠ .start) (hstep : timer.step event = some next) : next.Single :=
  hsingle.step (fun heq => absurd heq hstart) hstep

theorem Paced.step {uptime next : Uptime} {event : UptimeEvent} (hpaced : uptime.Paced)
    (hstep : uptime.step event = some next) : next.Paced := by
  have hsingle := hpaced.single
  have hcounter := hpaced.counter_eq
  have hfed := hpaced.fed_eq
  cases event with
  | wait =>
      obtain ⟨timer, htimer, rfl⟩ := Option.map_eq_some_iff.mp hstep
      refine ⟨single_of_step hsingle (by simp) htimer, ?_, hfed⟩
      have hresumed := (Timer.step_eq htimer).2.1
      simp only [reduceCtorEq, if_false, Nat.add_zero] at hresumed
      exact hcounter.trans hresumed.symm
  | expire =>
      obtain ⟨timer, htimer, rfl⟩ := Option.map_eq_some_iff.mp hstep
      refine ⟨single_of_step hsingle (by simp) htimer, ?_, hfed⟩
      have hresumed := (Timer.step_eq htimer).2.1
      simp only [reduceCtorEq, if_false, Nat.add_zero] at hresumed
      exact hcounter.trans hresumed.symm
  | tick =>
      simp only [Uptime.step] at hstep
      split at hstep
      · next hrunning =>
        obtain ⟨timer, htimer, rfl⟩ := Option.map_eq_some_iff.mp hstep
        rw [oneSecondService_eq]
        refine ⟨single_of_step hsingle (by simp) htimer, ?_, ?_⟩
        · have hresumed := (Timer.step_eq htimer).2.1
          simp only [if_true] at hresumed
          simp only
          omega
        · rw [hrunning] at hfed ⊢
          simp only [Option.toList_none, List.length_nil] at hfed
          split <;> simp <;> omega
      · simp at hstep
  | suspend =>
      obtain ⟨tick, hrunning, rfl⟩ := Option.map_eq_some_iff.mp hstep
      refine ⟨hsingle, hcounter, ?_⟩
      simp only [hrunning, Option.toList_some, Option.toList_none, List.length_cons,
        List.length_nil] at hfed ⊢
      omega
  | resume position =>
      simp only [Uptime.step] at hstep
      split at hstep
      · next hrunning =>
        obtain ⟨tick, hposition, rfl⟩ := Option.map_eq_some_iff.mp hstep
        refine ⟨hsingle, hcounter, ?_⟩
        have hlt := (List.getElem?_eq_some_iff.mp hposition).1
        simp only [hrunning, Option.toList_some, Option.toList_none, List.length_cons,
          List.length_nil, List.length_eraseIdx_of_lt hlt] at hfed ⊢
        omega
      · simp at hstep
  | done threw =>
      obtain ⟨tick, hrunning, rfl⟩ := Option.map_eq_some_iff.mp hstep
      simp only [hrunning, Option.toList_some, List.length_singleton] at hfed
      cases threw with
      | true =>
          refine ⟨hsingle, hcounter, ?_⟩
          simp only [if_true, feedWatchdog, Option.toList_none, List.length_nil]
          omega
      | false =>
          simp only [Bool.false_eq_true, if_false, laterServices_eq]
          refine ⟨hsingle, hcounter, ?_⟩
          simp only [feedWatchdog, Option.toList_none, List.length_nil]
          omega

theorem right_iff {uptime : Uptime} (hcounted : uptime.Counted) :
    uptime.Right ↔ uptime.OneEnded := by
  have hminutes := hcounted.minutes_eq
  have hhours := hcounted.hours_eq
  have hended := fun hyoung => (hcounted.young hyoung).2.2
  unfold Right OneEnded
  split at hminutes
  · next hfive =>
    by_cases hzero : uptime.counter = 0
    · rw [hended (by omega)] at hminutes hhours
      simp only [ite_self, hzero] at hminutes hhours ⊢
      simp [hminutes, hhours]
    · split at hhours
      · omega
      · omega
  · next hfive =>
    rw [if_neg (by omega)] at hhours
    omega

theorem Counted.step {uptime next : Uptime} {event : UptimeEvent} (hcounted : uptime.Counted)
    (hended : event = .tick → uptime.OneEnded) (hstep : uptime.step event = some next) :
    next.Counted := by
  have hyoung := hcounted.young
  cases event with
  | wait =>
      obtain ⟨timer, htimer, rfl⟩ := Option.map_eq_some_iff.mp hstep
      exact ⟨hyoung, hcounted.minutes_eq, hcounted.hours_eq⟩
  | expire =>
      obtain ⟨timer, htimer, rfl⟩ := Option.map_eq_some_iff.mp hstep
      exact ⟨hyoung, hcounted.minutes_eq, hcounted.hours_eq⟩
  | tick =>
      obtain ⟨hminutes, hhours⟩ := (right_iff hcounted).mpr (hended rfl)
      simp only [Uptime.step] at hstep
      split at hstep
      · next hrunning =>
        obtain ⟨timer, htimer, rfl⟩ := Option.map_eq_some_iff.mp hstep
        rw [oneSecondService_eq]
        refine ⟨?_, ?_, ?_⟩
        · intro hlater
          simp only at hlater ⊢
          rw [if_neg (by omega)]
          exact ⟨hrunning, (hyoung (by omega)).2.1, trivial⟩
        · simp [hminutes]
        · simp [hhours]
      · simp at hstep
  | suspend =>
      obtain ⟨tick, hrunning, rfl⟩ := Option.map_eq_some_iff.mp hstep
      refine ⟨?_, hcounted.minutes_eq, hcounted.hours_eq⟩
      intro hlater
      simp [(hyoung hlater).1] at hrunning
  | resume position =>
      simp only [Uptime.step] at hstep
      split at hstep
      · obtain ⟨tick, hposition, rfl⟩ := Option.map_eq_some_iff.mp hstep
        refine ⟨?_, hcounted.minutes_eq, hcounted.hours_eq⟩
        intro hlater
        simp [(hyoung hlater).2.1] at hposition
      · simp at hstep
  | done threw =>
      obtain ⟨tick, hrunning, rfl⟩ := Option.map_eq_some_iff.mp hstep
      have hold : ¬uptime.counter < 60 := by
        intro hlater
        simp [(hyoung hlater).1] at hrunning
      cases threw with
      | true => exact ⟨fun hlater => absurd hlater hold, hcounted.minutes_eq, hcounted.hours_eq⟩
      | false =>
          simp only [Bool.false_eq_true, if_false, laterServices_eq]
          refine ⟨fun hlater => absurd hlater hold, ?_, ?_⟩
          · rw [hcounted.minutes_eq]
            by_cases hfive : uptime.counter % 300 = 0
            · simp [feedWatchdog, hfive]
              omega
            · simp [feedWatchdog, hfive]
          · rw [hcounted.hours_eq]
            by_cases hhour : uptime.counter % 3600 = 0
            · simp [feedWatchdog, hhour]
              omega
            · simp [feedWatchdog, hhour]

end Uptime

/-- In any run the loop ticks once for every expiry of its timer and feeds the
watchdog once a tick, later if the tick waits for devices.  The logged uptime is
right at every tick exactly if, whenever five minutes are full, one
`one_minute_service` comes back without an exception before the next tick. -/
theorem uptime_right_iff {events : List UptimeEvent} {final : Uptime}
    (hrun : run Uptime.step .initial events = some final) :
    Throughout Uptime.step .initial events (fun uptime => uptime.timer.chains ≤ 1 ∧
      uptime.counter + uptime.timer.ended = uptime.timer.expired ∧
      uptime.fed + uptime.suspended.length + uptime.running.toList.length = uptime.counter) ∧
    (AllSteps Uptime.step .initial events (fun uptime event => event = .tick → uptime.Right) ↔
      AllSteps Uptime.step .initial events fun uptime event =>
        event = .tick → uptime.OneEnded) := by
  constructor
  · have hpaced : Throughout Uptime.step .initial events Uptime.Paced := by
      refine throughout_of_steps Uptime.paced_initial ?_
      intro _ event _ uptime next _ _ hstep hpaced
      exact hpaced.step hstep
    refine hpaced.mono ?_
    intro uptime hpaced
    refine ⟨hpaced.single.chains_le, ?_, hpaced.fed_eq⟩
    rw [hpaced.counter_eq]
    exact hpaced.single.expired_eq
  · refine allSteps_iff_of_kept Uptime.Counted hrun Uptime.counted_initial ?_ ?_
    · intro uptime event next hcounted hended hstep
      exact hcounted.step hended hstep
    · intro uptime event hcounted
      rw [Uptime.right_iff hcounted]

/-- A second, with a pass that comes back at once every minute. -/
def second (number : ℕ) : List UptimeEvent :=
  [.wait, .expire, .tick] ++ if number % 60 = 0 then [.done false] else []

/-- The seconds up to this one. -/
def seconds (number : ℕ) : List UptimeEvent :=
  (List.range number).flatMap fun before => second (before + 1)

-- a pass waits for longer than a second at the end of the fifth minute
example :
    (run Uptime.step .initial (seconds 299 ++
      [.wait, .expire, .tick, .suspend, .wait, .expire, .tick, .resume 0, .done false])).map
        (fun uptime => (uptime.counter, uptime.minutes)) = some (301, 0) := by
  decide +kernel

theorem uptime_right_iff_minute :
    Throughout Uptime.step .initial (seconds 60) fun uptime => uptime.timer.chains ≤ 1 ∧
      uptime.counter + uptime.timer.ended = uptime.timer.expired ∧
      uptime.fed + uptime.suspended.length + uptime.running.toList.length = uptime.counter := by
  obtain ⟨final, hrun⟩ : ∃ final, run Uptime.step .initial (seconds 60) = some final :=
    Option.isSome_iff_exists.mp (by decide +kernel)
  exact (uptime_right_iff hrun).1

end SensorHub.ServiceLoop
