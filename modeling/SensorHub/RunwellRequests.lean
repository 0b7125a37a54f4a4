import SensorHub.TimerChains

/-!
# Requests of a Runwell device

The device sends its data on request.  `request_data` is repeated by a timer,
which every initialization sets, also one that fails, and which is cancelled when
the device is disconnected.

A request may be in progress at that time: its coroutine has set the timer for
the next one or is about to do so.  Then the requests go on after the
disconnection, or come twice after the initialization.
-/

namespace SensorHub.Runwell

open EventRuns TimerChains

structure Requester where
  timer : Timer
  portOpen : Bool
  connected : Bool
  sent : ℕ
  deriving DecidableEq, Repr

inductive RequesterEvent where
  | openPort
  | initialized (result : Bool)
  | initializeThrew
  | wait
  | expire
  | tick (written : Bool)
  | disconnect (closes : Bool)
  deriving DecidableEq, Repr

namespace Requester

def fresh : Requester :=
  ⟨.unset, false, false, 0⟩

/-- A connection is attempted by a device that is not connected; if it cannot be
initialized its port is closed. -/
def step (requester : Requester) : RequesterEvent → Option Requester
  | .openPort => if requester.connected then none else some { requester with portOpen := true }
  | .initialized result =>
      if requester.portOpen then
        (requester.timer.step .start).map fun timer =>
          { requester with
            timer := timer
            portOpen := result
            connected := requester.connected || result }
      else none
  | .initializeThrew =>
      if requester.portOpen then some { requester with portOpen := false } else none
  | .wait => (requester.timer.step .wait).map fun timer => { requester with timer := timer }
  | .expire => (requester.timer.step .expire).map fun timer => { requester with timer := timer }
  | .tick written =>
      (requester.timer.step .resume).map fun timer =>
        { requester with
          timer := timer
          sent := if requester.portOpen && written then requester.sent + 1 else requester.sent }
  | .disconnect closes =>
      (requester.timer.step .cancel).map fun timer =>
        let requester := { requester with timer := timer }
        if requester.connected && closes then
          { requester with portOpen := false, connected := false }
        else requester

/-- No request is in progress. -/
def Settled (requester : Requester) : Prop :=
  requester.timer.Settled

end Requester

/-- What a step does with the timer. -/
def RequesterEvent.timerEvent : RequesterEvent → Option TimerChains.Event
  | .initialized _ => some .start
  | .wait => some .wait
  | .expire => some .expire
  | .tick _ => some .resume
  | .disconnect _ => some .cancel
  | .openPort | .initializeThrew => none

/-- Are there requests after the event, if there were some before it? -/
def chained (requested : Bool) : RequesterEvent → Bool
  | .initialized _ => true
  | .disconnect _ => false
  | _ => requested

/-- Has the device been initialized and not been disconnected since? -/
def requested (events : List RequesterEvent) : Bool :=
  events.foldl chained false

namespace Requester

/-- A step is one of the timer, and only a tick sends a request. -/
theorem step_cases {requester next : Requester} {event : RequesterEvent}
    (hstep : requester.step event = some next) :
    (match event.timerEvent with
      | some timerEvent => requester.timer.step timerEvent = some next.timer
      | none => next.timer = requester.timer) ∧
      next.sent ≤ requester.sent + (if event.timerEvent = some .resume then 1 else 0) := by
  cases event with
  | openPort =>
      simp only [step] at hstep
      split at hstep
      · simp at hstep
      · obtain rfl := Option.some.inj hstep
        exact ⟨rfl, le_rfl⟩
  | initialized result =>
      simp only [step] at hstep
      split at hstep
      · obtain ⟨timer, htimer, rfl⟩ := Option.map_eq_some_iff.mp hstep
        exact ⟨htimer, le_rfl⟩
      · simp at hstep
  | initializeThrew =>
      simp only [step] at hstep
      split at hstep
      · obtain rfl := Option.some.inj hstep
        exact ⟨rfl, le_rfl⟩
      · simp at hstep
  | wait =>
      obtain ⟨timer, htimer, rfl⟩ := Option.map_eq_some_iff.mp hstep
      exact ⟨htimer, le_rfl⟩
  | expire =>
      obtain ⟨timer, htimer, rfl⟩ := Option.map_eq_some_iff.mp hstep
      exact ⟨htimer, le_rfl⟩
  | tick written =>
      obtain ⟨timer, htimer, rfl⟩ := Option.map_eq_some_iff.mp hstep
      refine ⟨htimer, ?_⟩
      simp only [RequesterEvent.timerEvent, if_true]
      split <;> omega
  | disconnect closes =>
      simp only [step, Option.map_eq_some_iff] at hstep
      obtain ⟨timer, htimer, rfl⟩ := hstep
      by_cases hcloses : (requester.connected && closes) = true
      · rw [if_pos hcloses]
        exact ⟨htimer, le_rfl⟩
      · rw [if_neg hcloses]
        exact ⟨htimer, le_rfl⟩

/-- No more has been sent than ticks have come. -/
structure Paced (requester : Requester) : Prop where
  single : requester.timer.Single
  sent_le : requester.sent ≤ requester.timer.resumed

theorem paced_fresh : fresh.Paced :=
  ⟨Timer.single_unset, le_rfl⟩

/-- The event sets the timer. -/
def Restarts (event : RequesterEvent) : Prop :=
  event.timerEvent = some .start

/-- The event sets the timer or cancels it. -/
def Controls (event : RequesterEvent) : Prop :=
  event.timerEvent = some .start ∨ event.timerEvent = some .cancel

theorem Paced.step {requester next : Requester} {event : RequesterEvent}
    (hpaced : requester.Paced) (hsettled : Restarts event → requester.Settled)
    (hstep : requester.step event = some next) : next.Paced := by
  obtain ⟨htimer, hsent⟩ := step_cases hstep
  have hle := hpaced.sent_le
  cases hevent : event.timerEvent with
  | none =>
      simp only [hevent, reduceCtorEq, if_false, Nat.add_zero] at htimer hsent
      exact ⟨htimer ▸ hpaced.single, htimer ▸ hsent.trans hle⟩
  | some timerEvent =>
      simp only [hevent, Option.some.injEq] at htimer hsent
      refine ⟨hpaced.single.step ?_ htimer, ?_⟩
      · rintro rfl
        exact hsettled hevent
      · rw [(Timer.step_eq htimer).2.1]
        omega

/-- The chain of the requests is there from an initialization to a
disconnection. -/
theorem chains_step {requester next : Requester} {event : RequesterEvent} {active : Bool}
    (hpaced : requester.Paced) (hchains : requester.timer.chains = if active then 1 else 0)
    (hsettled : Controls event → requester.Settled) (hstep : requester.step event = some next) :
    next.timer.chains = if chained active event then 1 else 0 := by
  have hle := hpaced.single.chains_le
  have htimer := (step_cases hstep).1
  cases event with
  | openPort => exact (congrArg Timer.chains htimer).trans hchains
  | initializeThrew => exact (congrArg Timer.chains htimer).trans hchains
  | initialized result =>
      obtain ⟨hspawned, hended⟩ := hsettled (Or.inl rfl)
      rw [(Timer.step_eq htimer).1, Timer.chainsAfter, hspawned, hended]
      rfl
  | disconnect closes =>
      obtain ⟨hspawned, hended⟩ := hsettled (Or.inr rfl)
      rw [(Timer.step_eq htimer).1, Timer.chainsAfter, hspawned, hended]
      rfl
  | wait => exact (Timer.step_eq htimer).1.trans hchains
  | expire => exact (Timer.step_eq htimer).1.trans hchains
  | tick written =>
      obtain ⟨hafter, -, hended⟩ := Timer.step_eq htimer
      have hpositive := hended rfl
      have hnone : requester.timer.waiting = 0 := by
        simp only [Timer.chains] at hle
        omega
      have hsame : requester.timer.chainsAfter .resume = requester.timer.chains := by
        rw [Timer.chainsAfter, Timer.chains, hnone, Nat.add_zero]
      exact (hafter.trans hsame).trans hchains

/-- A run in which no request is in progress at an initialization or a
disconnection. -/
theorem run_chains {events : List RequesterEvent} {final : Requester}
    (hrun : run step fresh events = some final)
    (hall : AllSteps step fresh events fun requester event =>
      Controls event → requester.Settled) :
    final.Paced ∧ final.timer.chains = if requested events then 1 else 0 := by
  induction events using List.reverseRecOn generalizing final with
  | nil =>
      obtain rfl : fresh = final := Option.some.inj hrun
      exact ⟨paced_fresh, rfl⟩
  | append_singleton events event ih =>
      obtain ⟨last, hlast, hstep⟩ := run_append_singleton hrun
      obtain ⟨hbefore, hevent⟩ := allSteps_append_iff.mp hall
      have hsettled := (allSteps_cons_iff.mp (hevent last hlast)).1
      obtain ⟨hpaced, hchains⟩ := ih hlast hbefore
      rw [requested, List.foldl_append]
      exact ⟨hpaced.step (fun hrestarts => hsettled (Or.inl hrestarts)) hstep,
        chains_step hpaced hchains hsettled hstep⟩

end Requester

/-- The requests of a device are not doubled exactly if no initialization ends
while a request is in progress.  If no disconnection comes then either, there
are requests from every initialization, also from one that fails, to the next
disconnection, and no more than one for each expiry of the timer. -/
theorem requests_paced {events : List RequesterEvent} {final : Requester}
    (hrun : run Requester.step .fresh events = some final) :
    (Throughout Requester.step .fresh events (fun requester => requester.timer.chains ≤ 1) ↔
      AllSteps Requester.step .fresh events fun requester event =>
        Requester.Restarts event → requester.Settled) ∧
    (AllSteps Requester.step .fresh events (fun requester event =>
        Requester.Controls event → requester.Settled) →
      (final.timer.chains = if requested events then 1 else 0) ∧
        final.sent + final.timer.ended ≤ final.timer.expired) := by
  constructor
  · refine throughout_iff_allSteps Requester.Paced hrun Requester.paced_fresh ?_
      (fun _ hpaced => hpaced.single.chains_le) ?_
    · intro requester event next hpaced hsettled hstep
      exact hpaced.step hsettled hstep
    · intro requester event next _ hnot hstep hle
      push Not at hnot
      obtain ⟨hrestarts, hsettled⟩ := hnot
      have htimer := (Requester.step_cases hstep).1
      rw [hrestarts] at htimer
      exact absurd hle (Nat.not_le.mpr (Timer.two_chains hsettled htimer))
  · intro hall
    obtain ⟨hpaced, hchains⟩ := Requester.run_chains hrun hall
    refine ⟨hchains, ?_⟩
    have hsent := hpaced.sent_le
    have hexpired := hpaced.single.expired_eq
    omega

-- a request is in progress when the second initialization ends
example :
    (run Requester.step .fresh
      [.openPort, .initialized false, .wait, .openPort, .expire, .initialized true, .tick true,
        .wait, .wait, .expire, .tick true, .tick true]).map
      (fun requester => (requester.sent, requester.timer.expired)) = some (3, 2) := by
  decide

/-- The first initialization fails, the second one does not. -/
def secondAttempt : List RequesterEvent :=
  [.openPort, .initialized false, .wait, .openPort, .initialized true, .wait, .expire, .tick true]

theorem requests_paced_second :
    ∃ final, run Requester.step .fresh secondAttempt = some final ∧
      Throughout Requester.step .fresh secondAttempt fun requester =>
        requester.timer.chains ≤ 1 := by
  obtain ⟨final, hrun⟩ : ∃ final, run Requester.step .fresh secondAttempt = some final :=
    Option.isSome_iff_exists.mp (by decide)
  refine ⟨final, hrun, (requests_paced hrun).1.mpr ?_⟩
  simp [secondAttempt, allSteps_cons_iff, Requester.Restarts, RequesterEvent.timerEvent,
    Requester.step, Requester.fresh, Timer.step, Timer.start, Timer.unset, Requester.Settled,
    Timer.Settled]

end SensorHub.Runwell
