import SensorHub.EventRuns

/-!
# Services repeated by a timer

A repeated service waits for a timer in a coroutine.  When the wait ends, the
coroutine sets the timer again and starts the next coroutine before it does its
work.  Setting the timer aborts the waits in progress, and so does cancelling
it; a wait that has ended with the expiry is not taken back, even if its
coroutine has not gone on yet.

The coroutines that are still going to do the work are the chains of the timer.
A service that is started again has one chain as long as no coroutine is between
two waits at that time.
-/

namespace TimerChains

open EventRuns

/-- The coroutines that do not wait yet, those that wait, and those whose wait
has ended.  The last two fields are counted for the statements only. -/
structure Timer where
  spawned : ℕ
  waiting : ℕ
  ended : ℕ
  expired : ℕ
  resumed : ℕ
  deriving DecidableEq, Repr

inductive Event where
  | start
  | wait
  | expire
  | resume
  | cancel
  deriving DecidableEq, Repr

namespace Timer

def unset : Timer := ⟨0, 0, 0, 0, 0⟩

/-- The timer is set and the next coroutine is started. -/
def start (timer : Timer) : Timer :=
  { timer with spawned := timer.spawned + 1, waiting := 0 }

def step (timer : Timer) : Event → Option Timer
  | .start => some timer.start
  | .wait =>
      if timer.spawned = 0 then none
      else some { timer with spawned := timer.spawned - 1, waiting := timer.waiting + 1 }
  | .expire =>
      if timer.waiting = 0 then none
      else some { timer with
        waiting := 0, ended := timer.ended + timer.waiting, expired := timer.expired + 1 }
  | .resume =>
      if timer.ended = 0 then none
      else some ({ timer with ended := timer.ended - 1, resumed := timer.resumed + 1 } : Timer).start
  | .cancel => some { timer with waiting := 0 }

def chains (timer : Timer) : ℕ :=
  timer.spawned + timer.waiting + timer.ended

/-- No coroutine is between two waits. -/
def Settled (timer : Timer) : Prop :=
  timer.spawned = 0 ∧ timer.ended = 0

/-- There is one chain at most, and every expiry was for one coroutine. -/
structure Single (timer : Timer) : Prop where
  chains_le : timer.chains ≤ 1
  expired_eq : timer.resumed + timer.ended = timer.expired

theorem single_unset : unset.Single :=
  ⟨Nat.zero_le _, rfl⟩

/-- The chains that are left by a step. -/
def chainsAfter (timer : Timer) : Event → ℕ
  | .start => timer.spawned + timer.ended + 1
  | .wait | .expire => timer.chains
  | .resume | .cancel => timer.spawned + timer.ended

theorem chainsAfter_le (timer : Timer) {event : Event} (hstart : event ≠ .start) :
    timer.chainsAfter event ≤ timer.chains := by
  cases event with
  | start => exact absurd rfl hstart
  | wait => exact le_rfl
  | expire => exact le_rfl
  | resume =>
      simp only [chainsAfter, chains]
      omega
  | cancel =>
      simp only [chainsAfter, chains]
      omega

/-- What a step makes of the chains and of the count of the work. -/
theorem step_eq {timer next : Timer} {event : Event} (hstep : timer.step event = some next) :
    next.chains = timer.chainsAfter event ∧
      (next.resumed = timer.resumed + if event = .resume then 1 else 0) ∧
      (event = .resume → 0 < timer.ended) := by
  cases event with
  | start =>
      obtain rfl : timer.start = next := Option.some.inj hstep
      simp only [chains, chainsAfter, start]
      refine ⟨by omega, by simp, by simp⟩
  | wait =>
      simp only [step] at hstep
      split at hstep
      · simp at hstep
      · obtain rfl := Option.some.inj hstep
        simp only [chains, chainsAfter]
        refine ⟨by omega, by simp, by simp⟩
  | expire =>
      simp only [step] at hstep
      split at hstep
      · simp at hstep
      · obtain rfl := Option.some.inj hstep
        simp only [chains, chainsAfter]
        refine ⟨by omega, by simp, by simp⟩
  | resume =>
      simp only [step] at hstep
      split at hstep
      · simp at hstep
      · obtain rfl := Option.some.inj hstep
        simp only [chains, chainsAfter, start]
        refine ⟨by omega, by simp, fun _ => by omega⟩
  | cancel =>
      obtain rfl := Option.some.inj hstep
      simp only [chains, chainsAfter]
      refine ⟨by omega, by simp, by simp⟩

theorem Single.step {timer next : Timer} {event : Event} (hsingle : timer.Single)
    (hsettled : event = .start → timer.Settled) (hstep : timer.step event = some next) :
    next.Single := by
  have heq := hsingle.expired_eq
  have hle := hsingle.chains_le
  refine ⟨?_, ?_⟩
  · rw [(step_eq hstep).1]
    by_cases hstart : event = .start
    · obtain ⟨hspawned, hended⟩ := hsettled hstart
      rw [hstart, chainsAfter]
      omega
    · exact (timer.chainsAfter_le hstart).trans hle
  · cases event with
    | start =>
        obtain rfl : timer.start = next := Option.some.inj hstep
        exact heq
    | wait =>
        simp only [Timer.step] at hstep
        split at hstep
        · simp at hstep
        · obtain rfl := Option.some.inj hstep
          exact heq
    | expire =>
        simp only [Timer.step] at hstep
        split at hstep
        · simp at hstep
        · obtain rfl := Option.some.inj hstep
          simp only [chains] at hle
          simp only
          omega
    | resume =>
        simp only [Timer.step] at hstep
        split at hstep
        · simp at hstep
        · obtain rfl := Option.some.inj hstep
          simp only [start]
          omega
    | cancel =>
        obtain rfl := Option.some.inj hstep
        exact heq

/-- A start while a coroutine is between two waits makes a second chain. -/
theorem two_chains {timer next : Timer} (hsettled : ¬timer.Settled)
    (hstep : timer.step .start = some next) : 1 < next.chains := by
  unfold Settled at hsettled
  rw [(step_eq hstep).1, chainsAfter]
  omega

end Timer

end TimerChains
