import SensorHub.EventRuns

/-!
# The service loop and its connecting passes

Every second `one_second_service` sets up the next tick in a coroutine of its
own, and every sixtieth tick runs a pass of `connect_devices`.  Connecting a
device waits for its initialization, so a pass can be suspended while later
ticks come, and a later pass can overtake it.

All coroutines run in one thread: a tick and the end of a wait are handled while
no other coroutine is running.  The only guard against connecting a device twice
is `is_connected()`, which becomes true at the end of the initialization.
-/

namespace SensorHub.ServiceLoop

open EventRuns

structure DeviceState where
  enabled : Bool
  connected : Bool
  deriving DecidableEq, Repr

/-- Where a pass stands with its device: before the test, in `connect()` before
the port was opened, or in `initialize()`. -/
inductive Stage where
  | visiting
  | opening
  | initializing
  deriving DecidableEq, Repr

/-- A coroutine in `connect_devices`. -/
structure Pass where
  device : ℕ
  stage : Stage
  deriving DecidableEq, Repr

/-- How opening the port ends.  A failure is caught in `connect()`, which then
returns; other exceptions leave it and end the pass. -/
inductive OpenOutcome where
  | opened
  | failed
  | threw
  deriving DecidableEq, Repr

/-- How the initialization ends.  A failure closes the port and `connect()`
returns; an exception from there ends the pass. -/
inductive InitializeOutcome where
  | succeeded
  | failed
  | threw
  deriving DecidableEq, Repr

/-- The state between two steps: `running` is the pass being executed and
`suspended` are the devices whose `initialize()` other passes wait in. -/
structure Service where
  counter : ℕ
  devices : List DeviceState
  running : Option Pass
  suspended : List ℕ
  deriving DecidableEq, Repr

inductive Event where
  | tick
  | visit
  | openPort (outcome : OpenOutcome)
  | suspend
  | resume (position : ℕ)
  | initialized (outcome : InitializeOutcome)
  | disconnect (device : ℕ)
  deriving DecidableEq, Repr

namespace Service

def initial (devices : List DeviceState) : Service where
  counter := 0
  devices := devices
  running := none
  suspended := []

def setConnected (service : Service) (index : ℕ) (connected : Bool) : Service :=
  { service with
    devices := service.devices.modify index
      fun device => { device with connected := connected } }

/-- The timer expires: `one_second_service` counts and starts a pass with every
sixtieth tick. -/
def tick (service : Service) : Service :=
  let counter := service.counter + 1
  { service with
    counter := counter
    running := if counter % 60 = 0 then some ⟨0, .visiting⟩ else none }

/-- One round of the loop in `connect_devices`, up to the call of `connect()`. -/
def visit (service : Service) (index : ℕ) : Service :=
  match service.devices[index]? with
  | none => { service with running := none }
  | some device =>
      if device.enabled && !device.connected then
        { service with running := some ⟨index, .opening⟩ }
      else
        { service with running := some ⟨index + 1, .visiting⟩ }

def openPort (service : Service) (index : ℕ) : OpenOutcome → Service
  | .opened => { service with running := some ⟨index, .initializing⟩ }
  | .failed => { service with running := some ⟨index + 1, .visiting⟩ }
  | .threw => { service with running := none }

def initialized (service : Service) (index : ℕ) : InitializeOutcome → Service
  | .succeeded =>
      { service.setConnected index true with
        running := some ⟨index + 1, .visiting⟩ }
  | .failed => { service with running := some ⟨index + 1, .visiting⟩ }
  | .threw => { service with running := none }

def step (service : Service) : Event → Option Service
  | .tick => if service.running = none then some service.tick else none
  | .visit =>
      match service.running with
      | some ⟨index, .visiting⟩ => some (service.visit index)
      | _ => none
  | .openPort outcome =>
      match service.running with
      | some ⟨index, .opening⟩ => some (service.openPort index outcome)
      | _ => none
  | .suspend =>
      match service.running with
      | some ⟨index, .initializing⟩ =>
          some { service with
            running := none, suspended := index :: service.suspended }
      | _ => none
  | .resume position =>
      match service.running, service.suspended[position]? with
      | none, some index =>
          some { service with
            running := some ⟨index, .initializing⟩
            suspended := service.suspended.eraseIdx position }
      | _, _ => none
  | .initialized outcome =>
      match service.running with
      | some ⟨index, .initializing⟩ => some (service.initialized index outcome)
      | _ => none
  | .disconnect index =>
      if service.running = none then some (service.setConnected index false)
      else none

/-- Is the running pass inside `connect()` of a device? -/
def runningIn (running : Option Pass) (index : ℕ) : ℕ :=
  match running with
  | some ⟨device, .opening⟩ => if device = index then 1 else 0
  | some ⟨device, .initializing⟩ => if device = index then 1 else 0
  | _ => 0

/-- The number of `connect()` calls of a device that are in progress. -/
def connecting (service : Service) (index : ℕ) : ℕ :=
  runningIn service.running index + service.suspended.count index

/-- No device is connected twice at the same time. -/
def AtMostOne (service : Service) : Prop :=
  ∀ index, service.connecting index ≤ 1

/-- The running pass has come to a device that it is going to connect. -/
def Connects (service : Service) (index : ℕ) : Prop :=
  service.running = some ⟨index, .visiting⟩ ∧
    ∃ device, service.devices[index]? = some device ∧
      device.enabled = true ∧ device.connected = false

end Service

/-- No other pass is waiting for the initialization of the device that the
running pass is going to connect with this step. -/
def Event.Unattended (service : Service) (event : Event) : Prop :=
  event = .visit → ∀ index, service.Connects index → index ∉ service.suspended

namespace Service

@[simp] theorem runningIn_none (index : ℕ) : runningIn none index = 0 := rfl

@[simp] theorem runningIn_visiting (device index : ℕ) :
    runningIn (some ⟨device, .visiting⟩) index = 0 := rfl

theorem runningIn_opening (device index : ℕ) :
    runningIn (some ⟨device, .opening⟩) index =
      if device = index then 1 else 0 := rfl

theorem runningIn_initializing (device index : ℕ) :
    runningIn (some ⟨device, .initializing⟩) index =
      if device = index then 1 else 0 := rfl

theorem visit_cases {service : Service} {index : ℕ}
    (hrunning : service.running = some ⟨index, .visiting⟩) :
    (service.Connects index ∧
        (service.visit index).running = some ⟨index, .opening⟩ ∧
        (service.visit index).suspended = service.suspended) ∨
      (¬service.Connects index ∧
        ∀ other, (service.visit index).connecting other =
          service.suspended.count other) := by
  unfold visit
  cases hdevice : service.devices[index]? with
  | none =>
      refine .inr ⟨?_, fun other => by simp [connecting]⟩
      rintro ⟨-, device, hsome, -⟩
      simp [hdevice] at hsome
  | some device =>
      by_cases htest : (device.enabled && !device.connected) = true
      · simp only [Bool.and_eq_true, Bool.not_eq_true'] at htest
        refine .inl ⟨⟨hrunning, device, hdevice, htest⟩, ?_⟩
        simp [htest]
      · refine .inr ⟨?_, fun other => by
          simp only [connecting, if_neg htest, runningIn_visiting, Nat.zero_add]⟩
        rintro ⟨-, device', hsome, henabled, hunconnected⟩
        rw [hdevice, Option.some.injEq] at hsome
        subst hsome
        simp [henabled, hunconnected] at htest

/-- Every step either begins a call of `connect()` or begins none. -/
theorem step_cases {service next : Service} {event : Event}
    (hstep : service.step event = some next) :
    (event = .visit ∧ ∃ index, service.Connects index ∧
        next.running = some ⟨index, .opening⟩ ∧
        next.suspended = service.suspended) ∨
      ((event = .visit → ∀ index, ¬service.Connects index) ∧
        ∀ index, next.connecting index ≤ service.connecting index) := by
  cases event with
  | tick =>
      refine .inr ⟨by simp, fun index => ?_⟩
      simp only [step] at hstep
      split at hstep
      · next hnone =>
          rw [Option.some.injEq] at hstep
          subst hstep
          simp only [connecting, tick, hnone, runningIn_none]
          split <;> simp
      · simp at hstep
  | visit =>
      simp only [step] at hstep
      split at hstep
      · next index hrunning =>
          rw [Option.some.injEq] at hstep
          subst hstep
          rcases visit_cases hrunning with hconnects | ⟨hnot, hcount⟩
          · exact .inl ⟨rfl, index, hconnects⟩
          · refine .inr ⟨fun _ other hother => ?_, fun other => ?_⟩
            · have heq := hother.1
              rw [hrunning] at heq
              simp only [Option.some.injEq, Pass.mk.injEq, and_true] at heq
              exact hnot (heq ▸ hother)
            · rw [hcount]
              exact Nat.le_add_left _ _
      · simp at hstep
  | openPort outcome =>
      refine .inr ⟨by simp, fun other => ?_⟩
      simp only [step] at hstep
      split at hstep
      · next index hrunning =>
          rw [Option.some.injEq] at hstep
          subst hstep
          cases outcome <;>
            simp [connecting, openPort, hrunning, runningIn_opening,
              runningIn_initializing]
      · simp at hstep
  | suspend =>
      refine .inr ⟨by simp, fun other => ?_⟩
      simp only [step] at hstep
      split at hstep
      · next index hrunning =>
          rw [Option.some.injEq] at hstep
          subst hstep
          simp only [connecting, hrunning, runningIn_none,
            runningIn_initializing, List.count_cons, beq_iff_eq]
          omega
      · simp at hstep
  | resume position =>
      refine .inr ⟨by simp, fun other => ?_⟩
      simp only [step] at hstep
      split at hstep
      · next index hrunning hget =>
          rw [Option.some.injEq] at hstep
          subst hstep
          obtain ⟨hlt, hvalue⟩ := List.getElem?_eq_some_iff.mp hget
          have hperm := (List.getElem_cons_eraseIdx_perm hlt).count_eq other
          rw [hvalue, List.count_cons] at hperm
          simp only [beq_iff_eq] at hperm
          simp only [connecting, hrunning, runningIn_none,
            runningIn_initializing]
          omega
      · simp at hstep
  | initialized outcome =>
      refine .inr ⟨by simp, fun other => ?_⟩
      simp only [step] at hstep
      split at hstep
      · next index hrunning =>
          rw [Option.some.injEq] at hstep
          subst hstep
          cases outcome <;>
            simp [connecting, initialized, setConnected]
      · simp at hstep
  | disconnect index =>
      refine .inr ⟨by simp, fun other => ?_⟩
      simp only [step] at hstep
      split at hstep
      · rw [Option.some.injEq] at hstep
        subst hstep
        exact le_refl _
      · simp at hstep

theorem step_atMostOne {service next : Service} {event : Event}
    (hone : service.AtMostOne) (hunattended : event.Unattended service)
    (hstep : service.step event = some next) : next.AtMostOne := by
  intro other
  rcases step_cases hstep with
    ⟨hvisit, index, hconnects, hrunning, hsuspended⟩ | ⟨-, hle⟩
  · have hnotMem := hunattended hvisit index hconnects
    simp only [connecting, hrunning, hsuspended, runningIn_opening]
    by_cases heq : index = other
    · subst heq
      simp [List.count_eq_zero.mpr hnotMem]
    · rw [if_neg heq, Nat.zero_add]
      exact (Nat.le_add_left _ _).trans (hone other)
  · exact (hle other).trans (hone other)

theorem step_not_atMostOne {service next : Service} {event : Event}
    (hattended : ¬event.Unattended service)
    (hstep : service.step event = some next) : ¬next.AtMostOne := by
  intro hone
  simp only [Event.Unattended, not_forall, not_not] at hattended
  obtain ⟨hvisit, index, hconnects, hmem⟩ := hattended
  rcases step_cases hstep with
    ⟨-, index', hconnects', hrunning, hsuspended⟩ | ⟨hnot, -⟩
  · have heq := hconnects'.1
    rw [hconnects.1] at heq
    simp only [Option.some.injEq, Pass.mk.injEq, and_true] at heq
    subst heq
    have hle := hone index
    have hpos := List.count_pos_iff.mpr hmem
    simp only [connecting, hrunning, hsuspended, runningIn_opening, if_true]
      at hle
    omega
  · exact hnot hvisit index hconnects

end Service

theorem unattended_ticks (service : Service) (count : ℕ) :
    AllSteps Service.step service (List.replicate count .tick)
      fun service event => event.Unattended service := by
  intro before event after hsplit state _ hvisit
  have hmem : event ∈ List.replicate count Event.tick := by simp [hsplit]
  rw [List.eq_of_mem_replicate hmem] at hvisit
  exact absurd hvisit (by decide)

end SensorHub.ServiceLoop
