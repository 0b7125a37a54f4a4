import Mathlib.Tactic

/-!
# Runs of a system driven by events

A step takes a state and an event to the next state, or to nothing when the
event cannot happen there.  The main result says when a property holds in every
state of a run: if an invariant is kept by the good steps, and every other step
from the invariant breaks the property at once, then the property holds
throughout exactly when all steps of the run are good.
-/

namespace EventRuns

variable {σ ε : Type*}

def run (step : σ → ε → Option σ) : σ → List ε → Option σ
  | state, [] => some state
  | state, event :: events =>
      match step state event with
      | none => none
      | some next => run step next events

variable {step : σ → ε → Option σ}

@[simp] theorem run_nil (state : σ) : run step state [] = some state := rfl

theorem run_cons (state : σ) (event : ε) (events : List ε) :
    run step state (event :: events) =
      (step state event).bind fun next => run step next events := by
  cases h : step state event <;> simp [run, h]

theorem run_append (state : σ) (first second : List ε) :
    run step state (first ++ second) =
      (run step state first).bind fun next => run step next second := by
  induction first generalizing state with
  | nil => rfl
  | cons event events ih =>
      rw [List.cons_append, run_cons, run_cons, Option.bind_assoc]
      simp only [ih]

theorem run_append_singleton {state final : σ} {events : List ε} {event : ε}
    (hrun : run step state (events ++ [event]) = some final) :
    ∃ last, run step state events = some last ∧ step last event = some final := by
  rw [run_append, Option.bind_eq_some_iff] at hrun
  obtain ⟨last, hlast, hstep⟩ := hrun
  rw [run_cons] at hstep
  exact ⟨last, hlast, by simpa using hstep⟩

theorem run_of_prefix {state final : σ} {events more : List ε}
    (hrun : run step state (events ++ more) = some final) :
    ∃ last, run step state events = some last ∧
      run step last more = some final := by
  rwa [run_append, Option.bind_eq_some_iff] at hrun

theorem exists_run (htotal : ∀ state event, ∃ next, step state event = some next)
    (start : σ) (events : List ε) : ∃ final, run step start events = some final := by
  induction events generalizing start with
  | nil => exact ⟨start, rfl⟩
  | cons event events ih =>
      obtain ⟨next, hnext⟩ := htotal start event
      obtain ⟨final, hfinal⟩ := ih next
      exact ⟨final, by simp [run_cons, hnext, hfinal]⟩

/-- The property holds in every state of the run. -/
def Throughout (step : σ → ε → Option σ) (start : σ) (events : List ε)
    (property : σ → Prop) : Prop :=
  ∀ before, before <+: events →
    ∀ state, run step start before = some state → property state

/-- Every step of the run is good, seen from the state before it. -/
def AllSteps (step : σ → ε → Option σ) (start : σ) (events : List ε)
    (good : σ → ε → Prop) : Prop :=
  ∀ before event after, events = before ++ event :: after →
    ∀ state, run step start before = some state → good state event

@[simp] theorem allSteps_nil (start : σ) (good : σ → ε → Prop) :
    AllSteps step start [] good := by
  intro before event after hsplit
  simp at hsplit

theorem allSteps_cons_iff {start : σ} {event : ε} {events : List ε}
    {good : σ → ε → Prop} :
    AllSteps step start (event :: events) good ↔
      good start event ∧
        ∀ next, step start event = some next →
          AllSteps step next events good := by
  constructor
  · intro hall
    refine ⟨hall [] event events rfl start rfl, ?_⟩
    intro next hnext before event' after hsplit state hstate
    refine hall (event :: before) event' after (by rw [hsplit]; rfl) state ?_
    rw [run_cons, hnext]
    exact hstate
  · rintro ⟨hhead, htail⟩ before event' after hsplit state hstate
    cases before with
    | nil =>
        rw [List.nil_append, List.cons.injEq] at hsplit
        rw [run_nil, Option.some.injEq] at hstate
        rwa [← hsplit.1, ← hstate]
    | cons first before =>
        rw [List.cons_append, List.cons.injEq] at hsplit
        obtain ⟨rfl, hsplit⟩ := hsplit
        rw [run_cons, Option.bind_eq_some_iff] at hstate
        obtain ⟨next, hnext, hstate⟩ := hstate
        exact htail next hnext before event' after hsplit state hstate

theorem allSteps_append_iff {start : σ} {first second : List ε}
    {good : σ → ε → Prop} :
    AllSteps step start (first ++ second) good ↔
      AllSteps step start first good ∧
        ∀ middle, run step start first = some middle →
          AllSteps step middle second good := by
  induction first generalizing start with
  | nil => simp
  | cons event events ih =>
      rw [List.cons_append, allSteps_cons_iff, allSteps_cons_iff]
      cases hnext : step start event <;> simp [run_cons, hnext, ih, and_assoc]

theorem allSteps_and_iff {start : σ} {events : List ε} {good good' : σ → ε → Prop} :
    AllSteps step start events (fun state event => good state event ∧ good' state event) ↔
      AllSteps step start events good ∧ AllSteps step start events good' := by
  simp only [AllSteps, forall_and]

variable {start final : σ} {events : List ε} {inv property : σ → Prop}
  {good : σ → ε → Prop}

theorem Throughout.mono {property' : σ → Prop}
    (hall : Throughout step start events property)
    (himp : ∀ state, property state → property' state) :
    Throughout step start events property' :=
  fun before hstarts state hstate => himp state (hall before hstarts state hstate)

/-- What holds at the start and is kept by each step of the run holds
throughout. -/
theorem throughout_of_steps (hstart : inv start)
    (hstep : ∀ before event, before ++ [event] <+: events →
      ∀ state next, run step start before = some state →
        run step start (before ++ [event]) = some next →
        step state event = some next → inv state → inv next) :
    Throughout step start events inv := by
  intro before
  induction before using List.reverseRecOn with
  | nil =>
      intro _ state hstate
      rw [run_nil, Option.some.injEq] at hstate
      exact hstate ▸ hstart
  | append_singleton before event ih =>
      intro hstarts state hstate
      obtain ⟨last, hlast, hnext⟩ := run_append_singleton hstate
      have hbefore := ih ((List.prefix_append _ _).trans hstarts) last hlast
      exact hstep before event hstarts last state hlast hstate hnext hbefore

/-- An invariant of the good steps holds throughout a run of good steps. -/
theorem throughout_of_allSteps (hstart : inv start)
    (hstep : ∀ state event next, inv state → good state event →
      step state event = some next → inv next)
    (hgood : AllSteps step start events good) :
    Throughout step start events inv := by
  refine throughout_of_steps hstart ?_
  rintro before event ⟨after, hafter⟩ state next hstate _ hnext hinv
  have hsplit : events = before ++ event :: after := by simp [← hafter]
  exact hstep state event next hinv
    (hgood before event after hsplit state hstate) hnext

/-- A property that every step outside the good ones breaks holds throughout a
run exactly when all steps of the run are good. -/
theorem throughout_iff_allSteps (inv : σ → Prop)
    (hrun : run step start events = some final) (hstart : inv start)
    (hstep : ∀ state event next, inv state → good state event →
      step state event = some next → inv next)
    (hproperty : ∀ state, inv state → property state)
    (hbreak : ∀ state event next, inv state → ¬good state event →
      step state event = some next → ¬property next) :
    Throughout step start events property ↔ AllSteps step start events good := by
  constructor
  · intro hall
    -- the property excludes every step that is not good
    have hinv : Throughout step start events inv := by
      refine throughout_of_steps hstart ?_
      intro before event hstarts state next _ hnext hlast hinv
      by_cases hevent : good state event
      · exact hstep state event next hinv hevent hlast
      · exact absurd (hall _ hstarts next hnext)
          (hbreak state event next hinv hevent hlast)
    intro before event after hsplit state hstate
    by_contra hevent
    have hstarts : before ++ [event] <+: events := ⟨after, by simp [hsplit]⟩
    obtain ⟨more, hmore⟩ := hstarts
    rw [← hmore] at hrun
    obtain ⟨next, hnext, -⟩ := run_of_prefix hrun
    obtain ⟨last, hlast, hlastStep⟩ := run_append_singleton hnext
    rw [hstate, Option.some.injEq] at hlast
    subst hlast
    have hbefore := hinv before
      ((List.prefix_append before [event]).trans ⟨more, hmore⟩) state hstate
    exact hbreak state event next hbefore hevent hlastStep
      (hall _ ⟨more, hmore⟩ next hnext)
  · intro hgood
    exact (throughout_of_allSteps hstart hstep hgood).mono hproperty

/-! ## Measures along a run -/

section Measures

variable {β : Type*} [Preorder β] {measure : σ → β}

/-- No later state of the run has a larger measure than an earlier one. -/
def NeverIncreases (step : σ → ε → Option σ) (start : σ) (events : List ε)
    (measure : σ → β) : Prop :=
  ∀ before middle, before ++ middle <+: events →
    ∀ earlier later, run step start before = some earlier →
      run step earlier middle = some later → measure later ≤ measure earlier

/-- The measure never increases exactly when no step increases it. -/
theorem neverIncreases_iff_allSteps :
    NeverIncreases step start events measure ↔
      AllSteps step start events fun state event =>
        ∀ next, step state event = some next → measure next ≤ measure state := by
  constructor
  · intro hnever before event after hsplit state hstate next hnext
    have hstarts : before ++ [event] <+: events := ⟨after, by simp [hsplit]⟩
    exact hnever before [event] hstarts state next hstate (by simp [run_cons, hnext])
  · intro hall before middle hstarts earlier later hearlier
    induction middle using List.reverseRecOn generalizing later with
    | nil =>
        intro hlater
        rw [run_nil, Option.some.injEq] at hlater
        rw [hlater]
    | append_singleton middle event ih =>
        intro hlater
        obtain ⟨last, hlast, hstep⟩ := run_append_singleton hlater
        obtain ⟨after, hafter⟩ := hstarts
        have hbefore : before ++ middle <+: events :=
          ⟨event :: after, by simp [← hafter]⟩
        have hreached : run step start (before ++ middle) = some last := by
          rw [run_append, hearlier]
          exact hlast
        exact (hall (before ++ middle) event after (by simp [← hafter]) last
          hreached later hstep).trans (ih hbefore last hlast)

end Measures

/-- From an invariant of the good steps, steps can be judged by an equivalent
condition. -/
theorem allSteps_iff_of_kept {good' : σ → ε → Prop} (inv : σ → Prop)
    (hrun : run step start events = some final) (hstart : inv start)
    (hkeep : ∀ state event next, inv state → good state event →
      step state event = some next → inv next)
    (hiff : ∀ state event, inv state → (good' state event ↔ good state event)) :
    AllSteps step start events good' ↔ AllSteps step start events good := by
  induction events generalizing start with
  | nil => simp
  | cons event events ih =>
      rw [run_cons, Option.bind_eq_some_iff] at hrun
      obtain ⟨next, hnext, hrun⟩ := hrun
      rw [allSteps_cons_iff, allSteps_cons_iff, hiff start event hstart]
      refine and_congr_right fun hgood => ?_
      simp only [hnext, Option.some.injEq, forall_eq']
      exact ih hrun (hkeep start event next hstart hgood hnext)

/-- From an invariant, steps can be judged by an equivalent condition. -/
theorem allSteps_congr {good' : σ → ε → Prop} (inv : σ → Prop)
    (hrun : run step start events = some final) (hstart : inv start)
    (hkeep : ∀ state event next, inv state → step state event = some next →
      inv next)
    (hiff : ∀ state event next, inv state → step state event = some next →
      (good state event ↔ good' state event)) :
    AllSteps step start events good ↔ AllSteps step start events good' := by
  have hinv : Throughout step start events inv :=
    throughout_of_steps hstart fun _ event _ state next _ _ hnext hstate =>
      hkeep state event next hstate hnext
  have hstep : ∀ before event after, events = before ++ event :: after →
      ∀ state, run step start before = some state →
        (good state event ↔ good' state event) := by
    intro before event after hsplit state hstate
    have hbefore := hinv before ⟨event :: after, hsplit.symm⟩ state hstate
    rw [hsplit, run_append, hstate, Option.bind_some, run_cons,
      Option.bind_eq_some_iff] at hrun
    obtain ⟨next, hnext, -⟩ := hrun
    exact hiff state event next hbefore hnext
  constructor
  · intro hall before event after hsplit state hstate
    exact (hstep before event after hsplit state hstate).mp
      (hall before event after hsplit state hstate)
  · intro hall before event after hsplit state hstate
    exact (hstep before event after hsplit state hstate).mpr
      (hall before event after hsplit state hstate)

end EventRuns
