import Mathlib.Tactic

/-!
# Steps of a dialogue

A step changes a state and succeeds, fails or is left by an exception.  Steps are
put together with the operators of the expressions a dialogue is written as,
which skip their second operand after the other outcomes of the first.

A triple bounds the three outcomes of a step from the states that satisfy its
precondition, and there is one rule for each operator.
-/

namespace Dialogues

variable {σ : Type*}

/-- Success, failure or an exception, and the state it leaves. -/
abbrev Step (σ : Type*) := σ → Option Bool × σ

def given (result : Bool) : Step σ := fun state => (some result, state)

/-- `first && second` -/
def andThen (first second : Step σ) : Step σ := fun state =>
  match first state with
  | (some true, state) => second state
  | outcome => outcome

/-- `first || second` -/
def orElse (first second : Step σ) : Step σ := fun state =>
  match first state with
  | (some false, state) => second state
  | outcome => outcome

/-- What holds after each outcome. -/
structure Outcomes (σ : Type*) where
  success : σ → Prop
  failure : σ → Prop
  thrown : σ → Prop

def Outcomes.Holds (outcomes : Outcomes σ) : Option Bool × σ → Prop
  | (some true, state) => outcomes.success state
  | (some false, state) => outcomes.failure state
  | (none, state) => outcomes.thrown state

def Triple (before : σ → Prop) (step : Step σ) (outcomes : Outcomes σ) : Prop :=
  ∀ state, before state → outcomes.Holds (step state)

variable {before : σ → Prop} {first second step : Step σ} {outcomes : Outcomes σ}

theorem triple_given (result : Bool)
    (hgiven : ∀ state, before state →
      if result then outcomes.success state else outcomes.failure state) :
    Triple before (given result) outcomes := by
  intro state hbefore
  cases result with
  | false => simpa [given, Outcomes.Holds] using hgiven state hbefore
  | true => simpa [given, Outcomes.Holds] using hgiven state hbefore

theorem Triple.mono {outcomes' : Outcomes σ} (htriple : Triple before step outcomes)
    (hsuccess : ∀ state, outcomes.success state → outcomes'.success state)
    (hfailure : ∀ state, outcomes.failure state → outcomes'.failure state)
    (hthrown : ∀ state, outcomes.thrown state → outcomes'.thrown state) :
    Triple before step outcomes' := by
  intro state hbefore
  have hholds := htriple state hbefore
  rcases houtcome : step state with ⟨_ | _ | _, after⟩ <;> rw [houtcome] at hholds
  · exact hthrown after hholds
  · exact hfailure after hholds
  · exact hsuccess after hholds

theorem Triple.exists {ι : Type*} {before : ι → σ → Prop}
    (htriple : ∀ i, Triple (before i) step outcomes) :
    Triple (fun state => ∃ i, before i state) step outcomes :=
  fun state ⟨i, hbefore⟩ => htriple i state hbefore

theorem Triple.or {other : σ → Prop} (htriple : Triple before step outcomes)
    (hother : Triple other step outcomes) :
    Triple (fun state => before state ∨ other state) step outcomes :=
  fun state hstate => hstate.elim (htriple state) (hother state)

/-- The second step starts from what the first has achieved. -/
theorem Triple.andThen {middle : σ → Prop}
    (hfirst : Triple before first { outcomes with success := middle })
    (hsecond : Triple middle second outcomes) :
    Triple before (andThen first second) outcomes := by
  intro state hbefore
  have hholds := hfirst state hbefore
  unfold Dialogues.andThen
  rcases houtcome : first state with ⟨_ | _ | _, after⟩ <;> rw [houtcome] at hholds
  · exact hholds
  · exact hholds
  · exact hsecond after hholds

/-- The second step starts from what the first has left behind. -/
theorem Triple.orElse {middle : σ → Prop}
    (hfirst : Triple before first { outcomes with failure := middle })
    (hsecond : Triple middle second outcomes) :
    Triple before (orElse first second) outcomes := by
  intro state hbefore
  have hholds := hfirst state hbefore
  unfold Dialogues.orElse
  rcases houtcome : first state with ⟨_ | _ | _, after⟩ <;> rw [houtcome] at hholds
  · exact hholds
  · exact hsecond after hholds
  · exact hholds

end Dialogues
