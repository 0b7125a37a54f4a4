import Mathlib.Tactic

/-!
# Chains of commands

An action sends commands to a device and returns whether it succeeded.  It is a
function of the commands sent before it, and the device answers a command from
all commands sent up to it.  The operators are those of the expressions chains
are written with: `&&` and the conditional.

An action is orderly if it succeeds only when all its commands did, and sends
nothing after a command that failed.
-/

namespace CommandChains

variable {κ : Type*}

/-- From the commands sent before to the result and the commands sent by
then. -/
abbrev Action (κ : Type*) := List κ → Bool × List κ

def exec (device : List κ → Bool) (command : κ) : Action κ := fun sent =>
  (device (sent ++ [command]), sent ++ [command])

/-- An operand that sends nothing. -/
def given (result : Bool) : Action κ := fun sent => (result, sent)

/-- `first && second` -/
def andThen (first second : Action κ) : Action κ := fun sent =>
  if (first sent).1 then second (first sent).2 else first sent

/-- `test ? yes : no` -/
def ifElse (test yes no : Action κ) : Action κ := fun sent =>
  if (test sent).1 then yes (test sent).2 else no (test sent).2

theorem andThen_of_true {first : Action κ} {sent sent' : List κ}
    (hfirst : first sent = (true, sent')) (second : Action κ) :
    andThen first second sent = second sent' := by
  simp [andThen, hfirst]

theorem andThen_of_false {first : Action κ} {sent sent' : List κ}
    (hfirst : first sent = (false, sent')) (second : Action κ) :
    andThen first second sent = (false, sent') := by
  simp [andThen, hfirst]

theorem ifElse_of_true {test : Action κ} {sent sent' : List κ}
    (htest : test sent = (true, sent')) (yes no : Action κ) :
    ifElse test yes no sent = yes sent' := by
  simp [ifElse, htest]

theorem ifElse_of_false {test : Action κ} {sent sent' : List κ}
    (htest : test sent = (false, sent')) (yes no : Action κ) :
    ifElse test yes no sent = no sent' := by
  simp [ifElse, htest]

theorem andThen_assoc (first second third : Action κ) :
    andThen (andThen first second) third =
      andThen first (andThen second third) := by
  funext sent
  rcases hfirst : first sent with ⟨_ | _, sent'⟩
  · rw [andThen_of_false hfirst]
    exact andThen_of_false (andThen_of_false hfirst second) third
  · rw [andThen_of_true hfirst]
    simp only [andThen, hfirst, if_true]

def Extends (action : Action κ) : Prop :=
  ∀ sent, sent <+: (action sent).2

theorem extends_exec (device : List κ → Bool) (command : κ) :
    Extends (exec device command) :=
  fun sent => List.prefix_append sent [command]

theorem extends_given (result : Bool) : Extends (given result : Action κ) :=
  fun _ => List.prefix_rfl

theorem Extends.andThen {first second : Action κ} (hfirst : Extends first)
    (hsecond : Extends second) : Extends (andThen first second) := by
  intro sent
  have hstart := hfirst sent
  rcases hresult : first sent with ⟨_ | _, sent'⟩ <;> rw [hresult] at hstart
  · rw [andThen_of_false hresult]
    exact hstart
  · rw [andThen_of_true hresult]
    exact hstart.trans (hsecond sent')

theorem Extends.ifElse {test yes no : Action κ} (htest : Extends test)
    (hyes : Extends yes) (hno : Extends no) : Extends (ifElse test yes no) := by
  intro sent
  have hstart := htest sent
  rcases hresult : test sent with ⟨_ | _, sent'⟩ <;> rw [hresult] at hstart
  · rw [ifElse_of_false hresult]
    exact hstart.trans (hno sent')
  · rw [ifElse_of_true hresult]
    exact hstart.trans (hyes sent')

/-! ## Orderly actions -/

/-- What an action did after the commands in `sent`. -/
structure OrderlyAfter (device : List κ → Bool) (sent : List κ)
    (outcome : Bool × List κ) : Prop where
  starts : sent <+: outcome.2
  succeeds : outcome.1 = true →
    ∀ before command, sent <+: before → before ++ [command] <+: outcome.2 →
      device (before ++ [command]) = true
  stops : ∀ before command, sent <+: before → before ++ [command] <+: outcome.2 →
    device (before ++ [command]) = false → before ++ [command] = outcome.2

def Orderly (device : List κ → Bool) (action : Action κ) : Prop :=
  ∀ sent, OrderlyAfter device sent (action sent)

theorem Orderly.extends {device : List κ → Bool} {action : Action κ}
    (horderly : Orderly device action) : Extends action :=
  fun sent => (horderly sent).starts

variable {device : List κ → Bool}

theorem prefix_cases {middle final before : List κ} {command : κ}
    (hmiddle : middle <+: final) (hbefore : before ++ [command] <+: final) :
    before ++ [command] <+: middle ∨ middle <+: before := by
  rcases List.prefix_or_prefix_of_prefix hbefore hmiddle with hsent | hsent
  · exact .inl hsent
  · rcases List.prefix_concat_iff.mp hsent with heq | hsent
    · exact .inl (heq ▸ List.prefix_rfl)
    · exact .inr hsent

theorem orderlyAfter_given (result : Bool) (sent : List κ) :
    OrderlyAfter device sent (given result sent) := by
  have hnone : ∀ before command, sent <+: before →
      ¬before ++ [command] <+: (given result sent).2 := by
    intro before command hbefore hsent
    have hlength := hbefore.length_le
    have hmore := hsent.length_le
    simp only [given, List.length_append, List.length_singleton] at hmore
    omega
  exact ⟨List.prefix_rfl,
    fun _ before command hbefore hsent => absurd hsent (hnone before command hbefore),
    fun before command hbefore hsent => absurd hsent (hnone before command hbefore)⟩

theorem orderly_exec (command : κ) : Orderly device (exec device command) := by
  intro sent
  have honly : ∀ before command', sent <+: before →
      before ++ [command'] <+: (exec device command sent).2 →
      before ++ [command'] = sent ++ [command] := by
    intro before command' hbefore hsent
    have hlength := hbefore.length_le
    refine hsent.eq_of_length_le ?_
    simp only [exec, List.length_append, List.length_singleton]
    omega
  refine ⟨List.prefix_append _ _, ?_, ?_⟩
  · intro hresult before command' hbefore hsent
    rw [honly before command' hbefore hsent]
    exact hresult
  · intro before command' hbefore hsent _
    exact honly before command' hbefore hsent

/-- After an orderly first part only what the second one does matters. -/
theorem orderlyAfter_andThen_iff {first second : Action κ} {sent : List κ}
    (hfirst : OrderlyAfter device sent (first sent))
    (hsecond : Extends second) :
    OrderlyAfter device sent (andThen first second sent) ↔
      ((first sent).1 = true →
        OrderlyAfter device (first sent).2 (second (first sent).2)) := by
  rcases hresult : first sent with ⟨_ | _, middle⟩
  · simp only [andThen_of_false hresult, Bool.false_eq_true, false_implies, iff_true]
    exact hresult ▸ hfirst
  · simp only [andThen_of_true hresult, forall_const]
    rw [hresult] at hfirst
    constructor
    · intro hwhole
      exact ⟨hsecond middle,
        fun htrue before command hbefore =>
          hwhole.succeeds htrue before command (hfirst.starts.trans hbefore),
        fun before command hbefore =>
          hwhole.stops before command (hfirst.starts.trans hbefore)⟩
    · intro horderly
      refine ⟨hfirst.starts.trans horderly.starts, ?_, ?_⟩
      · intro htrue before command hbefore hsent
        rcases prefix_cases horderly.starts hsent with hmiddle | hmiddle
        · exact hfirst.succeeds rfl before command hbefore hmiddle
        · exact horderly.succeeds htrue before command hmiddle hsent
      · intro before command hbefore hsent hfailed
        rcases prefix_cases horderly.starts hsent with hmiddle | hmiddle
        · rw [hfirst.succeeds rfl before command hbefore hmiddle] at hfailed
          exact absurd hfailed (by decide)
        · exact horderly.stops before command hmiddle hsent hfailed

theorem Orderly.andThen {first second : Action κ}
    (hfirst : Orderly device first) (hsecond : Orderly device second) :
    Orderly device (andThen first second) := by
  intro sent
  rw [orderlyAfter_andThen_iff (hfirst sent) hsecond.extends]
  intro _
  exact hsecond _

/-- A command that failed and was followed by another one. -/
theorem not_orderlyAfter {sent : List κ} {outcome : Bool × List κ} (command next : κ)
    (hfailed : device (sent ++ [command]) = false)
    (hnext : sent ++ [command] ++ [next] <+: outcome.2) :
    ¬OrderlyAfter device sent outcome := by
  intro horderly
  have hlast := horderly.stops sent command List.prefix_rfl
    ((List.prefix_append _ _).trans hnext) hfailed
  have hlength := hnext.length_le
  rw [← hlast] at hlength
  simp at hlength

/-! ## Commands in a row -/

/-- The commands one after the other, up to the first failure. -/
def chain (device : List κ → Bool) : List κ → Action κ
  | [] => given true
  | command :: commands => andThen (exec device command) (chain device commands)

theorem orderly_chain (device : List κ → Bool) (commands : List κ) :
    Orderly device (chain device commands) := by
  induction commands with
  | nil => exact fun sent => orderlyAfter_given true sent
  | cons command commands ih => exact (orderly_exec command).andThen ih

theorem chain_eq_true_iff (device : List κ → Bool) (commands sent : List κ) :
    (chain device commands sent).1 = true ↔
      ∀ before command, before ++ [command] <+: commands →
        device (sent ++ (before ++ [command])) = true := by
  induction commands generalizing sent with
  | nil => simp [chain, given]
  | cons first commands ih =>
      rcases hfirst : device (sent ++ [first]) with _ | _
      · have hexec : exec device first sent = (false, sent ++ [first]) := by
          simp [exec, hfirst]
        rw [chain, andThen_of_false hexec]
        simp only [Bool.false_eq_true, false_iff]
        intro hall
        have hthis := hall [] first (by simp)
        rw [List.nil_append, hfirst] at hthis
        exact absurd hthis (by decide)
      · have hexec : exec device first sent = (true, sent ++ [first]) := by
          simp [exec, hfirst]
        rw [chain, andThen_of_true hexec, ih]
        constructor
        · intro hall before command hbefore
          cases before with
          | nil =>
              obtain rfl : command = first := by simpa using hbefore
              exact hfirst
          | cons head before =>
              rw [List.cons_append, List.cons_prefix_cons] at hbefore
              have hmore := hall before command hbefore.2
              rw [hbefore.1]
              simpa using hmore
        · intro hall before command hbefore
          have hmore := hall (first :: before) command
            (by rwa [List.cons_append, List.cons_prefix_cons, and_iff_right rfl])
          simpa using hmore

theorem chain_of_true {commands sent : List κ}
    (hresult : (chain device commands sent).1 = true) :
    chain device commands sent = (true, sent ++ commands) := by
  induction commands generalizing sent with
  | nil => simp [chain, given]
  | cons first commands ih =>
      rcases hfirst : device (sent ++ [first]) with _ | _
      · simp [chain, andThen, exec, hfirst] at hresult
      · have hexec : exec device first sent = (true, sent ++ [first]) := by
          simp [exec, hfirst]
        rw [chain, andThen_of_true hexec] at hresult ⊢
        rw [ih hresult]
        simp

theorem andThen_given_true (action : Action κ) :
    andThen action (given true) = action := by
  funext sent
  rcases hresult : action sent with ⟨_ | _, sent'⟩
  · exact andThen_of_false hresult _
  · exact andThen_of_true hresult _

end CommandChains
