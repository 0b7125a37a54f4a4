import Mathlib.Tactic

/-!
# Recognizers of one symbol at a time

A recognizer takes a symbol and accepts, rejects or goes on in another state.
The words which it still has to read in a state form the language of the state.
When every step takes the derivative of the language, the recognizer accepts
exactly at the end of a word of the language, and it rejects exactly at the
first symbol after which no word of the language can follow.

The languages are built from forms: a form reads a word and changes a register
on the way.
-/

namespace Recognizers

inductive Verdict (σ β : Type*) where
  | accept (result : β)
  | reject
  | next (state : σ)

inductive Scan (σ α β : Type*) where
  | accepted (result : β) (unread : List α)
  | rejected (unread : List α)
  | unfinished (state : σ)

variable {σ α β : Type*}

/-- Take symbols until one of them decides. -/
def scan (step : σ → α → Verdict σ β) : σ → List α → Scan σ α β
  | state, [] => .unfinished state
  | state, symbol :: rest =>
      match step state symbol with
      | .accept result => .accepted result rest
      | .reject => .rejected rest
      | .next state => scan step state rest

def Scan.continue (step : σ → α → Verdict σ β) (more : List α) :
    Scan σ α β → Scan σ α β
  | .accepted result unread => .accepted result (unread ++ more)
  | .rejected unread => .rejected (unread ++ more)
  | .unfinished state => scan step state more

theorem scan_append (step : σ → α → Verdict σ β) (state : σ)
    (first second : List α) :
    scan step state (first ++ second) =
      (scan step state first).continue step second := by
  induction first generalizing state with
  | nil => rfl
  | cons symbol first ih =>
      rw [List.cons_append, scan, scan]
      cases step state symbol with
      | accept result => rfl
      | reject => rfl
      | next state => exact ih state

/-! ## Languages of states -/

/-- Every step takes the derivative of the language of its state. -/
structure Derives (step : σ → α → Verdict σ β) (inv : σ → Prop)
    (language : σ → List α → β → Prop) : Prop where
  not_nil : ∀ {state result}, inv state → ¬language state [] result
  alive : ∀ {state}, inv state → ∃ word result, language state word result
  accept : ∀ {state symbol result}, inv state →
    step state symbol = .accept result → ∀ word result',
      language state (symbol :: word) result' ↔ word = [] ∧ result' = result
  reject : ∀ {state symbol}, inv state → step state symbol = .reject →
    ∀ word result, ¬language state (symbol :: word) result
  next : ∀ {state symbol state'}, inv state →
    step state symbol = .next state' → inv state' ∧ ∀ word result,
      language state (symbol :: word) result ↔ language state' word result

/-- The word can be continued to one of the language. -/
def Viable (language : List α → β → Prop) (word : List α) : Prop :=
  ∃ more result, language (word ++ more) result

/-- The word can be continued, and has to be. -/
def Begins (language : List α → β → Prop) (word : List α) : Prop :=
  ∃ more result, more ≠ [] ∧ language (word ++ more) result

namespace Derives

variable {step : σ → α → Verdict σ β} {inv : σ → Prop}
  {language : σ → List α → β → Prop}

theorem begins_nil (h : Derives step inv language) {state : σ}
    (hinv : inv state) : Begins (language state) [] := by
  obtain ⟨word, result, hword⟩ := h.alive hinv
  refine ⟨word, result, ?_, hword⟩
  rintro rfl
  exact h.not_nil hinv hword

theorem begins_cons_iff (h : Derives step inv language) {state state' : σ}
    {symbol : α} (hinv : inv state) (hstep : step state symbol = .next state')
    (word : List α) :
    Begins (language state) (symbol :: word) ↔ Begins (language state') word := by
  unfold Begins
  simp only [List.cons_append, (h.next hinv hstep).2]

theorem not_begins_of_accept (h : Derives step inv language) {state : σ}
    {symbol : α} {result : β} (hinv : inv state)
    (hstep : step state symbol = .accept result) (word : List α) :
    ¬Begins (language state) (symbol :: word) := by
  rintro ⟨more, result', hmore, hword⟩
  have hnil := ((h.accept hinv hstep _ _).mp hword).1
  exact hmore (List.append_eq_nil_iff.mp hnil).2

theorem not_viable_of_reject (h : Derives step inv language) {state : σ}
    {symbol : α} (hinv : inv state) (hstep : step state symbol = .reject)
    (word : List α) : ¬Viable (language state) (symbol :: word) :=
  fun ⟨_, _, hword⟩ => h.reject hinv hstep _ _ hword

/-- The recognizer accepts exactly at the end of a word of the language. -/
theorem scan_accepted_iff (h : Derives step inv language) {state : σ}
    (hinv : inv state) (input unread : List α) (result : β) :
    scan step state input = .accepted result unread ↔
      ∃ word, word ++ unread = input ∧ language state word result := by
  induction input generalizing state with
  | nil =>
      refine iff_of_false (by simp [scan]) ?_
      rintro ⟨word, hword, hlanguage⟩
      rw [List.append_eq_nil_iff] at hword
      exact h.not_nil hinv (hword.1 ▸ hlanguage)
  | cons symbol rest ih =>
      have hsplit : (∃ word, word ++ unread = symbol :: rest ∧
          language state word result) ↔
          ∃ word, word ++ unread = rest ∧
            language state (symbol :: word) result := by
        constructor
        · rintro ⟨word, hword, hlanguage⟩
          cases word with
          | nil => exact absurd hlanguage (h.not_nil hinv)
          | cons first word =>
              rw [List.cons_append, List.cons.injEq] at hword
              exact ⟨word, hword.2, hword.1 ▸ hlanguage⟩
        · rintro ⟨word, hword, hlanguage⟩
          exact ⟨symbol :: word, by rw [List.cons_append, hword], hlanguage⟩
      rw [hsplit, scan]
      cases hstep : step state symbol with
      | accept result' =>
          simp only [h.accept hinv hstep, Scan.accepted.injEq]
          constructor
          · rintro ⟨rfl, rfl⟩
            exact ⟨[], rfl, rfl, rfl⟩
          · rintro ⟨word, hword, rfl, rfl⟩
            exact ⟨rfl, hword.symm⟩
      | reject =>
          refine iff_of_false (by simp) ?_
          rintro ⟨word, -, hlanguage⟩
          exact h.reject hinv hstep _ _ hlanguage
      | next state' =>
          simp only [(h.next hinv hstep).2]
          exact ih (h.next hinv hstep).1

/-- The recognizer rejects exactly at the first symbol after which no word of
the language can follow. -/
theorem scan_rejected_iff (h : Derives step inv language) {state : σ}
    (hinv : inv state) (input unread : List α) :
    scan step state input = .rejected unread ↔
      ∃ word symbol, word ++ symbol :: unread = input ∧
        Begins (language state) word ∧
        ¬Viable (language state) (word ++ [symbol]) := by
  induction input generalizing state with
  | nil => simp [scan]
  | cons symbol rest ih =>
      rw [scan]
      cases hstep : step state symbol with
      | accept result =>
          refine iff_of_false (by simp) ?_
          rintro ⟨word, symbol', hword, hbegins, hviable⟩
          cases word with
          | nil =>
              obtain ⟨rfl, -⟩ := List.cons.inj hword
              exact hviable ⟨[], result, (h.accept hinv hstep _ _).mpr ⟨rfl, rfl⟩⟩
          | cons first word =>
              obtain ⟨rfl, -⟩ := List.cons.inj hword
              exact h.not_begins_of_accept hinv hstep _ hbegins
      | reject =>
          simp only [Scan.rejected.injEq]
          constructor
          · rintro rfl
            exact ⟨[], symbol, rfl, h.begins_nil hinv,
              h.not_viable_of_reject hinv hstep []⟩
          · rintro ⟨word, symbol', hword, hbegins, -⟩
            cases word with
            | nil => exact (List.cons.inj hword).2.symm
            | cons first word =>
                obtain ⟨rfl, -⟩ := List.cons.inj hword
                obtain ⟨more, result, -, hlanguage⟩ := hbegins
                exact absurd hlanguage (h.reject hinv hstep _ _)
      | next state' =>
          obtain ⟨hinv', hnext⟩ := h.next hinv hstep
          refine (ih hinv').trans ⟨?_, ?_⟩
          · rintro ⟨word, symbol', rfl, hbegins, hviable⟩
            refine ⟨symbol :: word, symbol', rfl,
              (h.begins_cons_iff hinv hstep word).mpr hbegins, ?_⟩
            rintro ⟨more, result, hlanguage⟩
            exact hviable ⟨more, result, (hnext _ _).mp hlanguage⟩
          · rintro ⟨word, symbol', hword, hbegins, hviable⟩
            cases word with
            | nil =>
                obtain ⟨rfl, -⟩ := List.cons.inj hword
                obtain ⟨more, result, hlanguage⟩ := h.alive hinv'
                exact absurd ⟨more, result, (hnext _ _).mpr hlanguage⟩ hviable
            | cons first word =>
                obtain ⟨rfl, hrest⟩ := List.cons.inj hword
                refine ⟨word, symbol', hrest,
                  (h.begins_cons_iff hinv hstep word).mp hbegins, ?_⟩
                rintro ⟨more, result, hlanguage⟩
                exact hviable ⟨more, result, (hnext _ _).mpr hlanguage⟩

theorem scan_unfinished_iff (h : Derives step inv language) {state : σ}
    (hinv : inv state) (input : List α) :
    (∃ state', scan step state input = .unfinished state') ↔
      Begins (language state) input := by
  induction input generalizing state with
  | nil => exact iff_of_true ⟨state, rfl⟩ (h.begins_nil hinv)
  | cons symbol rest ih =>
      rw [scan]
      cases hstep : step state symbol with
      | accept result =>
          exact iff_of_false (by simp) (h.not_begins_of_accept hinv hstep rest)
      | reject =>
          refine iff_of_false (by simp) ?_
          rintro ⟨more, result, -, hlanguage⟩
          exact h.reject hinv hstep _ _ hlanguage
      | next state' =>
          rw [h.begins_cons_iff hinv hstep]
          exact ih (h.next hinv hstep).1

end Derives

/-! ## Forms -/

/-- Words read from some register to another. -/
abbrev Form (ρ α : Type*) := ρ → List α → ρ → Prop

namespace Form

variable {ρ : Type*}

def done : Form ρ α :=
  fun register word register' => word = [] ∧ register' = register

/-- One given symbol, and then another form. -/
def lit (symbol : α) (rest : Form ρ α) : Form ρ α :=
  fun register word register' =>
    ∃ word', word = symbol :: word' ∧ rest register word' register'

/-- A number of symbols of a class, which are put into the register. -/
def many (accepts : α → Prop) (push : ρ → α → ρ) (rest : Form ρ α) :
    Form ρ α :=
  fun register word register' =>
    ∃ text word', (∀ symbol ∈ text, accepts symbol) ∧ word = text ++ word' ∧
      rest (text.foldl push register) word' register'

/-- At least one symbol of a class. -/
def many1 (accepts : α → Prop) (push : ρ → α → ρ) (rest : Form ρ α) :
    Form ρ α :=
  fun register word register' =>
    ∃ symbol word', accepts symbol ∧ word = symbol :: word' ∧
      many accepts push rest (push register symbol) word' register'

def either (first second : Form ρ α) : Form ρ α :=
  fun register word register' =>
    first register word register' ∨ second register word register'

variable {accepts : α → Prop} {push : ρ → α → ρ} {rest : Form ρ α}
  {register register' : ρ} {symbol : α} {word : List α}

@[simp] theorem done_nil_iff :
    done register ([] : List α) register' ↔ register' = register := by
  simp [done]

@[simp] theorem not_done_cons :
    ¬done register (symbol :: word) register' := by
  simp [done]

@[simp] theorem not_lit_nil : ¬lit symbol rest register [] register' := by
  simp [lit]

@[simp] theorem lit_cons_iff {first : α} :
    lit symbol rest register (first :: word) register' ↔
      first = symbol ∧ rest register word register' := by
  simp [lit, and_assoc]

@[simp] theorem many_nil_iff :
    many accepts push rest register [] register' ↔
      rest register [] register' := by
  constructor
  · rintro ⟨text, word', -, hword, hrest⟩
    obtain ⟨rfl, rfl⟩ := List.append_eq_nil_iff.mp hword.symm
    exact hrest
  · intro hrest
    exact ⟨[], [], by simp, rfl, hrest⟩

@[simp] theorem many_cons_iff :
    many accepts push rest register (symbol :: word) register' ↔
      accepts symbol ∧ many accepts push rest (push register symbol) word register' ∨
        rest register (symbol :: word) register' := by
  constructor
  · rintro ⟨text, word', htext, hword, hrest⟩
    cases text with
    | nil => exact Or.inr (by rwa [hword])
    | cons first text =>
        obtain ⟨rfl, rfl⟩ := List.cons.inj hword
        rw [List.forall_mem_cons] at htext
        exact Or.inl ⟨htext.1, text, word', htext.2, rfl, hrest⟩
  · rintro (⟨hsymbol, text, word', htext, rfl, hrest⟩ | hrest)
    · refine ⟨symbol :: text, word', ?_, rfl, hrest⟩
      rw [List.forall_mem_cons]
      exact ⟨hsymbol, htext⟩
    · exact ⟨[], symbol :: word, by simp, rfl, hrest⟩

@[simp] theorem not_many1_nil :
    ¬many1 accepts push rest register [] register' := by
  simp [many1]

@[simp] theorem many1_cons_iff :
    many1 accepts push rest register (symbol :: word) register' ↔
      accepts symbol ∧
        many accepts push rest (push register symbol) word register' := by
  constructor
  · rintro ⟨first, word', hfirst, hword, hrest⟩
    obtain ⟨rfl, rfl⟩ := List.cons.inj hword
    exact ⟨hfirst, hrest⟩
  · rintro ⟨hsymbol, hrest⟩
    exact ⟨symbol, word, hsymbol, rfl, hrest⟩

theorem many1_iff :
    many1 accepts push rest register word register' ↔
      ∃ text word', text ≠ [] ∧ (∀ symbol ∈ text, accepts symbol) ∧
        word = text ++ word' ∧ rest (text.foldl push register) word' register' := by
  constructor
  · rintro ⟨symbol, _, hsymbol, rfl, text, word', htext, rfl, hrest⟩
    refine ⟨symbol :: text, word', List.cons_ne_nil symbol text, ?_, rfl, hrest⟩
    rw [List.forall_mem_cons]
    exact ⟨hsymbol, htext⟩
  · rintro ⟨text, word', hne, htext, rfl, hrest⟩
    obtain ⟨symbol, text, rfl⟩ := List.exists_cons_of_ne_nil hne
    rw [List.forall_mem_cons] at htext
    exact ⟨symbol, text ++ word', htext.1, rfl, text, word', htext.2, rfl, hrest⟩

/-- Some word can be read from the register. -/
def Alive (form : Form ρ α) (register : ρ) : Prop :=
  ∃ word register', form register word register'

theorem Alive.lit (symbol : α) (h : rest.Alive register) :
    (Form.lit symbol rest).Alive register := by
  obtain ⟨word, register', hrest⟩ := h
  exact ⟨symbol :: word, register', word, rfl, hrest⟩

theorem Alive.many (accepts : α → Prop) (push : ρ → α → ρ)
    (h : rest.Alive register) : (Form.many accepts push rest).Alive register := by
  obtain ⟨word, register', hrest⟩ := h
  exact ⟨word, register', [], word, by simp, rfl, hrest⟩

theorem Alive.many1 (hsymbol : accepts symbol)
    (h : rest.Alive (push register symbol)) :
    (Form.many1 accepts push rest).Alive register := by
  obtain ⟨word, register', hrest⟩ := Alive.many accepts push h
  exact ⟨symbol :: word, register', symbol, word, hsymbol, rfl, hrest⟩

end Form

end Recognizers
