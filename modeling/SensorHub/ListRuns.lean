import Mathlib.Tactic

/-!
# Runs of a list

The elements that satisfy a predicate separate a list into runs.  All runs but
the last one have been closed by a separator; the last one is still open and can
be empty.
-/

namespace ListRuns

variable {α : Type*} (separates : α → Bool)

/-- The run after the last separator. -/
def openRun (list : List α) : List α :=
  (list.splitOnP separates).getLast (List.splitOnP_ne_nil separates list)

/-- The nonempty runs that are followed by a separator, in order. -/
def closedRuns (list : List α) : List (List α) :=
  (list.splitOnP separates).dropLast.filter fun run => run ≠ []

theorem splitOnP_eq (list : List α) :
    list.splitOnP separates =
      (list.splitOnP separates).dropLast ++ [openRun separates list] :=
  (List.dropLast_append_getLast _).symm

@[simp] theorem openRun_nil : openRun separates ([] : List α) = [] := rfl

@[simp] theorem closedRuns_nil : closedRuns separates ([] : List α) = [] := rfl

theorem forall_or_exists_last (list : List α) :
    (∀ element ∈ list, separates element = false) ∨
      ∃ before separator after, list = before ++ separator :: after ∧
        separates separator = true ∧ ∀ element ∈ after, separates element = false := by
  induction list using List.reverseRecOn with
  | nil => exact Or.inl (by simp)
  | append_singleton list element ih =>
      cases helement : separates element with
      | true => exact Or.inr ⟨list, element, [], rfl, helement, by simp⟩
      | false =>
          have hsingle : ∀ last ∈ [element], separates last = false := by
            simp [helement]
          rcases ih with hnone | ⟨before, separator, after, rfl, hseparator, hafter⟩
          · exact Or.inl (List.forall_mem_append.mpr ⟨hnone, hsingle⟩)
          · exact Or.inr ⟨before, separator, after ++ [element], by simp,
              hseparator, List.forall_mem_append.mpr ⟨hafter, hsingle⟩⟩

variable {separates} {list : List α} {element : α}

theorem splitOnP_append_singleton (helement : separates element = false) :
    (list ++ [element]).splitOnP separates =
      (list.splitOnP separates).dropLast ++
        [openRun separates list ++ [element]] := by
  have hsingle : ∀ last ∈ [element], separates last = false := by
    simp [helement]
  unfold openRun
  rcases forall_or_exists_last separates list with
    hnone | ⟨before, separator, after, rfl, hseparator, hafter⟩
  · simp only [List.splitOnP_eq_singleton hnone]
    rw [List.splitOnP_eq_singleton (List.forall_mem_append.mpr ⟨hnone, hsingle⟩)]
    rfl
  · rw [List.append_assoc, List.cons_append]
    simp only [List.splitOnP_append_cons _ _ hseparator,
      List.splitOnP_eq_singleton hafter]
    rw [List.splitOnP_eq_singleton (List.forall_mem_append.mpr ⟨hafter, hsingle⟩)]
    simp

theorem openRun_append (helement : separates element = false) :
    openRun separates (list ++ [element]) =
      openRun separates list ++ [element] := by
  unfold openRun
  simp only [splitOnP_append_singleton helement]
  rw [List.getLast_append_singleton]
  rfl

theorem closedRuns_append (helement : separates element = false) :
    closedRuns separates (list ++ [element]) = closedRuns separates list := by
  unfold closedRuns
  rw [splitOnP_append_singleton helement, List.dropLast_concat]

theorem openRun_append_of_separates (helement : separates element = true) :
    openRun separates (list ++ [element]) = [] := by
  unfold openRun
  simp [List.splitOnP_append_cons list [] helement]

theorem closedRuns_append_of_separates (helement : separates element = true) :
    closedRuns separates (list ++ [element]) =
      closedRuns separates list ++
        [openRun separates list].filter fun run => run ≠ [] := by
  unfold closedRuns
  rw [List.splitOnP_append_cons list [] helement, List.splitOnP_nil,
    List.dropLast_concat, ← List.filter_append]
  conv_lhs => rw [splitOnP_eq separates list]

theorem openRun_suffix (separates : α → Bool) (list : List α) :
    openRun separates list <:+ list := by
  induction list using List.reverseRecOn with
  | nil => exact List.suffix_rfl
  | append_singleton list element ih =>
      cases helement : separates element with
      | true =>
          rw [openRun_append_of_separates helement]
          exact List.nil_suffix
      | false =>
          rw [openRun_append helement]
          obtain ⟨before, hbefore⟩ := ih
          exact ⟨before, by rw [← List.append_assoc, hbefore]⟩

end ListRuns
