import Mathlib.Tactic

/-!
# Looking for a subsequence

`contains_at` compares the items at every position of the container in turn
and gives up as soon as the container ends within a comparison.  It finds the
first occurrence, and since more data behind an occurrence does not move the
first one, a search in growing data keeps its result.  A single item is looked
for with `std::find`, with the same result.
-/

namespace SensorHub

variable {α : Type*}

/-! ## First positions -/

section First

variable {p : ℕ → Prop} {position : ℕ}

theorem exists_first (hposition : p position) :
    ∃ first, p first ∧ ∀ earlier < first, ¬p earlier := by
  classical
  have hex : ∃ position, p position := ⟨position, hposition⟩
  exact ⟨Nat.find hex, Nat.find_spec hex, fun _ hlt => Nat.find_min hex hlt⟩

theorem first_succ_iff (p : ℕ → Prop) (hnot : ¬p 0) :
    (p position ∧ ∀ earlier < position, ¬p earlier) ↔
      ∃ before, position = before + 1 ∧
        p (before + 1) ∧ ∀ earlier < before, ¬p (earlier + 1) := by
  constructor
  · rintro ⟨hposition, hfirst⟩
    cases position with
    | zero => exact absurd hposition hnot
    | succ before =>
        exact ⟨before, rfl, hposition, fun earlier hlt => hfirst (earlier + 1) (by omega)⟩
  · rintro ⟨before, rfl, hposition, hfirst⟩
    refine ⟨hposition, fun earlier hlt => ?_⟩
    cases earlier with
    | zero => exact hnot
    | succ earlier => exact hfirst earlier (by omega)

end First

/-! ## First occurrences -/

/-- The first occurrence of the items starts at this position. -/
def FirstAt (items container : List α) (position : ℕ) : Prop :=
  items <+: container.drop position ∧
    ∀ earlier < position, ¬items <+: container.drop earlier

theorem FirstAt.unique {items container : List α} {position position' : ℕ}
    (hfirst : FirstAt items container position)
    (hfirst' : FirstAt items container position') :
    position = position' := by
  rcases Nat.lt_trichotomy position position' with hlt | heq | hgt
  · exact absurd hfirst.1 (hfirst'.2 position hlt)
  · exact heq
  · exact absurd hfirst'.1 (hfirst.2 position' hgt)

theorem FirstAt.isInfix {items container : List α} {position : ℕ}
    (hfirst : FirstAt items container position) : items <:+: container :=
  hfirst.1.isInfix.trans (List.drop_suffix position container).isInfix

theorem isInfix_iff_exists_drop {items container : List α} :
    items <:+: container ↔ ∃ position, items <+: container.drop position := by
  constructor
  · rintro ⟨before, after, rfl⟩
    refine ⟨before.length, after, ?_⟩
    rw [List.append_assoc, List.drop_left]
  · rintro ⟨position, hstarts⟩
    exact hstarts.isInfix.trans (List.drop_suffix position container).isInfix

theorem exists_firstAt {items container : List α}
    (hcontained : items <:+: container) :
    ∃ position, FirstAt items container position := by
  obtain ⟨position, hposition⟩ := isInfix_iff_exists_drop.mp hcontained
  exact exists_first hposition

theorem end_le_length {items container : List α} {position : ℕ}
    (hitems : items ≠ []) (hstarts : items <+: container.drop position) :
    position + items.length ≤ container.length := by
  have hle := hstarts.length_le
  have hpos := List.length_pos_iff.mpr hitems
  rw [List.length_drop] at hle
  omega

theorem FirstAt.le_length {items container : List α} {position : ℕ}
    (hfirst : FirstAt items container position) (hitems : items ≠ []) :
    position ≤ container.length := by
  have hle := end_le_length hitems hfirst.1
  omega

theorem FirstAt.append {items container : List α} {position : ℕ}
    (hfirst : FirstAt items container position) (hitems : items ≠ [])
    (more : List α) : FirstAt items (container ++ more) position := by
  have hend := end_le_length hitems hfirst.1
  refine ⟨?_, fun earlier hlt hstarts => hfirst.2 earlier hlt ?_⟩
  · rw [List.drop_append_of_le_length (by omega)]
    exact hfirst.1.trans (List.prefix_append _ _)
  · rw [List.drop_append_of_le_length (by omega)] at hstarts
    apply List.prefix_of_prefix_length_le hstarts (List.prefix_append _ _)
    rw [List.length_drop]
    omega

/-- An occurrence in a list which does not start with the items is one in its
tail. -/
theorem firstAt_cons_iff {items container : List α} {c : α} {position : ℕ}
    (hnot : ¬items <+: c :: container) :
    FirstAt items (c :: container) position ↔
      ∃ before, position = before + 1 ∧ FirstAt items container before :=
  first_succ_iff (fun position => items <+: (c :: container).drop position) hnot

theorem singleton_prefix_drop_iff {container : List α} {item : α} {position : ℕ} :
    [item] <+: container.drop position ↔ container[position]? = some item := by
  rw [← List.head?_drop]
  cases container.drop position with
  | nil => simp
  | cons c rest => simp [eq_comm]

/-! ## The search of the source -/

variable [DecidableEq α]

/-- How the comparison behind a first equal item ends. -/
inductive Comparison where
  | found
  | containerEnded
  | different
  deriving DecidableEq, Repr

/-- The inner loop of `contains_checker`. -/
def compareRest : List α → List α → Comparison
  | _, [] => .found
  | [], _ :: _ => .containerEnded
  | c :: container, item :: items =>
      if c ≠ item then .different else compareRest container items

/-- The outer loop of `contains_checker`, from position `i` on. -/
def containsFrom (items : List α) (i : ℤ) (container : List α) : ℤ :=
  match items, container with
  | [], _ => i
  | _ :: _, [] => -1
  | item :: rest, c :: container =>
      if c = item then
        match compareRest container rest with
        | .found => i
        | .containerEnded => -1
        | .different => containsFrom items (i + 1) container
      else
        containsFrom items (i + 1) container

def containsAt (container items : List α) : ℤ :=
  containsFrom items 0 container

theorem compareRest_spec (container items : List α) :
    match compareRest container items with
    | .found => items <+: container
    | .containerEnded => container.length < items.length
    | .different => ¬items <+: container := by
  induction container generalizing items with
  | nil => cases items <;> simp [compareRest]
  | cons c container ih =>
      cases items with
      | nil => simp [compareRest]
      | cons item items =>
          by_cases heq : c = item
          · have hrest := ih items
            simp only [compareRest, heq, ne_eq, not_true_eq_false, if_false]
            cases hcompare : compareRest container items with
            | found =>
                rw [hcompare] at hrest
                exact List.cons_prefix_cons.mpr ⟨rfl, hrest⟩
            | containerEnded =>
                rw [hcompare] at hrest
                simpa using hrest
            | different =>
                rw [hcompare] at hrest
                exact fun hstarts =>
                  hrest (List.cons_prefix_cons.mp hstarts).2
          · simp only [compareRest, ne_eq, heq, not_false_eq_true, if_true]
            exact fun hstarts =>
              heq (List.cons_prefix_cons.mp hstarts).1.symm

theorem containsFrom_spec (items : List α) (i : ℤ) (container : List α) :
    (∃ position, FirstAt items container position ∧
        containsFrom items i container = i + position) ∨
      (¬items <:+: container ∧ containsFrom items i container = -1) := by
  induction container generalizing i with
  | nil =>
      cases items with
      | nil => exact .inl ⟨0, ⟨List.nil_prefix, by simp⟩, by simp [containsFrom]⟩
      | cons item items => exact .inr ⟨by simp, rfl⟩
  | cons c container ih =>
      cases items with
      | nil => exact .inl ⟨0, ⟨List.nil_prefix, by simp⟩, by simp [containsFrom]⟩
      | cons item items =>
          -- a mismatch here leaves the search to the rest of the container
          have hnext : ¬item :: items <+: c :: container →
              containsFrom (item :: items) i (c :: container) =
                containsFrom (item :: items) (i + 1) container →
              (∃ position,
                  FirstAt (item :: items) (c :: container) position ∧
                    containsFrom (item :: items) i (c :: container) =
                      i + position) ∨
                (¬item :: items <:+: c :: container ∧
                  containsFrom (item :: items) i (c :: container) = -1) := by
            intro hnot hstep
            rw [hstep]
            rcases ih (i + 1) with ⟨before, hfirst, hvalue⟩ | ⟨hnone, hvalue⟩
            · refine .inl ⟨before + 1, ?_, ?_⟩
              · exact (firstAt_cons_iff hnot).mpr ⟨before, rfl, hfirst⟩
              · rw [hvalue]
                push_cast
                ring
            · refine .inr ⟨fun hcontained => ?_, hvalue⟩
              rcases List.infix_cons_iff.mp hcontained with hstarts | hrest
              · exact hnot hstarts
              · exact hnone hrest
          by_cases heq : c = item
          · have hcompare := compareRest_spec container items
            cases hresult : compareRest container items with
            | found =>
                rw [hresult] at hcompare
                refine .inl ⟨0, ⟨?_, by simp⟩, by simp [containsFrom, heq, hresult]⟩
                rw [heq]
                exact List.cons_prefix_cons.mpr ⟨rfl, hcompare⟩
            | containerEnded =>
                rw [hresult] at hcompare
                refine .inr ⟨fun hcontained => ?_, by simp [containsFrom, heq, hresult]⟩
                have hle := hcontained.length_le
                simp only [List.length_cons] at hle
                omega
            | different =>
                rw [hresult] at hcompare
                refine hnext (fun hstarts => ?_) (by simp [containsFrom, heq, hresult])
                exact hcompare (List.cons_prefix_cons.mp hstarts).2
          · refine hnext (fun hstarts => ?_) (by simp [containsFrom, heq])
            exact heq (List.cons_prefix_cons.mp hstarts).1.symm

theorem containsAt_of_firstAt {items container : List α} {position : ℕ}
    (hfirst : FirstAt items container position) :
    containsAt container items = position := by
  rcases containsFrom_spec items 0 container with
    ⟨found, hfound, hvalue⟩ | ⟨hnone, -⟩
  · rw [containsAt, hvalue, hfirst.unique hfound]
    simp
  · exact absurd hfirst.isInfix hnone

theorem containsAt_of_not_isInfix {items container : List α}
    (hnone : ¬items <:+: container) : containsAt container items = -1 := by
  rcases containsFrom_spec items 0 container with
    ⟨found, hfound, -⟩ | ⟨-, hvalue⟩
  · exact absurd hfound.isInfix hnone
  · exact hvalue

theorem containsAt_nonneg_iff {items container : List α} :
    0 ≤ containsAt container items ↔ items <:+: container := by
  by_cases hcontained : items <:+: container
  · obtain ⟨position, hfirst⟩ := exists_firstAt hcontained
    simp [containsAt_of_firstAt hfirst, hcontained]
  · simp [containsAt_of_not_isInfix hcontained, hcontained]

/-- The counter of the source never passes the length of the container, so it
does not overflow where that length fits in an `int`. -/
theorem containsAt_le_length (container items : List α) :
    containsAt container items ≤ container.length := by
  by_cases hcontained : items <:+: container
  · obtain ⟨position, hfirst⟩ := exists_firstAt hcontained
    rw [containsAt_of_firstAt hfirst]
    by_cases hitems : items = []
    · have hzero : FirstAt items container 0 := by
        subst hitems
        exact ⟨List.nil_prefix, by simp⟩
      simp [hfirst.unique hzero]
    · exact_mod_cast hfirst.le_length hitems
  · rw [containsAt_of_not_isInfix hcontained]
    omega

/-! ## A single item -/

/-- The checker for one item: `std::find` and the distance to what it found. -/
def containsItemAt (container : List α) (item : α) : ℤ :=
  let it := container.findIdx fun c => c = item
  if it = container.length then -1 else it

def contains (container items : List α) : Bool :=
  0 ≤ containsAt container items

theorem contains_iff {container items : List α} :
    contains container items = true ↔ items <:+: container := by
  rw [contains, decide_eq_true_iff]
  exact containsAt_nonneg_iff

theorem firstAt_findIdx {container : List α} {item : α}
    (hfound : container.findIdx (fun c => c = item) ≠ container.length) :
    FirstAt [item] container (container.findIdx fun c => c = item) := by
  have hle : container.findIdx (fun c => c = item) ≤ container.length :=
    List.findIdx_le_length
  have hlt : container.findIdx (fun c => c = item) < container.length := by omega
  constructor
  · rw [singleton_prefix_drop_iff, List.getElem?_eq_getElem hlt, Option.some_inj]
    simpa using List.findIdx_getElem (w := hlt)
  · intro earlier hearlier hstarts
    rw [singleton_prefix_drop_iff] at hstarts
    obtain ⟨hbound, hitem⟩ := List.getElem?_eq_some_iff.mp hstarts
    have hnot := List.not_of_lt_findIdx hearlier
    simp [hitem] at hnot

theorem containsItemAt_eq (container : List α) (item : α) :
    containsItemAt container item = containsAt container [item] := by
  by_cases hfound : container.findIdx (fun c => c = item) = container.length
  · have hnone : ¬[item] <:+: container := by
      intro hcontained
      have hmem : item ∈ container := hcontained.subset (List.mem_singleton_self item)
      have hlt : container.findIdx (fun c => c = item) < container.length :=
        List.findIdx_lt_length_of_exists ⟨item, hmem, by simp⟩
      omega
    rw [containsAt_of_not_isInfix hnone, containsItemAt, if_pos hfound]
  · rw [containsAt_of_firstAt (firstAt_findIdx hfound), containsItemAt, if_neg hfound]

/-- The search returns the first occurrence of the items, if there is one, and
that of a single item is the search for it alone. -/
theorem containsAt_spec (container items : List α) :
    (∀ position : ℕ, containsAt container items = position ↔
        FirstAt items container position) ∧
      (containsAt container items = -1 ↔
        ∀ position, ¬items <+: container.drop position) ∧
      containsAt container [] = 0 ∧
      ∀ item, containsItemAt container item = containsAt container [item] := by
  refine ⟨fun position => ⟨fun hvalue => ?_, containsAt_of_firstAt⟩, ⟨?_, ?_⟩, ?_,
    containsItemAt_eq container⟩
  · have hcontained : items <:+: container :=
      containsAt_nonneg_iff.mp (hvalue ▸ Int.natCast_nonneg position)
    obtain ⟨found, hfirst⟩ := exists_firstAt hcontained
    have heq : (found : ℤ) = position := (containsAt_of_firstAt hfirst).symm.trans hvalue
    exact Int.ofNat_inj.mp heq ▸ hfirst
  · intro hvalue position hstarts
    have hcontained := isInfix_iff_exists_drop.mpr ⟨position, hstarts⟩
    have hnonneg := containsAt_nonneg_iff.mpr hcontained
    omega
  · intro hnone
    refine containsAt_of_not_isInfix fun hcontained => ?_
    obtain ⟨position, hstarts⟩ := isInfix_iff_exists_drop.mp hcontained
    exact hnone position hstarts
  · simp [containsAt, containsFrom]

end SensorHub
