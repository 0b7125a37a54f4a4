import Mathlib.Tactic

/-!
# Documents as events

A writer of JSON documents is called once for each bracket and each value, and
the name of a member is written as a string in front of its value.  A value
which the writer refuses leaves its place empty.  A reader takes the events back
to the document.

The reader accepts the events of a document and nothing else, so events that
hold a refused value are not those of any document.
-/

namespace JsonEvents

inductive Json (ν : Type*) where
  | string (value : String)
  | bool (value : Bool)
  | number (value : ν)
  | array (items : List (Json ν))
  | object (members : List (String × Json ν))

inductive Event (ν : Type*) where
  | startObject
  | endObject
  | startArray
  | endArray
  | string (value : String)
  | bool (value : Bool)
  | number (value : ν)
  /-- A value that was refused. -/
  | refused
  deriving DecidableEq, Repr

variable {ν : Type*}

mutual

def Json.events : Json ν → List (Event ν)
  | .string value => [.string value]
  | .bool value => [.bool value]
  | .number value => [.number value]
  | .array items => .startArray :: (itemEvents items ++ [.endArray])
  | .object members => .startObject :: (memberEvents members ++ [.endObject])

def itemEvents : List (Json ν) → List (Event ν)
  | [] => []
  | item :: items => item.events ++ itemEvents items

def memberEvents : List (String × Json ν) → List (Event ν)
  | [] => []
  | (name, value) :: members => .string name :: (value.events ++ memberEvents members)

end

/-- The value of the first member with a name. -/
def Json.get (name : String) : Json ν → Option (Json ν)
  | .object members => (members.find? fun member => member.1 = name).map Prod.snd
  | _ => none

theorem memberEvents_filterMap {α : Type*} (member : α → Option (String × Json ν))
    (entries : List α) :
    memberEvents (entries.filterMap member) = entries.flatMap fun entry =>
      match member entry with
      | none => []
      | some (name, value) => .string name :: value.events := by
  induction entries with
  | nil => rfl
  | cons entry entries ih =>
      cases hentry : member entry with
      | none => simp [hentry, ih]
      | some found => simp [hentry, ih, memberEvents]

theorem itemEvents_map {α : Type*} (item : α → Json ν) (entries : List α) :
    itemEvents (entries.map item) = entries.flatMap fun entry => (item entry).events := by
  induction entries with
  | nil => rfl
  | cons entry entries ih => simp [itemEvents, ih]

/-- With distinct names every member is found under its own. -/
theorem get_filterMap {α : Type*} {name : α → String} {value : α → Option (Json ν)}
    {entries : List α} (hnodup : (entries.map name).Nodup) {entry : α} (hentry : entry ∈ entries) :
    (Json.object (entries.filterMap fun entry =>
      (value entry).map fun json => (name entry, json))).get (name entry) = value entry := by
  induction entries with
  | nil => cases hentry
  | cons first entries ih =>
      rw [List.map_cons, List.nodup_cons] at hnodup
      simp only [Json.get] at ih ⊢
      rcases List.mem_cons.mp hentry with rfl | hlater
      · cases hvalue : value entry with
        | some json => simp [hvalue]
        | none =>
            have hnone : (entries.filterMap fun entry =>
                (value entry).map fun json => (name entry, json)).find?
                  (fun member => decide (member.1 = name entry)) = none := by
              rw [List.find?_eq_none]
              intro member hmember
              obtain ⟨other, hother, hjson⟩ := List.mem_filterMap.mp hmember
              obtain ⟨json, -, rfl⟩ := Option.map_eq_some_iff.mp hjson
              simp only [decide_eq_true_eq]
              exact fun hname => hnodup.1 (List.mem_map.mpr ⟨other, hother, hname⟩)
            simp [hvalue, hnone]
      · have hne : name first ≠ name entry :=
          fun hname => hnodup.1 (List.mem_map.mpr ⟨entry, hlater, hname.symm⟩)
        have hrest := ih hnodup.2 hlater
        cases hvalue : value first with
        | none => simpa [List.filterMap_cons, hvalue] using hrest
        | some json => simpa [List.filterMap_cons, hvalue, hne] using hrest

/-! ## The reader -/

mutual

/-- A value at the start of the events, and the events after it. -/
def readValue : ℕ → List (Event ν) → Option (Json ν × List (Event ν))
  | 0, _ => none
  | fuel + 1, events =>
      match events with
      | .string value :: rest => some (.string value, rest)
      | .bool value :: rest => some (.bool value, rest)
      | .number value :: rest => some (.number value, rest)
      | .startArray :: rest =>
          (readItems fuel rest).map fun (items, after) => (.array items, after)
      | .startObject :: rest =>
          (readMembers fuel rest).map fun (members, after) => (.object members, after)
      | _ => none

def readItems : ℕ → List (Event ν) → Option (List (Json ν) × List (Event ν))
  | 0, _ => none
  | fuel + 1, events =>
      match events with
      | .endArray :: rest => some ([], rest)
      | events =>
          (readValue fuel events).bind fun (item, rest) =>
            (readItems fuel rest).map fun (items, after) => (item :: items, after)

def readMembers : ℕ → List (Event ν) → Option (List (String × Json ν) × List (Event ν))
  | 0, _ => none
  | fuel + 1, events =>
      match events with
      | .endObject :: rest => some ([], rest)
      | .string name :: events =>
          (readValue fuel events).bind fun (value, rest) =>
            (readMembers fuel rest).map fun (members, after) =>
              ((name, value) :: members, after)
      | _ => none

end

def readDocument (events : List (Event ν)) : Option (Json ν) :=
  match readValue events.length events with
  | some (json, []) => some json
  | _ => none

/-! ## Reading what was written -/

theorem events_ne_nil (json : Json ν) : json.events ≠ [] := by
  cases json <;> simp [Json.events]

theorem length_events_pos (json : Json ν) : 0 < json.events.length :=
  List.length_pos_of_ne_nil (events_ne_nil json)

theorem not_endArray_events (json : Json ν) (rest more : List (Event ν)) :
    json.events ++ rest ≠ .endArray :: more := by
  cases json <;> simp [Json.events]

theorem readItems_of_ne {fuel : ℕ} {events : List (Event ν)}
    (hne : ∀ more, events ≠ .endArray :: more) :
    readItems (fuel + 1) events =
      (readValue fuel events).bind fun (item, rest) =>
        (readItems fuel rest).map fun (items, after) => (item :: items, after) := by
  rw [readItems]
  exact hne

mutual

theorem readValue_events : (json : Json ν) → (fuel : ℕ) → json.events.length ≤ fuel →
    (rest : List (Event ν)) → readValue fuel (json.events ++ rest) = some (json, rest)
  | json, 0, hfuel, _ => absurd hfuel (Nat.not_le_of_gt (length_events_pos json))
  | .string value, fuel + 1, _, rest => by simp [Json.events, readValue]
  | .bool value, fuel + 1, _, rest => by simp [Json.events, readValue]
  | .number value, fuel + 1, _, rest => by simp [Json.events, readValue]
  | .array items, fuel + 1, hfuel, rest => by
      have hitems : (itemEvents items).length < fuel := by
        simp only [Json.events, List.length_cons, List.length_append, List.length_nil] at hfuel
        omega
      have hread := readItems_events items fuel hitems rest
      simp only [Json.events, List.cons_append, List.append_assoc, List.nil_append, readValue,
        hread, Option.map_some]
  | .object members, fuel + 1, hfuel, rest => by
      have hmembers : (memberEvents members).length < fuel := by
        simp only [Json.events, List.length_cons, List.length_append, List.length_nil] at hfuel
        omega
      have hread := readMembers_events members fuel hmembers rest
      simp only [Json.events, List.cons_append, List.append_assoc, List.nil_append, readValue,
        hread, Option.map_some]

theorem readItems_events : (items : List (Json ν)) → (fuel : ℕ) →
    (itemEvents items).length < fuel → (rest : List (Event ν)) →
    readItems fuel (itemEvents items ++ .endArray :: rest) = some (items, rest)
  | _, 0, hfuel, _ => absurd hfuel (Nat.not_lt_zero _)
  | [], fuel + 1, _, rest => by simp [itemEvents, readItems]
  | item :: items, fuel + 1, hfuel, rest => by
      have hpos := length_events_pos item
      rw [itemEvents, List.length_append] at hfuel
      have hitem := readValue_events item fuel (by omega)
        (itemEvents items ++ .endArray :: rest)
      have hitems := readItems_events items fuel (by omega) rest
      rw [itemEvents, List.append_assoc, readItems_of_ne (not_endArray_events item _), hitem]
      simp only [Option.bind_some, hitems, Option.map_some]

theorem readMembers_events : (members : List (String × Json ν)) → (fuel : ℕ) →
    (memberEvents members).length < fuel → (rest : List (Event ν)) →
    readMembers fuel (memberEvents members ++ .endObject :: rest) = some (members, rest)
  | _, 0, hfuel, _ => absurd hfuel (Nat.not_lt_zero _)
  | [], fuel + 1, _, rest => by simp [memberEvents, readMembers]
  | (name, value) :: members, fuel + 1, hfuel, rest => by
      rw [memberEvents, List.length_cons, List.length_append] at hfuel
      have hvalue := readValue_events value fuel (by omega)
        (memberEvents members ++ .endObject :: rest)
      have hmembers := readMembers_events members fuel (by omega) rest
      rw [memberEvents, List.cons_append, List.append_assoc, readMembers, hvalue]
      simp only [Option.bind_some, hmembers, Option.map_some]

end

/-! ## What the reader accepts -/

/-- What each part of the reader has taken from the events. -/
structure Sound (ν : Type*) (fuel : ℕ) : Prop where
  value : ∀ (events rest : List (Event ν)) json,
    readValue fuel events = some (json, rest) → events = json.events ++ rest
  items : ∀ (events rest : List (Event ν)) items,
    readItems fuel events = some (items, rest) →
      events = itemEvents items ++ .endArray :: rest
  members : ∀ (events rest : List (Event ν)) members,
    readMembers fuel events = some (members, rest) →
      events = memberEvents members ++ .endObject :: rest

theorem Sound.zero : Sound ν 0 := by
  constructor <;> intro events rest read hread
  · rw [readValue] at hread
    cases hread
  · rw [readItems] at hread
    cases hread
  · rw [readMembers] at hread
    cases hread

theorem Sound.value_succ {fuel : ℕ} (hsound : Sound ν fuel) {events rest : List (Event ν)}
    {json : Json ν} (hread : readValue (fuel + 1) events = some (json, rest)) :
    events = json.events ++ rest := by
  rw [readValue.eq_def] at hread
  simp only at hread
  split at hread
  · cases hread
    rfl
  · cases hread
    rfl
  · cases hread
    rfl
  · obtain ⟨⟨items, after⟩, hitems, heq⟩ := Option.map_eq_some_iff.mp hread
    cases heq
    rw [hsound.items _ _ _ hitems]
    simp [Json.events]
  · obtain ⟨⟨members, after⟩, hmembers, heq⟩ := Option.map_eq_some_iff.mp hread
    cases heq
    rw [hsound.members _ _ _ hmembers]
    simp [Json.events]
  · cases hread

theorem Sound.items_succ {fuel : ℕ} (hsound : Sound ν fuel) {events rest : List (Event ν)}
    {items : List (Json ν)} (hread : readItems (fuel + 1) events = some (items, rest)) :
    events = itemEvents items ++ .endArray :: rest := by
  rw [readItems.eq_def] at hread
  simp only at hread
  split at hread
  · cases hread
    rfl
  · obtain ⟨⟨item, after⟩, hitem, hmore⟩ := Option.bind_eq_some_iff.mp hread
    obtain ⟨⟨items', after'⟩, hitems, heq⟩ := Option.map_eq_some_iff.mp hmore
    cases heq
    have hrest : after = itemEvents items' ++ .endArray :: after' :=
      hsound.items _ _ _ hitems
    rw [hsound.value _ _ _ hitem, hrest, itemEvents, List.append_assoc]

theorem Sound.members_succ {fuel : ℕ} (hsound : Sound ν fuel) {events rest : List (Event ν)}
    {members : List (String × Json ν)}
    (hread : readMembers (fuel + 1) events = some (members, rest)) :
    events = memberEvents members ++ .endObject :: rest := by
  rw [readMembers.eq_def] at hread
  simp only at hread
  split at hread
  · cases hread
    rfl
  · obtain ⟨⟨value, after⟩, hvalue, hmore⟩ := Option.bind_eq_some_iff.mp hread
    obtain ⟨⟨members', after'⟩, hmembers, heq⟩ := Option.map_eq_some_iff.mp hmore
    cases heq
    have hrest : after = memberEvents members' ++ .endObject :: after' :=
      hsound.members _ _ _ hmembers
    rw [hsound.value _ _ _ hvalue, hrest, memberEvents, List.cons_append, List.append_assoc]
  · cases hread

theorem sound (fuel : ℕ) : Sound ν fuel := by
  induction fuel with
  | zero => exact Sound.zero
  | succ fuel ih =>
      exact ⟨fun _ _ _ => ih.value_succ, fun _ _ _ => ih.items_succ,
        fun _ _ _ => ih.members_succ⟩

/-- The reader accepts exactly the events of documents. -/
theorem readDocument_eq_some_iff (events : List (Event ν)) (json : Json ν) :
    readDocument events = some json ↔ events = json.events := by
  constructor
  · intro hread
    unfold readDocument at hread
    split at hread
    · rename_i json' hvalue
      cases hread
      simpa using (sound _).value _ _ _ hvalue
    · cases hread
  · rintro rfl
    have hvalue := readValue_events json json.events.length le_rfl []
    rw [List.append_nil] at hvalue
    rw [readDocument, hvalue]

/-! ## Refused values -/

mutual

theorem refused_not_mem_events : (json : Json ν) → Event.refused ∉ json.events
  | .string value => by simp [Json.events]
  | .bool value => by simp [Json.events]
  | .number value => by simp [Json.events]
  | .array items => by simp [Json.events, refused_not_mem_items items]
  | .object members => by simp [Json.events, refused_not_mem_members members]

theorem refused_not_mem_items : (items : List (Json ν)) → Event.refused ∉ itemEvents items
  | [] => by simp [itemEvents]
  | item :: items => by
      simp [itemEvents, refused_not_mem_events item, refused_not_mem_items items]

theorem refused_not_mem_members :
    (members : List (String × Json ν)) → Event.refused ∉ memberEvents members
  | [] => by simp [memberEvents]
  | (name, value) :: members => by
      simp [memberEvents, refused_not_mem_events value, refused_not_mem_members members]

end

theorem readDocument_refused {events : List (Event ν)} (hrefused : Event.refused ∈ events) :
    readDocument events = none := by
  cases hread : readDocument events with
  | none => rfl
  | some json =>
      rw [(readDocument_eq_some_iff events json).mp hread] at hrefused
      exact absurd hrefused (refused_not_mem_events json)

end JsonEvents
