import ReplayVector.Proofs.Json.Forms

/-!
# How deep values nest

A text nests arrays and objects only inside a limit, and a decoder takes one level away for each of
them. A record that has been read was therefore at least one level inside the limit, and so were
its fields, one level further in.

* `Fields.filled_of_read`: what has been read of a record was read by the decoders of its fields.
* `nullableList_eq_ok`: the same for the items of a list.
-/

namespace ReplayVector.Json

mutual

/-- How deep arrays and objects nest in a value. -/
def levels : Json → Nat
  | .array items => levelsOfItems items + 1
  | .object members => levelsOfMembers members + 1
  | _ => 0

/-- How deep arrays and objects nest in the items of an array. -/
def levelsOfItems : List Json → Nat
  | [] => 0
  | j :: js => max j.levels (levelsOfItems js)

/-- How deep arrays and objects nest in the members of an object. -/
def levelsOfMembers : List (Option String × Json) → Nat
  | [] => 0
  | (_, j) :: ms => max j.levels (levelsOfMembers ms)

end

theorem of_bind_ok {ε α β : Type} {x : Except ε α} {f : α → Except ε β} {b : β}
    (h : x.bind f = .ok b) : ∃ a, x = .ok a ∧ f a = .ok b := by
  cases x with
  | error e => cases h
  | ok a => exact ⟨a, rfl, h⟩

theorem lt_of_enter {depth inner : Nat} (h : enter depth = .ok inner) :
    1 < depth ∧ inner = depth - 1 := by
  unfold enter at h
  split at h
  · cases h
  · cases h
    exact ⟨by omega, rfl⟩

theorem required_eq_ok {α : Type} {slot : Option α} {a : α} (h : required slot = .ok a) :
    slot = some a := by
  cases slot with
  | none => cases h
  | some b =>
    cases h
    rfl

/-! ## Items -/

private theorem mapM_eq_ok {α : Type} {d : Json → Except Refusal α} {js : List Json} {as : List α}
    (h : js.mapM d = .ok as) : ∀ a ∈ as, ∃ j, d j = .ok a := by
  induction js generalizing as with
  | nil =>
    cases h
    exact fun _ ha => absurd ha List.not_mem_nil
  | cons j js ih =>
    rw [List.mapM_cons] at h
    obtain ⟨a, ha, h⟩ := of_bind_ok h
    obtain ⟨as, has, h⟩ := of_bind_ok h
    cases h
    exact List.forall_mem_cons.mpr ⟨⟨j, ha⟩, ih has⟩

/-- A list that has been read is empty, or its items were read one level further in. -/
theorem nullableList_eq_ok {α : Type} {d : Decoder α} {depth : Nat} {j : Json} {as : List α}
    (h : nullableList d depth j = .ok as) :
    as = [] ∨ 1 < depth ∧ ∀ a ∈ as, ∃ j, d (depth - 1) j = .ok a := by
  unfold nullableList at h
  split at h
  · cases h
    exact .inl rfl
  · unfold list at h
    split at h
    · obtain ⟨inner, henter, h⟩ := of_bind_ok h
      obtain ⟨hdepth, rfl⟩ := lt_of_enter henter
      exact .inr ⟨hdepth, mapM_eq_ok h⟩
    · cases h

/-! ## Members -/

namespace Fields

variable {depth : Nat}

/-- What stands in a field's slot was read by the field's decoder. -/
def Filled (depth : Nat) : {ts : List Type} → Fields ts → Slots ts → Prop
  | _, .nil, _ => True
  | _, .cons field rest, (slot, slots) =>
    (∀ a, slot = some a → ∃ j, field.decoder depth j = .ok a) ∧ rest.Filled depth slots

private theorem filled_empty {ts : List Type} (fields : Fields ts) :
    fields.Filled depth (Slots.empty ts) := by
  induction fields with
  | nil => trivial
  | cons field rest ih => exact ⟨nofun, ih⟩

/-- One member more fills at most the slot of its field. -/
private theorem Filled.readMember {ts : List Type} {fields : Fields ts} {slots slots' : Slots ts}
    (h : fields.Filled depth slots) {name : String} {j : Json}
    (hread : fields.readMember depth name j slots = .ok slots') : fields.Filled depth slots' := by
  -- on the fields; the member belongs to the first one or is read by the rest of them
  induction fields with
  | nil => trivial
  | cons field rest ih =>
    obtain ⟨slot, slots⟩ := slots
    by_cases hname : name = field.name
    · have hread := (if_pos hname).symm.trans hread
      cases slot with
      | some _ => cases hread
      | none =>
        obtain ⟨a, ha, hread⟩ := of_bind_ok hread
        cases hread
        refine ⟨fun a' ha' => ?_, h.2⟩
        cases ha'
        exact ⟨j, ha⟩
    · obtain ⟨slots', hslots', hread⟩ := of_bind_ok ((if_neg hname).symm.trans hread)
      cases hread
      exact ⟨h.1, ih h.2 hslots'⟩

private theorem Filled.readMembers {ts : List Type} {fields : Fields ts} {slots slots' : Slots ts}
    (h : fields.Filled depth slots) {ms : List (Option String × Json)}
    (hread : fields.readMembers depth ms slots = .ok slots') : fields.Filled depth slots' := by
  induction ms generalizing slots with
  | nil =>
    cases hread
    exact h
  | cons m ms ih =>
    obtain ⟨_ | name, j⟩ := m
    · cases hread
    · obtain ⟨slots₁, hmember, hread⟩ := of_bind_ok hread
      exact ih (h.readMember hmember) hread

private theorem filled_of_readItems {ts : List Type} {fields : Fields ts} {js : List Json}
    {slots : Slots ts} (h : fields.readItems depth js = .ok slots) : fields.Filled depth slots := by
  induction fields generalizing js with
  | nil => trivial
  | cons field rest ih =>
    cases js with
    | nil =>
      cases h
      exact filled_empty _
    | cons j js =>
      obtain ⟨a, ha, h⟩ := of_bind_ok h
      obtain ⟨slots, hslots, h⟩ := of_bind_ok h
      cases h
      refine ⟨fun a' ha' => ?_, ih hslots⟩
      cases ha'
      exact ⟨j, ha⟩

/-- A record that has been read took a level, and its fields were read one level further in. -/
theorem filled_of_read {ts : List Type} {fields : Fields ts} {j : Json} {slots : Slots ts}
    (h : fields.read depth j = .ok slots) : 1 < depth ∧ fields.Filled (depth - 1) slots := by
  unfold read at h
  split at h
  · obtain ⟨inner, henter, h⟩ := of_bind_ok h
    obtain ⟨hdepth, rfl⟩ := lt_of_enter henter
    exact ⟨hdepth, (filled_empty fields).readMembers h⟩
  · obtain ⟨inner, henter, h⟩ := of_bind_ok h
    obtain ⟨hdepth, rfl⟩ := lt_of_enter henter
    exact ⟨hdepth, filled_of_readItems h⟩
  · cases h

end Fields

end ReplayVector.Json
