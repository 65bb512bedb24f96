import ReplayVector.Proofs.Json.Nesting

/-!
# Members in any order, beside foreign ones, or without names

A record is read from the members of an object one by one: each of them fills the slot of its own
field, or is passed over if it belongs to no field. So it does not matter in which order they come
and which others stand between them. The values alone, in the order of the fields, fill the same
slots.

* `Fields.read_perm`: members in another order.
* `Fields.read_foreign`: members that belong to no field.
* `Fields.read_inOrder`: every field once, against the values alone.
-/

namespace ReplayVector.Json.Fields

variable {ts : List Type} {fields : Fields ts} {depth : Nat}

-- ---------------------------------------------------------------------------
-- Another order
-- ---------------------------------------------------------------------------

private theorem of_map_ok {ε α β : Type} {x : Except ε α} {f : α → β} {b : β}
    (h : x.map f = .ok b) : ∃ a, x = .ok a ∧ f a = b := by
  cases x with
  | error e => cases h
  | ok a => exact ⟨a, rfl, Except.ok.inj h⟩

/-- Two members can be read in either order. -/
theorem readMember_comm {name name' : String} {j j' : Json} {slots slots₁ slots₂ : Slots ts}
    (h : fields.readMember depth name j slots = .ok slots₁)
    (h' : fields.readMember depth name' j' slots₁ = .ok slots₂) :
    ∃ slots₁', fields.readMember depth name' j' slots = .ok slots₁' ∧
      fields.readMember depth name j slots₁' = .ok slots₂ := by
  -- on the fields; the first one takes at most one of the two members
  induction fields with
  | nil =>
    -- both are foreign, and leave everything as it is
    have hslots : slots₁ = slots := rfl
    subst hslots
    exact ⟨slots₁, h', h⟩
  | cons field rest ih =>
    obtain ⟨slot, slots⟩ := slots
    obtain ⟨slot₁, slots₁⟩ := slots₁
    obtain ⟨slot₂, slots₂⟩ := slots₂
    by_cases hname : name = field.name
    · subst hname
      cases slot with
      | some a => cases (readMember_taken ..).symm.trans h
      | none =>
        obtain ⟨a, ha, h⟩ := of_map_ok ((readMember_own ..).symm.trans h)
        cases h
        by_cases hname' : name' = field.name
        · -- the slot is taken
          subst hname'
          cases (readMember_taken ..).symm.trans h'
        · obtain ⟨slots₂, hslots, h'⟩ := of_map_ok ((readMember_of_ne hname' ..).symm.trans h')
          cases h'
          refine ⟨(none, slots₂), ?_, readMember_self ha slots₂⟩
          rw [readMember_of_ne hname', hslots]
          rfl
    · obtain ⟨slots₁, hslots₁, h⟩ := of_map_ok ((readMember_of_ne hname ..).symm.trans h)
      cases h
      by_cases hname' : name' = field.name
      · subst hname'
        cases slot with
        | some a => cases (readMember_taken ..).symm.trans h'
        | none =>
          obtain ⟨a, ha, h'⟩ := of_map_ok ((readMember_own ..).symm.trans h')
          cases h'
          refine ⟨(some a, slots), readMember_self ha slots, ?_⟩
          rw [readMember_of_ne hname, hslots₁]
          rfl
      · obtain ⟨slots₂, hslots₂, h'⟩ := of_map_ok ((readMember_of_ne hname' ..).symm.trans h')
        cases h'
        obtain ⟨slots', h1, h2⟩ := ih hslots₁ hslots₂
        refine ⟨(slot, slots'), ?_, ?_⟩
        · rw [readMember_of_ne hname', h1]
          rfl
        · rw [readMember_of_ne hname, h2]
          rfl

/-- Members that have been read were named. -/
theorem of_readMembers_cons {m : Option String × Json} {ms : List (Option String × Json)}
    {slots slots' : Slots ts} (h : fields.readMembers depth (m :: ms) slots = .ok slots') :
    ∃ name slots₁, m.1 = some name ∧ fields.readMember depth name m.2 slots = .ok slots₁ ∧
      fields.readMembers depth ms slots₁ = .ok slots' := by
  obtain ⟨_ | name, j⟩ := m
  · cases h
  · obtain ⟨slots₁, hmember, h⟩ := of_bind_ok h
    exact ⟨name, slots₁, rfl, hmember, h⟩

theorem readMembers_cons_ok {name : String} {j : Json} {ms : List (Option String × Json)}
    {slots slots₁ : Slots ts} (h : fields.readMember depth name j slots = .ok slots₁) :
    fields.readMembers depth ((some name, j) :: ms) slots = fields.readMembers depth ms slots₁ := by
  show (fields.readMember depth name j slots).bind _ = _
  rw [h]
  rfl

/-- Members can be read in any order. -/
theorem readMembers_perm {ms ms' : List (Option String × Json)} (hperm : ms.Perm ms')
    {slots slots' : Slots ts} (h : fields.readMembers depth ms slots = .ok slots') :
    fields.readMembers depth ms' slots = .ok slots' := by
  induction hperm generalizing slots with
  | nil => exact h
  | cons m _ ih =>
    obtain ⟨_, j⟩ := m
    obtain ⟨name, slots₁, rfl, hmember, h⟩ := of_readMembers_cons h
    rw [readMembers_cons_ok hmember]
    exact ih h
  | swap m m' ms =>
    obtain ⟨_, j'⟩ := m'
    obtain ⟨_, j⟩ := m
    obtain ⟨name', slots₁, rfl, h1, h⟩ := of_readMembers_cons h
    obtain ⟨name, slots₂, rfl, h2, h⟩ := of_readMembers_cons h
    obtain ⟨slots₁', h1', h2'⟩ := readMember_comm h1 h2
    rw [readMembers_cons_ok h1', readMembers_cons_ok h2']
    exact h
  | trans _ _ ih ih' => exact ih' (ih h)

/-- A record is read alike with its members in another order. -/
theorem read_perm {ms ms' : List (Option String × Json)} (hperm : ms.Perm ms') {slots : Slots ts}
    (h : fields.read depth (.object ms) = .ok slots) :
    fields.read depth (.object ms') = .ok slots := by
  obtain ⟨inner, henter, h⟩ := of_bind_ok h
  rw [read, henter]
  exact readMembers_perm hperm h

-- ---------------------------------------------------------------------------
-- Foreign members
-- ---------------------------------------------------------------------------

/-- A member is foreign to a record with the given names: it has another name, and any value, even
one that nests too deep to be read or holds a string without a text. -/
def Foreign (names : List String) (m : Option String × Json) : Prop :=
  ∃ name, m.1 = some name ∧ name ∉ names ∧ m.2.wellFormed = true

theorem readMember_foreign {name : String} (hname : name ∉ fields.names) {j : Json}
    (hj : j.wellFormed = true) (slots : Slots ts) :
    fields.readMember depth name j slots = .ok slots := by
  induction fields with
  | nil => exact if_pos hj
  | cons field rest ih =>
    obtain ⟨slot, slots⟩ := slots
    rw [readMember_of_ne (List.ne_of_not_mem_cons hname),
      ih (List.not_mem_of_not_mem_cons hname)]
    rfl

/-- Foreign members are passed over. -/
theorem readMembers_foreign {others : List (Option String × Json)}
    (hothers : ∀ m ∈ others, Foreign fields.names m) (ms : List (Option String × Json))
    (slots : Slots ts) :
    fields.readMembers depth (others ++ ms) slots = fields.readMembers depth ms slots := by
  induction others with
  | nil => rfl
  | cons m others ih =>
    obtain ⟨⟨name, hname, hnew, hj⟩, hrest⟩ := List.forall_mem_cons.mp hothers
    obtain ⟨_, j⟩ := m
    cases hname
    rw [List.cons_append, readMembers_cons_ok (readMember_foreign hnew hj slots), ih hrest]

/-- A record is read alike with foreign members. -/
theorem read_foreign {others : List (Option String × Json)}
    (hothers : ∀ m ∈ others, Foreign fields.names m) (ms : List (Option String × Json)) :
    fields.read depth (.object (others ++ ms)) = fields.read depth (.object ms) := by
  rw [read, read]
  simp only [readMembers_foreign hothers]

-- ---------------------------------------------------------------------------
-- Values without names
-- ---------------------------------------------------------------------------

/-- The members with the given names and values, in order. -/
def inOrder (names : List String) (js : List Json) : List (Option String × Json) :=
  List.zipWith (fun name j => (some name, j)) names js

theorem mem_of_mem_inOrder {names : List String} {js : List Json} {m : Option String × Json}
    (h : m ∈ inOrder names js) : ∃ name ∈ names, m.1 = some name := by
  induction names generalizing js with
  | nil => cases h
  | cons name names ih =>
    cases js with
    | nil => cases h
    | cons j js =>
      rcases List.mem_cons.mp h with rfl | h
      · exact ⟨name, List.mem_cons_self .., rfl⟩
      · obtain ⟨name', hmem, heq⟩ := ih h
        exact ⟨name', List.mem_cons_of_mem _ hmem, heq⟩

/-- Every field once and in order is read like the values alone. -/
theorem readMembers_inOrder {js : List Json} (hlength : js.length = fields.names.length)
    (hnames : fields.names.Nodup) :
    fields.readMembers depth (inOrder fields.names js) (Slots.empty ts) =
      fields.readItems depth js := by
  induction fields generalizing js with
  | nil =>
    obtain rfl := List.length_eq_zero_iff.mp hlength
    rfl
  | cons field rest ih =>
    cases js with
    | nil => cases hlength
    | cons j js =>
      obtain ⟨hnot, hnodup⟩ := List.nodup_cons.mp hnames
      have hother : ∀ m ∈ inOrder rest.names js, m.1 ≠ some field.name := by
        intro m hm heq
        obtain ⟨name, hmem, hname⟩ := mem_of_mem_inOrder hm
        exact hnot (Option.some.inj (heq.symm.trans hname) ▸ hmem)
      rw [readItems]
      show ((cons field rest).readMember depth field.name j (none, Slots.empty _)).bind _ = _
      cases hj : field.decoder depth j with
      | error e =>
        rw [readMember_own, hj]
        rfl
      | ok a =>
        rw [readMember_self hj]
        show (cons field rest).readMembers depth (inOrder rest.names js) (some a, Slots.empty _) = _
        rw [readMembers_cons hother, ih (Nat.succ.inj hlength) hnodup]
        cases rest.readItems depth js <;> rfl

/-- A record with every field once is read like the array of the values. -/
theorem read_inOrder {js : List Json} (hlength : js.length = fields.names.length)
    (hnames : fields.names.Nodup) :
    fields.read depth (.object (inOrder fields.names js)) = fields.read depth (.array js) := by
  rw [read, read]
  simp only [readMembers_inOrder hlength hnames]

end ReplayVector.Json.Fields
