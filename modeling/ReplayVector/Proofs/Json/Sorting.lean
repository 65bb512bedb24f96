import ReplayVector.Proofs.Json.Members

/-!
# Sorted members

The members of a record can be read in any order, and so they can when they are sorted by name.

* `sorted_record`: sorting rearranges the members of a record and sorts their values.
* `Form.Faithful.of_record_sorted`: so a record with sorted members is read back.
-/

namespace ReplayVector.Json

-- ---------------------------------------------------------------------------
-- Sorted members
-- ---------------------------------------------------------------------------

/-- Members that are fields in order have different names, as the fields have. -/
theorem Fields.Written.nodup {levels : Nat} {ts : List Type} {fields : Fields ts}
    {ms : List (String × Json)} {slots : Slots ts} (h : Written levels fields ms slots)
    (hnames : fields.names.Nodup) : (ms.map (·.1)).Nodup := by
  suffices hsub : (ms.map (·.1)).Sublist fields.names from hsub.nodup hnames
  clear hnames
  induction h with
  | nil => exact .slnil
  | member _ _ _ ih => exact ih.cons_cons _
  | missing _ ih => exact ih.cons _

/-- A member of a new name is put somewhere among the others. -/
private theorem insertMember_eq {name : String} (value : Json) {ms : List (String × Json)}
    (hnew : name ∉ ms.map (·.1)) :
    ∃ ms' : List (String × Json), ms'.Perm ((name, value) :: ms) ∧
      insertMember (some name) value (ms.map fun (name, value) => (some name, value)) =
        ms'.map fun (name, value) => (some name, value) := by
  induction ms with
  | nil => exact ⟨[(name, value)], .refl _, rfl⟩
  | cons m ms ih =>
    have hne : name ≠ m.1 := List.ne_of_not_mem_cons hnew
    obtain ⟨ms', hperm, hinsert⟩ := ih (List.not_mem_of_not_mem_cons hnew)
    rw [List.map_cons, insertMember]
    simp only [Option.getD_some, if_neg hne]
    split
    · exact ⟨(name, value) :: m :: ms, .refl _, rfl⟩
    · exact ⟨m :: ms', (hperm.cons m).trans (.swap ..), by rw [hinsert, List.map_cons]⟩

private theorem sortedMembers_eq {ms : List (String × Json)} (hnames : (ms.map (·.1)).Nodup) :
    ∃ ms' : List (String × Json), ms'.Perm (ms.map fun (name, value) => (name, value.sorted)) ∧
      sortedMembers (ms.map fun (name, value) => (some name, value)) =
        ms'.map fun (name, value) => (some name, value) := by
  induction ms with
  | nil => exact ⟨[], .refl _, rfl⟩
  | cons m ms ih =>
    obtain ⟨hnew, hnodup⟩ := List.nodup_cons.mp hnames
    obtain ⟨ms', hperm, hsorted⟩ := ih hnodup
    have hnew' : m.1 ∉ ms'.map (·.1) := fun hmem => hnew <| by
      have := (hperm.map (·.1)).mem_iff.mp hmem
      simpa using this
    obtain ⟨ms'', hperm', hinsert⟩ := insertMember_eq m.2.sorted hnew'
    refine ⟨ms'', hperm'.trans (hperm.cons _), ?_⟩
    rw [List.map_cons, sortedMembers, hsorted, if_neg, hinsert]
    intro hany
    obtain ⟨m', hmem, heq⟩ := List.any_eq_true.mp hany
    obtain ⟨m₀, hmem₀, rfl⟩ := List.mem_map.mp hmem
    exact hnew' (List.mem_map.mpr ⟨m₀, hmem₀, of_decide_eq_true heq⟩)

/-- Sorting a record rearranges its members and sorts their values. -/
theorem sorted_record {ms : List (String × Json)} (hnames : (ms.map (·.1)).Nodup) :
    ∃ ms' : List (String × Json), ms'.Perm (ms.map fun (name, value) => (name, value.sorted)) ∧
      (record ms).sorted = record ms' := by
  obtain ⟨ms', hperm, hsorted⟩ := sortedMembers_eq hnames
  exact ⟨ms', hperm, congrArg Json.object hsorted⟩

-- ---------------------------------------------------------------------------
-- Forms with sorted members
-- ---------------------------------------------------------------------------

namespace Form

variable {α β : Type}

/-- A form that is written with the members of every object sorted. -/
def sorted (f : Form α) : Form α where
  toJson a := (f.toJson a).sorted
  decoder := f.decoder

/-- A form without objects of several members is its own sorted form. -/
theorem sorted_eq_self {f : Form α} (h : ∀ a, (f.toJson a).sorted = f.toJson a) : f.sorted = f := by
  cases f
  exact congrArg (Form.mk · _) (funext h)

theorem sorted_single (f : Form α) : f.single.sorted = f.sorted.single := rfl

theorem sorted_pair (f : Form α) (g : Form β) : (f.pair g).sorted = f.sorted.pair g.sorted := rfl

theorem sorted_array (f : Form α) : f.array.sorted = f.sorted.array := by
  have h (as : List α) : sortedItems (as.map f.toJson) = as.map f.sorted.toJson := by
    induction as with
    | nil => rfl
    | cons a as ih => rw [List.map_cons, sortedItems, ih, List.map_cons, sorted]
  exact congrArg (Form.mk · _) (funext fun as => congrArg Json.array (h as))

theorem sorted_option (f : Form α) : f.option.sorted = f.sorted.option := by
  refine congrArg (Form.mk · _) (funext fun o => ?_)
  cases o <;> rfl

/-- A record is faithful if it is written field by field, the members in any order. -/
theorem Faithful.of_record_perm {ts : List Type} {f : Form α} (fields : Fields ts)
    {make : Slots ts → Except Refusal α} {levels : Nat} (hnames : fields.names.Nodup)
    (hdecoder : ∀ depth j, f.decoder depth j = (fields.read depth j).bind make)
    (h : ∀ a, ∃ ms ms' slots, f.toJson a = record ms' ∧ ms.Perm ms' ∧
      fields.Written levels ms slots ∧ make slots = .ok a) :
    f.Faithful (levels + 1) where
  printed a := by
    obtain ⟨ms, ms', slots, hjson, hperm, hwritten, -⟩ := h a
    rw [hjson]
    exact printed_record fun m hm => hwritten.printed m (hperm.mem_iff.mpr hm)
  decoder_toJson a depth hd := by
    obtain ⟨ms, ms', slots, hjson, hperm, hwritten, hmake⟩ := h a
    have hgiven : Fields.Given (depth - 1) fields ms slots := hwritten.given (by omega)
    have hread := Fields.read_record (by omega) hnames hgiven
    rw [hdecoder, hjson, record, Fields.read_perm (hperm.map _) hread]
    exact hmake

/-- So it is faithful with sorted members too, if its values are. -/
theorem Faithful.of_record_sorted {ts : List Type} {f : Form α} (fields : Fields ts)
    {make : Slots ts → Except Refusal α} {levels : Nat} (hnames : fields.names.Nodup)
    (hdecoder : ∀ depth j, f.decoder depth j = (fields.read depth j).bind make)
    (h : ∀ a, ∃ ms slots, f.toJson a = record ms ∧
      fields.Written levels (ms.map fun (name, value) => (name, value.sorted)) slots ∧
      make slots = .ok a) :
    f.sorted.Faithful (levels + 1) := by
  refine .of_record_perm fields hnames hdecoder fun a => ?_
  obtain ⟨ms, slots, hjson, hwritten, hmake⟩ := h a
  have hms : (ms.map (·.1)).Nodup := by
    have := hwritten.nodup hnames
    rwa [List.map_map] at this
  obtain ⟨ms', hperm, hsorted⟩ := sorted_record hms
  have hjson' : f.sorted.toJson a = record ms' := (congrArg Json.sorted hjson).trans hsorted
  exact ⟨_, ms', slots, hjson', hperm.symm, hwritten, hmake⟩

end Form

end ReplayVector.Json
