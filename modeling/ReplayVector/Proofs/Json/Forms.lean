import ReplayVector.Proofs.Address.Text
import ReplayVector.Proofs.Cid.Text
import ReplayVector.Proofs.Json.Spelling

/-!
# Forms are read back as they were written

A form is `Faithful` inside some levels of nesting if every value it writes has an indented layout
that the reader of JSON takes back, and its decoder gives the value again. The forms of the simple
types are faithful, lists, options and pairs inherit it, and a record is read back field by field.

* `Form.Faithful.parse_pretty`, `Form.Faithful.parse_print`: a document in a faithful form is read
  back, from either layout.
* `Form.Faithful.lossless`: so a text can be read and printed again without loss.
* `Fields.read_record`: a record whose members are fields in order gives these fields.
-/

namespace ReplayVector.Json

/-- Every value of the type is written as a value whose indented layout is a text of it, and is
read back wherever more than `levels` levels of arrays and objects are left. -/
structure Form.Faithful (f : Form α) (levels : Nat) : Prop where
  printed : ∀ a, Printed (f.toJson a)
  decoder_toJson : ∀ a depth, levels < depth → f.decoder depth (f.toJson a) = .ok a

namespace Form

variable {α : Type} {f : Form α} {levels : Nat}

/-- A document in a faithful form is read back. -/
theorem Faithful.parse_pretty (h : f.Faithful levels) (hlevels : levels < nesting) (a : α) :
    f.parse ((f.toJson a).pretty ++ "\n") = .ok a := by
  rw [parse, decode, read_pretty (h.printed a)]
  simp only [h.decoder_toJson a nesting hlevels]
  rfl

/-- Without blanks a value is read as its form's decoder reads it. -/
theorem parse_print_eq {a : α} (h : Printed (f.toJson a)) :
    f.parse (f.print a) = f.decoder nesting (f.toJson a) := by
  rw [parse, decode, print, read_compact (h 0)]
  show (f.decoder nesting (f.toJson a) >>= fun a => .ok a) = _
  cases f.decoder nesting (f.toJson a) <;> rfl

/-- The text of a value in a faithful form is read back. -/
theorem Faithful.parse_print (h : f.Faithful levels) (hlevels : levels < nesting) (a : α) :
    f.parse (f.print a) = .ok a := by
  rw [parse_print_eq (h.printed a)]
  exact h.decoder_toJson a nesting hlevels

/-- What a text is read as, its value is. -/
theorem decoder_of_parse {s : String} {a : α} (h : f.parse s = .ok a) :
    ∃ j, f.decoder nesting j = .ok a := by
  refine ⟨(read s).1, ?_⟩
  unfold parse decode at h
  cases hj : f.decoder nesting (read s).1 with
  | error e =>
    simp only [hj] at h
    cases h
  | ok b =>
    simp only [hj, bind, Except.bind] at h
    split at h
    · exact h
    · cases h

/-- A form is as faithful inside more levels. -/
theorem Faithful.mono {levels' : Nat} (h : f.Faithful levels) (hle : levels ≤ levels') :
    f.Faithful levels' where
  printed := h.printed
  decoder_toJson a depth hd := h.decoder_toJson a depth (by omega)

/-! ## Reading and printing again -/

/-- The values that fit into a text are those that are read back from theirs. What has been read
from any text fits, and two texts say the same exactly if the texts printed for them are one. -/
structure Lossless (f : Form α) (fits : α → Prop) : Prop where
  parse_print : ∀ a, f.parse (f.print a) = .ok a ↔ fits a
  reprint : ∀ s a, f.parse s = .ok a → f.parse (f.print a) = .ok a
  alike : ∀ s s' a a', f.parse s = .ok a → f.parse s' = .ok a' → (a = a' ↔ f.print a = f.print a')

/-- It is enough that the values that fit are read back and that only such values are read. -/
theorem Lossless.of_fits {fits : α → Prop} (hfits : ∀ a, f.parse (f.print a) = .ok a ↔ fits a)
    (hread : ∀ s a, f.parse s = .ok a → fits a) : f.Lossless fits where
  parse_print := hfits
  reprint s a h := (hfits a).mpr (hread s a h)
  alike s s' a a' h h' := by
    refine ⟨fun heq => heq ▸ rfl, fun heq => ?_⟩
    -- both values are what is read from the one text
    have ha := (hfits a).mpr (hread s a h)
    have ha' := (hfits a').mpr (hread s' a' h')
    rw [heq, ha'] at ha
    exact (Except.ok.inj ha).symm

/-- Every value of a faithful form fits. -/
theorem Faithful.lossless (h : f.Faithful levels) (hlevels : levels < nesting) :
    f.Lossless fun _ => True := by
  refine .of_fits (fun a => ?_) fun s a hread => trivial
  exact iff_true_intro (h.parse_print hlevels a)

end Form

/-! ## Simple types -/

/-- A number between the bounds is read as it was written. -/
theorem intBetween_ofInt {low high n : Int} (h : low ≤ n ∧ n < high) (depth : Nat) :
    intBetween low high depth (ofInt n) = .ok n := by
  rw [ofInt, intBetween]
  simp only [wholeNumber?_repr, h, and_self, if_true]

namespace Form

/-- Numbers of 64 bits with sign are inside their bounds. -/
theorem int64_faithful : int64.Faithful 0 where
  printed n := printed_ofInt n.toInt
  decoder_toJson n depth _ := by
    have h : -2 ^ 63 ≤ n.toInt ∧ n.toInt < 2 ^ 63 := ⟨n.le_toInt, n.toInt_lt⟩
    show (do let n ← intBetween (-2 ^ 63) (2 ^ 63) depth (ofInt n.toInt); return n.toInt64) = _
    rw [intBetween_ofInt h]
    show Except.ok n.toInt.toInt64 = Except.ok n
    congr 1
    simp

theorem uint64_faithful : uint64.Faithful 0 where
  printed n := printed_ofNat n.toNat
  decoder_toJson n depth _ := by
    have hlt := n.toNat_lt
    have h : (0 : Int) ≤ (n.toNat : Int) ∧ (n.toNat : Int) < 2 ^ 64 := by omega
    show (do let n ← intBetween 0 (2 ^ 64) depth (ofInt n.toNat); return n.toNat.toUInt64) = _
    rw [intBetween_ofInt h]
    show Except.ok n.toNat.toUInt64 = Except.ok n
    congr 1
    simp

theorem uint32_faithful : uint32.Faithful 0 where
  printed n := printed_ofNat n.toNat
  decoder_toJson n depth _ := by
    have hlt := n.toNat_lt
    have h : (0 : Int) ≤ (n.toNat : Int) ∧ (n.toNat : Int) < 2 ^ 32 := by omega
    show (do let n ← intBetween 0 (2 ^ 32) depth (ofInt n.toNat); return n.toNat.toUInt32) = _
    rw [intBetween_ofInt h]
    show Except.ok n.toNat.toUInt32 = Except.ok n
    congr 1
    simp

theorem string_faithful : string.Faithful 0 where
  printed := printed_ofString
  decoder_toJson _ _ _ := rfl

/-- Bytes are read back from base 64. -/
theorem bytes_faithful : bytes.Faithful 0 where
  printed bs := printed_ofString (Text.toBase64 bs)
  decoder_toJson bs depth _ := by
    have h := Text.ofBase64?_toBase64 bs
    have hoptional : optional text depth (ofString (Text.toBase64 bs)) =
        .ok (some (Text.toBase64 bs)) := rfl
    show (optional text depth (ofString (Text.toBase64 bs)) >>= _) = _
    rw [hoptional]
    simp only [bind, Except.bind, h]

/-- So are short ones, which are refused only when they are longer. -/
theorem bytesUpTo_faithful (n : Nat) : (bytesUpTo n).Faithful 0 where
  printed bs := bytes_faithful.printed bs.val
  decoder_toJson bs depth hd := by
    have hbytes := bytes_faithful.decoder_toJson bs.val depth hd
    show (bytes.decoder depth (bytes.toJson bs.val) >>= _) = _
    rw [hbytes]
    simp only [bind, Except.bind, Bytes.upTo?_val]

/-- Addresses are read back from their texts. -/
theorem address_faithful : address.Faithful 0 where
  printed a := printed_ofString a.toString
  decoder_toJson a depth _ := by
    have htext : text depth (ofString a.toString) = .ok a.toString := rfl
    show (text depth (ofString a.toString) >>= _) = _
    rw [htext]
    simp only [bind, Except.bind, Address.ofString_toString]

/-- So are amounts from their digits. -/
theorem tokenAmount_faithful : tokenAmount.Faithful 0 where
  printed a := printed_ofString a.toString
  decoder_toJson a depth _ := by
    have htext : text depth (ofString a.toString) = .ok a.toString := rfl
    have hread : TokenAmount.ofString? a.toString = some a := by
      rw [TokenAmount.ofString?, TokenAmount.toString, TokenAmount.readInt_repr]
      rfl
    show (text depth (ofString a.toString) >>= _) = _
    rw [htext]
    simp only [bind, Except.bind, hread]

end Form

/-! ## Lists, options and pairs -/

theorem enter_of_lt {depth : Nat} (h : 1 < depth) : enter depth = .ok (depth - 1) := by
  rw [enter, if_neg (by omega)]

/-- Items are read one after the other. -/
private theorem mapM_decoder (f : Form α) (depth : Nat)
    (h : ∀ a, f.decoder depth (f.toJson a) = .ok a) (as : List α) :
    (as.map f.toJson).mapM (f.decoder depth) = .ok as := by
  induction as with
  | nil => rfl
  | cons a as ih =>
    rw [List.map_cons, List.mapM_cons, h a, ih]
    rfl

namespace Form

variable {α : Type} {f : Form α} {levels : Nat}

/-- An array nests one level deeper than its items. -/
theorem Faithful.array (h : f.Faithful levels) : f.array.Faithful (levels + 1) where
  printed as := printed_array fun j hj => by
    obtain ⟨a, -, rfl⟩ := List.mem_map.mp hj
    exact h.printed a
  decoder_toJson as depth hd := by
    have hitems := mapM_decoder f (depth - 1)
      (fun a => h.decoder_toJson a (depth - 1) (by omega)) as
    show (do
      let depth ← enter depth
      (as.map f.toJson).mapM (f.decoder depth)) = _
    rw [enter_of_lt (by omega)]
    exact hitems

/-- So does a list, the empty one being `null`. -/
theorem Faithful.list (h : f.Faithful levels) : f.list.Faithful (levels + 1) where
  printed as := by
    cases as with
    | nil => exact fun _ => Spells.null
    | cons a as => exact h.array.printed (a :: as)
  decoder_toJson as depth hd := by
    cases as with
    | nil => rfl
    | cons a as => exact h.array.decoder_toJson (a :: as) depth hd

/-- None is told from every value, as long as no value is written as `null`. -/
theorem Faithful.option (h : f.Faithful levels) (hnull : ∀ a, f.toJson a ≠ .null) :
    f.option.Faithful levels where
  printed
    | none => fun _ => Spells.null
    | some a => h.printed a
  decoder_toJson o depth hd := by
    cases o with
    | none => rfl
    | some a =>
      show optional f.decoder depth (f.toJson a) = _
      rw [optional.eq_2 _ _ _ (hnull a), h.decoder_toJson a depth hd]
      rfl

theorem Faithful.single (h : f.Faithful levels) : f.single.Faithful (levels + 1) where
  printed a := printed_array fun j hj => by
    rw [List.mem_singleton.mp hj]
    exact h.printed a
  decoder_toJson a depth hd := by
    have ha := h.decoder_toJson a (depth - 1) (by omega)
    show (enter depth >>= fun depth => f.decoder depth (f.toJson a)) = _
    rw [enter_of_lt (by omega)]
    exact ha

/-- And a pair. -/
theorem Faithful.pair {β : Type} {g : Form β} (h : f.Faithful levels) (hg : g.Faithful levels) :
    (f.pair g).Faithful (levels + 1) where
  printed p := printed_array <| by
    simp only [List.forall_mem_cons, List.not_mem_nil, false_implies, implies_true, and_true]
    exact ⟨h.printed p.1, hg.printed p.2⟩
  decoder_toJson p depth hd := by
    have h1 := h.decoder_toJson p.1 (depth - 1) (by omega)
    have h2 := hg.decoder_toJson p.2 (depth - 1) (by omega)
    show (enter depth >>= fun depth => f.decoder depth (f.toJson p.1) >>= fun a =>
      g.decoder depth (g.toJson p.2) >>= fun b => .ok (a, b)) = _
    rw [enter_of_lt (by omega)]
    simp only [bind, Except.bind, h1, h2]

end Form

/-! ## Records -/

namespace Fields

/-- The names of the fields, in order. -/
def names : {ts : List Type} → Fields ts → List String
  | _, .nil => []
  | _, .cons field rest => field.name :: rest.names

/-- The members give the fields in order, some of them left out: what each decoder reads of its
member is in the slot of the field. -/
inductive Given (depth : Nat) :
    {ts : List Type} → Fields ts → List (String × Json) → Slots ts → Prop
  | nil : Given depth .nil [] ()
  | member {α : Type} {ts : List Type} {field : Field α} {rest : Fields ts} {j : Json} {a : α}
      {ms : List (String × Json)} {slots : Slots ts} (ha : field.decoder depth j = .ok a)
      (hrest : Given depth rest ms slots) :
      Given depth (.cons field rest) ((field.name, j) :: ms) (some a, slots)
  | missing {α : Type} {ts : List Type} {field : Field α} {rest : Fields ts}
      {ms : List (String × Json)} {slots : Slots ts} (hrest : Given depth rest ms slots) :
      Given depth (.cons field rest) ms (none, slots)

/-- Members that are given have the names of fields. -/
theorem Given.mem_names {depth : Nat} {ts : List Type} {fields : Fields ts}
    {ms : List (String × Json)} {slots : Slots ts} (h : Given depth fields ms slots) :
    ∀ m ∈ ms, m.1 ∈ fields.names := by
  induction h with
  | nil => simp
  | member _ _ ih =>
    intro m hm
    rcases List.mem_cons.mp hm with rfl | hm
    · exact List.mem_cons_self ..
    · exact List.mem_cons_of_mem _ (ih m hm)
  | missing _ ih => exact fun m hm => List.mem_cons_of_mem _ (ih m hm)

/-- Members are read one after the other. -/
theorem readMembers_map_cons {ts : List Type} (fields : Fields ts) (depth : Nat)
    (m : String × Json) (ms : List (String × Json)) (slots : Slots ts) :
    fields.readMembers depth ((m :: ms).map fun (name, value) => (some name, value)) slots =
      (fields.readMember depth m.1 m.2 slots).bind
        (fields.readMembers depth (ms.map fun (name, value) => (some name, value))) := rfl

/-- A member of another name is read by the fields after this one. -/
theorem readMember_of_ne {α : Type} {ts : List Type} {field : Field α} {rest : Fields ts}
    {name : String} (h : name ≠ field.name) (depth : Nat) (j : Json) (slot : Option α)
    (slots : Slots ts) :
    (cons field rest).readMember depth name j (slot, slots) =
      (rest.readMember depth name j slots).map fun slots => (slot, slots) :=
  (if_neg h).trans rfl

/-- A field's own member fills its slot with what is read of it. -/
theorem readMember_own {α : Type} {ts : List Type} (field : Field α) (rest : Fields ts)
    (depth : Nat) (j : Json) (slots : Slots ts) :
    (cons field rest).readMember depth field.name j (none, slots) =
      (field.decoder depth j).map fun a => (some a, slots) :=
  (if_pos rfl).trans rfl

/-- A field's own member is refused if the slot is taken. -/
theorem readMember_taken {α : Type} {ts : List Type} (field : Field α) (rest : Fields ts)
    (depth : Nat) (j : Json) (a : α) (slots : Slots ts) :
    (cons field rest).readMember depth field.name j (some a, slots) = .error .malformed :=
  (if_pos rfl).trans rfl

/-- A member of the first name fills the first slot. -/
theorem readMember_self {α : Type} {ts : List Type} {field : Field α} {rest : Fields ts}
    {depth : Nat} {j : Json} {a : α} (h : field.decoder depth j = .ok a) (slots : Slots ts) :
    (cons field rest).readMember depth field.name j (none, slots) = .ok (some a, slots) := by
  rw [readMember_own, h]
  rfl

/-- Members of other names do not touch a field's slot. -/
theorem readMembers_cons {α : Type} {ts : List Type} {field : Field α} {rest : Fields ts}
    {depth : Nat} {slot : Option α} {ms : List (Option String × Json)}
    (h : ∀ m ∈ ms, m.1 ≠ some field.name) (slots : Slots ts) :
    (cons field rest).readMembers depth ms (slot, slots) =
      (rest.readMembers depth ms slots).map fun slots => (slot, slots) := by
  induction ms generalizing slots with
  | nil => rfl
  | cons m ms ih =>
    obtain ⟨hm, hms⟩ := List.forall_mem_cons.mp h
    obtain ⟨_ | name, j⟩ := m
    · rfl
    · have hname : name ≠ field.name := fun heq => hm (congrArg some heq)
      show ((cons field rest).readMember depth name j (slot, slots)).bind _ =
        ((rest.readMember depth name j slots).bind _).map _
      rw [readMember_of_ne hname]
      cases rest.readMember depth name j slots with
      | error e => rfl
      | ok slots => exact ih hms slots

/-- Named members of other names than a field's. -/
private theorem map_some_ne {name : String} {ms : List (String × Json)} (h : ∀ m ∈ ms, m.1 ≠ name) :
    ∀ m ∈ ms.map fun (name, value) => (some name, value), m.1 ≠ some name := by
  intro m hm heq
  obtain ⟨m', hm', rfl⟩ := List.mem_map.mp hm
  exact h m' hm' (Option.some.inj heq)

/-- Members that give the fields in order are read into their slots. -/
private theorem Given.readMembers {depth : Nat} {ts : List Type} {fields : Fields ts}
    {ms : List (String × Json)} {slots : Slots ts} (h : Given depth fields ms slots)
    (hnames : fields.names.Nodup) :
    fields.readMembers depth (ms.map fun (name, value) => (some name, value)) (Slots.empty ts) =
      .ok slots := by
  induction h with
  | nil => rfl
  | member ha hrest ih =>
    obtain ⟨hnot, hnodup⟩ := List.nodup_cons.mp hnames
    have hother := fun m hm => ne_of_mem_of_not_mem (hrest.mem_names m hm) hnot
    rw [readMembers_map_cons, Slots.empty, readMember_self ha]
    show (Fields.cons _ _).readMembers _ _ _ = _
    rw [readMembers_cons (map_some_ne hother), ih hnodup]
    rfl
  | missing hrest ih =>
    obtain ⟨hnot, hnodup⟩ := List.nodup_cons.mp hnames
    have hother := fun m hm => ne_of_mem_of_not_mem (hrest.mem_names m hm) hnot
    rw [Slots.empty, readMembers_cons (map_some_ne hother), ih hnodup]
    rfl

/-- A record whose members give the fields in order is read as these fields. -/
theorem read_record {depth : Nat} {ts : List Type} {fields : Fields ts}
    {ms : List (String × Json)} {slots : Slots ts} (hdepth : 1 < depth)
    (hnames : fields.names.Nodup) (h : Given (depth - 1) fields ms slots) :
    fields.read depth (record ms) = .ok slots := by
  rw [record, read, enter_of_lt hdepth]
  exact h.readMembers hnames

/-- The members are fields in order, some of them left out, written by forms that are faithful
inside some levels of nesting; the values stand in the slots of their fields. -/
inductive Written (levels : Nat) :
    {ts : List Type} → Fields ts → List (String × Json) → Slots ts → Prop
  | nil : Written levels .nil [] ()
  | member {α : Type} {ts : List Type} {name : String} {f : Form α} {rest : Fields ts}
      {ms : List (String × Json)} {slots : Slots ts} (hf : f.Faithful levels) (a : α)
      (hrest : Written levels rest ms slots) :
      Written levels (.cons ⟨name, f.decoder⟩ rest) ((name, f.toJson a) :: ms) (some a, slots)
  | missing {α : Type} {ts : List Type} {field : Field α} {rest : Fields ts}
      {ms : List (String × Json)} {slots : Slots ts} (hrest : Written levels rest ms slots) :
      Written levels (.cons field rest) ms (none, slots)

namespace Written

variable {levels : Nat} {ts : List Type} {ms : List (String × Json)}

/-- A member whose form does not nest at all. -/
theorem flat {α : Type} {name : String} {f : Form α} {rest : Fields ts} {slots : Slots ts}
    (hf : f.Faithful 0) (a : α) (hrest : Written levels rest ms slots) :
    Written levels (.cons ⟨name, f.decoder⟩ rest) ((name, f.toJson a) :: ms) (some a, slots) :=
  .member (hf.mono (Nat.zero_le levels)) a hrest

/-- The values of such members are printed by forms. -/
theorem printed {fields : Fields ts} {slots : Slots ts} (h : Written levels fields ms slots) :
    ∀ m ∈ ms, Printed m.2 := by
  induction h with
  | nil => exact fun _ hm => absurd hm List.not_mem_nil
  | member hf a _ ih => exact List.forall_mem_cons.mpr ⟨hf.printed a, ih⟩
  | missing _ ih => exact ih

/-- With levels to spare, they are read as what stands in the slots. -/
theorem given {fields : Fields ts} {slots : Slots ts} (h : Written levels fields ms slots)
    {depth : Nat} (hdepth : levels < depth) : Given depth fields ms slots := by
  induction h with
  | nil => exact .nil
  | member hf a _ ih => exact .member (hf.decoder_toJson a depth hdepth) ih
  | missing _ ih => exact .missing ih

end Written

end Fields

/-- A record is faithful if it is written field by field, and made of what stands in the slots of
its fields. -/
theorem Form.Faithful.of_record {α : Type} {ts : List Type} {f : Form α} (fields : Fields ts)
    {make : Slots ts → Except Refusal α} {levels : Nat} (hnames : fields.names.Nodup)
    (hdecoder : ∀ depth j, f.decoder depth j = (fields.read depth j).bind make)
    (h : ∀ a, ∃ ms slots, f.toJson a = record ms ∧ fields.Written levels ms slots ∧
      make slots = .ok a) :
    f.Faithful (levels + 1) where
  printed a := by
    obtain ⟨ms, slots, hjson, hwritten, -⟩ := h a
    rw [hjson]
    exact printed_record hwritten.printed
  decoder_toJson a depth hd := by
    obtain ⟨ms, slots, hjson, hwritten, hmake⟩ := h a
    have hgiven : Fields.Given (depth - 1) fields ms slots := hwritten.given (by omega)
    have hread := Fields.read_record (by omega) hnames hgiven
    rw [hdecoder, hjson, hread]
    exact hmake

/-! ## Identifiers -/

/-- An identifier is an object around its text. -/
theorem Form.cid_faithful : Form.cid.Faithful 1 where
  printed c := printed_record fun m hm => by
    rw [List.mem_singleton.mp hm]
    exact printed_ofString _
  decoder_toJson c depth hd := by
    have htext : cidText (depth - 1) (ofString c.toString) = .ok c := by
      have hstring : text (depth - 1) (ofString c.toString) = .ok c.toString := rfl
      simp only [cidText, hstring, bind, Except.bind, Cid.ofString?_toString]
    have hread : cidFields.read depth (record [("/", ofString c.toString)]) = .ok (some c, ()) :=
      Fields.read_record hd (by decide) (.member htext .nil)
    show (cidFields.read depth (record [("/", ofString c.toString)]) >>= _) = _
    rw [hread]
    rfl

end ReplayVector.Json
