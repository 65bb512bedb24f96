import Mathlib.Logic.Relation
import ReplayVector.Proofs.Json.Members

/-!
# Changes that a reader does not see

Documents are made of records, lists and pairs. An object that stands for a record may have its
members permuted and foreign ones added, and an object that has every field may be replaced by the
array of its values. A `Change` is one of these at one place of a document, however deep. A decoder
tolerates changes if it reads the same value of the document before and after, or none of both.

* `Fields.Shaped.tolerates_read`: fields are read alike if their values are.
* `Tolerates.record`, `Tolerates.list`, `Tolerates.pair`: the decoders of documents.
* `Tolerates.eqvGen`: so documents are read alike that differ by any number of changes.
-/

namespace ReplayVector.Json

-- ---------------------------------------------------------------------------
-- Documents and their changes
-- ---------------------------------------------------------------------------

/-- What stands at a place of a document, up to values that are not taken apart. The records are of
some given types. -/
inductive Shape (R : Type) where
  | plain
  | list (item : Shape R)
  | pair (first second : Shape R)
  | record (r : R)

/-- The fields of each type of records: their names and what stands there, in order. -/
abbrev Grammar (R : Type) := R → List (String × Shape R)

/-- The names of the fields of a type of records. -/
def Grammar.names {R : Type} (g : Grammar R) (r : R) : List String := (g r).map (·.1)

/-- One change at one place of a document of a shape. -/
inductive Change {R : Type} (g : Grammar R) : Shape R → Json → Json → Prop
  /-- The members of an object in another order. -/
  | permuted {r : R} {ms ms' : List (Option String × Json)} (hperm : ms.Perm ms') :
      Change g (.record r) (.object ms) (.object ms')
  /-- More members, which belong to no field of the record. -/
  | extended {r : R} {before others after : List (Option String × Json)}
      (hothers : ∀ m ∈ others, Fields.Foreign (g.names r) m) :
      Change g (.record r) (.object (before ++ after)) (.object (before ++ others ++ after))
  /-- The members are the fields, each once; their values stand without names, in the order of the
  fields. -/
  | unnamed {r : R} {ms : List (Option String × Json)} {js : List Json}
      (hlength : js.length = (g r).length) (hms : ms.Perm (Fields.inOrder (g.names r) js)) :
      Change g (.record r) (.object ms) (.array js)
  /-- A change inside the value of a field. -/
  | member {r : R} {name : String} {s : Shape R} {before after : List (Option String × Json)}
      {j j' : Json} (hfield : (name, s) ∈ g r) (h : Change g s j j') :
      Change g (.record r) (.object (before ++ (some name, j) :: after))
        (.object (before ++ (some name, j') :: after))
  /-- A change inside the value of a field without its name. -/
  | value {r : R} {name : String} {s : Shape R} {before after : List Json} {j j' : Json}
      (hfield : (g r)[before.length]? = some (name, s)) (h : Change g s j j') :
      Change g (.record r) (.array (before ++ j :: after)) (.array (before ++ j' :: after))
  | item {s : Shape R} {before after : List Json} {j j' : Json} (h : Change g s j j') :
      Change g (.list s) (.array (before ++ j :: after)) (.array (before ++ j' :: after))
  | first {s₁ s₂ : Shape R} {rest : List Json} {j j' : Json} (h : Change g s₁ j j') :
      Change g (.pair s₁ s₂) (.array (j :: rest)) (.array (j' :: rest))
  | second {s₁ s₂ : Shape R} {a : Json} {rest : List Json} {j j' : Json} (h : Change g s₂ j j') :
      Change g (.pair s₁ s₂) (.array (a :: j :: rest)) (.array (a :: j' :: rest))

variable {R : Type} {g : Grammar R} {s : Shape R} {j j' : Json}

/-- A value that can be changed is not `null`. -/
theorem Change.left_ne_null (h : Change g s j j') : j ≠ .null := by
  cases h <;> exact nofun

/-- Nor does it become it. -/
theorem Change.right_ne_null (h : Change g s j j') : j' ≠ .null := by
  cases h <;> exact nofun

-- ---------------------------------------------------------------------------
-- Decoders
-- ---------------------------------------------------------------------------

/-- What is made of two results that say the same says the same. -/
theorem toOption_bind_left {ε α β : Type} {x y : Except ε α} (h : x.toOption = y.toOption)
    (f : α → Except ε β) : (x.bind f).toOption = (y.bind f).toOption := by
  cases x <;> cases y <;> cases h <;> rfl

/-- Two ways to go on that succeed alike. -/
theorem toOption_bind_right {ε α β : Type} (x : Except ε α) {f f' : α → Except ε β}
    (h : ∀ a, (f a).toOption = (f' a).toOption) : (x.bind f).toOption = (x.bind f').toOption := by
  cases x with
  | error e => rfl
  | ok a => exact h a

theorem toOption_map {ε α β : Type} {x y : Except ε α} (h : x.toOption = y.toOption)
    (f : α → β) : (x.map f).toOption = (y.map f).toOption := by
  cases x <;> cases y <;> cases h <;> rfl

/-- Results that say the same of every value give the same one or none. -/
theorem toOption_eq {ε α : Type} {x y : Except ε α} (h : ∀ a, x = .ok a → y = .ok a)
    (h' : ∀ a, y = .ok a → x = .ok a) : x.toOption = y.toOption := by
  cases x with
  | ok a => rw [h a rfl]
  | error e =>
    cases y with
    | ok a => cases h' a rfl
    | error e' => rfl

/-- The decoder reads the same value of a document before and after a change, or none of both. -/
def Tolerates (g : Grammar R) (d : Decoder α) (s : Shape R) : Prop :=
  ∀ ⦃j j'⦄, Change g s j j' → ∀ depth, (d depth j).toOption = (d depth j').toOption

namespace Tolerates

variable {α β : Type} {d : Decoder α}

/-- A value that is not taken apart does not change. -/
theorem plain (d : Decoder α) : Tolerates g d .plain := by
  intro j j' h
  cases h

/-- What is made of a value is made of it before and after. -/
theorem bind (h : Tolerates g d s) {d' : Decoder β} {make : α → Except Refusal β}
    (hdecoder : ∀ depth j, d' depth j = (d depth j).bind make) : Tolerates g d' s := by
  intro j j' hchange depth
  rw [hdecoder, hdecoder]
  exact toOption_bind_left (h hchange depth) make

/-- An optional value tolerates what the value does. -/
theorem optional (h : Tolerates g d s) : Tolerates g (optional d) s := by
  intro j j' hchange depth
  rw [Json.optional.eq_2 _ _ _ hchange.left_ne_null, Json.optional.eq_2 _ _ _ hchange.right_ne_null]
  exact toOption_map (h hchange depth) some

/-- Items are read alike if one of them is replaced by one that is read alike. -/
private theorem mapM_congr_item {f : Json → Except Refusal α} {j j' : Json}
    (h : (f j).toOption = (f j').toOption) (before after : List Json) :
    ((before ++ j :: after).mapM f).toOption = ((before ++ j' :: after).mapM f).toOption := by
  induction before with
  | nil =>
    rw [List.nil_append, List.nil_append, List.mapM_cons, List.mapM_cons]
    exact toOption_bind_left h _
  | cons b before ih =>
    rw [List.cons_append, List.cons_append, List.mapM_cons, List.mapM_cons]
    exact toOption_bind_right _ fun a => toOption_bind_left ih _

/-- A list tolerates what its items do. -/
theorem list (h : Tolerates g d s) : Tolerates g (list d) (.list s) := by
  intro j j' hchange depth
  cases hchange with
  | item hitem => exact toOption_bind_right _ fun inner => mapM_congr_item (h hitem inner) ..

/-- So does one that may be `null`. -/
theorem nullableList (h : Tolerates g d s) : Tolerates g (nullableList d) (.list s) := by
  intro j j' hchange depth
  rw [Json.nullableList.eq_2 _ _ _ hchange.left_ne_null,
    Json.nullableList.eq_2 _ _ _ hchange.right_ne_null]
  exact h.list hchange depth

theorem single (h : Tolerates g d s) : Tolerates g (single d) (.list s) := by
  intro j j' hchange depth
  cases hchange with
  | @item _ before after _ _ hitem =>
    -- only an item that is alone is read at all
    rcases before with _ | ⟨b, _ | ⟨b', before⟩⟩
    · rcases after with _ | ⟨a, after⟩
      · exact toOption_bind_right _ fun inner => h hitem inner
      · rfl
    · rfl
    · rfl

/-- A pair tolerates what each of its parts does. -/
theorem pair {f : Form α} {f' : Form β} {s' : Shape R} (h : Tolerates g f.decoder s)
    (h' : Tolerates g f'.decoder s') : Tolerates g (f.pair f').decoder (.pair s s') := by
  intro j j' hchange depth
  cases hchange with
  | @first _ _ rest _ _ hfirst =>
    -- the first value is read before it shows that there is no second one
    rcases rest with _ | ⟨b, rest⟩ <;>
      exact toOption_bind_right _ fun inner => toOption_bind_left (h hfirst inner) _
  | second hsecond =>
    exact toOption_bind_right _ fun inner => toOption_bind_right _ fun a =>
      toOption_bind_left (h' hsecond inner) _

end Tolerates

-- ---------------------------------------------------------------------------
-- Records
-- ---------------------------------------------------------------------------

namespace Fields

/-- The fields have the names and shapes of a list, and their decoders tolerate changes. -/
inductive Shaped (g : Grammar R) : {ts : List Type} → Fields ts → List (String × Shape R) → Prop
  | nil : Shaped g .nil []
  | cons {α : Type} {ts : List Type} {field : Field α} {rest : Fields ts} {s : Shape R}
      {shapes : List (String × Shape R)} (hfield : Tolerates g field.decoder s)
      (hrest : Shaped g rest shapes) : Shaped g (.cons field rest) ((field.name, s) :: shapes)

variable {ts : List Type} {fields : Fields ts} {shapes : List (String × Shape R)} {depth : Nat}

/-- The fields have the names of their shapes. -/
theorem Shaped.names_eq (h : Shaped g fields shapes) : fields.names = shapes.map (·.1) := by
  induction h with
  | nil => rfl
  | cons _ _ ih => exact congrArg (_ :: ·) ih

/-- A field whose value is not taken apart. -/
theorem Shaped.plain {α : Type} {field : Field α} (hrest : Shaped g fields shapes) :
    Shaped g (.cons field fields) ((field.name, .plain) :: shapes) :=
  .cons (Tolerates.plain _) hrest

/-- A member whose value has changed fills the same slot. -/
private theorem Shaped.readMember (h : Shaped g fields shapes) (hnames : (shapes.map (·.1)).Nodup)
    {name : String} (hfield : (name, s) ∈ shapes) (hchange : Change g s j j') (slots : Slots ts) :
    (fields.readMember depth name j slots).toOption =
      (fields.readMember depth name j' slots).toOption := by
  induction h with
  | nil => cases hfield
  | @cons _ _ field rest s₁ shapes htolerates hrest ih =>
    obtain ⟨hnot, hnodup⟩ := List.nodup_cons.mp hnames
    obtain ⟨slot, slots⟩ := slots
    by_cases hname : name = field.name
    · subst hname
      -- no other field has this name
      obtain rfl : s = s₁ := by
        rcases List.mem_cons.mp hfield with heq | hmem
        · exact congrArg Prod.snd heq
        · exact absurd (List.mem_map_of_mem hmem) hnot
      cases slot with
      | some a => rw [readMember_taken, readMember_taken]
      | none =>
        rw [readMember_own, readMember_own]
        exact toOption_map (htolerates hchange depth) _
    · have hmem : (name, s) ∈ shapes := by
        refine (List.mem_cons.mp hfield).resolve_left fun heq => hname ?_
        exact congrArg Prod.fst heq
      rw [readMember_of_ne hname, readMember_of_ne hname]
      exact toOption_map (ih hnodup hmem slots) _

/-- A change in a member comes out in its slot alone, if it comes out at all. -/
private theorem Shaped.readMembers (h : Shaped g fields shapes)
    (hnames : (shapes.map (·.1)).Nodup) {name : String} (hfield : (name, s) ∈ shapes)
    (hchange : Change g s j j') (before after : List (Option String × Json)) (slots : Slots ts) :
    (fields.readMembers depth (before ++ (some name, j) :: after) slots).toOption =
      (fields.readMembers depth (before ++ (some name, j') :: after) slots).toOption := by
  induction before generalizing slots with
  | nil => exact toOption_bind_left (h.readMember hnames hfield hchange slots) _
  | cons m before ih =>
    obtain ⟨_ | name', value⟩ := m
    · rfl
    · exact toOption_bind_right _ ih

/-- The same for a record that is written as an array. -/
private theorem Shaped.readItems (h : Shaped g fields shapes) {name : String}
    {before : List Json} (hfield : shapes[before.length]? = some (name, s))
    (hchange : Change g s j j') (after : List Json) :
    (fields.readItems depth (before ++ j :: after)).toOption =
      (fields.readItems depth (before ++ j' :: after)).toOption := by
  induction h generalizing before with
  | nil => cases hfield
  | cons htolerates hrest ih =>
    cases before with
    | nil =>
      cases hfield
      exact toOption_bind_left (htolerates hchange depth) _
    | cons b before => exact toOption_bind_right _ fun a => toOption_bind_left (ih hfield) _

/-- Fields are read alike before and after a change of the document. -/
theorem Shaped.tolerates_read {r : R} (h : Shaped g fields (g r)) (hnames : (g.names r).Nodup) :
    Tolerates g fields.read (.record r) := by
  have hfields : fields.names = g.names r := h.names_eq
  intro j j' hchange depth
  cases hchange with
  | permuted hperm => exact toOption_eq (fun _ => read_perm hperm) fun _ => read_perm hperm.symm
  | @extended _ before others after hothers =>
    -- foreign members might as well stand in front
    have hperm : (before ++ others ++ after).Perm (others ++ (before ++ after)) := by
      rw [← List.append_assoc]
      exact List.perm_append_comm.append_right after
    rw [← read_foreign (hfields ▸ hothers)]
    exact toOption_eq (fun _ => read_perm hperm.symm) fun _ => read_perm hperm
  | @unnamed _ ms js hlength hms =>
    have hjs : js.length = fields.names.length := by
      rw [hfields, Grammar.names, List.length_map, hlength]
    rw [← hfields] at hms hnames
    rw [← read_inOrder hjs hnames]
    exact toOption_eq (fun _ => read_perm hms) fun _ => read_perm hms.symm
  | member hfield hvalue =>
    exact toOption_bind_right _ fun inner => h.readMembers hnames hfield hvalue ..
  | value hfield hvalue => exact toOption_bind_right _ fun inner => h.readItems hfield hvalue _

end Fields

namespace Tolerates

variable {α : Type} {d : Decoder α}

/-- A record that is made of its fields. -/
theorem record {ts : List Type} (fields : Fields ts) {r : R} {make : Slots ts → Except Refusal α}
    (hdecoder : ∀ depth j, d depth j = (fields.read depth j).bind make)
    (hnames : (g.names r).Nodup) (hfields : fields.Shaped g (g r)) : Tolerates g d (.record r) :=
  (hfields.tolerates_read hnames).bind hdecoder

/-- Any number of changes. -/
theorem eqvGen (h : Tolerates g d s) (hchanges : Relation.EqvGen (Change g s) j j') (depth : Nat) :
    (d depth j).toOption = (d depth j').toOption := by
  induction hchanges with
  | rel j j' hchange => exact h hchange depth
  | refl j => rfl
  | symm j j' _ ih => exact ih.symm
  | trans j j' j'' _ _ ih ih' => exact ih.trans ih'

end Tolerates

/-- A text that is JSON is read as its value is. -/
theorem decode_of_read (d : Decoder α) {text : String} (hread : read text = (j, some [])) :
    decode d text = d nesting j := by
  rw [decode, hread]
  show (d nesting j >>= fun a => .ok a) = _
  cases d nesting j <;> rfl

end ReplayVector.Json
