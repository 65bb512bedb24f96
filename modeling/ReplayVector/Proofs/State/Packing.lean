import ReplayVector.Proofs.Chain.Message
import ReplayVector.State.Registry

/-!
# How values are packed into tries

The values of a state's tries, actors and IDs, are read as they were written, link to what their
written form links to, and are short.
-/

namespace ReplayVector

namespace Cbor

/-! ## Lengths -/

/-- Bytes have a head of at most nine bytes. -/
theorem length_encode_bytes_le (bs : Bytes) : (encode (.bytes bs)).length ≤ 9 + bs.length := by
  have := length_head_le 2 bs.length
  rw [encode, encodeBytes, List.length_append]
  omega

/-- So has a text. -/
theorem length_encode_text_le (s : String) : (encode (.text s)).length ≤ 9 + s.utf8ByteSize := by
  have := length_head_le 3 s.utf8ByteSize
  rw [encode, encodeText, List.length_append, Bytes.length_ofString]
  omega

/-- A number is nothing but a head. -/
theorem length_encode_int_le (n : Int) : (encode (.int n)).length ≤ 9 := by
  rw [encode]
  split <;> exact length_head_le ..

/-- A link is as long as an identifier can be, with two heads and a prefix. -/
theorem length_encode_link_le (c : Cid) : (encode (.link c)).length ≤ 114 := by
  have hhead := length_head_le 6 42
  have hlength := length_head_le 2 (0 :: c.toBytes).length
  have hbytes := c.length_toBytes_le
  rw [encode, encodeBytes, List.length_append, List.length_append]
  simp only [List.length_cons] at hlength ⊢
  omega

/-- Items are at most as long as their number allows. -/
theorem length_encodeItems_le {items : List Cbor} {k : Nat}
    (h : ∀ v ∈ items, v.encode.length ≤ k) : (encodeItems items).length ≤ items.length * k := by
  induction items with
  | nil => simp [encodeItems]
  | cons v vs ih =>
    have hv := h v (List.mem_cons_self ..)
    have hvs := ih fun v' hv' => h v' (List.mem_cons_of_mem _ hv')
    rw [encodeItems, List.length_append, List.length_cons, Nat.succ_mul]
    omega

/-- A list whose items are short is short. -/
theorem length_encode_list_le (items : List Cbor) (n k : Nat) (hn : items.length ≤ n)
    (h : ∀ v ∈ items, v.encode.length ≤ k) : (encode (.list items)).length ≤ 9 + n * k := by
  have hhead := length_head_le 4 items.length
  have hitems := length_encodeItems_le h
  have hmul := Nat.mul_le_mul_right k hn
  rw [encode, List.length_append]
  omega

end Cbor

/-! ## Packings -/

/-- The longest encoding of a value in a trie. -/
def Packing.maxLength : Nat := 2048

/-- Values that link to blocks. -/
class Linking (β : Type) where
  links : β → List Cid

instance : Linking ActorId := ⟨fun _ => []⟩

/-- The links of an actor are its code and its state. -/
instance : Linking Actor := ⟨fun a => [a.code, a.head]⟩

/-- Values are read as they were written, and what was read can be written. What is written has
the links of the value, is short and not nested deeply. -/
structure Packing.Lawful [Linking β] (p : Packing β) : Prop where
  read : ∀ {a v}, p.toCbor? a = some v → p.ofCbor? v = some a
  write : ∀ {a v}, p.ofCbor? v = some a → ∃ v', p.toCbor? a = some v'
  links : ∀ {a v}, p.ofCbor? v = some a → v.links = Linking.links a
  fits : ∀ {a v}, p.toCbor? a = some v → v.Fits 2
  length_le : ∀ {a v}, p.toCbor? a = some v → v.encode.length ≤ maxLength

/-- A value is written with its own links. -/
theorem Packing.Lawful.links_of_toCbor? [Linking β] {p : Packing β} (hp : p.Lawful) {a : β}
    {v : Cbor} (h : p.toCbor? a = some v) : v.links = Linking.links a := hp.links (hp.read h)

/-- Numbers of actors are read as they were written, and link to nothing. -/
theorem Registry.packing_lawful : packing.Lawful where
  read := by
    intro a v h
    simp only [packing] at h ⊢
    rw [← Option.some.inj h, Cbor.toUInt64?_ofUInt64]
  write := fun _ => ⟨_, rfl⟩
  links := by
    intro a v h
    cases v with
    | int n => rfl
    | _ => cases h
  fits := by
    intro a v h
    obtain rfl := Option.some.inj h
    exact Cbor.fits_ofUInt64 1 a
  length_le := by
    intro a v h
    obtain rfl := Option.some.inj h
    have := Cbor.length_encode_int_le a.toNat
    simp only [Cbor.ofUInt64, Packing.maxLength]
    omega

namespace Actor

/-- The structured form of an optional address. -/
private def delegatedCbor (d : Option Address) : Cbor :=
  match d with
  | some d => .bytes d.toBytes
  | none => .null

/-- The delegated address is read as it was written. -/
private theorem delegatedOf?_delegatedCbor (d : Option Address) :
    delegatedOf? (delegatedCbor d) = some d := by
  cases d with
  | none => rfl
  | some a =>
    show (Address.ofBytes? a.toBytes).map some = some (some a)
    rw [Address.ofBytes?_toBytes]
    rfl

/-- What an actor is written as. -/
private theorem toCbor?_eq_some {a : Actor} {v : Cbor} (h : a.toCbor? = some v) :
    ∃ balance, a.balance.toBytes? = some balance ∧
      v = .list [.link a.code, .link a.head, .ofUInt64 a.sequence, .bytes balance,
        delegatedCbor a.delegatedAddress] := by
  simp only [toCbor?, Option.bind_eq_bind, Option.bind_eq_some_iff] at h
  obtain ⟨balance, hbalance, h⟩ := h
  exact ⟨balance, hbalance, (Option.some.inj h).symm⟩

/-- What is read as an actor, and what of. -/
private theorem ofCbor?_eq_some {a : Actor} {v : Cbor} (h : ofCbor? v = some a) :
    ∃ sequence balance delegated,
      v = .list [.link a.code, .link a.head, sequence, .bytes balance, delegated] ∧
        sequence.toUInt64? = some a.sequence ∧ TokenAmount.ofBytes? balance = some a.balance ∧
        delegatedOf? delegated = some a.delegatedAddress := by
  unfold ofCbor? at h
  split at h
  · next code head sequence balance delegated =>
    simp only [Option.bind_eq_bind, Option.bind_eq_some_iff] at h
    obtain ⟨n, hn, amount, hamount, d, hd, h⟩ := h
    obtain rfl := Option.some.inj h
    exact ⟨sequence, balance, delegated, rfl, hn, hamount, hd⟩
  · cases h

private theorem links_eq_nil_of_toUInt64? {v : Cbor} {n : UInt64} (h : v.toUInt64? = some n) :
    v.links = [] := by
  cases v with
  | int n => rfl
  | _ => cases h

private theorem links_eq_nil_of_delegatedOf? {v : Cbor} {d : Option Address}
    (h : delegatedOf? v = some d) : v.links = [] := by
  cases v with
  | null => rfl
  | bytes bs => rfl
  | _ => cases h

/-- An actor links to its code and its state. -/
private theorem links_of_ofCbor? {a : Actor} {v : Cbor} (h : ofCbor? v = some a) :
    v.links = [a.code, a.head] := by
  obtain ⟨sequence, balance, delegated, rfl, hn, -, hd⟩ := ofCbor?_eq_some h
  simp [Cbor.links, Cbor.linksOfItems, links_eq_nil_of_toUInt64? hn,
    links_eq_nil_of_delegatedOf? hd]

private theorem fits_delegatedCbor (d : Option Address) : (delegatedCbor d).Fits 1 := by
  cases d with
  | none => trivial
  | some a =>
    have := a.length_toBytes_le
    show a.toBytes.length < 2 ^ 64
    omega

private theorem length_delegatedCbor_le (d : Option Address) :
    (delegatedCbor d).encode.length ≤ 137 := by
  cases d with
  | none => simp [delegatedCbor, Cbor.encode]
  | some a =>
    have := a.length_toBytes_le
    have := Cbor.length_encode_bytes_le a.toBytes
    simp only [delegatedCbor]
    omega

/-- An actor is read as it was written. -/
theorem ofCbor?_of_toCbor? {a : Actor} {v : Cbor} (h : a.toCbor? = some v) :
    ofCbor? v = some a := by
  obtain ⟨balance, hbalance, rfl⟩ := toCbor?_eq_some h
  simp only [ofCbor?, Cbor.toUInt64?_ofUInt64, TokenAmount.ofBytes?_of_toBytes? hbalance,
    delegatedOf?_delegatedCbor]
  rfl

/-- An actor can be written if its balance can. -/
theorem toCbor?_isSome (a : Actor) : a.toCbor?.isSome = a.balance.toBytes?.isSome := by
  rw [toCbor?]
  cases a.balance.toBytes? <;> rfl

/-- Actors are read as they were written, and are short. -/
theorem packing_lawful : packing.Lawful where
  read := ofCbor?_of_toCbor?
  write := by
    intro a v h
    obtain ⟨-, balance, -, -, -, hbalance, -⟩ := ofCbor?_eq_some h
    obtain ⟨bs, hbs⟩ := Option.isSome_iff_exists.mp
      (TokenAmount.isSome_toBytes?_of_ofBytes? hbalance)
    exact ⟨_, by
      show a.toCbor? = _
      rw [toCbor?, hbs]
      rfl⟩
  links := links_of_ofCbor?
  fits := by
    intro a v h
    obtain ⟨balance, hbalance, rfl⟩ := toCbor?_eq_some h
    have hlen := TokenAmount.length_of_toBytes? hbalance
    have hbytes : (Cbor.bytes balance).Fits 1 := by
      show balance.length < 2 ^ 64
      have : TokenAmount.maxBytes = 128 := rfl
      omega
    refine ⟨by simp, ?_⟩
    simp only [List.mem_cons, List.not_mem_nil, or_false, forall_eq_or_imp, forall_eq]
    exact ⟨trivial, trivial, Cbor.fits_ofUInt64 0 _, hbytes, fits_delegatedCbor _⟩
  length_le := by
    intro a v h
    obtain ⟨balance, hbalance, rfl⟩ := toCbor?_eq_some h
    have hbound : TokenAmount.maxBytes = 128 := rfl
    have hlen := TokenAmount.length_of_toBytes? hbalance
    have hcode := Cbor.length_encode_link_le a.code
    have hhead := Cbor.length_encode_link_le a.head
    have hsequence := Cbor.length_encode_int_le a.sequence.toNat
    have hbytes := Cbor.length_encode_bytes_le balance
    have hdelegated := length_delegatedCbor_le a.delegatedAddress
    have hitems := Cbor.length_encode_list_le
      [.link a.code, .link a.head, .ofUInt64 a.sequence, .bytes balance,
        delegatedCbor a.delegatedAddress] 5 137 (by simp) (by
        simp only [List.mem_cons, List.not_mem_nil, or_false, forall_eq_or_imp, forall_eq,
          Cbor.ofUInt64]
        omega)
    have : Packing.maxLength = 2048 := rfl
    omega

end Actor

end ReplayVector
