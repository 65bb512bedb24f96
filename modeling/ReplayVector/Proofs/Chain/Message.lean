import ReplayVector.Chain.Message
import ReplayVector.Proofs.Cbor.RoundTrip

/-!
# Messages are read from blocks as they were written

Addresses and amounts have byte forms of their own inside the structured form of a message. Each
is read back, and so is the message. An amount has a byte form as long as its magnitude leaves room
for the sign, and nothing else keeps a message from having bytes.

* `Address.ofBytes?_toBytes`, `TokenAmount.ofBytes?_of_toBytes?`: the parts.
* `Message.decode?_of_encode?`: a message that has a structured form is read from it.
* `Message.encoded_faithfully`: which messages have bytes, and what these tell.
-/

namespace ReplayVector

/-! ## Addresses -/

namespace Address

private theorem exists_cons_of_sized {n : Nat} (s : Bytes.Sized n) (hn : 0 < n) :
    ∃ b bs, s.val = b :: bs := by
  refine List.exists_cons_of_length_pos ?_
  rw [s.property]
  exact hn

/-- Reading the byte form of an address gives the address. -/
theorem ofBytes?_toBytes (a : Address) : ofBytes? a.toBytes = some a := by
  cases a with
  | id i =>
    have hne := Varint.encode_ne_nil i.toNat
    have hread := Varint.decodeAll?_encode i
    rw [toBytes, protocol, payload]
    cases henc : Varint.encode i.toNat with
    | nil => exact absurd henc hne
    | cons b bs =>
      rw [henc] at hread
      simp [ofBytes?, hread]
  | secp256k1 h =>
    obtain ⟨b, bs, hval⟩ := exists_cons_of_sized h (by decide)
    have hread := Bytes.sized?_val h
    rw [hval] at hread
    simp [toBytes, protocol, payload, hval, ofBytes?, hread]
  | actor h =>
    obtain ⟨b, bs, hval⟩ := exists_cons_of_sized h (by decide)
    have hread := Bytes.sized?_val h
    rw [hval] at hread
    simp [toBytes, protocol, payload, hval, ofBytes?, hread]
  | bls k =>
    obtain ⟨b, bs, hval⟩ := exists_cons_of_sized k (by decide)
    have hread := Bytes.sized?_val k
    rw [hval] at hread
    simp [toBytes, protocol, payload, hval, ofBytes?, hread]
  | delegated n s =>
    have hne := Varint.encode_ne_nil n.toNat
    have hread := Varint.decode?_encode_append n s.val
    rw [toBytes, protocol, payload]
    cases henc : Varint.encode n.toNat with
    | nil => exact absurd henc hne
    | cons b bs =>
      rw [henc] at hread
      rw [List.cons_append] at hread
      simp [ofBytes?, hread, Bytes.upTo?_val]

/-- Different addresses have different byte forms. -/
theorem toBytes_injective {a b : Address} (h : a.toBytes = b.toBytes) : a = b := by
  have ha := ofBytes?_toBytes a
  rw [h, ofBytes?_toBytes b] at ha
  exact (Option.some.inj ha).symm

theorem length_toBytes_le (a : Address) : a.toBytes.length ≤ 65 := by
  cases a with
  | id i =>
    have := Varint.length_encode_word i.toNat_lt
    simp only [toBytes, payload, List.length_cons]
    omega
  | secp256k1 h => simp [toBytes, payload, h.property]
  | actor h => simp [toBytes, payload, h.property]
  | bls k => simp [toBytes, payload, k.property]
  | delegated n s =>
    have hn := Varint.length_encode_word n.toNat_lt
    have hs : s.val.length ≤ 54 := s.property
    simp only [toBytes, payload, List.length_cons, List.length_append]
    omega

end Address

/-! ## Amounts -/

namespace TokenAmount

/-- The byte form of an amount: nothing for zero, else a sign and the magnitude. -/
theorem eq_of_toBytes? {a : TokenAmount} {bs : Bytes} (h : a.toBytes? = some bs) :
    (a.atto = 0 ∧ bs = []) ∨
      (bs = (if a.atto < 0 then 1 else 0) :: Bytes.magnitude a.atto.natAbs ∧
        bs.length ≤ maxBytes) := by
  rw [toBytes?] at h
  by_cases h0 : a.atto = 0
  · rw [if_pos h0] at h
    exact Or.inl ⟨h0, (Option.some.inj h).symm⟩
  · rw [if_neg h0] at h
    generalize (if a.atto < 0 then (1 : UInt8) else 0) = sign at h ⊢
    dsimp only at h
    split at h
    · simp at h
    · next hlen =>
      obtain rfl := Option.some.inj h
      exact Or.inr ⟨rfl, by omega⟩

/-- The byte form of an amount, where there is one, is read as that amount. -/
theorem ofBytes?_of_toBytes? {a : TokenAmount} {bs : Bytes} (h : a.toBytes? = some bs) :
    ofBytes? bs = some a := by
  obtain ⟨n⟩ := a
  rcases eq_of_toBytes? h with ⟨h0, rfl⟩ | ⟨rfl, hlen⟩
  · obtain rfl : n = 0 := h0
    rfl
  · rw [List.length_cons] at hlen
    have hle : ¬(Bytes.magnitude n.natAbs).length + 1 > maxBytes := by
      dsimp only at hlen
      omega
    rw [ofBytes?, if_neg hle, Bytes.toNatBE_magnitude]
    by_cases hneg : n < 0
    · have hsign : (-(n.natAbs : Int)) = n := by omega
      simp only [hneg, if_true, hsign]
      rfl
    · have hsign : (n.natAbs : Int) = n := by omega
      simp only [hneg, if_false, hsign]
      rfl

/-- A byte form has at most 128 bytes. -/
theorem length_of_toBytes? {a : TokenAmount} {bs : Bytes} (h : a.toBytes? = some bs) :
    bs.length ≤ maxBytes := by
  rcases eq_of_toBytes? h with ⟨-, rfl⟩ | ⟨-, hlen⟩
  · exact Nat.zero_le _
  · exact hlen

/-- An amount that was read has a byte form: leading zeros only made it longer. -/
theorem isSome_toBytes?_of_ofBytes? {a : TokenAmount} {bs : Bytes} (h : ofBytes? bs = some a) :
    a.toBytes?.isSome := by
  cases bs with
  | nil =>
    obtain rfl := Option.some.inj h
    rfl
  | cons sign bs =>
    rw [ofBytes?] at h
    split at h
    · simp at h
    · next hlen =>
      have habs : a.atto.natAbs = Bytes.toNatBE bs := by
        split at h
        · obtain rfl := Option.some.inj h
          simp
        · split at h
          · obtain rfl := Option.some.inj h
            simp
          · simp at h
      have hmag := Bytes.length_magnitude_le (Bytes.toNatBE_lt bs)
      rw [toBytes?]
      split
      · rfl
      · have hle : ¬((if a.atto < 0 then (1 : UInt8) else 0) ::
            Bytes.magnitude a.atto.natAbs).length > maxBytes := by
          rw [List.length_cons, habs]
          omega
        simp only [if_neg hle, Option.isSome_some]

/-- The magnitude takes more bytes than the byte form has room for beside the sign. -/
def Oversized (a : TokenAmount) : Prop := 256 ^ (maxBytes - 1) ≤ a.atto.natAbs

/-- The amounts without a byte form are the oversized ones. -/
theorem toBytes?_eq_none_iff {a : TokenAmount} : a.toBytes? = none ↔ a.Oversized := by
  have hfits : (Bytes.magnitude a.atto.natAbs).length + 1 ≤ maxBytes ↔ ¬a.Oversized := by
    rw [Oversized, Nat.not_le, ← Bytes.length_magnitude_le_iff, maxBytes]
    omega
  rw [toBytes?]
  by_cases h0 : a.atto = 0
  · have hnot : ¬a.Oversized := by
      rw [Oversized, h0]
      decide
    rw [if_pos h0]
    exact iff_of_false nofun hnot
  · rw [if_neg h0]
    generalize (if a.atto < 0 then (1 : UInt8) else 0) = sign
    dsimp only
    split
    · next hlong =>
      rw [List.length_cons] at hlong
      exact iff_of_true rfl (not_not.mp fun hnot => absurd (hfits.mpr hnot) (by omega))
    · next hshort =>
      rw [List.length_cons] at hshort
      exact iff_of_false nofun (hfits.mp (by omega))

end TokenAmount

/-! ## Words -/

namespace Cbor

theorem toUInt64?_ofUInt64 (n : UInt64) : (ofUInt64 n).toUInt64? = some n := by
  have hn : (0 : Int) ≤ n.toNat ∧ (n.toNat : Int) < 2 ^ 64 := by
    have := n.toNat_lt
    omega
  rw [ofUInt64, toUInt64?, if_pos hn]
  simp

/-- Words fit at any level. -/
theorem fits_ofUInt64 (depth : Nat) (n : UInt64) : (ofUInt64 n).Fits (depth + 1) := by
  have := n.toNat_lt
  simp only [ofUInt64, Fits]
  omega

end Cbor

/-! ## Messages -/

namespace Message

/-- The structured form of a message is one that the reader can give. -/
theorem fits_of_toCbor? {m : Message} {v : Cbor} (h : m.toCbor? = some v) : v.Fits 2 := by
  simp only [toCbor?, Option.bind_eq_bind, Option.bind_eq_some_iff] at h
  obtain ⟨value, hvalue, cap, hcap, premium, hpremium, h⟩ := h
  obtain rfl := Option.some.inj h
  have hr := m.receiver.length_toBytes_le
  have hs := m.sender.length_toBytes_le
  have hv := TokenAmount.length_of_toBytes? hvalue
  have hc := TokenAmount.length_of_toBytes? hcap
  have hp := TokenAmount.length_of_toBytes? hpremium
  have hparams : m.params.val.length ≤ maxParams := m.params.property
  simp only [TokenAmount.maxBytes] at hv hc hp
  simp only [maxParams] at hparams
  refine ⟨by simp, ?_⟩
  intro w hw
  simp only [List.mem_cons, List.not_mem_nil, or_false] at hw
  rcases hw with rfl | rfl | rfl | rfl | rfl | rfl | rfl | rfl | rfl | rfl
  case inr.inl | inr.inr.inl | inr.inr.inr.inr.inl | inr.inr.inr.inr.inr.inr.inl |
      inr.inr.inr.inr.inr.inr.inr.inl | inr.inr.inr.inr.inr.inr.inr.inr.inr =>
    simp only [Cbor.Fits]
    omega
  all_goals exact Cbor.fits_ofUInt64 0 _

/-- Reading the structured form of a message gives the message. -/
theorem ofCbor?_of_toCbor? {m : Message} {v : Cbor} (h : m.toCbor? = some v) :
    ofCbor? v = some m := by
  simp only [toCbor?, Option.bind_eq_bind, Option.bind_eq_some_iff] at h
  obtain ⟨value, hvalue, cap, hcap, premium, hpremium, h⟩ := h
  obtain rfl := Option.some.inj h
  simp only [ofCbor?, Cbor.toUInt64?_ofUInt64, Address.ofBytes?_toBytes,
    TokenAmount.ofBytes?_of_toBytes? hvalue, TokenAmount.ofBytes?_of_toBytes? hcap,
    TokenAmount.ofBytes?_of_toBytes? hpremium, Bytes.upTo?_val, Option.bind_eq_bind,
    Option.bind_some]
  rfl

/-- A message that has a structured form is read from its bytes. -/
theorem decode?_of_encode? {m : Message} {bs : Bytes} (h : m.encode? = some bs) :
    decode? bs = some m := by
  simp only [encode?, Option.map_eq_some_iff] at h
  obtain ⟨v, hv, rfl⟩ := h
  have hfits : v.Fits Cbor.nesting := (fits_of_toCbor? hv).mono (by decide)
  rw [decode?, Cbor.decode?_encode hfits]
  exact ofCbor?_of_toCbor? hv

/-- Only an oversized amount leaves a message without bytes. -/
theorem encode?_eq_none_iff {m : Message} : m.encode? = none ↔
    m.value.Oversized ∨ m.gasFeeCap.Oversized ∨ m.gasPremium.Oversized := by
  simp only [← TokenAmount.toBytes?_eq_none_iff, encode?, toCbor?, Option.map_eq_none_iff]
  cases m.value.toBytes? <;> cases m.gasFeeCap.toBytes? <;> cases m.gasPremium.toBytes? <;> simp

/-- Messages with the same bytes are the same. -/
theorem encode?_injective {m m' : Message} {bs : Bytes} (h : m.encode? = some bs)
    (h' : m'.encode? = some bs) : m = m' := by
  have hread := decode?_of_encode? h
  rw [decode?_of_encode? h'] at hread
  exact (Option.some.inj hread).symm

/-- A message has bytes exactly if none of its amounts is oversized. They are then read as the
message, and no other message has them. -/
theorem encoded_faithfully (m : Message) :
    (m.encode? = none ↔ m.value.Oversized ∨ m.gasFeeCap.Oversized ∨ m.gasPremium.Oversized) ∧
      ∀ bs, m.encode? = some bs → decode? bs = some m ∧ ∀ m', m'.encode? = some bs → m' = m := by
  refine ⟨encode?_eq_none_iff, fun _ h => ?_⟩
  refine ⟨decode?_of_encode? h, fun _ h' => ?_⟩
  exact encode?_injective h' h

end Message

end ReplayVector
