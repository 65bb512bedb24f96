import ReplayVector.Cid
import ReplayVector.Proofs.Bytes.Text
import ReplayVector.Proofs.Bytes.Varint

/-!
# Identifiers are read from bytes as they were written

The byte form of an identifier says where it ends, so that reading it gives the identifier and
whatever follows. It has at most 95 bytes.

* `Cid.ofBytes?_toBytes_append`: reading undoes writing.
* `Cid.length_toBytes_le`: the length of the byte form.
-/

namespace ReplayVector

namespace Multihash

/-- Reading the byte form of a digest gives the digest and what follows. -/
theorem ofBytes?_toBytes_append (h : Multihash) (rest : Bytes) :
    ofBytes? (h.toBytes ++ rest) = some (h, rest) := by
  obtain ⟨code, digest⟩ := h
  have hlen : digest.val.length ≤ 64 := digest.property
  have hsize : (Varint.decode? (Varint.encode digest.val.length ++ (digest.val ++ rest))) =
      some (digest.val.length.toUInt64, digest.val ++ rest) := by
    rw [Varint.decode?, Varint.decode_encode_append (by omega)]
  have hnat : digest.val.length.toUInt64.toNat = digest.val.length := by
    have : digest.val.length.toUInt64.toNat = digest.val.length % 2 ^ 64 := rfl
    omega
  have hle : ¬digest.val.length.toUInt64 > 64 := by
    intro hgt
    have := UInt64.lt_iff_toNat_lt.mp hgt
    have h64 : (64 : UInt64).toNat = 64 := rfl
    omega
  rw [ofBytes?, toBytes]
  simp only [List.append_assoc, Varint.decode?_encode_append, hsize, Option.bind_eq_bind,
    Option.bind_some, hle, if_false, hnat, Bytes.take?_append, Bytes.upTo?_val]
  rfl

theorem length_toBytes_le (h : Multihash) : h.toBytes.length ≤ 84 := by
  have hcode := Varint.length_encode_word h.code.toNat_lt
  have hdigest : h.digest.val.length ≤ 64 := h.digest.property
  have hsize : (Varint.encode h.digest.val.length).length ≤ 10 :=
    Varint.length_encode_word (by omega)
  rw [toBytes, List.length_append, List.length_append]
  omega

end Multihash

namespace Cid

/-- Reading the byte form of an identifier gives the identifier and what follows. -/
theorem ofBytes?_toBytes_append (c : Cid) (rest : Bytes) :
    ofBytes? (c.toBytes ++ rest) = some (c, rest) := by
  cases c with
  | v0 digest =>
    -- the two leading bytes of version 0 are numbers of one byte each
    have h12 : Varint.decode? (0x12 :: 0x20 :: (digest.val ++ rest)) =
        some (0x12, 0x20 :: (digest.val ++ rest)) :=
      Varint.decode?_cons (by decide) _
    have h20 : Varint.decode? (0x20 :: (digest.val ++ rest)) = some (0x20, digest.val ++ rest) :=
      Varint.decode?_cons (by decide) _
    simp only [toBytes, List.cons_append, ofBytes?, h12, h20, Option.bind_eq_bind,
      Option.bind_some, and_self, if_true, Bytes.take?_of_length digest.property,
      Bytes.sized?_val]
    rfl
  | v1 codec hash =>
    have h1 : Varint.decode? (1 :: (Varint.encode codec.toNat ++ (hash.toBytes ++ rest))) =
        some (1, Varint.encode codec.toNat ++ (hash.toBytes ++ rest)) :=
      Varint.decode?_cons (by decide) _
    have hne : ¬((1 : UInt64) = 0x12 ∧ codec = 0x20) := by
      rintro ⟨h, -⟩
      exact absurd h (by decide)
    simp only [toBytes, List.cons_append, List.append_assoc, ofBytes?, h1,
      Varint.decode?_encode_append, Option.bind_eq_bind, Option.bind_some, hne, if_false, if_true,
      Multihash.ofBytes?_toBytes_append]
    rfl

theorem ofBytes?_toBytes (c : Cid) : ofBytes? c.toBytes = some (c, []) := by
  have h := ofBytes?_toBytes_append c []
  rwa [List.append_nil] at h

theorem length_toBytes_le (c : Cid) : c.toBytes.length ≤ 95 := by
  cases c with
  | v0 digest =>
    have := digest.property
    simp [toBytes, this]
  | v1 codec hash =>
    have hcodec := Varint.length_encode_word codec.toNat_lt
    have hhash := hash.length_toBytes_le
    simp only [toBytes, List.cons_append, List.length_cons, List.length_append]
    omega

end Cid

end ReplayVector
