import ReplayVector.State.Hamt

/-!
# The length of digests and paths

A digest of SHA-256 has 32 bytes, so the path of a key through a trie has 51 numbers.
-/

namespace ReplayVector

namespace Hash

open Sha2

/-- A round shifts the words along and drops none. -/
private theorem length_round {α : Type} [Word α] (v : Variant) (k w : α) (s : List α) :
    (Sha2.round v k w s).length = s.length := by
  unfold Sha2.round
  split <;> rfl

/-- So do all rounds. -/
private theorem length_foldl_round {α : Type} [Word α] (v : Variant) (kws : List (α × α))
    (s : List α) : (kws.foldl (fun s (k, w) => Sha2.round v k w s) s).length = s.length := by
  induction kws generalizing s with
  | nil => rfl
  | cons kw kws ih => exact (ih _).trans (length_round v kw.1 kw.2 s)

/-- A block is compressed into as many words as the state has. -/
private theorem length_compress {α : Type} [Word α] (v : Variant) (constants state : List α)
    (block : Bytes) : (compress v constants state block).length = state.length := by
  rw [compress, List.length_zipWith, length_foldl_round, Nat.min_self]

/-- Whatever the number of blocks, the state keeps its length. -/
private theorem length_foldl_compress {α : Type} [Word α] (v : Variant) (constants : List α)
    (blocks : List Bytes) (state : List α) :
    (blocks.foldl (compress v constants) state).length = state.length := by
  induction blocks generalizing state with
  | nil => rfl
  | cons block blocks ih => exact (ih _).trans (length_compress v constants state block)

/-- Each word gives as many bytes as it is wide. -/
private theorem length_bytesBE {α : Type} [Word α] (ws : List α) :
    (bytesBE ws).length = ws.length * Word.width α := by
  simp [bytesBE, List.length_flatMap, Bytes.length_ofNatBE, List.map_const']

private theorem length_initial256 : initial256.length = 8 := by decide +kernel

/-- A digest of SHA-256 has 32 bytes. -/
theorem length_sha256 (bs : Bytes) : (sha256 bs).length = 32 := by
  rw [sha256, digest, length_bytesBE, length_foldl_compress, length_initial256]
  rfl

end Hash

namespace Hamt

/-- Five bits make one group, and what is left over makes none. -/
private theorem length_groupsOfFive (bits : List Bool) :
    (groupsOfFive bits).length = bits.length / 5 := by
  induction bits using groupsOfFive.induct with
  | case1 a b c d e rest ih =>
    rw [groupsOfFive, List.length_cons, ih]
    simp only [List.length_cons]
    omega
  | case2 bits hbits =>
    rw [groupsOfFive]
    · have hshort : bits.length < 5 := by
        match bits, hbits with
        | [], _ | [_], _ | [_, _], _ | [_, _, _], _ | [_, _, _, _], _ => simp
        | a :: b :: c :: d :: e :: rest, hbits => exact absurd rfl (hbits a b c d e rest)
      rw [List.length_nil, Nat.div_eq_of_lt hshort]
    · exact hbits

/-- The path of a key has a number for each level. -/
theorem length_path (key : Bytes) : (path key).length = levels := by
  have hbits (bs : Bytes) : (bs.flatMap bitsOf).length = bs.length * 8 := by
    simp [List.length_flatMap, bitsOf, List.map_const']
  rw [path, length_groupsOfFive, hbits, Hash.length_sha256]
  rfl

end Hamt

end ReplayVector
