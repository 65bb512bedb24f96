import Mathlib.Data.List.Forall2
import ReplayVector.Gzip
import ReplayVector.Proofs.Bytes.Text

/-!
# What was packed is unpacked

A byte string is a member for some data if the data come out of it and reading stops right behind
it, whatever follows. Byte strings put together of members unpack to their data put together, so data
may be cut anywhere and packed in pieces.

A packed byte string is one member of stored blocks. Inflating gives the bytes of the blocks and
stops behind the last one, where the checksum and the length agree with them.

* `IsMember`: members, however they were compressed.
* `unpack_flatten`: members one after the other.
* `Inflate.blocks_storedBlocks`: stored blocks are inflated to their bytes.
* `isMember_pack`, `unpack_pack`: unpacking undoes packing.
-/

namespace ReplayVector

-- ---------------------------------------------------------------------------
-- Members one after the other
-- ---------------------------------------------------------------------------

namespace Gzip

/-- Whatever follows the bytes, reading a member gives the data and leaves what follows. -/
def IsMember (data z : Bytes) : Prop :=
  ∀ rest, ∃ body out tail, afterHeader? (z ++ rest) = some body ∧
    Inflate.run body = .ok (out, tail) ∧ out.toList = data ∧
    Bytes.take? 8 tail = some (trailer data, rest)

theorem isPacked_of_afterHeader? {bs body : Bytes} (h : afterHeader? bs = some body) :
    isPacked bs = true := by
  unfold afterHeader? at h
  obtain ⟨⟨front, rest⟩, htake, hfront⟩ := Option.bind_eq_some_iff.mp h
  obtain ⟨rfl, -⟩ := Bytes.eq_append_of_take? htake
  clear h
  dsimp only at hfront
  split at hfront
  · rfl
  · cases hfront

variable {data z rest : Bytes}

theorem IsMember.isPacked (h : IsMember data z) (rest : Bytes) : isPacked (z ++ rest) = true := by
  obtain ⟨body, out, tail, hheader, -⟩ := h rest
  exact isPacked_of_afterHeader? hheader

theorem IsMember.ne_nil (h : IsMember data z) : z ≠ [] := by
  rintro rfl
  have hpacked := h.isPacked []
  cases hpacked

/-- A member gives its data, and then what the members behind it give. -/
theorem IsMember.members_append (h : IsMember data z) (fuel : Nat) (rest : Bytes) :
    members (fuel + 1) (z ++ rest) =
      if rest.isEmpty then ⟨data, true⟩
      else ⟨data ++ (members fuel rest).data, (members fuel rest).sound⟩ := by
  obtain ⟨body, out, tail, hheader, hrun, rfl, hend⟩ := h rest
  rw [members, hheader]
  simp only [hrun, hend, ne_eq, not_true_eq_false, if_false]

variable {pieces zs : List Bytes}

theorem length_le_flatten (h : List.Forall₂ IsMember pieces zs) :
    zs.length ≤ zs.flatten.length := by
  induction h with
  | nil => exact Nat.le_refl 0
  | @cons piece z pieces zs hz _ ih =>
    have := List.length_pos_iff.mpr hz.ne_nil
    rw [List.flatten_cons, List.length_append, List.length_cons]
    omega

theorem members_flatten (h : List.Forall₂ IsMember pieces zs) (hne : zs ≠ []) {fuel : Nat}
    (hfuel : zs.length ≤ fuel) : members fuel zs.flatten = ⟨pieces.flatten, true⟩ := by
  induction h generalizing fuel with
  | nil => exact absurd rfl hne
  | @cons piece z pieces zs hz hzs ih =>
    obtain ⟨fuel, rfl⟩ : ∃ n, fuel = n + 1 := ⟨fuel - 1, by rw [List.length_cons] at hfuel; omega⟩
    rw [List.flatten_cons, List.flatten_cons, hz.members_append]
    cases hzs with
    | nil => simp
    | @cons piece' z' pieces' zs' hz' hzs' =>
      -- there is another member, so the string goes on
      have hmore : ((z' :: zs').flatten).isEmpty = false := by
        have := List.length_pos_iff.mpr hz'.ne_nil
        rw [List.isEmpty_eq_false_iff, ← List.length_pos_iff, List.flatten_cons, List.length_append]
        omega
      have hrest := ih (by simp) (Nat.le_of_succ_le_succ hfuel)
      rw [hmore, hrest]
      rfl

/-- Members one after the other unpack to their data one after the other. -/
theorem unpack_flatten (h : List.Forall₂ IsMember pieces zs) (hne : zs ≠ []) :
    isPacked zs.flatten = true ∧ unpack zs.flatten = ⟨pieces.flatten, true⟩ := by
  refine ⟨?_, members_flatten h hne (length_le_flatten h)⟩
  cases h with
  | nil => exact absurd rfl hne
  | cons hz _ => exact hz.isPacked _

end Gzip

-- ---------------------------------------------------------------------------
-- Stored blocks
-- ---------------------------------------------------------------------------

namespace Inflate

/-- The three bits before a stored block. -/
private theorem number_first (out : Array UInt8) (last : Bool) (bytes : Bytes) :
    number out 1 ⟨[], (if last then 1 else 0) :: bytes⟩ =
        .ok (last.toNat, ⟨List.replicate 7 false, bytes⟩) ∧
      number out 2 ⟨List.replicate 7 false, bytes⟩ = .ok (0, ⟨List.replicate 5 false, bytes⟩) := by
  cases last <;> exact ⟨rfl, rfl⟩

/-- A block whose kind is stored hands its bytes on, and only the last one ends the output. -/
private theorem blocks_succ {fuel : Nat} {out out' : Array UInt8} {bytes rest : Bytes}
    (h : stored out bytes = .ok (out', rest)) (last : Bool) :
    blocks (fuel + 1) out ⟨[], (if last then 1 else 0) :: bytes⟩ =
      if last then .ok (out', rest) else blocks fuel out' ⟨[], rest⟩ := by
  obtain ⟨hfirst, hkind⟩ := number_first out last bytes
  rw [blocks, hfirst]
  simp only [bind, Except.bind, hkind, if_true, h]
  cases last <;> rfl

/-- A stored block gives its bytes. -/
private theorem stored_storedBlock {data : Bytes} (h : data.length ≤ Gzip.storedLimit)
    (out : Array UInt8) (rest : Bytes) :
    stored out (Bytes.ofNatLE 2 data.length ++ Bytes.ofNatLE 2 (0xffff - data.length) ++ data ++
      rest) = .ok (out ++ data.toArray, rest) := by
  have hlimit : data.length ≤ 0xffff := h
  have hlength := Bytes.toNatLE_ofNatLE (show data.length < 256 ^ 2 by omega)
  have hinverse := Bytes.toNatLE_ofNatLE (show 0xffff - data.length < 256 ^ 2 by omega)
  simp only [Bytes.ofNatLE] at hlength hinverse
  simp only [Bytes.ofNatLE, List.cons_append, List.nil_append, stored, hlength, hinverse]
  rw [if_neg (by omega), Bytes.take?_append]

private theorem blocks_storedBlock {data : Bytes} (h : data.length ≤ Gzip.storedLimit)
    (fuel : Nat) (out : Array UInt8) (last : Bool) (rest : Bytes) :
    blocks (fuel + 1) out ⟨[], Gzip.storedBlock last data ++ rest⟩ =
      if last then .ok (out ++ data.toArray, rest)
      else blocks fuel (out ++ data.toArray) ⟨[], rest⟩ := by
  rw [← blocks_succ (stored_storedBlock h out rest)]
  simp [Gzip.storedBlock]

/-- Stored blocks are inflated to their bytes, up to what follows the last one. -/
theorem blocks_storedBlocks (data rest : Bytes) (out : Array UInt8) {fuel : Nat}
    (hfuel : data.length < fuel) :
    blocks fuel out ⟨[], Gzip.storedBlocks data ++ rest⟩ = .ok (out ++ data.toArray, rest) := by
  induction hn : data.length using Nat.strongRecOn generalizing data out fuel with
  | ind n ih =>
    subst hn
    obtain ⟨fuel, rfl⟩ : ∃ k, fuel = k + 1 := ⟨fuel - 1, by omega⟩
    rw [Gzip.storedBlocks]
    by_cases hlast : data.length ≤ Gzip.storedLimit
    · rw [dif_pos hlast, blocks_storedBlock hlast]
      rfl
    · have htake : (data.take Gzip.storedLimit).length ≤ Gzip.storedLimit := List.length_take_le ..
      have hdrop : (data.drop Gzip.storedLimit).length < data.length := by
        rw [List.length_drop]
        simp only [Gzip.storedLimit] at hlast ⊢
        omega
      have hmore := ih _ hdrop (data.drop Gzip.storedLimit)
        (out ++ (data.take Gzip.storedLimit).toArray) (show _ < fuel by omega) rfl
      rw [dif_neg hlast, List.append_assoc, blocks_storedBlock htake]
      simp only [Bool.false_eq_true, if_false]
      have hjoin := List.append_toArray (data.take Gzip.storedLimit) (data.drop Gzip.storedLimit)
      rw [List.take_append_drop] at hjoin
      rw [hmore, Array.append_assoc, hjoin]

end Inflate

namespace Gzip

/-- A packed byte string announces itself. -/
theorem isPacked_pack (data : Bytes) : isPacked (pack data) = true := rfl

theorem length_le_storedBlocks (data : Bytes) : data.length ≤ (storedBlocks data).length := by
  induction hn : data.length using Nat.strongRecOn generalizing data with
  | ind n ih =>
    subst hn
    rw [storedBlocks]
    split
    · simp only [storedBlock, List.cons_append, List.length_cons, List.length_append]
      omega
    · next hlong =>
      have hdrop : (data.drop storedLimit).length < data.length := by
        rw [List.length_drop]
        simp only [storedLimit] at hlong ⊢
        omega
      have := ih _ hdrop (data.drop storedLimit) rfl
      simp only [storedBlock, List.cons_append, List.length_cons, List.length_append,
        List.length_take, List.length_drop] at this ⊢
      omega

/-- A packed byte string is a member. -/
theorem isMember_pack (data : Bytes) : IsMember data (pack data) := by
  intro rest
  have hlen := length_le_storedBlocks data
  have htrailer : (trailer data).length = 8 := by
    rw [trailer, List.length_append, Bytes.length_ofNatLE, Bytes.length_ofNatLE]
  refine ⟨storedBlocks data ++ (trailer data ++ rest), data.toArray, trailer data ++ rest, ?_, ?_, ?_,
    Bytes.take?_of_length htrailer rest⟩
  · have hparts : pack data ++ rest = header ++ (storedBlocks data ++ (trailer data ++ rest)) := by
      rw [pack, List.append_assoc, List.append_assoc]
    rw [hparts]
    rfl
  · rw [Inflate.run, Inflate.blocks_storedBlocks data _ #[] (by rw [List.length_append]; omega)]
    simp
  · simp

/-- Unpacking what was packed gives the bytes, without fault. -/
theorem unpack_pack (data : Bytes) : unpack (pack data) = ⟨data, true⟩ := by
  have hpack : List.Forall₂ IsMember [data] [pack data] := .cons (isMember_pack data) .nil
  have hunpack := (unpack_flatten hpack (by simp)).2
  simpa using hunpack

end Gzip

end ReplayVector
