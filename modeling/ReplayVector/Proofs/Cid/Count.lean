import ReplayVector.Cid

/-!
# How many identifiers there are

Every identifier has a number of its own, so there are only finitely many: fewer than `2 ^ 642`.
-/

namespace ReplayVector

namespace Bytes

/-- A mark behind the bytes makes a number of bounded size. -/
private theorem toNatLE_append_one_lt (bs : Bytes) :
    toNatLE (bs ++ [1]) < 2 * 256 ^ bs.length := by
  induction bs with
  | nil => decide
  | cons b bs ih =>
    have hb := b.toNat_lt
    rw [List.cons_append, toNatLE, List.length_cons, Nat.pow_succ]
    omega

/-- With a one at its end, a byte string is told by its number. -/
private theorem eq_of_toNatLE_append_one {as bs : Bytes}
    (h : toNatLE (as ++ [1]) = toNatLE (bs ++ [1])) : as = bs := by
  have hpos (cs : Bytes) : 0 < toNatLE (cs ++ [1]) := by
    induction cs with
    | nil => decide
    | cons c cs ih =>
      rw [List.cons_append, toNatLE]
      omega
  have hone : toNatLE ([] ++ [1]) = 1 := rfl
  induction as generalizing bs with
  | nil =>
    cases bs with
    | nil => rfl
    | cons b bs =>
      have := hpos bs
      rw [hone, List.cons_append, toNatLE] at h
      omega
  | cons a as ih =>
    cases bs with
    | nil =>
      have := hpos as
      rw [hone, List.cons_append, toNatLE] at h
      omega
    | cons b bs =>
      have ha := a.toNat_lt
      have hb := b.toNat_lt
      rw [List.cons_append, List.cons_append, toNatLE, toNatLE] at h
      have hhead : a = b := UInt8.toNat_inj.mp (by omega)
      rw [hhead, @ih bs (by omega)]

end Bytes

/-- A pair is read back from the number it makes. -/
private theorem eq_of_pair {n a b x y : Nat} (hx : x < n) (hy : y < n)
    (h : a * n + x = b * n + y) : a = b ∧ x = y := by
  have hn : 0 < n := by omega
  have hdiv : (a * n + x) / n = (b * n + y) / n := by rw [h]
  rw [Nat.mul_comm a, Nat.mul_comm b, Nat.mul_add_div hn, Nat.mul_add_div hn,
    Nat.div_eq_of_lt hx, Nat.div_eq_of_lt hy] at hdiv
  have hab : a = b := by omega
  rw [hab] at h
  exact ⟨hab, by omega⟩

/-- Pairs of bounded numbers make bounded numbers. -/
private theorem pair_lt {m n a x : Nat} (ha : a < m) (hx : x < n) : a * n + x < m * n := by
  have := Nat.mul_le_mul_right n (Nat.succ_le_of_lt ha)
  rw [Nat.succ_mul] at this
  omega

namespace Cid

/-- There are no more numbers of digests of up to 64 bytes. -/
private def digests : Nat := 2 * 256 ^ 64

/-- So do digests, with the mark behind them. -/
private theorem digestNumber_lt (d : Bytes.UpTo 64) : Bytes.toNatLE (d.val ++ [1]) < digests := by
  have hlt := Bytes.toNatLE_append_one_lt d.val
  have hle := Nat.pow_le_pow_right (n := 256) (by omega) d.property
  rw [digests]
  exact Nat.lt_of_lt_of_le hlt (Nat.mul_le_mul_left 2 hle)

/-- The number of an identifier. -/
def number : Cid → Nat
  | v0 d => Bytes.toNatLE (d.val ++ [1])
  | v1 codec hash =>
    digests + ((codec.toNat * 2 ^ 64 + hash.code.toNat) * digests +
      Bytes.toNatLE (hash.digest.val ++ [1]))

private theorem number_v0_lt (d : Bytes.Sized 32) : (v0 d).number < digests := by
  have hlen : d.val.length ≤ 64 := by
    have := d.property
    omega
  exact digestNumber_lt ⟨d.val, hlen⟩

/-- Different identifiers have different numbers. -/
theorem eq_of_number_eq {c c' : Cid} (h : c.number = c'.number) : c = c' := by
  match c, c' with
  | v0 d, v0 d' =>
    have hd : d = d' := Subtype.ext (Bytes.eq_of_toNatLE_append_one h)
    rw [hd]
  | v0 d, v1 codec hash =>
    have := number_v0_lt d
    rw [h, number] at this
    omega
  | v1 codec hash, v0 d =>
    have := number_v0_lt d
    rw [← h, number] at this
    omega
  | v1 codec ⟨code, digest⟩, v1 codec' ⟨code', digest'⟩ =>
    simp only [number] at h
    obtain ⟨hpair, hdigest⟩ := eq_of_pair (digestNumber_lt digest) (digestNumber_lt digest')
      (Nat.add_left_cancel h)
    obtain ⟨hcodec, hcode⟩ := eq_of_pair code.toNat_lt code'.toNat_lt hpair
    rw [UInt64.toNat_inj.mp hcodec, UInt64.toNat_inj.mp hcode,
      Subtype.ext (Bytes.eq_of_toNatLE_append_one hdigest)]

/-- There are no more numbers of identifiers. -/
private def numbers : Nat := digests + 2 ^ 64 * 2 ^ 64 * digests

/-- There are only so many identifiers. -/
private theorem number_lt (c : Cid) : c.number < numbers := by
  rw [numbers]
  cases c with
  | v0 d =>
    have := number_v0_lt d
    omega
  | v1 codec hash =>
    have hpair := pair_lt codec.toNat_lt hash.code.toNat_lt
    have := pair_lt hpair (digestNumber_lt hash.digest)
    rw [number]
    omega

/-- Different identifiers are fewer than `2 ^ 642`. -/
theorem length_lt_of_nodup {cs : List Cid} (h : cs.Nodup) : cs.length < 2 ^ 642 := by
  have hnumbers : (cs.map number).Nodup :=
    List.pairwise_map.mpr (h.imp fun hne heq => hne (eq_of_number_eq heq))
  have hperm : ((List.range numbers).filter fun n => decide (n ∈ cs.map number)).Perm
      (cs.map number) := by
    rw [List.perm_ext_iff_of_nodup (List.nodup_range.filter _) hnumbers]
    intro n
    simp only [List.mem_filter, List.mem_range, decide_eq_true_eq]
    refine ⟨fun hn => hn.2, fun hn => ⟨?_, hn⟩⟩
    obtain ⟨c, -, rfl⟩ := List.mem_map.mp hn
    exact number_lt c
  have hle := List.length_filter_le (fun n => decide (n ∈ cs.map number)) (List.range numbers)
  rw [hperm.length_eq, List.length_map, List.length_range] at hle
  have hlt : numbers < 2 ^ 642 := by decide +kernel
  exact Nat.lt_of_le_of_lt hle hlt

end Cid

end ReplayVector
