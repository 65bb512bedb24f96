import ReplayVector.Bytes

/-!
# Text as bytes, and numbers without leading zeros

* `toString?_ofString`: the UTF-8 bytes of a text stand for that text.
* `length_magnitude_le`: no form of a number is shorter than the one without leading zeros.
-/

namespace ReplayVector.Bytes

/-! ## Text -/

/-- What is left to list of a byte array, in front of what has been listed. -/
private theorem toList_loop (bs : ByteArray) (i : Nat) (r : List UInt8) :
    ByteArray.toList.loop bs i r = r.reverse ++ bs.data.toList.drop i := by
  fun_induction ByteArray.toList.loop bs i r with
  | case1 i r h ih =>
    have hi : i < bs.data.toList.length := by simpa using h
    have hget : bs.get! i = bs.data.toList[i] := by simp [ByteArray.get!, getElem!_pos, h]
    rw [ih, List.drop_eq_getElem_cons hi, hget]
    simp
  | case2 i r h =>
    have hi : bs.data.toList.length ≤ i := by simpa using h
    rw [List.drop_eq_nil_of_le hi, List.append_nil]

theorem ofString_eq (s : String) : ofString s = s.toByteArray.data.toList := by
  rw [ofString, ByteArray.toList, toList_loop]
  simp

theorem length_ofString (s : String) : (ofString s).length = s.utf8ByteSize := by
  rw [ofString_eq, Array.length_toList]
  rfl

/-- The UTF-8 bytes of a text stand for that text. -/
theorem toString?_ofString (s : String) : toString? (ofString s) = some s := by
  have hv : (⟨s.toByteArray.data⟩ : ByteArray).IsValidUTF8 := s.isValidUTF8
  rw [toString?, ofString_eq]
  simp [String.fromUTF8?, hv, String.fromUTF8]

/-! ## Numbers -/

private theorem length_magnitudeLE_le (width n : Nat) (h : n < 256 ^ width) :
    (magnitudeLE n).length ≤ width := by
  induction width generalizing n with
  | zero =>
    have : n = 0 := by simpa using h
    rw [magnitudeLE, if_pos this]
    simp
  | succ width ih =>
    rw [magnitudeLE]
    split
    · simp
    · have hdiv : n / 256 < 256 ^ width := by
        rw [Nat.pow_succ] at h
        exact Nat.div_lt_of_lt_mul (by omega)
      have := ih _ hdiv
      simp only [List.length_cons]
      omega

/-- A number that fits in `width` bytes takes no more without leading zeros. -/
theorem length_magnitude_le {width n : Nat} (h : n < 256 ^ width) :
    (magnitude n).length ≤ width := by
  rw [magnitude, List.length_reverse]
  exact length_magnitudeLE_le width n h

theorem toNatLE_lt (bs : Bytes) : toNatLE bs < 256 ^ bs.length := by
  induction bs with
  | nil => simp [toNatLE]
  | cons b bs ih =>
    have := b.toNat_lt
    rw [toNatLE, List.length_cons, Nat.pow_succ]
    omega

theorem toNatBE_lt (bs : Bytes) : toNatBE bs < 256 ^ bs.length := by
  have := toNatLE_lt bs.reverse
  rwa [List.length_reverse] at this

/-- A number takes no more than `width` bytes exactly if it fits in them. -/
theorem length_magnitude_le_iff {width n : Nat} :
    (magnitude n).length ≤ width ↔ n < 256 ^ width := by
  refine ⟨fun h => ?_, length_magnitude_le⟩
  calc n = toNatBE (magnitude n) := (toNatBE_magnitude n).symm
    _ < 256 ^ (magnitude n).length := toNatBE_lt _
    _ ≤ 256 ^ width := Nat.pow_le_pow_right (by decide) h

/-- Characters of one byte each take as many bytes as they are. -/
theorem utf8ByteSize_ofList {cs : List Char} (h : ∀ c ∈ cs, c.utf8Size = 1) :
    (String.ofList cs).utf8ByteSize = cs.length := by
  induction cs with
  | nil => rfl
  | cons c cs ih =>
    have hc := h c (List.mem_cons_self ..)
    have hcs := ih fun c' h' => h c' (List.mem_cons_of_mem _ h')
    rw [String.ofList_cons, String.utf8ByteSize_append, String.utf8ByteSize_singleton, hc, hcs,
      List.length_cons]
    omega

/-! ## Cutting -/

/-- Taking the length of a front part gives that part and what follows it. -/
theorem take?_of_length {n : Nat} {front : Bytes} (h : front.length = n) (rest : Bytes) :
    take? n (front ++ rest) = some (front, rest) := h ▸ take?_append front rest

theorem sized?_val {n : Nat} (bs : Sized n) : sized? n bs.val = some bs := by
  rw [sized?, dif_pos bs.property]

theorem upTo?_val {n : Nat} (bs : UpTo n) : upTo? n bs.val = some bs := by
  rw [upTo?, dif_pos bs.property]

end ReplayVector.Bytes
