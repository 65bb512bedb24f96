import Mathlib.Data.Nat.Digits.Defs
import ReplayVector.Bytes.Varint

/-!
# Variable-length numbers are read as they were written

The reader gives back every number below `2 ^ 64`, whatever follows it, and the writer never
takes more than ten bytes for one.

* `decode_encode_append`: reading undoes writing.
* `length_encode_le`: the length of a number's form.
* `decode_eq_value_iff`: what the reader takes for a number.
-/

namespace ReplayVector.Varint

/-- The form of a number below 128 is one byte. -/
theorem encode_of_lt {n : Nat} (h : n < 128) : encode n = [n.toUInt8] := by
  rw [encode, if_pos h]

/-- The form of a larger number begins with its lowest seven bits and the mark that more follow. -/
theorem encode_of_ge {n : Nat} (h : 128 ≤ n) :
    encode n = (n % 128 + 128).toUInt8 :: encode (n / 128) := by
  rw [encode, if_neg (by omega)]

private theorem toNat_toUInt8 {n : Nat} (h : n < 256) : n.toUInt8.toNat = n := by
  have : n.toUInt8.toNat = n % 256 := rfl
  omega

theorem encode_ne_nil (n : Nat) : encode n ≠ [] := by
  rw [encode]
  split <;> simp

/-- A number of `7 * k` bits takes at most `k` bytes. -/
theorem length_encode_le {k n : Nat} (hk : 0 < k) (h : n < 128 ^ k) : (encode n).length ≤ k := by
  induction k generalizing n with
  | zero => omega
  | succ k ih =>
    by_cases hn : n < 128
    · rw [encode_of_lt hn]
      simp
    · have hk' : 0 < k := by
        rcases Nat.eq_zero_or_pos k with rfl | hk'
        · simp at h
          omega
        · exact hk'
      have hdiv : n / 128 < 128 ^ k := by
        rw [Nat.pow_succ] at h
        exact Nat.div_lt_of_lt_mul (by omega)
      have := ih hk' hdiv
      rw [encode_of_ge (by omega)]
      simp only [List.length_cons]
      omega

/-- The form of a word takes at most ten bytes. -/
theorem length_encode_word {n : Nat} (h : n < 2 ^ 64) : (encode n).length ≤ 10 :=
  length_encode_le (by omega) (by omega)

/-- Reading on after `index` bytes: the rest of the form adds its number at its place. The number
is not zero unless the form has just begun, since a final zero byte is refused. -/
theorem decodeFrom_encode_append {index n : Nat} (hn : n < 128 ^ (10 - index)) (hi : index ≤ 9)
    (h0 : index ≠ 0 → n ≠ 0) (acc : Nat) (rest : Bytes) :
    decodeFrom index acc (encode n ++ rest) = .value (acc + n * 2 ^ (7 * index)).toUInt64 rest := by
  induction n using Nat.strongRecOn generalizing index acc with
  | ind n ih =>
    by_cases hlt : n < 128
    · have hb : n.toUInt8.toNat = n := toNat_toUInt8 (by omega)
      have hsmall : n.toUInt8 < 128 := UInt8.lt_iff_toNat_lt.mpr (by rw [hb]; exact hlt)
      have hzero : ¬(n.toUInt8 = 0 ∧ index ≠ 0) := by
        rintro ⟨hz, hne⟩
        have : n.toUInt8.toNat = 0 := by rw [hz]; rfl
        exact h0 hne (by omega)
      rw [encode_of_lt hlt, List.singleton_append, decodeFrom]
      simp only [hsmall, hzero, if_true, if_false, hb, Nat.mod_eq_of_lt hlt]
    · have hge : 128 ≤ n := by omega
      have hb : (n % 128 + 128).toUInt8.toNat = n % 128 + 128 := toNat_toUInt8 (by omega)
      have hbig : ¬(n % 128 + 128).toUInt8 < 128 := by
        rw [UInt8.lt_iff_toNat_lt, hb]
        have : (128 : UInt8).toNat = 128 := rfl
        omega
      -- a number of at least two bytes cannot begin at the last place
      have hindex : index ≠ 9 := by
        rintro rfl
        simp at hn
        omega
      have hdiv : n / 128 < 128 ^ (10 - (index + 1)) := by
        rw [show 10 - index = (10 - (index + 1)) + 1 by omega, Nat.pow_succ] at hn
        exact Nat.div_lt_of_lt_mul (by omega)
      rw [encode_of_ge hge, List.cons_append, decodeFrom]
      simp only [hbig, hindex, if_false, hb]
      rw [ih (n / 128) (by omega) hdiv (by omega) (fun _ => by omega)]
      congr 2
      rw [show 7 * (index + 1) = 7 * index + 7 by omega, Nat.pow_add, show 2 ^ 7 = 128 from rfl]
      have hmod : (n % 128 + 128) % 128 = n % 128 := by omega
      have hn128 : n = n % 128 + n / 128 * 128 := by omega
      have hsplit : n * 2 ^ (7 * index) =
          n % 128 * 2 ^ (7 * index) + n / 128 * (2 ^ (7 * index) * 128) := by
        calc n * 2 ^ (7 * index) = (n % 128 + n / 128 * 128) * 2 ^ (7 * index) := by
              rw [← hn128]
          _ = _ := by rw [Nat.add_mul, Nat.mul_assoc, Nat.mul_comm 128]
      rw [hmod, hsplit, Nat.add_assoc]

/-- Reading undoes writing, whatever follows. -/
theorem decode_encode_append {n : Nat} (h : n < 2 ^ 64) (rest : Bytes) :
    decode (encode n ++ rest) = .value n.toUInt64 rest := by
  rw [decode, decodeFrom_encode_append (by omega) (by omega) (by simp)]
  simp

/-- Reading the form of a word gives the word. -/
theorem decode?_encode_append (n : UInt64) (rest : Bytes) :
    decode? (encode n.toNat ++ rest) = some (n, rest) := by
  rw [decode?, decode_encode_append n.toNat_lt]
  simp

/-- A byte without the mark that more follow is a number of its own. -/
theorem decode?_cons {b : UInt8} (h : b.toNat < 128) (rest : Bytes) :
    decode? (b :: rest) = some (b.toNat.toUInt64, rest) := by
  have hsmall : b < 128 := UInt8.lt_iff_toNat_lt.mpr h
  have hzero : ¬(b = 0 ∧ 0 ≠ 0) := by simp
  rw [decode?, decode, decodeFrom]
  simp only [hsmall, hzero, if_true, if_false, Nat.mod_eq_of_lt h]
  simp

theorem decodeAll?_encode (n : UInt64) : decodeAll? (encode n.toNat) = some n := by
  have h := decode_encode_append n.toNat_lt []
  rw [List.append_nil] at h
  rw [decodeAll?, h]
  simp

/-! ## What is read -/

/-- Seven bits of each byte. -/
def digits (w : Bytes) : List Nat := w.map fun b => b.toNat % 128

/-- The bytes are read as a number: all but the last have the mark that more follow, there are at
most ten, and the last one is not zero unless it is the only one. The number has the rest of the
bytes as its digits, the lowest first, and is taken modulo `2 ^ 64`. -/
def Spells (w : Bytes) (n : UInt64) : Prop :=
  ∃ (more : Bytes) (last : UInt8), w = more ++ [last] ∧ (∀ b ∈ more, ¬b < 128) ∧ last < 128 ∧
    more.length ≤ 9 ∧ (last = 0 → more = []) ∧
    n = (Nat.ofDigits 128 (digits w)).toUInt64

/-- After `index` bytes, whose number is `acc`, the string goes on with the rest of the bytes of a
number: bytes with the mark, and one without it. -/
private def SpellsFrom (index acc : Nat) (bs rest : Bytes) (n : UInt64) : Prop :=
  ∃ (more : Bytes) (last : UInt8), bs = more ++ last :: rest ∧ (∀ b ∈ more, ¬b < 128) ∧
    last < 128 ∧ index + more.length ≤ 9 ∧ (last = 0 → index = 0 ∧ more = []) ∧
    n = (acc + Nat.ofDigits 128 (digits (more ++ [last])) * 2 ^ (7 * index)).toUInt64

private theorem spellsFrom_last {index acc : Nat} (hi : index ≤ 9) {b : UInt8} (hb : b < 128)
    {bs rest : Bytes} {n : UInt64} :
    SpellsFrom index acc (b :: bs) rest n ↔ ¬(b = 0 ∧ index ≠ 0) ∧
      (acc + b.toNat % 128 * 2 ^ (7 * index)).toUInt64 = n ∧ bs = rest := by
  constructor
  · rintro ⟨more, last, hbs, hmore, -, -, hlast, rfl⟩
    cases more with
    | nil =>
      obtain ⟨rfl, rfl⟩ := List.cons.inj hbs
      exact ⟨fun h => h.2 (hlast h.1).1, by simp [digits], rfl⟩
    | cons b' more =>
      obtain ⟨rfl, -⟩ := List.cons.inj hbs
      exact absurd hb (hmore b (List.mem_cons_self ..))
  · rintro ⟨hzero, rfl, rfl⟩
    refine ⟨[], b, rfl, by simp, hb, by simpa using hi, fun h0 => ⟨?_, rfl⟩, by simp [digits]⟩
    exact Classical.not_not.mp fun hne => hzero ⟨h0, hne⟩

private theorem spellsFrom_more {index acc : Nat} {b : UInt8} (hb : ¬b < 128) {bs rest : Bytes}
    {n : UInt64} :
    SpellsFrom index acc (b :: bs) rest n ↔
      SpellsFrom (index + 1) (acc + b.toNat % 128 * 2 ^ (7 * index)) bs rest n := by
  -- the digit stands before the others
  have hdigit (ds : List Nat) : acc + Nat.ofDigits 128 (b.toNat % 128 :: ds) * 2 ^ (7 * index) =
      acc + b.toNat % 128 * 2 ^ (7 * index) + Nat.ofDigits 128 ds * 2 ^ (7 * (index + 1)) := by
    rw [Nat.ofDigits_cons, show 7 * (index + 1) = 7 * index + 7 by omega, Nat.pow_add]
    push_cast
    ring
  constructor
  · rintro ⟨more, last, hbs, hmore, hlast, hlength, hzero, rfl⟩
    cases more with
    | nil =>
      obtain ⟨rfl, -⟩ := List.cons.inj hbs
      exact absurd hlast hb
    | cons b' more =>
      obtain ⟨rfl, rfl⟩ := List.cons.inj hbs
      rw [List.length_cons] at hlength
      exact ⟨more, last, rfl, (List.forall_mem_cons.mp hmore).2, hlast, by omega,
        fun h0 => (by cases (hzero h0).2), congrArg Nat.toUInt64 (hdigit _)⟩
  · rintro ⟨more, last, rfl, hmore, hlast, hlength, hzero, rfl⟩
    exact ⟨b :: more, last, rfl, List.forall_mem_cons.mpr ⟨hb, hmore⟩, hlast,
      by rw [List.length_cons]; omega, fun h0 => absurd (hzero h0).1 (by omega),
      congrArg Nat.toUInt64 (hdigit _).symm⟩

/-- Reading on takes the rest of the bytes of a number, and nothing else. -/
private theorem decodeFrom_eq_value_iff {index acc : Nat} (hi : index ≤ 9) {bs rest : Bytes}
    {n : UInt64} : decodeFrom index acc bs = .value n rest ↔ SpellsFrom index acc bs rest n := by
  induction bs generalizing index acc with
  | nil =>
    refine iff_of_false nofun ?_
    rintro ⟨more, last, h, -⟩
    simp at h
  | cons b bs ih =>
    rw [decodeFrom]
    split
    · next hb =>
      rw [spellsFrom_last hi hb]
      split
      · next hzero => exact iff_of_false nofun fun h => h.1 hzero
      · next hzero => rw [Decoded.value.injEq, and_iff_right hzero]
    · next hb =>
      rw [spellsFrom_more hb]
      split
      · next hindex =>
        -- ten bytes are too many
        refine iff_of_false nofun ?_
        rintro ⟨more, last, -, -, -, hlength, -⟩
        omega
      · next hindex => exact ih (by omega)

/-- The reader takes just the bytes for a number that spell it. -/
theorem decode_eq_value_iff {bs rest : Bytes} {n : UInt64} :
    decode bs = .value n rest ↔ ∃ w, Spells w n ∧ bs = w ++ rest := by
  rw [decode, decodeFrom_eq_value_iff (Nat.zero_le 9), SpellsFrom]
  constructor
  · rintro ⟨more, last, rfl, hmore, hlast, hlength, hzero, rfl⟩
    exact ⟨more ++ [last], ⟨more, last, rfl, hmore, hlast, by omega, fun h0 => (hzero h0).2, by simp⟩,
      by simp⟩
  · rintro ⟨w, ⟨more, last, rfl, hmore, hlast, hlength, hzero, rfl⟩, rfl⟩
    exact ⟨more, last, by simp, hmore, hlast, by omega, fun h0 => ⟨rfl, hzero h0⟩, by simp⟩

end ReplayVector.Varint
