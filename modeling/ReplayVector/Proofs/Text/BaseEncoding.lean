import ReplayVector.Text.BaseEncoding
import Mathlib.Data.Nat.Digits.Defs
import Mathlib.Data.Nat.Digits.Lemmas

/-!
# Bytes written in an alphabet are read back

In a bit alphabet whose symbols are told apart, the groups of bits that a byte string is cut into
are recovered from their symbols, and the filling of the last group is too short to carry a byte.

* `BitAlphabet.decodeUnpadded_symbolsOf`: reading symbols undoes writing them.
* `ofBase64?_toBase64`: with the padding of base 64.
* `decodeDigits_encodeDigits`: reading undoes writing in a digit alphabet.
-/

namespace ReplayVector.Text

/-! ## Bits -/

/-- Eight bits of a number, most significant first, write the number. -/
private theorem bitsValue_testBit (n : Nat) (h : n < 256) :
    bitsValue ([7, 6, 5, 4, 3, 2, 1, 0].map fun i => n.testBit i) = n := by
  have : ∀ n : Fin 256, bitsValue ([7, 6, 5, 4, 3, 2, 1, 0].map fun i => n.val.testBit i) = n.val := by
    decide +kernel
  exact this ⟨n, h⟩

/-- The bits of a byte at the front are read as that byte. -/
private theorem ofBits_byteBits_append (b : UInt8) (rest : List Bool) :
    ofBits (byteBits b ++ rest) = (b :: (ofBits rest).1, (ofBits rest).2) := by
  have hvalue := bitsValue_testBit b.toNat b.toNat_lt
  simp only [List.map_cons, List.map_nil] at hvalue
  simp only [byteBits, List.map_cons, List.map_nil, List.cons_append, List.nil_append]
  rw [ofBits, hvalue]
  simp

/-- The bits of a byte string are read as the string; what is too short for a byte is left. -/
theorem ofBits_toBits_append (bs : Bytes) {left : List Bool} (h : left.length < 8) :
    ofBits (toBits bs ++ left) = (bs, left) := by
  induction bs with
  | nil =>
    rw [toBits, List.flatMap_nil, List.nil_append]
    exact ofBits.eq_2 _ (by rintro _ _ _ _ _ _ _ _ _ rfl; simp at h; omega)
  | cons b bs ih =>
    rw [toBits] at ih ⊢
    rw [List.flatMap_cons, List.append_assoc, ofBits_byteBits_append, ih]

/-! ## Groups of bits -/

namespace BitAlphabet

/-- Groups have their width, and together they are the bits, filled up with zeros. -/
theorem groups_spec {width : Nat} (hw : 0 < width) (bits : List Bool) :
    (∀ g ∈ groups width bits, g.length = width) ∧
      ∃ k < width, (groups width bits).flatten = bits ++ List.replicate k false := by
  induction hn : bits.length using Nat.strongRecOn generalizing bits with
  | ind n ih =>
    subst hn
    by_cases hnil : bits = []
    · rw [groups, dif_pos (Or.inr hnil), hnil]
      exact ⟨by simp, 0, hw, by simp⟩
    · have hpos : 0 < bits.length := List.length_pos_iff.mpr hnil
      have hdrop : (bits.drop width).length < bits.length := by
        rw [List.length_drop]
        omega
      obtain ⟨hlen, k, hk, hflat⟩ := ih _ hdrop (bits.drop width) rfl
      rw [groups, dif_neg (by rintro (h | h); omega; exact hnil h)]
      refine ⟨?_, ?_⟩
      · intro g hg
        rcases List.mem_cons.mp hg with rfl | hg
        · rw [List.length_append, List.length_replicate, List.length_take]
          omega
        · exact hlen g hg
      · rw [List.flatten_cons, hflat]
        by_cases hshort : bits.length < width
        · -- the last group: nothing is left to cut, so nothing but its own filling is added
          have hrest : bits.drop width = [] := List.drop_eq_nil_of_le (by omega)
          have hk0 : k = 0 := by
            have := congrArg List.length hflat
            rw [hrest, groups, dif_pos (Or.inr rfl)] at this
            simpa using this.symm
          refine ⟨width - bits.length, by omega, ?_⟩
          rw [hrest, hk0, List.take_of_length_le (by omega)]
          simp
        · have hfull : (bits.take width).length = width := by
            rw [List.length_take]
            omega
          refine ⟨k, hk, ?_⟩
          rw [hfull, Nat.sub_self, List.replicate_zero, List.append_nil, ← List.append_assoc,
            List.take_append_drop]

/-- Every symbol of an alphabet is found at its own place. -/
def Faithful (a : BitAlphabet) : Prop :=
  (0 < a.bits ∧ a.bits ≤ 8) ∧ ∀ i < 2 ^ a.bits, indexOf? a.symbols (a.symbols.getD i '?') = some i

private theorem foldl_bits (bits : List Bool) (n : Nat) :
    bits.foldl (fun n b => 2 * n + b.toNat) n = n * 2 ^ bits.length + bitsValue bits := by
  induction bits generalizing n with
  | nil => simp [bitsValue]
  | cons b bits ih =>
    rw [bitsValue, List.foldl_cons, List.foldl_cons, ih, ih (2 * 0 + b.toNat), List.length_cons,
      Nat.pow_succ]
    ring

private theorem bitsValue_cons (b : Bool) (bits : List Bool) :
    bitsValue (b :: bits) = b.toNat * 2 ^ bits.length + bitsValue bits := by
  have h := foldl_bits bits b.toNat
  rw [bitsValue, List.foldl_cons]
  simpa using h

theorem bitsValue_lt (bits : List Bool) : bitsValue bits < 2 ^ bits.length := by
  induction bits with
  | nil => simp [bitsValue]
  | cons b bits ih =>
    have : b.toNat * 2 ^ bits.length ≤ 2 ^ bits.length := by
      cases b <;> simp
    rw [bitsValue_cons, List.length_cons, Nat.pow_succ]
    omega

/-- Bits are recovered from the number they write. -/
theorem bitsOf_bitsValue (bits : List Bool) : bitsOf bits.length (bitsValue bits) = bits := by
  induction bits with
  | nil => rfl
  | cons b bits ih =>
    have hlt := bitsValue_lt bits
    have htop : (bitsValue (b :: bits)).testBit bits.length = b := by
      rw [bitsValue_cons, Nat.mul_comm, Nat.testBit_two_pow_mul_add _ hlt]
      cases b <;> simp
    have hlow : bitsOf bits.length (bitsValue (b :: bits)) = bits := by
      conv_rhs => rw [← ih]
      rw [bitsOf, bitsOf]
      apply List.map_congr_left
      intro i hi
      have hi : i < bits.length := by simpa using hi
      rw [bitsValue_cons, Nat.mul_comm, Nat.testBit_two_pow_mul_add _ hlt, if_pos hi]
    rw [bitsOf, List.length_cons, List.range_succ, List.reverse_append]
    simp only [List.reverse_cons, List.reverse_nil, List.nil_append, List.cons_append,
      List.map_cons, htop]
    rw [← bitsOf, hlow]

/-- The symbols of a byte string, without padding. -/
def symbolsOf (a : BitAlphabet) (bs : Bytes) : List Char :=
  (groups a.bits (toBits bs)).map fun g => a.symbols.getD (bitsValue g) '?'

theorem encode_eq (a : BitAlphabet) (bs : Bytes) :
    a.encode bs = a.symbolsOf bs ++ List.replicate (a.padding (a.symbolsOf bs).length) '=' := rfl

private theorem values?_map {a : BitAlphabet} (ha : a.Faithful) (gs : List (List Bool))
    (h : ∀ g ∈ gs, g.length = a.bits) :
    a.values? (gs.map fun g => a.symbols.getD (bitsValue g) '?') = some (gs.map bitsValue) := by
  induction gs with
  | nil => rfl
  | cons g gs ih =>
    have hg : bitsValue g < 2 ^ a.bits := by
      rw [← h g (List.mem_cons_self ..)]
      exact bitsValue_lt g
    rw [values?] at ih ⊢
    rw [List.map_cons, List.mapM_cons, ha.2 _ hg, ih fun g' h' => h g' (List.mem_cons_of_mem _ h')]
    rfl

private theorem flatMap_bitsOf (width : Nat) (gs : List (List Bool))
    (h : ∀ g ∈ gs, g.length = width) : (gs.map bitsValue).flatMap (bitsOf width) = gs.flatten := by
  induction gs with
  | nil => rfl
  | cons g gs ih =>
    have hg : bitsOf width (bitsValue g) = g := by
      rw [← h g (List.mem_cons_self ..)]
      exact bitsOf_bitsValue g
    rw [List.map_cons, List.flatMap_cons, List.flatten_cons, hg,
      ih fun g' h' => h g' (List.mem_cons_of_mem _ h')]

/-- Reading the symbols of a byte string gives the string. -/
theorem decodeUnpadded_symbolsOf {a : BitAlphabet} (ha : a.Faithful) (bs : Bytes) :
    a.decodeUnpadded (a.symbolsOf bs) = some bs := by
  obtain ⟨hlen, k, hk, hflat⟩ := groups_spec ha.1.1 (toBits bs)
  have hfill : (List.replicate k false).length < 8 := by
    rw [List.length_replicate]
    exact Nat.lt_of_lt_of_le hk ha.1.2
  rw [decodeUnpadded, symbolsOf, values?_map ha _ hlen]
  simp only [Option.bind_eq_bind, Option.bind_some]
  rw [flatMap_bitsOf _ _ hlen, hflat, ofBits_toBits_append bs hfill]
  simp [hk]

/-- A byte string takes as many symbols as its bits fill, the last one perhaps in part. -/
theorem length_symbolsOf {a : BitAlphabet} (ha : a.Faithful) (bs : Bytes) :
    8 * bs.length ≤ a.bits * (a.symbolsOf bs).length ∧
      a.bits * (a.symbolsOf bs).length < 8 * bs.length + a.bits := by
  obtain ⟨hlen, k, hk, hflat⟩ := groups_spec ha.1.1 (toBits bs)
  have hgroups : (groups a.bits (toBits bs)).flatten.length =
      a.bits * (groups a.bits (toBits bs)).length := by
    rw [List.length_flatten, List.map_congr_left hlen, List.map_const', List.sum_replicate_nat]
    exact Nat.mul_comm ..
  have hbits : (toBits bs).length = 8 * bs.length := by
    simp [toBits, byteBits, List.length_flatMap, Nat.mul_comm]
  rw [hflat, List.length_append, List.length_replicate, hbits] at hgroups
  rw [symbolsOf, List.length_map]
  omega

/-- The symbols of a byte string are symbols of the alphabet. -/
theorem mem_symbols_of_mem_symbolsOf {a : BitAlphabet} (ha : a.Faithful) {bs : Bytes} {c : Char}
    (h : c ∈ a.symbolsOf bs) : c ∈ a.symbols := by
  obtain ⟨g, hg, rfl⟩ := List.mem_map.mp h
  have hlt : bitsValue g < 2 ^ a.bits := by
    rw [← (groups_spec ha.1.1 (toBits bs)).1 g hg]
    exact bitsValue_lt g
  have hfound := ha.2 _ hlt
  by_contra hmem
  rw [indexOf?, List.idxOf?_eq_none_iff.mpr hmem] at hfound
  cases hfound

end BitAlphabet

theorem base64_faithful : base64.Faithful := by
  refine ⟨by decide, ?_⟩
  have : ∀ i : Fin 64, indexOf? base64.symbols (base64.symbols.getD i.val '?') = some i.val := by
    decide +kernel
  exact fun i hi => this ⟨i, hi⟩

theorem base32_faithful : base32.Faithful := by
  refine ⟨by decide, ?_⟩
  have : ∀ i : Fin 32, indexOf? base32.symbols (base32.symbols.getD i.val '?') = some i.val := by
    decide +kernel
  exact fun i hi => this ⟨i, hi⟩

/-- Base 32 has no padding. -/
theorem base32_encode (bs : Bytes) : base32.encode bs = base32.symbolsOf bs := by
  have hpadding (n : Nat) : base32.padding n = 0 := by
    rw [BitAlphabet.padding]
    exact Nat.mod_one _
  rw [BitAlphabet.encode_eq, hpadding, List.replicate_zero, List.append_nil]

theorem base32_decode_encode (bs : Bytes) : base32.decode (base32.encode bs) = some bs := by
  rw [base32_encode]
  exact BitAlphabet.decodeUnpadded_symbolsOf base32_faithful bs

/-- Base 64 with its padding is read back. -/
theorem ofBase64?_toBase64 (bs : Bytes) : ofBase64? (toBase64 bs) = some bs := by
  have hlast : (base64.symbolsOf bs).reverse.head? ≠ some '=' := by
    intro h
    have hmem := List.mem_reverse.mp (List.mem_of_head? h)
    exact absurd (BitAlphabet.mem_symbols_of_mem_symbolsOf base64_faithful hmem) (by decide)
  -- stripping the padding from the end leaves the symbols
  have hstrip (n : Nat) : ((base64.symbolsOf bs ++ List.replicate n '=').reverse.dropWhile
      (· == '=')).reverse = base64.symbolsOf bs := by
    rw [List.reverse_append, List.reverse_replicate, List.dropWhile_append_of_pos (by simp)]
    cases hr : (base64.symbolsOf bs).reverse with
    | nil => simpa using hr.symm
    | cons c cs =>
      have hc : c ≠ '=' := by
        rintro rfl
        rw [hr] at hlast
        exact hlast rfl
      rw [List.dropWhile_cons_of_neg (by simpa using hc), ← hr, List.reverse_reverse]
  rw [ofBase64?, toBase64, String.toList_ofList, BitAlphabet.encode_eq]
  simp only [hstrip, List.length_append, List.length_replicate, if_true]
  exact BitAlphabet.decodeUnpadded_symbolsOf base64_faithful bs

/-! ## Digit alphabets -/

theorem digitsLE_eq_digits {base : Nat} (hb : 1 < base) (n : Nat) :
    digitsLE base n = Nat.digits base n := by
  induction n using Nat.strongRecOn with
  | ind n ih =>
    rw [digitsLE]
    by_cases h0 : n = 0
    · rw [dif_pos (Or.inl h0), h0, Nat.digits_zero]
    · rw [dif_neg (by omega), ih _ (Nat.div_lt_self (by omega) hb),
        ← Nat.digits_def' hb (by omega)]

/-- Digits, most significant first, write their number. -/
private theorem foldl_reverse_digits {base : Nat} (n : Nat) :
    (Nat.digits base n).reverse.foldl (fun n d => n * base + d) 0 = n := by
  conv_rhs => rw [← Nat.ofDigits_digits base n, Nat.ofDigits_eq_foldr]
  rw [List.foldl_reverse]
  congr 1
  funext d n
  rw [Nat.mul_comm, Nat.add_comm]
  rfl

/-- The bytes of a number without leading zeros. -/
private theorem magnitudeLE_toNatLE (bs : Bytes) :
    Bytes.magnitudeLE (Bytes.toNatLE bs) = (bs.reverse.dropWhile (· == 0)).reverse := by
  induction bs with
  | nil =>
    rw [Bytes.magnitudeLE, if_pos (by rfl)]
    rfl
  | cons b bs ih =>
    have hb : b.toNat < 256 := b.toNat_lt
    rw [List.reverse_cons, List.dropWhile_append]
    by_cases h0 : Bytes.toNatLE bs = 0
    · have hnil : bs.reverse.dropWhile (· == 0) = [] := by
        rw [h0, Bytes.magnitudeLE, if_pos rfl] at ih
        simpa using ih.symm
      rw [hnil, Bytes.toNatLE, h0, Bytes.magnitudeLE]
      by_cases hzero : b = 0
      · subst hzero
        rfl
      · have hne : b.toNat ≠ 0 := fun h => hzero (UInt8.toNat_inj.mp h)
        rw [if_neg (by omega), Bytes.magnitudeLE, if_pos (by omega)]
        simp [hzero]
    · have hne : (bs.reverse.dropWhile (· == 0)).isEmpty = false := by
        rw [Bytes.magnitudeLE, if_neg h0] at ih
        rw [Bool.eq_false_iff]
        intro hempty
        rw [List.isEmpty_iff.mp hempty] at ih
        simp at ih
      have hdiv : (b.toNat + 256 * Bytes.toNatLE bs) / 256 = Bytes.toNatLE bs := by omega
      have hmod : (b.toNat + 256 * Bytes.toNatLE bs).toUInt8 = b := by
        apply UInt8.toNat_inj.mp
        show (b.toNat + 256 * Bytes.toNatLE bs) % 256 = b.toNat
        omega
      rw [hne, Bytes.toNatLE, Bytes.magnitudeLE, if_neg (by omega), hdiv, hmod, ih]
      simp

/-- The symbols of digits stand for these digits. -/
private theorem mapM_indexOf?_getD {symbols : List Char}
    (hsymbols : ∀ i < symbols.length, indexOf? symbols (symbols.getD i '?') = some i)
    (ds : List Nat) (h : ∀ d ∈ ds, d < symbols.length) :
    (ds.map fun d => symbols.getD d '?').mapM (indexOf? symbols) = some ds := by
  induction ds with
  | nil => rfl
  | cons d ds ih =>
    rw [List.map_cons, List.mapM_cons, hsymbols d (h d (List.mem_cons_self ..)),
      ih fun d' h' => h d' (List.mem_cons_of_mem _ h')]
    rfl

/-- No zero leads the digits of a number. -/
private theorem takeWhile_reverse_digits (base n : Nat) :
    (Nat.digits base n).reverse.takeWhile (· == 0) = [] := by
  cases hr : (Nat.digits base n).reverse with
  | nil => rfl
  | cons d ds =>
    have hne : Nat.digits base n ≠ [] := by
      intro h
      rw [h] at hr
      cases hr
    have hlast := Nat.getLast_digit_ne_zero base (Nat.digits_ne_nil_iff_ne_zero.mp hne)
    have hd : d ≠ 0 := by
      rw [List.getLast_eq_head_reverse] at hlast
      simpa [hr] using hlast
    rw [List.takeWhile_cons_of_neg (by simpa using hd)]

private theorem foldl_replicate_zero (base k : Nat) :
    (List.replicate k 0).foldl (fun n d => n * base + d) 0 = 0 := by
  induction k with
  | zero => rfl
  | succ k ih => simpa [List.replicate_succ] using ih

/-- Reading the digits of a byte string gives the string: each leading zero byte is a leading zero
digit, and the rest is a number that begins with its first byte other than zero. -/
theorem decodeDigits_encodeDigits {symbols : List Char} (hlen : 1 < symbols.length)
    (hsymbols : ∀ i < symbols.length, indexOf? symbols (symbols.getD i '?') = some i)
    (bs : Bytes) : decodeDigits symbols (encodeDigits symbols bs) = some bs := by
  have hhead : symbols.headD '0' = symbols.getD 0 '?' := by
    cases symbols with
    | nil => simp at hlen
    | cons c cs => rfl
  have hread : (encodeDigits symbols bs).mapM (indexOf? symbols) =
      some (List.replicate (bs.takeWhile (· == 0)).length 0 ++
        (Nat.digits symbols.length (Bytes.toNatBE bs)).reverse) := by
    rw [← mapM_indexOf?_getD hsymbols _ (by
      intro d hd
      rcases List.mem_append.mp hd with hd | hd
      · rw [(List.mem_replicate.mp hd).2]
        omega
      · exact Nat.digits_lt_base hlen (List.mem_reverse.mp hd))]
    rw [encodeDigits, digitsLE_eq_digits hlen, hhead, List.map_append, List.map_replicate]
  have hzeros : ((List.replicate (bs.takeWhile (· == 0)).length 0 ++
      (Nat.digits symbols.length (Bytes.toNatBE bs)).reverse).takeWhile (· == 0)).length =
      (bs.takeWhile (· == 0)).length := by
    rw [List.takeWhile_append_of_pos (by simp), takeWhile_reverse_digits]
    simp
  have hvalue : (List.replicate (bs.takeWhile (· == 0)).length 0 ++
      (Nat.digits symbols.length (Bytes.toNatBE bs)).reverse).foldl
        (fun n d => n * symbols.length + d) 0 = Bytes.toNatBE bs := by
    rw [List.foldl_append, foldl_replicate_zero, foldl_reverse_digits]
  have hmagnitude : Bytes.magnitude (Bytes.toNatBE bs) = bs.dropWhile (· == 0) := by
    rw [Bytes.magnitude, Bytes.toNatBE, magnitudeLE_toNatLE]
    simp
  have hfront : List.replicate (bs.takeWhile (· == 0)).length 0 = bs.takeWhile (· == 0) := by
    refine (List.eq_replicate_of_mem fun b hb => ?_).symm
    simpa using List.all_eq_true.mp List.all_takeWhile b hb
  rw [decodeDigits, hread]
  simp only [Option.bind_eq_bind, Option.bind_some, hzeros, hvalue, hmagnitude, hfront,
    List.takeWhile_append_dropWhile]
  rfl

end ReplayVector.Text
