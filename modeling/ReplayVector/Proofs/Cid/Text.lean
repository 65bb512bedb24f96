import ReplayVector.Proofs.Cid.Bytes
import ReplayVector.Proofs.Text.BaseEncoding
import Mathlib.Tactic.NormNum

/-!
# Identifiers are read from text as they were written

The reader tells the two versions apart by the text alone: the base 58 form of a version 0
identifier always has 46 symbols and begins with `Qm`, and the text of a version 1 identifier
begins with the letter of its alphabet. Neither has a slash, so none is cut as a path.

* `Cid.ofString?_toString`: reading undoes writing.
-/

namespace ReplayVector.Cid

open Text

/-! ## Paths -/

/-- Without a slash there is no scheme to cut off. -/
private theorem afterScheme_of_not_mem (whole : List Char) {cs : List Char} (h : '/' ∉ cs) :
    afterScheme whole cs = whole := by
  induction cs with
  | nil => rfl
  | cons c cs ih =>
    have hc : c ≠ '/' := fun heq => h (heq ▸ List.mem_cons_self ..)
    have hprefix : ¬"/ipfs/".toList.isPrefixOf (c :: cs) = true := by
      simp [List.isPrefixOf, Ne.symm hc]
    rw [afterScheme, if_neg hprefix]
    exact ih fun hmem => h (List.mem_cons_of_mem _ hmem)

/-! ## Version 0 -/

/-- Digits from the least on, first some and then others. -/
private theorem toNatLE_append (front back : Bytes) :
    Bytes.toNatLE (front ++ back) = Bytes.toNatLE front + 256 ^ front.length * Bytes.toNatLE back := by
  induction front with
  | nil => simp [Bytes.toNatLE]
  | cons b bs ih =>
    rw [List.cons_append, Bytes.toNatLE, Bytes.toNatLE, ih, List.length_cons, Nat.pow_succ]
    ring

private theorem toNatBE_cons (b : UInt8) (bs : Bytes) :
    Bytes.toNatBE (b :: bs) = b.toNat * 256 ^ bs.length + Bytes.toNatBE bs := by
  rw [Bytes.toNatBE, Bytes.toNatBE, List.reverse_cons, toNatLE_append, List.length_reverse]
  simp only [Bytes.toNatLE]
  ring

/-- Each symbol is found at its own place. -/
theorem base58_symbols : ∀ i < base58Symbols.length,
    indexOf? base58Symbols (base58Symbols.getD i '?') = some i := by
  have : ∀ i : Fin 58, indexOf? base58Symbols (base58Symbols.getD i.val '?') = some i.val := by
    decide +kernel
  exact fun i hi => this ⟨i, hi⟩

private theorem length_base58Symbols : base58Symbols.length = 58 := by decide

/-- The first two bytes of a version 0 identifier are fixed, so the number that it writes lies between
two multiples of `58 ^ 44`. -/
private theorem bounds_v0 (digest : Bytes.Sized 32) :
    1378 * 58 ^ 44 ≤ Bytes.toNatBE (v0 digest).toBytes ∧
      Bytes.toNatBE (v0 digest).toBytes < 1379 * 58 ^ 44 := by
  have hdigest := Bytes.toNatBE_lt digest.val
  rw [digest.property] at hdigest
  have hvalue : Bytes.toNatBE (v0 digest).toBytes = 0x1220 * 256 ^ 32 + Bytes.toNatBE digest.val := by
    rw [toBytes, toNatBE_cons, toNatBE_cons, List.length_cons, digest.property]
    have h12 : (0x12 : UInt8).toNat = 0x12 := rfl
    have h20 : (0x20 : UInt8).toNat = 0x20 := rfl
    rw [h12, h20]
    norm_num
    omega
  rw [hvalue]
  exact ⟨Nat.le_trans (by norm_num) (Nat.le_add_right _ _),
    Nat.lt_of_lt_of_le (Nat.add_lt_add_left hdigest _) (by norm_num)⟩

/-- The two digits at the top of a number are its quotients by the powers of the base. -/
private theorem digits_top {base n k q m : Nat} (hbase : 2 ≤ base)
    (hlength : (Nat.digits base n).length = k + 2) (hq : n / base ^ (k + 1) % base = q)
    (hm : n / base ^ k % base = m) :
    ∃ ds, (Nat.digits base n).reverse = q :: m :: ds ∧ ds.length = k := by
  rw [← Nat.getD_digits n _ hbase] at hq hm
  rcases hr : (Nat.digits base n).reverse with _ | ⟨q', _ | ⟨m', ds⟩⟩
  · have := congrArg List.length hr
    simp [hlength] at this
  · have := congrArg List.length hr
    simp [hlength] at this
  · have hds : ds.length = k := by
      have := congrArg List.length hr
      simpa [hlength] using this.symm
    have hback : Nat.digits base n = ds.reverse ++ [m', q'] := by
      have := congrArg List.reverse hr
      simpa using this
    have hfront : ds.reverse.length = k := by rw [List.length_reverse, hds]
    rw [hback, List.getD_eq_getElem?_getD, List.getElem?_append_right (by omega), hfront] at hq hm
    obtain rfl : q' = q := by simpa using hq
    obtain rfl : m' = m := by simpa using hm
    exact ⟨ds, rfl, hds⟩

/-- The number that a version 0 identifier writes has 46 digits in base 58, of which the first two
stand for `Q` and `m`. -/
private theorem digits_v0 (digest : Bytes.Sized 32) :
    ∃ ds, (Nat.digits 58 (Bytes.toNatBE (v0 digest).toBytes)).reverse = 23 :: 44 :: ds ∧
      ds.length = 44 := by
  obtain ⟨hlow, hhigh⟩ := bounds_v0 digest
  generalize Bytes.toNatBE (v0 digest).toBytes = n at hlow hhigh
  have hdiv44 : n / 58 ^ 44 = 1378 :=
    Nat.div_eq_of_lt_le hlow (by simpa using hhigh)
  have hdiv45 : n / 58 ^ 45 = 23 := by
    rw [Nat.pow_succ, ← Nat.div_div_eq_div_mul, hdiv44]
  have hlog : Nat.log 58 n = 45 := by
    rw [Nat.log_eq_iff (Or.inl (by omega))]
    constructor
    · exact Nat.le_trans (by norm_num) hlow
    · exact Nat.lt_of_lt_of_le hhigh (by norm_num)
  have hpos : n ≠ 0 := by
    rintro rfl
    simp at hdiv44
  refine digits_top (by omega) ?_ (by rw [hdiv45]) (by rw [hdiv44])
  rw [Nat.length_digits 58 n (by omega) hpos, hlog]

/-- The text of a version 0 identifier has 46 symbols and begins with `Qm`. -/
private theorem encodeDigits_v0 (digest : Bytes.Sized 32) :
    ∃ cs, encodeDigits base58Symbols (v0 digest).toBytes = 'Q' :: 'm' :: cs ∧ cs.length = 44 := by
  obtain ⟨ds, hds, hlen⟩ := digits_v0 digest
  refine ⟨ds.map fun d => base58Symbols.getD d '?', ?_, by simpa using hlen⟩
  rw [encodeDigits, digitsLE_eq_digits (by rw [length_base58Symbols]; omega),
    length_base58Symbols, hds]
  rfl

/-- The symbols of base 58 are ASCII, and none is a slash. -/
private theorem base58_ascii : ∀ c ∈ base58Symbols, c.utf8Size = 1 ∧ c ≠ '/' := by
  have h : base58Symbols.all (fun c => c.utf8Size == 1 && c != '/') = true := by decide
  intro c hc
  simpa using List.all_eq_true.mp h c hc

/-- A number is written with these symbols only. -/
private theorem mem_base58Symbols {bs : Bytes} {c : Char} (h : c ∈ encodeDigits base58Symbols bs) :
    c ∈ base58Symbols := by
  have hget (d : Nat) (hd : d < 58) : base58Symbols.getD d '?' ∈ base58Symbols := by
    have hlen := length_base58Symbols
    rw [List.getD_eq_getElem?_getD, List.getElem?_eq_getElem (by omega), Option.getD_some]
    exact List.getElem_mem _
  rw [encodeDigits, digitsLE_eq_digits (by rw [length_base58Symbols]; omega),
    length_base58Symbols] at h
  rcases List.mem_append.mp h with h | h
  · rw [(List.mem_replicate.mp h).2]
    exact hget 0 (by omega)
  · obtain ⟨d, hd, rfl⟩ := List.mem_map.mp h
    exact hget d (Nat.digits_lt_base (by omega) (List.mem_reverse.mp hd))

/-- An identifier of the first version is read back from its text. -/
private theorem ofString?_v0 (digest : Bytes.Sized 32) :
    ofString? (v0 digest).toString = some (v0 digest) := by
  obtain ⟨cs, hcs, hlen⟩ := encodeDigits_v0 digest
  have hread : decodeDigits base58Symbols ('Q' :: 'm' :: cs) = some (v0 digest).toBytes := by
    rw [← hcs]
    exact decodeDigits_encodeDigits (by decide) base58_symbols _
  have hascii : ∀ c ∈ 'Q' :: 'm' :: cs, c.utf8Size = 1 ∧ c ≠ '/' := by
    rw [← hcs]
    exact fun c hc => base58_ascii c (mem_base58Symbols hc)
  have hsize : (String.ofList ('Q' :: 'm' :: cs)).utf8ByteSize = 46 := by
    rw [Bytes.utf8ByteSize_ofList fun c hc => (hascii c hc).1, List.length_cons, List.length_cons, hlen]
  have hpath := afterScheme_of_not_mem ('Q' :: 'm' :: cs) fun h => (hascii _ h).2 rfl
  rw [ofString?, toString, hcs, String.toList_ofList, hpath, hsize]
  simp [List.isPrefixOf, hread, ofBytes?_toBytes]

/-! ## Version 1 -/

/-- None of the symbols is a slash. -/
private theorem base32_ascii : ∀ c ∈ base32.symbols, c ≠ '/' := by
  have h : base32.symbols.all (· != '/') = true := by decide
  intro c hc
  simpa using List.all_eq_true.mp h c hc

/-- One of the second version is read back, too. -/
private theorem ofString?_v1 (codec : UInt64) (hash : Multihash) :
    ofString? (v1 codec hash).toString = some (v1 codec hash) := by
  have hencode := base32_encode (v1 codec hash).toBytes
  have hread := BitAlphabet.decodeUnpadded_symbolsOf base32_faithful (v1 codec hash).toBytes
  obtain ⟨symbols, hsymbols⟩ : ∃ cs, base32.symbolsOf (v1 codec hash).toBytes = cs := ⟨_, rfl⟩
  rw [hsymbols] at hread hencode
  have hslash : '/' ∉ 'b' :: symbols := by
    intro h
    rcases List.mem_cons.mp h with h | h
    · exact absurd h (by decide)
    · rw [← hsymbols] at h
      exact base32_ascii _ (BitAlphabet.mem_symbols_of_mem_symbolsOf base32_faithful h) rfl
  -- the byte form is not empty, so there is a symbol after the letter of the alphabet
  have hsize : ¬(String.ofList ('b' :: symbols)).utf8ByteSize < 2 := by
    cases symbols with
    | nil =>
      have : base32.decodeUnpadded [] = some [] := by decide
      rw [this] at hread
      simp [toBytes] at hread
    | cons c cs =>
      have hc := c.utf8Size_pos
      rw [String.ofList_cons, String.utf8ByteSize_append, String.ofList_cons,
        String.utf8ByteSize_append, String.utf8ByteSize_singleton, String.utf8ByteSize_singleton]
      have hb : 'b'.utf8Size = 1 := by decide
      omega
  have hdecode : Multibase.decode (String.ofList ('b' :: symbols)) =
      some (v1 codec hash).toBytes := by
    rw [← hread, Multibase.decode, String.toList_ofList]
    rfl
  have hpath := afterScheme_of_not_mem ('b' :: symbols) hslash
  rw [ofString?, toString, Multibase.encode, hencode, String.toList_ofList, hpath]
  · have hprefix : "Qm".toList.isPrefixOf ('b' :: symbols) = false := rfl
    simp only [hsize, if_false, hprefix, Bool.false_eq_true, and_false, hdecode,
      Option.bind_eq_bind, Option.bind_some, ofBytes?_toBytes, Option.map_some]
  · rintro _ h
    cases h

/-- Reading the text of an identifier gives the identifier. -/
theorem ofString?_toString (c : Cid) : ofString? c.toString = some c := by
  cases c with
  | v0 digest => exact ofString?_v0 digest
  | v1 codec hash => exact ofString?_v1 codec hash

end ReplayVector.Cid
