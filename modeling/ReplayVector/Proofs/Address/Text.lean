import ReplayVector.Address
import ReplayVector.Proofs.Bytes.Text
import ReplayVector.Proofs.Hash.Blake2
import ReplayVector.Proofs.Json.Numbers
import ReplayVector.Proofs.Text.BaseEncoding

/-!
# Addresses are read from text as they were written

The checksum that ends the text of an address has four bytes, so it is cut off where it was put,
and it is computed from the bytes of the same address again. The longest text, of an address that
another actor manages, has 116 characters and stays below the limit of the reader.

* `decimal?_decimal`, `readShortId_decimal`: numbers inside of texts.
* `readChecked_encode`: base 32 text with a checksum.
* `ofString_eq`: trying one network after the other comes to reading the text once.
* `ofString_toString`: reading undoes writing.
* `networks_agree`: the letter that names the network has no part in what is read.
-/

namespace ReplayVector

open Json (decimal decimal_ne_nil isDigit_of_mem_decimal all_isDigit_decimal foldl_decimal)

-- ---------------------------------------------------------------------------
-- Numbers inside of texts
-- ---------------------------------------------------------------------------

namespace Text

/-- A number below the limit is read from its decimal form. -/
theorem decimal?_decimal {limit n : Nat} (h : n < limit) : decimal? limit (decimal n) = some n := by
  have hvalue : digitsValue (decimal n) = n := foldl_decimal n
  have hall := all_isDigit_decimal n
  cases hd : decimal n with
  | nil => exact absurd hd (decimal_ne_nil n)
  | cons d ds =>
    have hplus : d ≠ '+' := by
      rintro rfl
      have hdigit := isDigit_of_mem_decimal (n := n) (by rw [hd]; exact List.mem_cons_self ..)
      exact absurd hdigit (by decide)
    rw [hd] at hvalue hall
    have hall : d.isDigit = true ∧ ds.all Char.isDigit = true := by simpa using hall
    simpa [decimal?, hplus, hvalue, h] using hall

end Text

namespace Address

/-- Digits take one byte each. -/
private theorem utf8Size_of_isDigit {c : Char} (h : c.isDigit = true) : c.utf8Size = 1 := by
  simp only [Char.isDigit, Bool.and_eq_true, decide_eq_true_eq] at h
  have hle : c.val ≤ 0x7f := UInt32.le_trans h.2 (by decide)
  simp [Char.utf8Size, hle]

/-- A number of 64 bits has at most twenty digits. -/
private theorem length_decimal_le (i : UInt64) : (decimal i.toNat).length ≤ 20 := by
  refine Nat.toDigits_length 10 i.toNat 20 (by omega) ?_
  have := i.toNat_lt
  omega

theorem readShortId_decimal (i : ActorId) : readShortId (decimal i.toNat) = .ok i := by
  have hsize := Bytes.utf8ByteSize_ofList fun c hc =>
    utf8Size_of_isDigit (isDigit_of_mem_decimal (n := i.toNat) (c := c) hc)
  have hlength := length_decimal_le i
  have hread : Text.decimal? (2 ^ 64) (decimal i.toNat) = some i.toNat :=
    Text.decimal?_decimal i.toNat_lt
  rw [readShortId, if_neg (by omega), readId, hread]
  show Except.ok i.toNat.toUInt64 = Except.ok i
  congr 1
  simp

-- ---------------------------------------------------------------------------
-- Text with a checksum
-- ---------------------------------------------------------------------------

theorem length_checksum (bs : Bytes) : (checksum bs).length = 4 :=
  Hash.length_blake2b (by omega) bs

/-- Data is read back from the base 32 text of the data and its checksum. -/
theorem readChecked_encode (head data : Bytes) :
    readChecked head (Text.base32.encode (data ++ checksum (head ++ data))) = .ok data := by
  have hlength := length_checksum (head ++ data)
  have hcut : (data ++ checksum (head ++ data)).length - 4 = data.length := by
    rw [List.length_append, hlength]
    omega
  unfold readChecked
  rw [Text.base32_decode_encode]
  -- what stands before the last four bytes is the data, and they are its checksum
  simp only [hcut, List.take_left, List.drop_left, if_true]
  rw [if_neg (by rw [List.length_append, hlength]; omega)]

-- ---------------------------------------------------------------------------
-- The size of the text
-- ---------------------------------------------------------------------------

/-- A text of one byte for each of its characters, with bounds for their number. -/
private structure Plain (low high : Nat) (cs : List Char) : Prop where
  bytes : ∀ c ∈ cs, c.utf8Size = 1
  lower : low ≤ cs.length
  upper : cs.length ≤ high

private theorem Plain.cons {low high : Nat} {c : Char} {cs : List Char} (hc : c.utf8Size = 1)
    (h : Plain low high cs) : Plain (low + 1) (high + 1) (c :: cs) where
  bytes := List.forall_mem_cons.mpr ⟨hc, h.bytes⟩
  lower := Nat.succ_le_succ h.lower
  upper := Nat.succ_le_succ h.upper

private theorem Plain.append {low low' high high' : Nat} {cs cs' : List Char}
    (h : Plain low high cs) (h' : Plain low' high' cs') :
    Plain (low + low') (high + high') (cs ++ cs') where
  bytes := List.forall_mem_append.mpr ⟨h.bytes, h'.bytes⟩
  lower := by
    rw [List.length_append]
    exact Nat.add_le_add h.lower h'.lower
  upper := by
    rw [List.length_append]
    exact Nat.add_le_add h.upper h'.upper

private theorem Plain.mono {low high high' : Nat} {cs : List Char} (h : Plain low high cs)
    (hle : high ≤ high') : Plain low high' cs :=
  ⟨h.bytes, h.lower, Nat.le_trans h.upper hle⟩

private theorem plain_decimal (i : UInt64) : Plain 1 20 (decimal i.toNat) where
  bytes := fun _ hc => utf8Size_of_isDigit (isDigit_of_mem_decimal hc)
  lower := List.length_pos_iff.mpr (decimal_ne_nil i.toNat)
  upper := length_decimal_le i

/-- At most 54 bytes and a checksum have at most 93 symbols. -/
private theorem plain_checked (a : Address) {bs : Bytes} (h : bs.length ≤ 54) :
    Plain 1 93 (a.checked bs) := by
  have hascii : ∀ c ∈ Text.base32.symbols, c.utf8Size = 1 := by
    have hall : Text.base32.symbols.all (fun c => c.utf8Size == 1) = true := by decide
    intro c hc
    simpa using List.all_eq_true.mp hall c hc
  have hlength := Text.BitAlphabet.length_symbolsOf Text.base32_faithful (bs ++ checksum a.toBytes)
  have hbits : Text.base32.bits = 5 := rfl
  rw [List.length_append, length_checksum, hbits] at hlength
  rw [checked, Text.base32_encode]
  refine ⟨?_, by omega, by omega⟩
  intro c hc
  exact hascii c (Text.BitAlphabet.mem_symbols_of_mem_symbolsOf Text.base32_faithful hc)

/-- The text of an address that is neither an ID nor delegated: its kind and its payload. -/
private theorem body_of_hashed {a : Address} {d : Char} (hd : (Nat.repr a.protocol).toList = [d])
    (hid : ∀ i, a ≠ id i) (hdelegated : ∀ n s, a ≠ delegated n s) :
    a.body = d :: a.checked a.payload := by
  unfold body
  split
  · exact absurd rfl (hid _)
  · exact absurd rfl (hdelegated _ _)
  · rw [hd]
    rfl

private theorem body_secp256k1 (hash : Bytes.Sized 20) :
    (secp256k1 hash).body = '1' :: (secp256k1 hash).checked hash.val :=
  body_of_hashed (show (Nat.repr 1).toList = ['1'] by decide) nofun nofun

private theorem body_actor (hash : Bytes.Sized 20) :
    (actor hash).body = '2' :: (actor hash).checked hash.val :=
  body_of_hashed (show (Nat.repr 2).toList = ['2'] by decide) nofun nofun

private theorem body_bls (key : Bytes.Sized 48) :
    (bls key).body = '3' :: (bls key).checked key.val :=
  body_of_hashed (show (Nat.repr 3).toList = ['3'] by decide) nofun nofun

/-- A digit in front of a hash or key. -/
private theorem plain_hashed (a : Address) {d : Char} (hd : d.isDigit = true) {bs : Bytes}
    (h : bs.length ≤ 54) : Plain 2 115 (d :: a.checked bs) := by
  have hbody := (plain_checked a h).cons (utf8Size_of_isDigit hd)
  exact hbody.mono (by omega)

/-- The text after the network letter. -/
private theorem plain_body (a : Address) : Plain 2 115 a.body := by
  cases a with
  | id i =>
    rw [body, Nat.toList_repr]
    exact ((plain_decimal i).cons (utf8Size_of_isDigit (by decide))).mono (by omega)
  | secp256k1 hash =>
    rw [body_secp256k1]
    exact plain_hashed _ (by decide) (by rw [hash.property]; omega)
  | actor hash =>
    rw [body_actor]
    exact plain_hashed _ (by decide) (by rw [hash.property]; omega)
  | bls key =>
    rw [body_bls]
    exact plain_hashed _ (by decide) (by rw [key.property]; omega)
  | delegated n sub =>
    have hsub := (plain_checked (delegated n sub) sub.property).cons (c := 'f') (by decide)
    have h := ((plain_decimal n).append hsub).cons (utf8Size_of_isDigit (c := '4') (by decide))
    rw [body, Nat.toList_repr]
    exact ⟨h.bytes, Nat.le_trans (by omega) h.lower, h.upper⟩

-- ---------------------------------------------------------------------------
-- The whole text
-- ---------------------------------------------------------------------------

/-- The payload of a hash or key is read from its base 32 text. -/
private theorem readSized_checked {n : Nat} (make : Bytes.Sized n → Address) {protocol : UInt8}
    {payload : Bytes.Sized n} (h : (make payload).toBytes = protocol :: payload.val) :
    readSized n make protocol ((make payload).checked payload.val) = .ok (make payload) := by
  have hread := readChecked_encode [protocol] payload.val
  rw [readSized, checked, h]
  show (readChecked [protocol] (Text.base32.encode
    (payload.val ++ checksum ([protocol] ++ payload.val))) >>= _) = _
  rw [hread]
  simp only [bind, Except.bind, Bytes.sized?_val]

/-- A namespace ends at the letter after its digits. -/
private theorem readDelegated_body (n : ActorId) (sub : Bytes.UpTo 54) :
    readDelegated (decimal n.toNat ++ 'f' :: (delegated n sub).checked sub.val) =
      .ok (delegated n sub) := by
  have hdigits : ∀ c ∈ decimal n.toNat, (c != 'f') = true := by
    intro c hc
    have hdigit := isDigit_of_mem_decimal hc
    rw [bne_iff_ne]
    rintro rfl
    exact absurd hdigit (by decide)
  have hdrop : (decimal n.toNat ++ 'f' :: (delegated n sub).checked sub.val).dropWhile (· != 'f') =
      'f' :: (delegated n sub).checked sub.val := by
    rw [List.dropWhile_append_of_pos hdigits, List.dropWhile_cons_of_neg (by decide)]
  have htake : (decimal n.toNat ++ 'f' :: (delegated n sub).checked sub.val).takeWhile (· != 'f') =
      decimal n.toNat := by
    rw [List.takeWhile_append_of_pos hdigits, List.takeWhile_cons_of_neg (by decide),
      List.append_nil]
  have hread : readChecked (4 :: Varint.encode n.toNat) ((delegated n sub).checked sub.val) =
      .ok sub.val := readChecked_encode (4 :: Varint.encode n.toNat) sub.val
  unfold readDelegated
  rw [hdrop, htake]
  simp only [readShortId_decimal, hread, bind, Except.bind, Bytes.upTo?_val]

private theorem readBody_body (a : Address) : readBody a.body = .ok a := by
  cases a with
  | id i =>
    rw [body, Nat.toList_repr]
    show (readShortId (decimal i.toNat)).map id = _
    rw [readShortId_decimal]
    rfl
  | secp256k1 hash =>
    rw [body_secp256k1]
    exact readSized_checked secp256k1 rfl
  | actor hash =>
    rw [body_actor]
    exact readSized_checked actor rfl
  | bls key =>
    rw [body_bls]
    exact readSized_checked bls rfl
  | delegated n sub =>
    rw [body, Nat.toList_repr]
    exact readDelegated_body n sub

/-- Both networks are tried, so the address is what stands in the text, and what is wrong with the
text is the same for both. -/
theorem ofString_eq (s : String) : ofString s = (readText s).map (·.2) := by
  unfold ofString readIn
  cases readText s with
  | error defect => rfl
  | ok found =>
    obtain ⟨network, a⟩ := found
    cases network <;> rfl

/-- The body of an address is read behind the letter of either network. -/
theorem readText_body {letter : Char} {network : Network}
    (hletter : Network.ofLetter? letter = some network) (hsize : letter.utf8Size = 1) (a : Address) :
    readText (String.ofList (letter :: a.body)) = .ok (network, a) := by
  have hplain := (plain_body a).cons hsize
  have hbytes := Bytes.utf8ByteSize_ofList hplain.bytes
  have hlower := hplain.lower
  have hupper := hplain.upper
  rw [readText, if_neg (by omega), String.toList_ofList]
  simp only [hletter, readBody_body]
  rfl

/-- Reading the text of an address gives the address. -/
theorem ofString_toString (a : Address) : ofString a.toString = .ok a := by
  have hread : readText a.toString = .ok (.main, a) := readText_body rfl (by decide) a
  rw [ofString_eq, hread]
  rfl

-- ---------------------------------------------------------------------------
-- Addresses of either network
-- ---------------------------------------------------------------------------

/-- The letters of the networks take the same space. -/
private theorem size_letter (p : String) : ("f" ++ p).utf8ByteSize = ("t" ++ p).utf8ByteSize := by
  rw [String.utf8ByteSize_append, String.utf8ByteSize_append]
  rfl

/-- What stands behind the letter decides. -/
theorem readText_letter (p : String) :
    (readText ("f" ++ p)).map (·.2) = (readText ("t" ++ p)).map (·.2) := by
  have hf : ("f" ++ p).toList = 'f' :: p.toList := by rw [String.toList_append]; rfl
  have ht : ("t" ++ p).toList = 't' :: p.toList := by rw [String.toList_append]; rfl
  rw [readText, readText, size_letter, hf, ht]
  split
  · rfl
  · show ((readBody p.toList).map _).map _ = ((readBody p.toList).map _).map _
    cases readBody p.toList <;> rfl

/-- The text of an address begins with the main network's letter and is read as the address with
that letter and with the test network's. Any text behind the two letters is the same address, or
it is none, with the same defect. -/
theorem networks_agree :
    (∀ a : Address, ∃ p, a.toString = "f" ++ p ∧
      ofString ("f" ++ p) = .ok a ∧ ofString ("t" ++ p) = .ok a) ∧
    ∀ p, (∃ a, ofString ("f" ++ p) = .ok a ∧ ofString ("t" ++ p) = .ok a) ∨
      ∃ defect, ofString ("f" ++ p) = .error defect ∧ ofString ("t" ++ p) = .error defect := by
  have heq (p : String) : ofString ("t" ++ p) = ofString ("f" ++ p) := by
    rw [ofString_eq, ofString_eq, readText_letter]
  constructor
  · intro a
    have htext : a.toString = "f" ++ String.ofList a.body := by
      rw [toString, ← String.toList_inj]
      simp only [String.toList_append, String.toList_ofList]
      rfl
    have hread : ofString ("f" ++ String.ofList a.body) = .ok a := htext ▸ ofString_toString a
    exact ⟨String.ofList a.body, htext, hread, (heq _).trans hread⟩
  · intro p
    rw [heq]
    cases ofString ("f" ++ p) with
    | ok a => exact .inl ⟨a, rfl, rfl⟩
    | error defect => exact .inr ⟨defect, rfl, rfl⟩

end Address

end ReplayVector
