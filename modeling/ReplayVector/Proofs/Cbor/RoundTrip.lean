import ReplayVector.Cbor.Decode
import ReplayVector.Proofs.Cid.Bytes

/-!
# Structured data is read as it was written

Some values of the type have no encoding: a whole number may be out of range, a length may exceed
what a head can say, the entries of a map may stand in another order than the reader's, and the
nesting may be too deep. `Cbor.Fits` singles out the values without these faults, and those are
read back from their encodings, whatever follows.

* `readValue?_encode_append`: reading undoes writing.
* `decode?_encode`: the same for a whole block.
-/

namespace ReplayVector.Cbor

/-- The value is one that the reader can give, nested in at most the given number of levels. -/
def Fits : Nat → Cbor → Prop
  | 0, _ => False
  | _ + 1, .int n => -2 ^ 64 ≤ n ∧ n < 2 ^ 64
  | _ + 1, .bytes bs => bs.length < 2 ^ 64
  | _ + 1, .text s => s.utf8ByteSize < 2 ^ 64
  | depth + 1, .list items => items.length < 2 ^ 64 ∧ ∀ v ∈ items, Fits depth v
  | depth + 1, .map entries => entries.length < 2 ^ 64 ∧
      entries.Pairwise (fun e e' => e.1 < e'.1) ∧
      ∀ e ∈ entries, e.1.utf8ByteSize < 2 ^ 64 ∧ Fits depth e.2
  | _ + 1, _ => True

/-- A value that fits still fits where more levels are left. -/
theorem Fits.mono {depth depth' : Nat} (hle : depth ≤ depth') {v : Cbor} (h : v.Fits depth) :
    v.Fits depth' := by
  induction depth generalizing depth' v with
  | zero => exact absurd h (by simp [Fits])
  | succ depth ih =>
    obtain ⟨depth', rfl⟩ : ∃ k, depth' = k + 1 := ⟨depth' - 1, by omega⟩
    have hle' : depth ≤ depth' := by omega
    cases v with
    | list items => exact ⟨h.1, fun v hv => ih hle' (h.2 v hv)⟩
    | map entries => exact ⟨h.1, h.2.1, fun e he => ⟨(h.2.2 e he).1, ih hle' (h.2.2 e he).2⟩⟩
    | _ => exact h

/-! ## Heads -/

private theorem toNat_lead {kind : UInt8} (low : UInt8) (hk : kind.toNat < 8) (hl : low.toNat < 32) :
    (kind * 32 + low).toNat = kind.toNat * 32 + low.toNat := by
  rw [UInt8.toNat_add, UInt8.toNat_mul]
  rw [show (32 : UInt8).toNat = 32 from rfl]
  omega

/-- A head is read back; the low bits of its first byte do not matter but for the last kind. -/
theorem readHead?_head_append (kind : UInt8) {n : Nat} (hk : kind.toNat < 8) (hn : n < 2 ^ 64)
    (rest : Bytes) : ∃ low, readHead? (head kind n ++ rest) = some ⟨kind.toNat, low, n, rest⟩ := by
  have hlong (width : Nat) (hw : n < 256 ^ width) :
      Bytes.take? width (Bytes.ofNatBE width n ++ rest) = some (Bytes.ofNatBE width n, rest) ∧
        Bytes.toNatBE (Bytes.ofNatBE width n) = n :=
    ⟨Bytes.take?_of_length (Bytes.length_ofNatBE width n) rest, Bytes.toNatBE_ofNatBE hw⟩
  rw [head]
  split
  · next h24 =>
    have hn8 : n.toUInt8.toNat = n := by
      have : n.toUInt8.toNat = n % 256 := rfl
      omega
    have hlead := toNat_lead n.toUInt8 hk (by omega)
    have hdiv : (kind.toNat * 32 + n) / 32 = kind.toNat := by omega
    have hmod : (kind.toNat * 32 + n) % 32 = n := by omega
    refine ⟨n, ?_⟩
    simp only [List.cons_append, List.nil_append, readHead?, hlead, hn8, hdiv, hmod, h24, if_true]
  split
  · next h8 =>
    obtain ⟨htake, hval⟩ := hlong 1 (by omega)
    refine ⟨24, ?_⟩
    simp [readHead?, htake, hval]
    omega
  split
  · next h16 =>
    obtain ⟨htake, hval⟩ := hlong 2 (by omega)
    refine ⟨25, ?_⟩
    simp [readHead?, htake, hval]
    omega
  split
  · next h32 =>
    obtain ⟨htake, hval⟩ := hlong 4 (by omega)
    refine ⟨26, ?_⟩
    simp [readHead?, htake, hval]
    omega
  · obtain ⟨htake, hval⟩ := hlong 8 (by omega)
    refine ⟨27, ?_⟩
    simp [readHead?, htake, hval]
    omega

/-- A head takes at most nine bytes. -/
theorem length_head_le (kind : UInt8) (n : Nat) : (head kind n).length ≤ 9 := by
  rw [head]
  repeat' split
  all_goals simp [Bytes.length_ofNatBE]

/-! ## Strings, keys and links -/

theorem readBytes?_append (kind low : Nat) (bs rest : Bytes) :
    readBytes? ⟨kind, low, bs.length, bs ++ rest⟩ = some (bs, rest) :=
  Bytes.take?_append bs rest

theorem readText?_append (kind low : Nat) (s : String) (rest : Bytes) :
    readText? ⟨kind, low, s.utf8ByteSize, Bytes.ofString s ++ rest⟩ = some (s, rest) := by
  rw [readText?, ← Bytes.length_ofString, readBytes?_append]
  simp [Bytes.toString?_ofString]

theorem readKey?_encodeText_append {s : String} (h : s.utf8ByteSize < 2 ^ 64) (rest : Bytes) :
    readKey? (encodeText s ++ rest) = some (s, rest) := by
  obtain ⟨low, hhead⟩ :=
    readHead?_head_append 3 (by decide) h (Bytes.ofString s ++ rest)
  rw [readKey?, encodeText, List.append_assoc, hhead]
  simp [readText?_append]

theorem readLink?_encodeBytes_append (c : Cid) (rest : Bytes) :
    readLink? (encodeBytes (0 :: c.toBytes) ++ rest) = some (c, rest) := by
  have hlen : (0 :: c.toBytes).length < 2 ^ 64 := by
    have := c.length_toBytes_le
    simp only [List.length_cons]
    omega
  obtain ⟨low, hhead⟩ :=
    readHead?_head_append 2 (by decide) hlen ((0 :: c.toBytes) ++ rest)
  rw [readLink?, encodeBytes, List.append_assoc, hhead]
  simp only [UInt8.reduceToNat, Option.bind_eq_bind, Option.bind_some, ne_eq, not_true_eq_false,
    if_false, readBytes?_append, Cid.ofBytes?_toBytes, Option.map_some]

/-! ## Items and entries -/

/-- Items that are read one by one are read as a whole. -/
theorem readItems?_encodeItems_append {value : Bytes → Option (Cbor × Bytes)} {items : List Cbor}
    (h : ∀ v ∈ items, ∀ rest, value (encode v ++ rest) = some (v, rest)) (rest : Bytes) :
    readItems? value items.length (encodeItems items ++ rest) = some (items, rest) := by
  induction items with
  | nil => rw [encodeItems]; rfl
  | cons v vs ih =>
    have hv := h v (List.mem_cons_self ..)
    have hvs := ih fun v' hv' => h v' (List.mem_cons_of_mem _ hv')
    rw [List.length_cons, readItems?, encodeItems, List.append_assoc, hv]
    simp [hvs]

/-- Entries that are read one by one are read as a whole. -/
theorem readEntries?_encodeEntries_append {value : Bytes → Option (Cbor × Bytes)}
    {entries : List (String × Cbor)}
    (h : ∀ e ∈ entries, e.1.utf8ByteSize < 2 ^ 64 ∧
      ∀ rest, value (encode e.2 ++ rest) = some (e.2, rest)) (rest : Bytes) :
    readEntries? value entries.length (encodeEntries entries ++ rest) = some (entries, rest) := by
  induction entries with
  | nil => rw [encodeEntries]; rfl
  | cons e es ih =>
    obtain ⟨k, v⟩ := e
    obtain ⟨hk, hv⟩ := h (k, v) (List.mem_cons_self ..)
    have hes := ih fun e' he' => h e' (List.mem_cons_of_mem _ he')
    rw [List.length_cons, readEntries?, encodeEntries, List.append_assoc, List.append_assoc,
      readKey?_encodeText_append hk]
    simp [hv, hes]

/-- Entries in order stay as they are. -/
theorem sortEntries?_eq_self {entries : List (String × Cbor)}
    (h : entries.Pairwise fun e e' => e.1 < e'.1) : sortEntries? entries = some entries := by
  induction entries with
  | nil => rfl
  | cons e es ih =>
    obtain ⟨k, v⟩ := e
    obtain ⟨hk, hes⟩ := List.pairwise_cons.mp h
    rw [sortEntries?, ih hes]
    cases es with
    | nil => rfl
    | cons e' es =>
      have hlt : k < e'.1 := hk e' (List.mem_cons_self ..)
      have hne : k ≠ e'.1 := by
        intro heq
        rw [heq] at hlt
        exact String.lt_irrefl _ hlt
      show insertKeyed? k v ((e'.1, e'.2) :: es) = _
      rw [insertKeyed?, if_neg hne, if_pos hlt]

/-! ## Values -/

/-- Reading undoes writing, whatever follows. -/
theorem readValue?_encode_append {depth : Nat} {v : Cbor} (h : v.Fits depth) (rest : Bytes) :
    readValue? depth (encode v ++ rest) = some (v, rest) := by
  -- by induction on the depth: what is nested has one level less
  induction depth generalizing v rest with
  | zero => exact absurd h (by simp [Fits])
  | succ depth ih =>
    cases v with
    | null => rw [encode]; rfl
    | bool b => cases b <;> rw [encode] <;> rfl
    | int n =>
      have hn : -2 ^ 64 ≤ n ∧ n < 2 ^ 64 := h
      rw [encode]
      split
      · next h0 =>
        obtain ⟨low, hhead⟩ :=
          readHead?_head_append 0 (n := n.toNat) (by decide) (by omega) rest
        rw [readValue?, hhead]
        simp [Int.toNat_of_nonneg h0]
      · next h0 =>
        obtain ⟨low, hhead⟩ :=
          readHead?_head_append 1 (n := (-1 - n).toNat) (by decide) (by omega) rest
        rw [readValue?, hhead]
        simp
        omega
    | float bits =>
      have hlen : Bytes.take? 8 (Bytes.ofNatBE 8 bits.toNat ++ rest) =
          some (Bytes.ofNatBE 8 bits.toNat, rest) :=
        Bytes.take?_of_length (Bytes.length_ofNatBE _ _) rest
      have hval : Bytes.toNatBE (Bytes.ofNatBE 8 bits.toNat) = bits.toNat :=
        Bytes.toNatBE_ofNatBE bits.toNat_lt
      rw [encode, List.cons_append, readValue?, readHead?]
      simp [hlen, hval]
    | bytes bs =>
      obtain ⟨low, hhead⟩ := readHead?_head_append 2 (by decide) h (bs ++ rest)
      rw [encode, encodeBytes, List.append_assoc, readValue?, hhead]
      simp [readBytes?_append]
    | text s =>
      obtain ⟨low, hhead⟩ :=
        readHead?_head_append 3 (by decide) h (Bytes.ofString s ++ rest)
      rw [encode, encodeText, List.append_assoc, readValue?, hhead]
      simp [readText?_append]
    | list items =>
      obtain ⟨hlen, hitems⟩ := h
      obtain ⟨low, hhead⟩ :=
        readHead?_head_append 4 (by decide) hlen (encodeItems items ++ rest)
      have hread := readItems?_encodeItems_append
        (fun v hv rest => ih (hitems v hv) rest) rest
      rw [encode, List.append_assoc, readValue?, hhead]
      simp [hread]
    | map entries =>
      obtain ⟨hlen, hsorted, hentries⟩ := h
      obtain ⟨low, hhead⟩ :=
        readHead?_head_append 5 (by decide) hlen (encodeEntries entries ++ rest)
      have hread := readEntries?_encodeEntries_append
        (fun e he => ⟨(hentries e he).1, fun rest => ih (hentries e he).2 rest⟩) rest
      rw [encode, List.append_assoc, readValue?, hhead]
      simp [hread, sortEntries?_eq_self hsorted]
    | link c =>
      obtain ⟨low, hhead⟩ := readHead?_head_append 6 (n := 42) (by decide) (by decide)
        (encodeBytes (0 :: c.toBytes) ++ rest)
      rw [encode, List.append_assoc, readValue?, hhead]
      simp [readLink?_encodeBytes_append]

/-- A block that holds the encoding of a value is read as that value. -/
theorem decode?_encode {v : Cbor} (h : v.Fits nesting) : decode? v.encode = some v := by
  have hread := readValue?_encode_append h []
  rw [List.append_nil] at hread
  rw [decode?, hread]

end ReplayVector.Cbor
