import ReplayVector.Hash.Blake2

/-!
# The length of BLAKE2 digests

The working state keeps its four rows of four words through every round, so the state keeps its
eight words through every block, and a digest has as many bytes as were asked for.

* `length_blake2b`: digests of up to 64 bytes.
-/

namespace ReplayVector.Hash

namespace Blake2

variable {α : Type} [Word α]

/-- All four rows have the same number of words. -/
structure Rows.Even (n : Nat) (v : Rows α) : Prop where
  a : v.a.length = n
  b : v.b.length = n
  c : v.c.length = n
  d : v.d.length = n

/-- Mixing two message words into every column keeps the columns. -/
private theorem even_mix (r : Nat × Nat × Nat × Nat) (n : Nat) (words : List α)
    {a b c d : List α} (ha : a.length = n) (hb : b.length = n) (hc : c.length = n)
    (hd : d.length = n) (hwords : words.length = 2 * n) : (mix r a b c d words).Even n := by
  -- on the number of columns: each step takes one word of every row and two of the message
  induction n generalizing a b c d words with
  | zero =>
    rw [List.length_eq_zero_iff] at ha
    subst ha
    exact ⟨rfl, rfl, rfl, rfl⟩
  | succ n ih =>
    obtain ⟨_, as, rfl⟩ := List.exists_cons_of_length_eq_add_one ha
    obtain ⟨_, bs, rfl⟩ := List.exists_cons_of_length_eq_add_one hb
    obtain ⟨_, cs, rfl⟩ := List.exists_cons_of_length_eq_add_one hc
    obtain ⟨_, ds, rfl⟩ := List.exists_cons_of_length_eq_add_one hd
    obtain ⟨_, ws, rfl⟩ := List.exists_cons_of_length_eq_add_one hwords
    obtain ⟨_, ws, rfl⟩ := List.exists_cons_of_length_eq_add_one (Nat.succ.inj hwords)
    simp only [List.length_cons] at ha hb hc hd hwords
    have hrest := ih ws (Nat.succ.inj ha) (Nat.succ.inj hb) (Nat.succ.inj hc)
      (Nat.succ.inj hd) (by omega)
    unfold mix
    exact ⟨congrArg (· + 1) hrest.a, congrArg (· + 1) hrest.b, congrArg (· + 1) hrest.c,
      congrArg (· + 1) hrest.d⟩

private theorem length_rotateLeft {β : Type} (n : Nat) (ws : List β) :
    (ws.rotateLeft n).length = ws.length := by
  unfold List.rotateLeft
  dsimp only
  split
  · rfl
  · simp only [List.length_append, List.length_take, List.length_drop]
    omega

private theorem length_rotateRight {β : Type} (n : Nat) (ws : List β) :
    (ws.rotateRight n).length = ws.length := by
  unfold List.rotateRight
  dsimp only
  split
  · rfl
  · simp only [List.length_append, List.length_take, List.length_drop]
    omega

/-- A round keeps all rows at four words. -/
private theorem even_round (r : Nat × Nat × Nat × Nat) {words : List α} (hwords : words.length = 16)
    {v : Rows α} (h : v.Even 4) : (round r words v).Even 4 := by
  have hcolumns : (mix r v.a v.b v.c v.d (words.take 8)).Even 4 :=
    even_mix r 4 (words.take 8) h.a h.b h.c h.d (by rw [List.length_take]; omega)
  have hdiagonals := even_mix r 4 (words.drop 8) hcolumns.a
    ((length_rotateLeft 1 _).trans hcolumns.b) ((length_rotateLeft 2 _).trans hcolumns.c)
    ((length_rotateLeft 3 _).trans hcolumns.d) (by rw [List.length_drop]; omega)
  exact ⟨hdiagonals.a, (length_rotateRight 1 _).trans hdiagonals.b,
    (length_rotateRight 2 _).trans hdiagonals.c, (length_rotateRight 3 _).trans hdiagonals.d⟩

/-- A permutation lists every word once. -/
private theorem length_permute_sigma (i : Nat) (words : List α) :
    (permute (sigma.getD (i % 10) []) words).length = 16 := by
  have hsigma : ∀ k : Fin 10, (sigma.getD k.val []).length = 16 := by decide
  rw [permute, List.length_map]
  exact hsigma ⟨i % 10, by omega⟩

/-- So do all rounds. -/
private theorem even_rounds (variant : Variant) (message : List α) (rounds : List Nat) {v : Rows α}
    (h : v.Even 4) :
    (rounds.foldl (fun v i =>
      round variant.rotations (permute (sigma.getD (i % 10) []) message) v) v).Even 4 := by
  induction rounds generalizing v with
  | nil => exact h
  | cons i rounds ih => exact ih (even_round _ (length_permute_sigma i message) h)

/-- Sixteen words make four rows of four. -/
private theorem even_rowsOf {β : Type} {ws : List β} (h : ws.length = 16) : (rowsOf ws).Even 4 := by
  refine ⟨?_, ?_, ?_, ?_⟩ <;> simp only [rowsOf, List.length_take, List.length_drop] <;> omega

/-- A block is compressed into as many words as before. -/
private theorem length_compress {initial state : List α} (hinitial : initial.length = 8)
    (hstate : state.length = 8) (variant : Variant) (block : Bytes) (count : Nat) (last : Bool) :
    (compress variant initial state block count last).length = 8 := by
  unfold compress
  have heven := even_rounds variant (wordsLE α (fill (16 * Word.width α) block))
    (List.range variant.rounds) (v := rowsOf (state ++ List.zipWith (· ^^^ ·) initial
      [Word.ofNat 0, Word.ofNat 0, Word.ofNat 0, Word.ofNat 0, Word.ofNat count,
        Word.ofNat (count / 2 ^ (8 * Word.width α)),
        if last then ~~~Word.ofNat 0 else Word.ofNat 0, Word.ofNat 0]))
    (even_rowsOf (by simp [hstate, hinitial]))
  simp only [List.length_zipWith, Rows.fold, List.length_append, heven.a, heven.b, heven.c,
    heven.d, hstate]
  rfl

/-- And so are all blocks. -/
private theorem length_absorb {initial : List α} (hinitial : initial.length = 8)
    (variant : Variant) (blocks : List Bytes) {state : List α} (hstate : state.length = 8)
    (count : Nat) : (absorb variant initial state count blocks).length = 8 := by
  induction blocks generalizing state count with
  | nil => exact hstate
  | cons block blocks ih =>
    cases blocks with
    | nil => exact length_compress hinitial hstate ..
    | cons next blocks => exact ih (length_compress hinitial hstate ..) _

private theorem length_bytesLE (ws : List α) : (bytesLE ws).length = ws.length * Word.width α := by
  simp [bytesLE, List.length_flatMap, Bytes.length_ofNatLE, List.map_const']

/-- A digest has as many bytes as were asked for, up to those of the state. -/
private theorem length_digest {initial : List α} (hinitial : initial.length = 8) (variant : Variant)
    {size : Nat} (hsize : size ≤ 8 * Word.width α) (bs : Bytes) :
    (digest variant initial size bs).length = size := by
  have hstate : (initial.modifyHead (· ^^^ Word.ofNat (0x01010000 + size))).length = 8 := by
    rw [List.length_modifyHead, hinitial]
  rw [digest, List.length_take, length_bytesLE, length_absorb hinitial variant _ hstate]
  omega

end Blake2

/-- A digest of BLAKE2b has as many bytes as were asked for, at most 64. -/
theorem length_blake2b {size : Nat} (h : size ≤ 64) (bs : Bytes) :
    (blake2b size bs).length = size := by
  have hinitial : Blake2.initialB.length = 8 := by
    unfold Blake2.initialB initialWords rootFractions
    rw [List.length_map]
    decide +kernel
  exact Blake2.length_digest hinitial _ h bs

end ReplayVector.Hash
