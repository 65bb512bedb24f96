import Mathlib.Data.List.Forall2
import ReplayVector.Proofs.Archive.RoundTrip
import ReplayVector.Proofs.Bytes.Varint

/-!
# What archives are

At the front of a byte string the reader finds a frame, or the end of the string, or neither. It also
takes the string to be at its end if all that is left is the length of a frame that has not begun.

A byte string begins with a header and then with blocks, each in a frame, and something follows. The
header and every block are there in one way only, so two such readings of the same string differ in
nothing but how many blocks they take.

* `Frame.read_eq_frame_iff`, `Frame.read_eq_finished_iff`: what is found at the front.
* `Frame.IsFrame.append_inj`: there is but one frame at the front.
* `IsHeader`, `IsBlock`: the frames of an archive.
* `Begins`: how a byte string begins.
* `Begins.longest`: the longest reading has the blocks of every other one.
-/

-- ---------------------------------------------------------------------------
-- What the reader of frames accepts
-- ---------------------------------------------------------------------------

namespace ReplayVector.Frame

/-- The bytes are a frame of some data: the length of the data, and the data. -/
def IsFrame (w data : Bytes) : Prop :=
  ∃ size n, Varint.Spells size n ∧ n ≤ limit ∧ n.toNat = data.length ∧ w = size ++ data

/-- The bytes are the length of a frame, whose data are missing. -/
def IsLength (w : Bytes) : Prop := ∃ n, Varint.Spells w n ∧ n ≤ limit ∧ n ≠ 0

theorem read_eq_frame_iff {bs data rest : Bytes} :
    read bs = .frame data rest ↔ ∃ w, IsFrame w data ∧ bs = w ++ rest := by
  constructor
  · intro h
    unfold read at h
    split at h
    · cases h
    · split at h <;> cases h
    · next size tail hsize =>
      split at h
      · cases h
      · next hlimit =>
        split at h
        · next data' rest' htake =>
          cases h
          obtain ⟨w, hw, rfl⟩ := Varint.decode_eq_value_iff.mp hsize
          obtain ⟨rfl, hlength⟩ := Bytes.eq_append_of_take? htake
          exact ⟨w ++ data, ⟨w, size, hw, UInt64.not_lt.mp hlimit, hlength.symm, rfl⟩, by simp⟩
        · split at h <;> cases h
  · rintro ⟨w, ⟨size, n, hsize, hlimit, hlength, rfl⟩, rfl⟩
    have hdecode : Varint.decode (size ++ data ++ rest) = .value n (data ++ rest) :=
      Varint.decode_eq_value_iff.mpr ⟨size, hsize, List.append_assoc ..⟩
    rw [read, hdecode]
    simp only [gt_iff_lt, UInt64.not_lt.mpr hlimit, if_false, hlength, Bytes.take?_append]

theorem read_eq_finished_iff {bs : Bytes} : read bs = .finished ↔ bs = [] ∨ IsLength bs := by
  constructor
  · intro h
    unfold read at h
    split at h
    · cases h
    · split at h
      · next hempty => exact Or.inl (List.isEmpty_iff.mp hempty)
      · cases h
    · next size tail hsize =>
      split at h
      · cases h
      · next hlimit =>
        split at h
        · cases h
        · next htake =>
          split at h
          · next hempty =>
            obtain ⟨w, hw, rfl⟩ := Varint.decode_eq_value_iff.mp hsize
            obtain rfl := List.isEmpty_iff.mp hempty
            refine Or.inr ⟨size, by simpa using hw, UInt64.not_lt.mp hlimit, ?_⟩
            rintro rfl
            cases htake
          · cases h
  · rintro (rfl | ⟨n, hn, hlimit, hzero⟩)
    · rfl
    · have hdecode : Varint.decode bs = .value n [] :=
        Varint.decode_eq_value_iff.mpr ⟨bs, hn, (List.append_nil bs).symm⟩
      have htake : Bytes.take? n.toNat [] = none := by
        obtain ⟨k, hk⟩ : ∃ k, n.toNat = k + 1 :=
          Nat.exists_eq_succ_of_ne_zero fun h => hzero (UInt64.toNat_inj.mp h)
        rw [hk]
        rfl
      rw [read, hdecode]
      simp only [gt_iff_lt, UInt64.not_lt.mpr hlimit, if_false, htake, List.isEmpty_nil, if_true]

/-- There is one frame at the front of a byte string at most. -/
theorem IsFrame.append_inj {w w' data data' rest rest' : Bytes} (h : IsFrame w data)
    (h' : IsFrame w' data') (heq : w ++ rest = w' ++ rest') : w = w' ∧ data = data' ∧ rest = rest' := by
  have hread : read (w ++ rest) = .frame data rest := read_eq_frame_iff.mpr ⟨w, h, rfl⟩
  rw [heq, read_eq_frame_iff.mpr ⟨w', h', rfl⟩] at hread
  cases hread
  exact ⟨List.append_cancel_right heq, rfl, rfl⟩

/-- The frames of a byte string, one after the other. -/
theorem readAll_of_read (bs : Bytes) :
    readAll bs = match read bs with
      | .finished => ([], true)
      | .broken => ([], false)
      | .frame data rest => (data :: (readAll rest).1, (readAll rest).2) := by
  rw [readAll]
  split <;> simp only [*]

end ReplayVector.Frame

-- ---------------------------------------------------------------------------
-- Archives
-- ---------------------------------------------------------------------------

namespace ReplayVector.Archive

variable {r r' : Roots} {bs bs' : List Block} {data : Bytes}

/-- The data of a frame are a header of version 1 with the given roots. -/
def IsHeader (r : Roots) (frame : Bytes) : Prop :=
  ∃ entries v, Cbor.decode? frame = some (.map entries) ∧
    entries.lookup "roots" = some (.list (r.cids.map .link)) ∧
    entries.lookup "version" = some v ∧ v.toUInt64? = some version

/-- The bytes are the frame of a genuine block: its data are an identifier and bytes that it is the
identifier of. -/
def IsBlock (b : Block) (w : Bytes) : Prop :=
  ∃ frame, Frame.IsFrame w frame ∧ blockOf? frame = some b ∧ b.verify = .ok ()

/-- A byte string begins with a header and with genuine blocks, and something follows. -/
structure Begins (data : Bytes) (r : Roots) (bs : List Block) (tail : Bytes) : Prop where
  frames : ∃ (head frame : Bytes) (ws : List Bytes), Frame.IsFrame head frame ∧ IsHeader r frame ∧
    List.Forall₂ IsBlock bs ws ∧ data = head ++ (ws.flatten ++ tail)

-- ---------------------------------------------------------------------------
-- Headers
-- ---------------------------------------------------------------------------

private theorem mapM_linkOf?_eq_some {items : List Cbor} {cs : List Cid} :
    items.mapM linkOf? = some cs ↔ items = cs.map .link := by
  induction items generalizing cs with
  | nil =>
    cases cs <;> simp
  | cons v vs ih =>
    rw [List.mapM_cons]
    cases cs with
    | nil => simp [Option.bind_eq_some_iff]
    | cons c cs =>
      have hlink : linkOf? v = some c ↔ v = .link c := by
        cases v <;> simp [linkOf?]
      simp only [Option.bind_eq_bind, Option.bind_eq_some_iff, Option.pure_def, Option.some.injEq,
        List.cons.injEq, List.map_cons, ← hlink, ← ih]
      constructor
      · rintro ⟨c', hc', cs', hcs', rfl, rfl⟩
        exact ⟨hc', hcs'⟩
      · rintro ⟨hc', hcs'⟩
        exact ⟨c, hc', cs, hcs', rfl, rfl⟩

private theorem ofCids?_eq_some {cs : List Cid} : Roots.ofCids? cs = some r ↔ cs = r.cids := by
  obtain ⟨first, rest⟩ := r
  cases cs <;> simp [Roots.ofCids?, Roots.cids]

/-- Just the headers are read as such. -/
theorem isHeader_iff {frame : Bytes} :
    IsHeader r frame ↔ (Cbor.decode? frame).bind rootsOf? = some r := by
  rw [Option.bind_eq_some_iff]
  constructor
  · rintro ⟨entries, v, hdecode, hroots, hversion, hv⟩
    refine ⟨_, hdecode, ?_⟩
    simp only [rootsOf?, hroots, hversion, mapM_linkOf?_eq_some.mpr rfl]
    simp [ofCids?_eq_some.mpr rfl, hv]
  · rintro ⟨v, hdecode, h⟩
    unfold rootsOf? at h
    split at h
    · next entries =>
      split at h
      · next items v hroots hversion =>
        simp only [Option.bind_eq_bind, Option.bind_eq_some_iff] at h
        obtain ⟨cs, hcs, r', hr', h⟩ := h
        split at h
        · next hv =>
          cases h
          obtain rfl := ofCids?_eq_some.mp hr'
          obtain rfl := mapM_linkOf?_eq_some.mp hcs
          exact ⟨entries, v, hdecode, hroots, hversion, hv⟩
        · cases h
      · cases h
    · cases h

theorem IsHeader.unique {frame : Bytes} (h : IsHeader r frame) (h' : IsHeader r' frame) : r' = r := by
  rw [isHeader_iff] at h h'
  rw [h] at h'
  exact (Option.some.inj h').symm

-- ---------------------------------------------------------------------------
-- Blocks
-- ---------------------------------------------------------------------------

theorem IsBlock.append_inj {b b' : Block} {w w' rest rest' : Bytes} (h : IsBlock b w)
    (h' : IsBlock b' w') (heq : w ++ rest = w' ++ rest') : b = b' ∧ rest = rest' := by
  obtain ⟨frame, hw, hb, -⟩ := h
  obtain ⟨frame', hw', hb', -⟩ := h'
  obtain ⟨-, rfl, hrest⟩ := hw.append_inj hw' heq
  rw [hb] at hb'
  exact ⟨Option.some.inj hb', hrest⟩

/-- Blocks that cannot be followed by another one are all that a byte string begins with. -/
private theorem isPrefix_of_flatten {ws ws' : List Bytes} {tail tail' : Bytes}
    (h : List.Forall₂ IsBlock bs ws) (h' : List.Forall₂ IsBlock bs' ws')
    (hlast : ∀ b w rest, IsBlock b w → tail ≠ w ++ rest)
    (heq : ws.flatten ++ tail = ws'.flatten ++ tail') : bs' <+: bs := by
  induction h' generalizing bs ws with
  | nil => exact List.nil_prefix
  | @cons b' w' bs' ws' hb' hbs' ih =>
    rw [List.flatten_cons, List.append_assoc] at heq
    cases h with
    | nil =>
      rw [List.flatten_nil, List.nil_append] at heq
      exact absurd heq (hlast b' w' _ hb')
    | @cons b w bs ws hb hbs =>
      rw [List.flatten_cons, List.append_assoc] at heq
      obtain ⟨rfl, hrest⟩ := hb.append_inj hb' heq
      rw [List.prefix_cons_inj]
      exact ih hbs hrest

/-- If no further block follows, every other way to begin has the same roots and no other blocks. -/
theorem Begins.longest {tail tail' : Bytes} (h : Begins data r bs tail)
    (hlast : ∀ b w rest, IsBlock b w → tail ≠ w ++ rest) (h' : Begins data r' bs' tail') :
    r' = r ∧ bs' <+: bs := by
  obtain ⟨head, frame, ws, hhead, hr, hbs, rfl⟩ := h.frames
  obtain ⟨head', frame', ws', hhead', hr', hbs', heq⟩ := h'.frames
  obtain ⟨-, rfl, hrest⟩ := hhead.append_inj hhead' heq
  exact ⟨hr.unique hr', isPrefix_of_flatten hbs hbs' hlast hrest⟩

-- ---------------------------------------------------------------------------
-- What is written
-- ---------------------------------------------------------------------------

/-- What is written of some data is a frame of them. -/
theorem isFrame_write {frame : Bytes} (h : frame.length ≤ Frame.limit.toNat) :
    Frame.IsFrame (Frame.write frame) frame := by
  obtain ⟨w, hw, heq⟩ := Frame.read_eq_frame_iff.mp (Frame.read_write_append h [])
  rw [List.append_cancel_right heq]
  exact hw

theorem isHeader_headerCbor (h : (headerCbor r).encode.length ≤ Frame.limit.toNat) :
    IsHeader r (headerCbor r).encode := by
  rw [isHeader_iff, Cbor.decode?_encode (fits_headerCbor (length_roots_lt h)), Option.bind_some,
    rootsOf?_headerCbor]

/-- An archive begins with the roots and blocks that it was written from, whatever follows. -/
theorem begins_encode (hheader : (headerCbor r).encode.length ≤ Frame.limit.toNat)
    (hbs : Readable bs) (tail : Bytes) : Begins (encode r bs ++ tail) r bs tail := by
  refine ⟨headerFrame r, (headerCbor r).encode, bs.map blockFrame, isFrame_write hheader,
    isHeader_headerCbor hheader, ?_, ?_⟩
  · rw [List.forall₂_map_right_iff, List.forall₂_same]
    intro b hb
    exact ⟨_, isFrame_write (hbs b hb).2, blockOf?_frame b, (hbs b hb).1⟩
  · rw [encode, List.flatMap_def, List.append_assoc]

/-- A header alone begins a string, whatever follows. -/
theorem begins_headerFrame (hheader : (headerCbor r).encode.length ≤ Frame.limit.toNat)
    (tail : Bytes) : Begins (headerFrame r ++ tail) r [] tail := by
  have hframe := isFrame_write hheader
  have hroots := isHeader_headerCbor hheader
  exact ⟨headerFrame r, (headerCbor r).encode, [], hframe, hroots, .nil, rfl⟩

end ReplayVector.Archive
