import ReplayVector.Proofs.Archive.Load

/-!
# Archives that are cut short

What is left of an archive that was cut is read as a part of it: the frames that are there are those
that were written, and the reader stops where the cut is. Loading fails unless the cut is where a
frame ends. There is one exception again: it may be right after the length of a frame.

* `Frame.IsFrame.eq_of_isPrefix`: a frame that is left is one that was written.
* `Begins.of_isPrefix`: so is how the rest begins.
* `load_truncated`: what loading the rest comes to.
* `load_accepts_cut`: an archive that was cut and is taken for whole.
-/

namespace ReplayVector

variable {data more w d rest : Bytes}

/-- A number that stands at the front of a written one is that one. -/
theorem Varint.Spells.eq_of_isPrefix {n : UInt64} {k : Nat} (h : Varint.Spells w n)
    (hk : k < 2 ^ 64) (hp : w <+: Varint.encode k ++ more) : w = Varint.encode k ∧ n = k.toUInt64 := by
  obtain ⟨rest, heq⟩ := hp
  have hread : Varint.decode (w ++ rest) = .value n rest :=
    Varint.decode_eq_value_iff.mpr ⟨w, h, rfl⟩
  rw [heq, Varint.decode_encode_append hk] at hread
  cases hread
  exact ⟨List.append_cancel_right heq, rfl⟩

namespace Frame

/-- A frame that stands at the front of a written one is that one. -/
theorem IsFrame.eq_of_isPrefix (h : IsFrame w d) (hdata : data.length < 2 ^ 64)
    (hp : w ++ rest <+: write data ++ more) :
    w = write data ∧ d = data ∧ data.length ≤ limit.toNat ∧ rest <+: more := by
  obtain ⟨size, n, hsize, hlimit, hlength, rfl⟩ := h
  rw [write, List.append_assoc, List.append_assoc] at hp
  obtain ⟨rfl, rfl⟩ := hsize.eq_of_isPrefix hdata ((List.prefix_append _ _).trans hp)
  have hnat : data.length.toUInt64.toNat = data.length := Nat.mod_eq_of_lt hdata
  rw [hnat] at hlength
  -- as many bytes follow the length as were written
  obtain ⟨x, heq⟩ := (List.prefix_append_right_inj _).mp hp
  rw [List.append_assoc] at heq
  obtain ⟨rfl, hrest⟩ := List.append_inj heq hlength.symm
  refine ⟨rfl, rfl, ?_, x, hrest⟩
  rw [← hnat]
  exact UInt64.le_iff_toNat_le.mp hlimit

/-- A length that stands at the front of a written frame is the length of its data. -/
theorem IsLength.eq_of_isPrefix (h : IsLength w) (hdata : data.length < 2 ^ 64)
    (hp : w <+: write data ++ more) : w = Varint.encode data.length := by
  obtain ⟨n, hn, -⟩ := h
  rw [write, List.append_assoc] at hp
  exact (hn.eq_of_isPrefix hdata hp).1

/-- No block is read at a length. -/
theorem IsLength.ne_frame (h : IsLength data) (hw : IsFrame w d) : data ≠ w ++ rest := by
  intro heq
  have hread := read_eq_finished_iff.mpr (Or.inr h)
  rw [read_eq_frame_iff.mpr ⟨w, hw, heq⟩] at hread
  cases hread

/-- The length of a frame that is not too long, and not empty, is read as one. -/
theorem isLength_encode {n : Nat} (h : n ≤ limit.toNat) (hn : n ≠ 0) :
    IsLength (Varint.encode n) := by
  have hlimit : limit.toNat = 134217728 := rfl
  have hnat : n.toUInt64.toNat = n := Nat.mod_eq_of_lt (by omega)
  have hread : Varint.decode (Varint.encode n) = .value n.toUInt64 [] := by
    have := Varint.decode_encode_append (n := n) (by omega) []
    rwa [List.append_nil] at this
  obtain ⟨w, hw, heq⟩ := Varint.decode_eq_value_iff.mp hread
  rw [List.append_nil] at heq
  refine ⟨n.toUInt64, heq ▸ hw, UInt64.le_iff_toNat_le.mpr (by omega), fun hzero => hn ?_⟩
  rw [← hnat, hzero]
  rfl

end Frame

namespace Archive

variable {r r' : Roots} {bs bs' : List Block} {p tail : Bytes}

-- ---------------------------------------------------------------------------
-- Where an archive may be cut
-- ---------------------------------------------------------------------------

/-- The cut is at the end of the header or of a block. -/
def CutAtEnd (r : Roots) (bs : List Block) (p : Bytes) : Prop :=
  ∃ bs', bs' <+: bs ∧ p = encode r bs'

/-- The bytes of a block's frame. -/
def frameOf (b : Block) : Bytes := b.cid.toBytes ++ b.data

theorem frameOf_length_ne_zero (b : Block) : (frameOf b).length ≠ 0 := by
  intro h
  have hblock : blockOf? (frameOf b) = some b := blockOf?_frame b
  rw [List.eq_nil_of_length_eq_zero h] at hblock
  cases hblock

/-- The cut is between the length of a block's frame and its bytes. -/
def CutAtLength (r : Roots) (bs : List Block) (p : Bytes) : Prop :=
  ∃ bs' b, bs' ++ [b] <+: bs ∧ p = encode r bs' ++ Varint.encode (frameOf b).length

-- ---------------------------------------------------------------------------
-- How the rest begins
-- ---------------------------------------------------------------------------

/-- The blocks that are left are the first ones that were written. -/
private theorem blocks_of_isPrefix {ws : List Bytes} (h : List.Forall₂ IsBlock bs' ws)
    (hsize : (bs.flatMap blockFrame).length < 2 ^ 64)
    (hp : ws.flatten ++ tail <+: bs.flatMap blockFrame) :
    ∃ more, bs = bs' ++ more ∧ ws.flatten = bs'.flatMap blockFrame ∧
      tail <+: more.flatMap blockFrame := by
  induction h generalizing bs with
  | nil => exact ⟨bs, rfl, rfl, hp⟩
  | @cons b' w bs' ws hb _ ih =>
    obtain ⟨frame, hw, hblock, -⟩ := hb
    rw [List.flatten_cons, List.append_assoc] at hp
    cases bs with
    | nil =>
      -- a block takes up some bytes
      obtain ⟨size, n, hn, -, -, rfl⟩ := hw
      obtain ⟨front, last, rfl, -⟩ := hn
      simp at hp
    | cons b bs =>
      rw [List.flatMap_cons] at hp hsize
      have hdata : (b.cid.toBytes ++ b.data).length < 2 ^ 64 := by
        simp only [blockFrame, Frame.write, List.length_append] at hsize ⊢
        omega
      obtain ⟨rfl, rfl, -, hrest⟩ := hw.eq_of_isPrefix hdata hp
      rw [blockOf?_frame] at hblock
      cases hblock
      obtain ⟨more, rfl, hflatten, htail⟩ :=
        ih (by rw [List.length_append] at hsize; omega) hrest
      exact ⟨more, rfl, by rw [List.flatten_cons, hflatten]; rfl, htail⟩

/-- If what is left of an archive begins with a header and blocks, they are those it was written
from. -/
theorem Begins.of_isPrefix (h : Begins p r' bs' tail) (hsize : (encode r bs).length < 2 ^ 64)
    (hp : p <+: encode r bs) :
    r' = r ∧ p = encode r bs' ++ tail ∧
      ∃ more, bs = bs' ++ more ∧ tail <+: more.flatMap blockFrame := by
  obtain ⟨head, frame, ws, hhead, hr, hbs, rfl⟩ := h.frames
  rw [encode, headerFrame] at hp
  simp only [encode, headerFrame, Frame.write, List.length_append] at hsize
  obtain ⟨rfl, rfl, hlimit, hrest⟩ := hhead.eq_of_isPrefix (by omega) hp
  obtain ⟨more, rfl, hflatten, htail⟩ := blocks_of_isPrefix hbs (by omega) hrest
  refine ⟨(isHeader_headerCbor hlimit).unique hr, ?_, more, rfl, htail⟩
  rw [hflatten, encode, headerFrame, List.append_assoc]

/-- What is left of an archive is not taken for packed. -/
theorem unpacked_of_isPrefix (hp : p <+: encode r bs) : unpacked p = ⟨p, true⟩ := by
  have hpacked : Gzip.isPacked p = false := by
    by_contra h
    rw [Bool.not_eq_false, Gzip.isPacked, List.isPrefixOf_iff_prefix] at h
    have hwhole := isPacked_encode r bs
    rw [Gzip.isPacked, List.isPrefixOf_iff_prefix.mpr (h.trans hp)] at hwhole
    cases hwhole
  rw [unpacked, hpacked]
  rfl

/-- If nothing is wrong with what the reader finds after the blocks, the cut is at the end of a
frame or after the length of one. -/
private theorem cut_of_tail {more : List Block} (hbs : bs = bs' ++ more)
    (hsize : (encode r bs).length < 2 ^ 64) (hp : p = encode r bs' ++ tail)
    (htail : tail <+: more.flatMap blockFrame) (hend : tail = [] ∨ Frame.IsLength tail) :
    CutAtEnd r bs p ∨ CutAtLength r bs p := by
  subst hbs
  rcases hend with rfl | hlength
  · exact Or.inl ⟨bs', List.prefix_append _ _, by rw [hp, List.append_nil]⟩
  · cases more with
    | nil =>
      obtain rfl := List.prefix_nil.mp htail
      exact Or.inl ⟨bs', List.prefix_append _ _, by rw [hp, List.append_nil]⟩
    | cons b more =>
      have hdata : (frameOf b).length < 2 ^ 64 := by
        simp only [encode, List.flatMap_append, List.flatMap_cons, blockFrame, Frame.write,
          List.length_append] at hsize
        rw [frameOf, List.length_append]
        omega
      rw [List.flatMap_cons] at htail
      refine Or.inr ⟨bs', b, ⟨more, by simp⟩, ?_⟩
      rw [hp, hlength.eq_of_isPrefix hdata htail]

-- ---------------------------------------------------------------------------
-- Loading the rest
-- ---------------------------------------------------------------------------

/-- Loading what is left of an archive fails, unless the cut is at the end of the header or of a
block, or between the length of a block's frame and its bytes. In the last case, loading gives the
roots, as if the archive were whole, if the frames up to there are not too long, their blocks are
genuine and the store takes them. Whatever the cut, no store is given any but the first blocks of the
archive. (Lengths are numbers of 64 bits.) -/
theorem load_truncated (hsize : (encode r bs).length < 2 ^ 64) (hp : p <+: encode r bs) :
    (¬CutAtEnd r bs p → ¬CutAtLength r bs p → ∃ bs' e, bs' <+: bs ∧
      ∀ {m : Type → Type} [Monad m] [LawfulMonad m] (s : BlockStore m),
        (load p).run s = s.putAll bs' >>= fun taken => pure (taken >>= fun _ => .error e)) ∧
    ((headerCbor r).encode.length ≤ Frame.limit.toNat → ∀ bs' b, bs' ++ [b] <+: bs →
      Readable (bs' ++ [b]) → p = encode r bs' ++ Varint.encode (frameOf b).length →
      ∀ {m : Type → Type} [Monad m] [LawfulMonad m] (s : BlockStore m),
        (load p).run s = s.putAll bs' >>= fun taken => pure (taken >>= fun _ => .ok r)) := by
  obtain ⟨hwith, hwithout⟩ := load_run (unpacked_of_isPrefix hp)
  constructor
  · intro hend hlength
    by_cases hheader : ∃ r' rest, Begins p r' [] rest
    · obtain ⟨r', rest, hbegins⟩ := hheader
      obtain ⟨bs', tail, result, hblocks, -, hconcludes, hrun⟩ := hwith r' rest hbegins
      obtain ⟨-, heq, more, rfl, htail⟩ := hblocks.of_isPrefix hsize hp
      rcases hconcludes with ⟨-, hok⟩ | ⟨⟨e, rfl⟩, -⟩
      · rcases cut_of_tail rfl hsize heq htail hok with h | h
        · exact absurd h hend
        · exact absurd h hlength
      · exact ⟨bs', e, List.prefix_append _ _, hrun⟩
    · push Not at hheader
      obtain ⟨e, hrun⟩ := hwithout hheader
      refine ⟨[], e, List.nil_prefix, fun s => ?_⟩
      rw [hrun, BlockStore.putAll, pure_bind]
      rfl
  · rintro hheader bs' b hbs hreadable rfl m _ _ s
    have hfront : Readable bs' := fun b' hb' => hreadable b' (List.mem_append_left _ hb')
    have hframe : (frameOf b).length ≤ Frame.limit.toNat :=
      (hreadable b (List.mem_append_right _ (List.mem_singleton.mpr rfl))).2
    have hlength : Frame.IsLength (Varint.encode (frameOf b).length) :=
      Frame.isLength_encode hframe (frameOf_length_ne_zero b)
    have hread := begins_encode hheader hfront (Varint.encode (frameOf b).length)
    obtain ⟨bs'', tail, result, hblocks, hlongest, hconcludes, hrun⟩ :=
      hwith r _ (by
        rw [encode, List.append_assoc]
        exact begins_headerFrame hheader _)
    have hnoblock (b' : Block) (w rest : Bytes) (hb' : IsBlock b' w) :
        Varint.encode (frameOf b).length ≠ w ++ rest := by
      obtain ⟨frame, hw, -⟩ := hb'
      exact hlength.ne_frame hw
    obtain rfl : bs'' = bs' := (hread.longest hnoblock hblocks).2.eq_of_length_le
      (hlongest _ _ _ hread).2.length_le
    obtain ⟨-, heq, -⟩ := hblocks.of_isPrefix hsize hp
    obtain rfl := List.append_cancel_left heq
    rcases hconcludes with ⟨rfl, -⟩ | ⟨-, -, hnot⟩
    · exact hrun s
    · exact absurd hlength hnot

private theorem prefix_singleton {b : Block} (h : bs' <+: [b]) : bs' = [] ∨ bs' = [b] := by
  rcases List.prefix_cons_iff.mp h with rfl | ⟨more, rfl, hmore⟩
  · exact Or.inl rfl
  · rw [List.prefix_nil.mp hmore]
    exact Or.inr rfl

/-- The last byte of an archive of one block is missing, so it is not loaded. -/
theorem load_truncated_leaf :
    ∃ bs' e, bs' <+: [leaf] ∧
      ∀ {m : Type → Type} [Monad m] [LawfulMonad m] (s : BlockStore m),
        (load (encode loneRoot [leaf]).dropLast).run s =
          s.putAll bs' >>= fun taken => pure (taken >>= fun _ => .error e) := by
  have hsize : (encode loneRoot [leaf]).length < 2 ^ 64 := by decide +kernel
  refine (load_truncated hsize (List.dropLast_prefix _)).1 ?_ ?_
  · rintro ⟨bs', hbs', heq⟩
    rcases prefix_singleton hbs' with rfl | rfl
    · exact absurd heq (by decide +kernel)
    · exact absurd heq (by decide +kernel)
  · rintro ⟨bs', b, hbs', heq⟩
    rcases prefix_singleton hbs' with h | h
    · simp at h
    · obtain ⟨rfl, rfl⟩ : bs' = [] ∧ b = leaf := by
        have hinj : bs' = [] ∧ [b] = [leaf] := List.append_inj' h rfl
        simpa using hinj
      exact absurd heq (by decide +kernel)

/-- An archive of a genuine block that is cut after the length of the block's frame is loaded,
though not at the end of its header nor of a block. -/
theorem load_accepts_cut :
    leaf.verify = .ok () ∧
      encode loneRoot [] ++ Varint.encode (frameOf leaf).length <+: encode loneRoot [leaf] ∧
      encode loneRoot [] ++ Varint.encode (frameOf leaf).length ≠ encode loneRoot [leaf] ∧
      ¬CutAtEnd loneRoot [leaf] (encode loneRoot [] ++ Varint.encode (frameOf leaf).length) ∧
      Memory.empty.exec (load (encode loneRoot [] ++ Varint.encode (frameOf leaf).length)) =
        (.ok loneRoot, .empty) := by
  refine ⟨by decide +kernel, by decide +kernel, by decide +kernel, ?_, by decide +kernel⟩
  rintro ⟨bs', hbs', heq⟩
  rcases prefix_singleton hbs' with rfl | rfl
  · exact absurd heq (by decide +kernel)
  · exact absurd heq (by decide +kernel)

end Archive

end ReplayVector
