import ReplayVector.Proofs.Archive.Grammar
import ReplayVector.Proofs.Archive.Reload
import ReplayVector.Proofs.Gzip.RoundTrip

/-!
# What loading does, whatever is loaded

Loading puts the genuine blocks that a byte string begins with into the store, in order, and asks for
nothing. It fails if the store does not take one of them, or if anything but the end of the string
follows them. There is one exception: the length of a frame may follow, if the string ends there.

* `load_eq`: loading is a sequence of writes.
* `load_run`: what it comes to over any store.
* `load_accepts_length`: a string that is taken for whole and is not.
-/

namespace ReplayVector

namespace Archive

open BlockM

/-- Genuine blocks are put into the store, one after the other. -/
theorem putAll_append {bs : List Block} (h : ∀ b ∈ bs, b.verify = .ok ()) (more : List Block) :
    putAll (bs ++ more) = writeAll bs >>= fun _ => putAll more := by
  induction bs with
  | nil => rfl
  | cons b bs ih =>
    rw [List.cons_append, putAll, h b (List.mem_cons_self ..),
      ih fun b' hb' => h b' (List.mem_cons_of_mem _ hb'), writeAll_cons, bind_assoc]
    rfl

-- ---------------------------------------------------------------------------
-- What follows the header
-- ---------------------------------------------------------------------------

/-- What is left of a string after its genuine blocks, and what the reader makes of it: the blocks
that it still hands on, and whether it has found no fault. -/
inductive Remains : Bytes → List Block → Bool → Prop
  /-- The string is at its end, or at the length of a frame. -/
  | done {tail : Bytes} (h : tail = [] ∨ Frame.IsLength tail) : Remains tail [] true
  /-- No frame of a block follows. -/
  | broken {tail : Bytes} (h : ¬(tail = [] ∨ Frame.IsLength tail)) : Remains tail [] false
  /-- The block that follows is not genuine. -/
  | forged {tail : Bytes} {b : Block} {more : List Block} {whole : Bool} {e : Failure}
      (h : ¬(tail = [] ∨ Frame.IsLength tail)) (hb : b.verify = .error e) :
      Remains tail (b :: more) whole

/-- A string falls into the frames of genuine blocks and a tail that begins with none. The reader
hands on the blocks, and then what it makes of the tail. -/
structure Falls (data : Bytes) (bs : List Block) (tail : Bytes) (more : List Block) : Prop where
  frames : ∃ ws, List.Forall₂ IsBlock bs ws ∧ data = ws.flatten ++ tail
  last : ∀ b w rest, IsBlock b w → tail ≠ w ++ rest
  listed : (blocksOf (Frame.readAll data).1).1 = bs ++ more
  remains : Remains tail more ((Frame.readAll data).2 && (blocksOf (Frame.readAll data).1).2)

namespace Falls

variable {data rest frame tail : Bytes} {b : Block} {bs more : List Block}

/-- A string begins with a block only if there is a genuine one in the frame that is read there. -/
private theorem ne_append_of_read
    (h : ∀ frame rest b, Frame.read data = .frame frame rest → blockOf? frame = some b →
      b.verify ≠ .ok ()) (b : Block) (w rest : Bytes) (hb : IsBlock b w) : data ≠ w ++ rest := by
  intro hdata
  obtain ⟨frame, hw, hblock, hverify⟩ := hb
  exact h frame rest b (Frame.read_eq_frame_iff.mpr ⟨w, hw, hdata⟩) hblock hverify

/-- A string that begins with a frame begins with no genuine block if there is none in the frame. -/
private theorem ne_append_of_frame (hread : Frame.read data = .frame frame rest)
    (h : ∀ b, blockOf? frame = some b → b.verify ≠ .ok ()) :
    ∀ b w rest', IsBlock b w → data ≠ w ++ rest' :=
  ne_append_of_read fun frame' rest' b hframe hb => by
    rw [hread] at hframe
    cases hframe
    exact h b hb

private theorem not_finished (hread : Frame.read data = .frame frame rest) :
    ¬(data = [] ∨ Frame.IsLength data) := by
  intro h
  rw [Frame.read_eq_finished_iff.mpr h] at hread
  cases hread

/-- A string at its end is a tail. -/
theorem of_finished (hread : Frame.read data = .finished) : Falls data [] data [] := by
  have hall : Frame.readAll data = ([], true) := by rw [Frame.readAll_of_read, hread]
  refine ⟨⟨[], .nil, rfl⟩, ne_append_of_read fun frame rest b hframe => ?_, ?_, ?_⟩
  · rw [hread] at hframe
    cases hframe
  · rw [hall]
    rfl
  · rw [hall]
    exact .done (Frame.read_eq_finished_iff.mp hread)

/-- A string that does not begin with a frame is a tail. -/
theorem of_broken (hread : Frame.read data = .broken) : Falls data [] data [] := by
  have hall : Frame.readAll data = ([], false) := by rw [Frame.readAll_of_read, hread]
  refine ⟨⟨[], .nil, rfl⟩, ne_append_of_read fun frame rest b hframe => ?_, ?_, ?_⟩
  · rw [hread] at hframe
    cases hframe
  · rw [hall]
    rfl
  · rw [hall]
    refine .broken fun h => ?_
    rw [Frame.read_eq_finished_iff.mpr h] at hread
    cases hread

/-- A string that begins with a frame of anything but a block is a tail. -/
theorem of_foreign (hread : Frame.read data = .frame frame rest) (hblock : blockOf? frame = none) :
    Falls data [] data [] := by
  have hall := Frame.readAll_of_read data
  rw [hread] at hall
  refine ⟨⟨[], .nil, rfl⟩, ne_append_of_frame hread fun b hb => ?_, ?_, ?_⟩
  · rw [hblock] at hb
    cases hb
  · rw [hall, blocksOf, hblock]
    rfl
  · rw [hall, blocksOf, hblock, Bool.and_false]
    exact .broken (not_finished hread)

/-- The blocks of a string that begins with the frame of a block. -/
private theorem blocksOf_readAll (hread : Frame.read data = .frame frame rest)
    (hblock : blockOf? frame = some b) :
    (Frame.readAll data).2 = (Frame.readAll rest).2 ∧
      blocksOf (Frame.readAll data).1 =
        (b :: (blocksOf (Frame.readAll rest).1).1, (blocksOf (Frame.readAll rest).1).2) := by
  have hall := Frame.readAll_of_read data
  rw [hread] at hall
  rw [hall, blocksOf, hblock]
  exact ⟨rfl, rfl⟩

/-- A string that begins with a block that is not genuine is a tail. -/
theorem of_forged (hread : Frame.read data = .frame frame rest) (hblock : blockOf? frame = some b)
    {e : Failure} (hverify : b.verify = .error e) :
    Falls data [] data (b :: (blocksOf (Frame.readAll rest).1).1) := by
  obtain ⟨-, hblocks⟩ := blocksOf_readAll hread hblock
  refine ⟨⟨[], .nil, rfl⟩, ne_append_of_frame hread fun b' hb' hverify' => ?_, ?_,
    .forged (not_finished hread) hverify⟩
  · rw [hblock] at hb'
    cases hb'
    rw [hverify] at hverify'
    cases hverify'
  · rw [hblocks]
    rfl

/-- A genuine block is one more. -/
theorem cons (hread : Frame.read data = .frame frame rest) (hblock : blockOf? frame = some b)
    (hverify : b.verify = .ok ()) (h : Falls rest bs tail more) : Falls data (b :: bs) tail more := by
  obtain ⟨w, hw, hdata⟩ := Frame.read_eq_frame_iff.mp hread
  obtain ⟨ws, hbs, hrest⟩ := h.frames
  obtain ⟨hwhole, hblocks⟩ := blocksOf_readAll hread hblock
  refine ⟨⟨w :: ws, .cons ⟨frame, hw, hblock, hverify⟩ hbs, ?_⟩, h.last, ?_, ?_⟩
  · rw [hdata, hrest, List.flatten_cons, List.append_assoc]
  · rw [hblocks, h.listed]
    rfl
  · rw [hwhole, hblocks]
    exact h.remains

end Falls

/-- The blocks that the reader hands on are the genuine ones and what remains. -/
theorem exists_falls (data : Bytes) : ∃ bs tail more, Falls data bs tail more := by
  -- a frame leaves less to read
  induction hn : data.length using Nat.strongRecOn generalizing data with
  | ind n ih =>
    subst hn
    cases hread : Frame.read data with
    | finished => exact ⟨_, _, _, .of_finished hread⟩
    | broken => exact ⟨_, _, _, .of_broken hread⟩
    | frame frame rest =>
      cases hblock : blockOf? frame with
      | none => exact ⟨_, _, _, .of_foreign hread hblock⟩
      | some b =>
        cases hverify : b.verify with
        | error e => exact ⟨_, _, _, .of_forged hread hblock hverify⟩
        | ok u =>
          obtain ⟨bs, tail, more, h⟩ := ih _ (Frame.length_lt_of_read hread) rest rfl
          exact ⟨_, _, _, h.cons hread hblock hverify⟩

-- ---------------------------------------------------------------------------
-- Loading
-- ---------------------------------------------------------------------------

variable {source data : Bytes} {r : Roots}

theorem verify_of_isBlock {bs : List Block} {ws : List Bytes} (h : List.Forall₂ IsBlock bs ws) :
    ∀ b ∈ bs, b.verify = .ok () := by
  induction h with
  | nil => simp
  | cons hb _ ih =>
    intro b' hb'
    rcases List.mem_cons.mp hb' with rfl | hb'
    · obtain ⟨frame, -, -, hverify⟩ := hb
      exact hverify
    · exact ih b' hb'

/-- How loading a string that begins with a header ends, by what is left of it. -/
def Concludes (r : Roots) (tail : Bytes) (result : Except Failure Roots) : Prop :=
  result = .ok r ∧ (tail = [] ∨ Frame.IsLength tail) ∨
    (∃ e, result = .error e) ∧ tail ≠ [] ∧ ¬Frame.IsLength tail

private theorem load_of_decode_ok {contents : Contents} (h : decode source = .ok contents) :
    load source = putAll contents.blocks >>= fun _ =>
      if contents.whole then pure contents.roots else .fail .unworded := by
  rw [load, h]
  rfl

private theorem load_of_decode_error {e : Failure} (h : decode source = .error e) :
    load source = done (.error e) := by
  rw [load, h]
  rfl

/-- A string that begins with a header is loaded by writing its genuine blocks. -/
theorem load_eq (hdata : unpacked source = ⟨data, true⟩) {rest : Bytes}
    (h : Begins data r [] rest) :
    ∃ bs tail result, Begins data r bs tail ∧ (∀ b w rest', IsBlock b w → tail ≠ w ++ rest') ∧
      Concludes r tail result ∧ load source = writeAll bs >>= fun _ => ofExcept result := by
  obtain ⟨head, frame, _, hhead, hr, ⟨⟩, hbegins⟩ := h.frames
  obtain ⟨bs, tail, more, ⟨ws, hbs, hrest⟩, hlast, hblocks, hremains⟩ := exists_falls rest
  have hverify := verify_of_isBlock hbs
  rw [List.flatten_nil, List.nil_append] at hbegins
  have hread : Frame.readAll data = (frame :: (Frame.readAll rest).1, (Frame.readAll rest).2) := by
    rw [Frame.readAll_of_read, Frame.read_eq_frame_iff.mpr ⟨head, hhead, hbegins⟩]
  have hdecode : decode source = ofFrames (frame :: (Frame.readAll rest).1)
      ((Frame.readAll rest).2 && true) := by
    rw [decode, hdata, hread]
  rw [Bool.and_true, ofFrames, isHeader_iff.mp hr] at hdecode
  simp only [hblocks] at hdecode
  have hshape : Begins data r bs tail :=
    ⟨head, frame, ws, hhead, hr, hbs, by rw [hbegins, hrest]⟩
  generalize ((Frame.readAll rest).2 && (blocksOf (Frame.readAll rest).1).2) = whole
    at hdecode hremains
  refine ⟨bs, tail, ?_⟩
  cases bs with
  | nil =>
    -- nothing is written, and the first block is checked before that
    cases hremains with
    | done htail =>
      exact ⟨.ok r, hshape, hlast, Or.inl ⟨rfl, htail⟩, load_of_decode_ok hdecode⟩
    | broken htail =>
      exact ⟨_, hshape, hlast, Or.inr ⟨⟨_, rfl⟩, not_or.mp htail⟩, load_of_decode_error hdecode⟩
    | forged htail hb =>
      simp only [List.nil_append, hb] at hdecode
      exact ⟨_, hshape, hlast, Or.inr ⟨⟨_, rfl⟩, not_or.mp htail⟩, load_of_decode_error hdecode⟩
  | cons b bs =>
    simp only [List.cons_append, hverify b (List.mem_cons_self ..)] at hdecode
    have hload := load_of_decode_ok hdecode
    dsimp only at hload
    rw [← List.cons_append, putAll_append hverify, bind_assoc] at hload
    cases hremains with
    | done htail => exact ⟨.ok r, hshape, hlast, Or.inl ⟨rfl, htail⟩, hload⟩
    | broken htail => exact ⟨_, hshape, hlast, Or.inr ⟨⟨_, rfl⟩, not_or.mp htail⟩, hload⟩
    | forged htail hb =>
      rw [putAll, hb] at hload
      exact ⟨_, hshape, hlast, Or.inr ⟨⟨_, rfl⟩, not_or.mp htail⟩, hload⟩

/-- A string that does not begin with a header is refused. -/
theorem load_eq_error (hdata : unpacked source = ⟨data, true⟩)
    (h : ∀ r rest, ¬Begins data r [] rest) : ∃ e, load source = done (.error e) := by
  have hall := Frame.readAll_of_read data
  have hframes : ∃ e, ofFrames (Frame.readAll data).1 (Frame.readAll data).2 = .error e := by
    cases hread : Frame.read data with
    | finished =>
      rw [hread] at hall
      rw [hall]
      exact ⟨_, rfl⟩
    | broken =>
      rw [hread] at hall
      rw [hall]
      exact ⟨_, rfl⟩
    | frame frame rest =>
      rw [hread] at hall
      rw [hall]
      obtain ⟨head, hhead, hbegins⟩ := Frame.read_eq_frame_iff.mp hread
      cases hroots : (Cbor.decode? frame).bind rootsOf? with
      | none =>
        rw [ofFrames, hroots]
        exact ⟨_, rfl⟩
      | some r =>
        exact absurd ⟨head, frame, [], hhead, isHeader_iff.mpr hroots, .nil, by simpa using hbegins⟩
          (h r rest)
  obtain ⟨e, he⟩ := hframes
  refine ⟨e, load_of_decode_error ?_⟩
  rw [decode, hdata]
  simpa using he

/-- Loading the archive in a byte string that is plain, or compressed without fault. If the string
begins with a header of version 1, any store is given the longest run of genuine blocks that follow
it, in order. If it takes them all, loading gives the roots of the header, if that was the end of the
string or the length of a frame stands there, and else it fails; if there is one that it does not take,
that is the last one it is given, and loading fails for the same reason. If the string begins with no
such header, loading fails and the store is given nothing. -/
theorem load_run (hdata : unpacked source = ⟨data, true⟩) :
    (∀ r rest, Begins data r [] rest →
      ∃ bs tail result, Begins data r bs tail ∧
        (∀ r' bs' tail', Begins data r' bs' tail' → r' = r ∧ bs' <+: bs) ∧
        Concludes r tail result ∧
        ∀ {m : Type → Type} [Monad m] [LawfulMonad m] (s : BlockStore m),
          (load source).run s = s.putAll bs >>= fun taken => pure (taken >>= fun _ => result)) ∧
    ((∀ r rest, ¬Begins data r [] rest) → ∃ e,
      ∀ {m : Type → Type} [Monad m] [LawfulMonad m] (s : BlockStore m),
        (load source).run s = pure (.error e)) := by
  constructor
  · intro r rest h
    obtain ⟨bs, tail, result, hbegins, hlast, hconcludes, hload⟩ := load_eq hdata h
    refine ⟨bs, tail, result, hbegins, fun r' bs' tail' h' => hbegins.longest hlast h', hconcludes, ?_⟩
    intro m _ _ s
    rw [hload, run_writeAll]
  · intro h
    obtain ⟨e, hload⟩ := load_eq_error hdata h
    refine ⟨e, ?_⟩
    intro m _ _ s
    rw [hload]
    rfl

-- ---------------------------------------------------------------------------
-- Two strings
-- ---------------------------------------------------------------------------

/-- The root of the archives below. -/
def loneRoot : Roots := ⟨leaf.cid, []⟩

/-- A block whose bytes were changed. -/
def tampered : Block := { leaf with data := [2] }

private theorem loneRoot_facts : (headerCbor loneRoot).encode.length ≤ Frame.limit.toNat ∧
    leaf.verify.isOk = true ∧ (leaf.cid.toBytes ++ leaf.data).length ≤ Frame.limit.toNat := by
  decide +kernel

private theorem readable_leaf : Readable [leaf] := by
  intro b hb
  obtain rfl := List.mem_singleton.mp hb
  exact ⟨verify_of_isOk loneRoot_facts.2.1, loneRoot_facts.2.2⟩

/-- A packed archive of a block and a tampered one: a store is given the first one at least. -/
theorem load_run_tampered :
    ∃ bs tail result, [leaf] <+: bs ∧ Concludes loneRoot tail result ∧
      ∀ {m : Type → Type} [Monad m] [LawfulMonad m] (s : BlockStore m),
        (load (Gzip.pack (encode loneRoot [leaf] ++ blockFrame tampered))).run s =
          s.putAll bs >>= fun taken => pure (taken >>= fun _ => result) := by
  have hdata : unpacked (Gzip.pack (encode loneRoot [leaf] ++ blockFrame tampered)) =
      ⟨encode loneRoot [leaf] ++ blockFrame tampered, true⟩ := by
    rw [unpacked, Gzip.isPacked_pack, if_pos rfl, Gzip.unpack_pack]
  have hbegins := begins_encode loneRoot_facts.1 readable_leaf (blockFrame tampered)
  have hheader : Begins (encode loneRoot [leaf] ++ blockFrame tampered) loneRoot []
      ([leaf].flatMap blockFrame ++ blockFrame tampered) := by
    rw [encode, List.append_assoc]
    exact begins_headerFrame loneRoot_facts.1 _
  obtain ⟨bs, tail, result, -, hlongest, hconcludes, hrun⟩ := (load_run hdata).1 _ _ hheader
  exact ⟨bs, tail, result, (hlongest _ _ _ hbegins).2, hconcludes, hrun⟩

/-- After a header stands the length of a frame of five bytes, and no more. Loading gives the roots,
though no archive of any blocks ends like this. -/
theorem load_accepts_length :
    Gzip.isPacked (encode loneRoot [] ++ [5]) = false ∧
      Memory.empty.exec (load (encode loneRoot [] ++ [5])) = (.ok loneRoot, .empty) ∧
      ∀ bs, ¬Begins (encode loneRoot [] ++ [5]) loneRoot bs [] := by
  refine ⟨by decide +kernel, by decide +kernel, fun bs h => ?_⟩
  have hbegins : Begins (encode loneRoot [] ++ [5]) loneRoot [] [5] := by
    rw [encode, List.flatMap_nil, List.append_nil]
    exact begins_headerFrame loneRoot_facts.1 [5]
  have hlength : Frame.read [5] = .finished := rfl
  have hlast (b : Block) (w rest : Bytes) (hb : IsBlock b w) : ([5] : Bytes) ≠ w ++ rest := by
    rintro heq
    obtain ⟨frame, hw, -⟩ := hb
    rw [Frame.read_eq_frame_iff.mpr ⟨w, hw, heq⟩] at hlength
    cases hlength
  -- so there is no block, and the length is left over
  obtain rfl := List.prefix_nil.mp (hbegins.longest hlast h).2
  obtain ⟨head, frame, _, hhead, -, ⟨⟩, heq⟩ := hbegins.frames
  obtain ⟨head', frame', _, hhead', -, ⟨⟩, heq'⟩ := h.frames
  have hrest := (hhead.append_inj hhead' (heq.symm.trans heq')).2.2
  simp at hrest

end Archive

end ReplayVector
