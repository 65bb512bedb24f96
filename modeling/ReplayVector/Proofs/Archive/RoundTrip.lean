import ReplayVector.Archive
import ReplayVector.Proofs.State.Packing
import ReplayVector.Proofs.Store.Held

/-!
# Archives are read as they were written

An archive of genuine blocks that are not too long for a frame is read as the roots and blocks it
was written from, and loading it into memory puts just these blocks there.

* `Frame.readAll_write`: frames are cut as they were put together.
* `Archive.decode_encode`: archives are read as they were written.
* `Archive.exec_load`: what loading an archive comes to.
-/

namespace ReplayVector

namespace Frame

/-- A frame is read back, whatever follows. -/
theorem read_write_append {data : Bytes} (h : data.length ≤ limit.toNat) (rest : Bytes) :
    read (write data ++ rest) = .frame data rest := by
  have hlimit : limit.toNat = 134217728 := rfl
  have hnat : data.length.toUInt64.toNat = data.length := Nat.mod_eq_of_lt (by omega)
  have hle : ¬data.length.toUInt64 > limit := by
    rw [gt_iff_lt, UInt64.lt_iff_toNat_lt, hnat]
    omega
  rw [read, write, List.append_assoc, Varint.decode_encode_append (by omega)]
  simp only [hle, if_false, hnat, Bytes.take?_append]

/-- Frames are cut as they were put together. -/
theorem readAll_write {frames : List Bytes} (h : ∀ f ∈ frames, f.length ≤ limit.toNat) :
    readAll (frames.flatMap write) = (frames, true) := by
  induction frames with
  | nil =>
    rw [List.flatMap_nil, readAll]
    split
    · rfl
    · next hread => cases hread
    · next hread => cases hread
  | cons f fs ih =>
    have hread := read_write_append (h f (List.mem_cons_self ..)) (fs.flatMap write)
    have hrest := ih fun f' hf' => h f' (List.mem_cons_of_mem _ hf')
    rw [List.flatMap_cons, readAll]
    split
    · next heq =>
      rw [hread] at heq
      cases heq
    · next heq =>
      rw [hread] at heq
      cases heq
    · next data rest heq =>
      rw [hread] at heq
      cases heq
      rw [hrest]

end Frame

/-- Every root takes at least a byte of the header. -/
private theorem Cbor.length_le_encodeItems (items : List Cbor) :
    items.length ≤ (encodeItems items).length := by
  induction items with
  | nil => exact Nat.zero_le _
  | cons v vs ih =>
    have hv : 1 ≤ v.encode.length := by
      have hhead (kind : UInt8) (n : Nat) : 1 ≤ (head kind n).length := by
        unfold head
        repeat' split
        all_goals simp
      cases v with
      | null => decide
      | bool b => cases b <;> decide
      | int n =>
        rw [encode]
        split <;> exact hhead ..
      | float bits => simp [encode]
      | bytes bs => simpa [encode, encodeBytes] using Nat.le_add_right_of_le (hhead 2 _)
      | text s => simpa [encode, encodeText] using Nat.le_add_right_of_le (hhead 3 _)
      | list items => simpa [encode] using Nat.le_add_right_of_le (hhead 4 _)
      | map entries => simpa [encode] using Nat.le_add_right_of_le (hhead 5 _)
      | link c => simpa [encode] using Nat.le_add_right_of_le (hhead 6 _)
    rw [encodeItems, List.length_append, List.length_cons]
    omega

namespace Archive

/-! ## Headers -/

/-- A header with not too many roots can be encoded. -/
theorem fits_headerCbor {r : Roots} (h : r.cids.length < 2 ^ 64) :
    (headerCbor r).Fits Cbor.nesting := by
  have hfits : (headerCbor r).Fits 3 := by
    have hkeys : "roots" < "version" := by decide
    refine ⟨by simp, List.pairwise_pair.mpr hkeys, ?_⟩
    simp only [List.mem_cons, List.not_mem_nil, or_false, forall_eq_or_imp, forall_eq]
    refine ⟨⟨by decide, ?_, ?_⟩, by decide, Cbor.fits_ofUInt64 1 version⟩
    · rw [List.length_map]
      exact h
    · intro v hv
      obtain ⟨c, -, rfl⟩ := List.mem_map.mp hv
      trivial
  exact hfits.mono (by decide)

private theorem mapM_linkOf? (cs : List Cid) : (cs.map Cbor.link).mapM linkOf? = some cs := by
  induction cs with
  | nil => rfl
  | cons c cs ih =>
    rw [List.map_cons, List.mapM_cons, ih]
    rfl

/-- The roots are read back from it. -/
theorem rootsOf?_headerCbor (r : Roots) : rootsOf? (headerCbor r) = some r := by
  have hroots : [("roots", Cbor.list (r.cids.map .link)), ("version", Cbor.ofUInt64 version)].lookup
      "roots" = some (.list (r.cids.map .link)) := rfl
  have hversion : [("roots", Cbor.list (r.cids.map .link)),
      ("version", Cbor.ofUInt64 version)].lookup "version" = some (.ofUInt64 version) := rfl
  simp only [rootsOf?, headerCbor, hroots, hversion, mapM_linkOf?, Cbor.toUInt64?_ofUInt64]
  rfl

/-! ## Blocks -/

/-- A block is read back from its frame. -/
theorem blockOf?_frame (b : Block) : blockOf? (b.cid.toBytes ++ b.data) = some b := by
  rw [blockOf?, Cid.ofBytes?_toBytes_append]
  rfl

/-- So are all blocks from theirs. -/
private theorem blocksOf_frames (bs : List Block) :
    blocksOf (bs.map fun b => b.cid.toBytes ++ b.data) = (bs, true) := by
  induction bs with
  | nil => rfl
  | cons b bs ih =>
    rw [List.map_cons, blocksOf, blockOf?_frame, ih]

/-- The first bytes of an archive are not those of a compressed one. -/
theorem isPacked_encode (r : Roots) (bs : List Block) :
    Gzip.isPacked (encode r bs) = false := by
  have hhead : (headerCbor r).encode = 0xa2 :: (headerCbor r).encode.tail := rfl
  rw [encode, headerFrame, Frame.write, List.append_assoc]
  generalize (headerCbor r).encode.length = n
  rw [hhead]
  by_cases hn : n < 128
  · rw [Varint.encode_of_lt hn]
    simp [Gzip.isPacked, Gzip.magic, List.isPrefixOf]
  · have hfirst : (n % 128 + 128).toUInt8 ≠ 0x1f := by
      intro heq
      have hnat := congrArg UInt8.toNat heq
      have hmod : (n % 128 + 128).toUInt8.toNat = (n % 128 + 128) % 256 := rfl
      rw [hmod, show (0x1f : UInt8).toNat = 31 from rfl] at hnat
      omega
    rw [Varint.encode_of_ge (by omega)]
    generalize (n % 128 + 128).toUInt8 = first at hfirst
    simp [Gzip.isPacked, Gzip.magic, List.isPrefixOf, hfirst.symm]

/-- An archive that was not packed is taken as it is. -/
theorem unpacked_encode (r : Roots) (bs : List Block) : unpacked (encode r bs) = ⟨encode r bs, true⟩ := by
  rw [unpacked, isPacked_encode]
  rfl

theorem verify_of_isOk {b : Block} (h : b.verify.isOk = true) : b.verify = .ok () := by
  cases hverify : b.verify with
  | error e =>
    rw [hverify] at h
    cases h
  | ok u => rfl

/-- The blocks of an archive can be read: they are genuine and not too long for a frame. -/
def Readable (bs : List Block) : Prop :=
  ∀ b ∈ bs, b.verify = .ok () ∧ (b.cid.toBytes ++ b.data).length ≤ Frame.limit.toNat

/-- Blocks of a state are short and verify. -/
theorem readable_of_carries {bs : List Block} (h : ∀ b ∈ bs, ∃ v, b.Carries v) : Readable bs := by
  intro b hb
  obtain ⟨v, hv⟩ := h b hb
  have hcid := b.cid.length_toBytes_le
  have hdata := hv.data_length_le
  have : Block.maxLength = 1048576 := rfl
  have : Frame.limit.toNat = 134217728 := rfl
  refine ⟨hv.verify, ?_⟩
  rw [List.length_append]
  omega

/-- An archive is read as the roots and blocks that it was written from. -/
theorem decode_encode {r : Roots} {bs : List Block}
    (hheader : (headerCbor r).encode.length ≤ Frame.limit.toNat)
    (hroots : r.cids.length < 2 ^ 64) (hbs : Readable bs) :
    decode (encode r bs) = .ok { roots := r, blocks := bs, whole := true } := by
  have hframes : encode r bs = ((headerCbor r).encode ::
      bs.map fun b => b.cid.toBytes ++ b.data).flatMap Frame.write := by
    rw [List.flatMap_cons, List.flatMap_map]
    rfl
  have hread : Frame.readAll (encode r bs) = ((headerCbor r).encode ::
      bs.map fun b => b.cid.toBytes ++ b.data, true) := by
    rw [hframes]
    refine Frame.readAll_write fun f hf => ?_
    rcases List.mem_cons.mp hf with rfl | hf
    · exact hheader
    · obtain ⟨b, hb, rfl⟩ := List.mem_map.mp hf
      exact (hbs b hb).2
  simp only [decode, unpacked_encode, hread, ofFrames, Cbor.decode?_encode (fits_headerCbor hroots),
    Option.bind_some, rootsOf?_headerCbor, blocksOf_frames]
  cases bs with
  | nil => rfl
  | cons b bs =>
    dsimp only
    rw [(hbs b (List.mem_cons_self ..)).1]
    rfl

/-- A header of up to a thousand roots is inside the limit of a frame. -/
theorem length_headerCbor_le {r : Roots} (h : r.cids.length ≤ 1000) :
    (headerCbor r).encode.length ≤ Frame.limit.toNat := by
  have hlinks := Cbor.length_encode_list_le (r.cids.map Cbor.link) 1000 114
    (by rw [List.length_map]; exact h) (by
      intro v hv
      obtain ⟨c, -, rfl⟩ := List.mem_map.mp hv
      exact Cbor.length_encode_link_le c)
  have hversion := Cbor.length_encode_int_le version.toNat
  have hhead := Cbor.length_head_le 5 2
  have hroots := Cbor.length_encode_text_le "roots"
  have hname := Cbor.length_encode_text_le "version"
  have hrootsSize : "roots".utf8ByteSize ≤ 10 := by decide
  have hnameSize : "version".utf8ByteSize ≤ 10 := by decide
  have hlimit : Frame.limit.toNat = 134217728 := rfl
  have hencode : (headerCbor r).encode = Cbor.head 5 2 ++ (Cbor.encodeText "roots" ++
      (Cbor.list (r.cids.map .link)).encode ++ (Cbor.encodeText "version" ++
        (Cbor.ofUInt64 version).encode ++ [])) := by
    simp [headerCbor, Cbor.encode, Cbor.encodeEntries]
  rw [Cbor.encode] at hroots hname
  rw [hencode]
  simp only [List.length_append, Cbor.ofUInt64, List.length_nil]
  omega

/-- A header inside it has fewer roots than can be counted. -/
theorem length_roots_lt {roots : Roots}
    (h : (headerCbor roots).encode.length ≤ Frame.limit.toNat) :
    roots.cids.length < 2 ^ 64 := by
  have hitems := Cbor.length_le_encodeItems (roots.cids.map .link)
  have hlimit : Frame.limit.toNat = 134217728 := rfl
  rw [List.length_map] at hitems
  simp only [headerCbor, Cbor.encode, Cbor.encodeEntries, List.length_append] at h
  omega

/-! ## Loading -/

/-- Blocks that verify are all put. -/
private theorem exec_putAll {bs : List Block} (h : ∀ b ∈ bs, b.verify = .ok ()) (m : Memory) :
    m.exec (putAll bs) = (.ok (), m.putAll bs) := by
  induction bs generalizing m with
  | nil => rfl
  | cons b bs ih =>
    rw [putAll, h b (List.mem_cons_self ..)]
    exact ih (fun b' hb' => h b' (List.mem_cons_of_mem _ hb')) (m.put b)

/-- Loading an archive that is whole and genuine puts its blocks into memory. -/
theorem exec_load {bs : Bytes} {contents : Contents} (h : decode bs = .ok contents)
    (hwhole : contents.whole = true) (hverify : ∀ b ∈ contents.blocks, b.verify = .ok ())
    (m : Memory) : m.exec (load bs) = (.ok contents.roots, m.putAll contents.blocks) := by
  have hofExcept : (BlockM.ofExcept (decode bs) : BlockM Contents) = pure contents := by
    rw [h]
    rfl
  rw [load, hofExcept, pure_bind, Memory.exec_bind, exec_putAll hverify, hwhole]
  rfl

end Archive

end ReplayVector
