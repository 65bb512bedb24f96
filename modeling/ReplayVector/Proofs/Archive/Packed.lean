import ReplayVector.Proofs.Archive.Grammar
import ReplayVector.Proofs.Archive.Reload
import ReplayVector.Proofs.Gzip.RoundTrip

/-!
# Archives are read back, plain or packed

An archive of genuine blocks whose frames are not too long is read as the roots and blocks that it was
written from, as it is, packed as a whole, or cut anywhere and packed in pieces by whatever writes
members. A plain archive is never mistaken for a packed one.

* `ReadAs`: what is read of a byte string.
* `readAs_encode`: archives in all their forms.
-/

namespace ReplayVector.Archive

/-- The byte string is read as a header of version 1 with the given roots and as the blocks that
follow it, without a fault. -/
structure ReadAs (bs : Bytes) (r : Roots) (blocks : List Block) : Prop where
  decode : Archive.decode bs = .ok { roots := r, blocks, whole := true }
  header : ∃ frame frames whole, Frame.readAll (unpacked bs).data = (frame :: frames, whole) ∧
    IsHeader r frame

variable {r : Roots} {blocks : List Block}

/-- What holds the bytes of an archive is read as the archive is. -/
theorem readAs_of_unpacked {bs : Bytes} (h : unpacked bs = ⟨encode r blocks, true⟩)
    (hheader : (headerCbor r).encode.length ≤ Frame.limit.toNat) (hblocks : Readable blocks) :
    ReadAs bs r blocks := by
  have hdecode := decode_encode hheader (length_roots_lt hheader) hblocks
  refine ⟨?_, (headerCbor r).encode, ?_⟩
  · rw [Archive.decode, h, ← hdecode, Archive.decode, unpacked_encode]
  · have hread : Frame.read (encode r blocks) =
        .frame (headerCbor r).encode (blocks.flatMap blockFrame) :=
      Frame.read_write_append hheader _
    refine ⟨(Frame.readAll (blocks.flatMap blockFrame)).1,
      (Frame.readAll (blocks.flatMap blockFrame)).2, ?_, isHeader_headerCbor hheader⟩
    rw [h, Frame.readAll_of_read, hread]

/-- An archive is read back as it was written: as it is, since its first bytes are not those of a
packed string; packed as a whole, whatever packs it to one member; and cut into pieces each of which is
packed, one member after the other. -/
theorem readAs_encode {pack : Bytes → Bytes} (hpack : ∀ data, Gzip.IsMember data (pack data))
    (hheader : (headerCbor r).encode.length ≤ Frame.limit.toNat) (hblocks : Readable blocks) :
    Gzip.isPacked (encode r blocks) = false ∧
    ReadAs (encode r blocks) r blocks ∧
    ReadAs (pack (encode r blocks)) r blocks ∧
    ∀ pieces zs : List Bytes, pieces.flatten = encode r blocks →
      List.Forall₂ Gzip.IsMember pieces zs → ReadAs zs.flatten r blocks := by
  have hpieces (pieces zs : List Bytes) (hcut : pieces.flatten = encode r blocks)
      (hmembers : List.Forall₂ Gzip.IsMember pieces zs) : ReadAs zs.flatten r blocks := by
    have hne : zs ≠ [] := by
      rintro rfl
      cases hmembers
      -- there is a header at least
      have hframe := congrArg List.length hcut
      have := List.length_pos_iff.mpr (Varint.encode_ne_nil (headerCbor r).encode.length)
      simp only [encode, headerFrame, Frame.write, List.flatten_nil, List.length_append,
        List.length_nil] at hframe
      omega
    obtain ⟨hpacked, hunpack⟩ := Gzip.unpack_flatten hmembers hne
    refine readAs_of_unpacked ?_ hheader hblocks
    rw [unpacked, hpacked, if_pos rfl, hunpack, hcut]
  refine ⟨isPacked_encode r blocks, readAs_of_unpacked (unpacked_encode r blocks) hheader hblocks,
    ?_, hpieces⟩
  have hwhole := hpieces [encode r blocks] [pack (encode r blocks)] (by simp)
    (.cons (hpack _) .nil)
  simpa using hwhole

private theorem branch_facts :
    (headerCbor ⟨branch.cid, [leaf.cid]⟩).encode.length ≤ Frame.limit.toNat ∧
      ([leaf, branch].all fun b => b.verify.isOk &&
        decide ((b.cid.toBytes ++ b.data).length ≤ Frame.limit.toNat)) = true := by
  decide +kernel

/-- The archive of two blocks, packed in stored blocks, as a whole and cut after its third byte. -/
theorem readAs_encode_branch :
    ReadAs (Gzip.pack (encode ⟨branch.cid, [leaf.cid]⟩ [leaf, branch]))
        ⟨branch.cid, [leaf.cid]⟩ [leaf, branch] ∧
    ReadAs (Gzip.pack ((encode ⟨branch.cid, [leaf.cid]⟩ [leaf, branch]).take 3) ++
      Gzip.pack ((encode ⟨branch.cid, [leaf.cid]⟩ [leaf, branch]).drop 3))
        ⟨branch.cid, [leaf.cid]⟩ [leaf, branch] := by
  obtain ⟨hheader, hall⟩ := branch_facts
  have hblocks : Readable [leaf, branch] := by
    intro b hb
    have hok := List.all_eq_true.mp hall b hb
    rw [Bool.and_eq_true, decide_eq_true_eq] at hok
    exact ⟨verify_of_isOk hok.1, hok.2⟩
  obtain ⟨-, -, hwhole, hcut⟩ := readAs_encode Gzip.isMember_pack hheader hblocks
  have hpieces := hcut [(encode ⟨branch.cid, [leaf.cid]⟩ [leaf, branch]).take 3,
    (encode ⟨branch.cid, [leaf.cid]⟩ [leaf, branch]).drop 3] _ (by simp)
    (.cons (Gzip.isMember_pack _) (.cons (Gzip.isMember_pack _) .nil))
  exact ⟨hwhole, by simpa using hpieces⟩

end ReplayVector.Archive
