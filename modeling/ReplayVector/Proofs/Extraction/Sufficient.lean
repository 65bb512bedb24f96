import ReplayVector.Proofs.Archive.Reload
import ReplayVector.Proofs.Execution.Trails
import ReplayVector.Proofs.Extraction.Traced
import ReplayVector.Proofs.Gzip.RoundTrip

/-!
# Archives that are enough

An archive that holds all that an execution reads passes the check that executes the message once
more on nothing but its blocks. Both ways to cut out the state lead to such an archive: what has
been read is visited when only that is followed, and when all links are.

* `Archive.Suffices`: the blocks of such an archive.
* `Transfer.Course.suffices_listed`, `Transfer.Course.suffices_reachable`: what is retained.
* `Extractor.checkArchive_of_suffices`: the check.
-/

namespace ReplayVector

open BlockM

variable {blocks : Blocks} {e : Execution} {rs ws bs : List Block} {outcome : Outcome}

-- ---------------------------------------------------------------------------
-- What is retained
-- ---------------------------------------------------------------------------

/-- Some of the blocks around an execution, each once, with all that the execution reads. -/
structure Archive.Suffices (blocks : Blocks) (rs bs : List Block) : Prop where
  nodup : (bs.map (·.cid)).Nodup
  mem : ∀ b ∈ bs, blocks b
  reads : ∀ b ∈ rs, b ∈ bs

/-- What the visit of the listed blocks gives, when those that were read are listed. -/
theorem Transfer.Course.suffices_listed (h : Course blocks e rs ws (.ok outcome))
    (hfree : CollisionFree (blocks.also ws)) {reads : List Cid}
    (hreads : ∀ c, c ∈ reads ↔ c ∈ rs.map (·.cid)) (cause : Cause) :
    ∃ bs, BlockM.Path Failed ((Retained.ofListed e.preroot outcome reads).context cause) bs []
        (.ok (Retained.archived e.preroot outcome bs)) ∧
      Archive.Suffices (blocks.also ws) rs bs := by
  obtain ⟨bs, hpath, hnodup, hbs, hrs, -⟩ := h.collect hfree hreads
  exact ⟨bs, Retained.ofListed_path hpath cause, hnodup, hbs, hrs⟩

/-- What the visit of all that is reachable from the roots of an execution gives. -/
theorem Transfer.Course.suffices_reachable (h : Course blocks e rs ws (.ok outcome))
    (hfree : CollisionFree (blocks.also ws)) {m : Memory} (hm : m.Holds (blocks.also ws))
    (cause : Cause) :
    ∃ bs, BlockM.Path Failed ((Retained.ofReachable e.preroot outcome).context cause) bs []
        (.ok (Retained.archived e.preroot outcome bs)) ∧
      Archive.Suffices (blocks.also ws) rs bs := by
  -- a visit that starts among the blocks stays among them
  have hopen : Archive.Open
      (Archive.following (fun _ => true) (Retained.roots e.preroot outcome)) m.get?
      (blocks.also ws).names := by
    rintro c ⟨b, hb, rfl⟩ -
    obtain ⟨v, hv, hlinks⟩ := h.extends_.closed b hb
    refine ⟨b.data, _, hm b hb, Archive.children_of_carries hv _, fun l hl => ?_⟩
    obtain ⟨hlink, hstored⟩ := List.mem_filter.mp hl
    have hcodec : l.codec = Cid.dagCbor := by
      rw [(hv.tidy.links l hlink).isStoredBlock] at hstored
      simpa [Archive.following] using hstored
    exact (hlinks l hlink).2 hcodec
  have hroots : ∀ c ∈ (Retained.roots e.preroot outcome).cids, (blocks.also ws).names c := by
    obtain ⟨first, hfirst, hpreroot⟩ := h.root
    intro c hc
    simp only [Retained.roots, Roots.cids, List.mem_cons, List.not_mem_nil, or_false] at hc
    rcases hc with rfl | rfl
    · exact ⟨first, Or.inl (h.mem first hfirst), hpreroot⟩
    · exact h.postroot
  -- what it comes by is held under the identifier of one of the blocks, so it is that block
  obtain ⟨bs, hpath, hvisited⟩ := Archive.collect_path hopen hroots
  have hbs : ∀ b ∈ bs, blocks.also ws b := by
    intro b hb
    obtain ⟨⟨b', hb', hcid⟩, -, hdata⟩ := hvisited.held b hb
    have hdata' := hm b' hb'
    rw [hcid, hdata] at hdata'
    obtain ⟨cid, data⟩ := b
    obtain ⟨cid', data'⟩ := b'
    cases hcid
    cases hdata'
    exact hb'
  have hrs : ∀ b ∈ rs, b ∈ bs :=
    h.read_visited hfree hvisited hbs fun b _ => by simp [Archive.following]
  exact ⟨bs, Retained.ofReachable_path hpath cause, hvisited.nodup, hbs, hrs⟩

-- ---------------------------------------------------------------------------
-- The check
-- ---------------------------------------------------------------------------

/-- A compressed archive is read as the archive. -/
theorem Archive.decode_pack (r : Roots) (bs : List Block) :
    decode (Gzip.pack (encode r bs)) = decode (encode r bs) := by
  have hpacked : unpacked (Gzip.pack (encode r bs)) = ⟨encode r bs, true⟩ := by
    rw [unpacked, Gzip.isPacked_pack, if_pos rfl, Gzip.unpack_pack]
  have hplain : unpacked (encode r bs) = ⟨encode r bs, true⟩ := by
    rw [unpacked, isPacked_encode]
    rfl
  rw [decode, decode, hpacked, hplain]

/-- What applying a message depends on of a setting is the base fee. -/
theorem Transfer.apply_execution {s : Setting} (hs : s.baseFee = Fixture.baseFee) (root : Cid)
    (message : Message) (mode : WriteMode) :
    apply (s.execution root message mode) = apply (Fixture.execution root message) := by
  cases s
  cases hs
  rfl

/-- An engine that need not keep anything back applies the message. -/
theorem Transfer.engine_writeThrough {s : Setting} (hs : s.baseFee = Fixture.baseFee) (root : Cid)
    (message : Message) :
    engine (s.execution root message .writeThrough) = apply (Fixture.execution root message) :=
  apply_execution hs root message .writeThrough

/-- An archive that holds all that an execution reads passes the check. -/
theorem Extractor.checkArchive_of_suffices {s : Setting} (hs : s.baseFee = Fixture.baseFee)
    {preroot : Cid} {message : Message}
    (hcourse : Transfer.Course blocks (Fixture.execution preroot message) rs ws (.ok outcome))
    (h : Archive.Suffices (blocks.also ws) rs bs) :
    checkArchive Transfer.engine s message (Retained.archived preroot outcome bs)
      (Gzip.pack (Retained.archived preroot outcome bs).archive) = .ok () := by
  have hcarries : ∀ b ∈ bs, ∃ v, b.Carries v := fun b hb => hcourse.carries (h.mem b hb)
  -- the archive is read as its blocks
  have hdecode : Archive.decode (Gzip.pack (Retained.archived preroot outcome bs).archive) = .ok {
      roots := Retained.roots preroot outcome, blocks := bs, whole := true } := by
    rw [Archive.decode_pack]
    exact Retained.decode_archived hcarries
  have hload := Archive.exec_load hdecode rfl (fun b hb => by
    obtain ⟨v, hv⟩ := hcarries b hb
    exact hv.verify) .empty
  have hheld : Memory.empty.putAll bs = ⟨bs⟩ := Memory.putAll_of_nodup h.nodup
  have hsize : ¬(⟨bs⟩ : Memory).size = 0 := by
    obtain ⟨b, hb, -⟩ := hcourse.root
    exact fun hnil => List.ne_nil_of_mem (h.reads b hb) (List.length_eq_zero_iff.mp hnil)
  -- on these, the message goes the way it went
  have hpath : BlockM.Path Failed (Transfer.apply (s.execution preroot message .buffered)) rs ws
      (.ok outcome) := by
    rw [Transfer.apply_execution hs]
    exact hcourse.apply
  have hexec : ((⟨bs⟩ : Memory).exec
      (Transfer.engine (s.execution preroot message .buffered))).1 = .ok outcome := by
    rw [Transfer.exec_engine, hpath.exec fun b hb => Memory.get?_of_mem h.nodup (h.reads b hb)]
  have hreplay : replayArchive Transfer.engine (s.execution preroot message .buffered)
      (Gzip.pack (Retained.archived preroot outcome bs).archive) = .ok outcome := by
    rw [replayArchive, hload]
    dsimp only [withContext, Except.mapError]
    rw [hheld, if_neg hsize, hexec]
  rw [checkArchive, hreplay]
  exact if_pos rfl

end ReplayVector
