import ReplayVector.Fixture.Transfers
import ReplayVector.Proofs.Archive.RoundTrip
import ReplayVector.Proofs.Archive.Walk
import ReplayVector.Proofs.Extraction.Runs
import ReplayVector.Proofs.Fixture.History
import ReplayVector.Proofs.Store.Stores

/-!
# Archives of what an execution reads

An execution goes from the root of its state along links, each in a block it has read before. So
the visit that writes its archive, which starts from the roots and follows links to nothing but
what was read, comes by everything that was read, and by nothing else.

* `Transfer.Course.collect`: what the visit comes by.
* `Transfer.Course.executes`, `Transfer.Course.misses`: the execution on the blocks of an archive, and
  without one of them.
* `Retained.accessedCids_archive`: archives of executions on states that come of a new one are
  exact, sufficient and minimal.
-/

namespace ReplayVector

open BlockM

/-- Memory that holds some blocks. -/
def Memory.ofBlocks (bs : List Block) : Memory := empty.putAll bs

namespace Memory

theorem get?_ofBlocks {bs : List Block} (hfree : CollisionFree fun b => b ∈ bs) {b : Block}
    (hb : b ∈ bs) : (ofBlocks bs).get? b.cid = some b.data := by
  have hempty := within_empty fun b => b ∈ bs
  exact get?_putAll_of_mem hfree hempty (fun _ h => h) hb

theorem mem_of_get?_ofBlocks {bs : List Block} {c : Cid} {data : Bytes}
    (h : (ofBlocks bs).get? c = some data) : ⟨c, data⟩ ∈ bs := by
  rcases mem_putAll (get?_eq_some h) with h | h
  · exact h
  · cases h

theorem within_ofBlocks (bs : List Block) : (ofBlocks bs).Within fun b => b ∈ bs :=
  (within_empty _).putAll fun _ h => h

/-- Without a block, nothing is held under its identifier. -/
theorem get?_ofBlocks_filter_ne {bs : List Block} (hfree : CollisionFree fun b => b ∈ bs) {b : Block}
    (hb : b ∈ bs) : (ofBlocks (bs.filter (· ≠ b))).get? b.cid = none := by
  cases hget : (ofBlocks (bs.filter (· ≠ b))).get? b.cid with
  | none => rfl
  | some data =>
    obtain ⟨hmem, hne⟩ := List.mem_filter.mp (mem_of_get?_ofBlocks hget)
    have heq : (⟨b.cid, data⟩ : Block) = b := hfree _ _ hmem hb rfl
    simp [heq] at hne

end Memory

namespace Archive

/-- The links of a tidy block that a visit follows. -/
theorem children_of_carries {b : Block} {v : Cbor} (h : b.Carries v) (follow : Cid → Bool) :
    children follow b = .ok (v.links.filter fun c => c.isStoredBlock && follow c) := by
  rw [children, if_pos h.codec, h.decode?]

end Archive

/-- A recorded part of a run that does not miss a block goes along its path. -/
theorem BlockM.Path.perform_traced {σ α : Type} {s : BlockStore (StateT Memory (StateM σ))}
    {blocks : Blocks} (hs : Serves s blocks) (hfree : CollisionFree blocks)
    {miss : Except Failure α → Prop} {p : BlockM α} {rs ws : List Block} {r : Except Failure α}
    (h : BlockM.Path miss p rs ws r) (hrs : ∀ b ∈ rs, blocks b ∧ b.cid.isIdentity = false)
    (hws : ∀ b ∈ ws, blocks b) {w w' : Standing σ} {r' : Except Failure α}
    (hw : w.memory.Within blocks) (hrun : w.perform (p.run s.traced) = (r', w')) (hr' : ¬miss r') :
    r' = r ∧ Went blocks rs ws w.record w'.record w.memory w'.memory := by
  obtain ⟨hresult, hstanding⟩ := Prod.mk.inj hrun
  have hpieces : p.run s.traced w.record w.memory w.chain =
      (((r', w'.record), w'.memory), w'.chain) := by
    rw [← hresult, ← hstanding]
    rfl
  exact h.run_traced hs hfree hrs hws hw hpieces hr'

namespace Transfer.Course

variable {blocks : Blocks} {e : Execution} {rs ws : List Block} {outcome : Outcome}

/-- Blocks that a closed visit contains are all that a chain of reads among them goes through. -/
private theorem chained_mem {follow : Cid → Bool} {bs rs : List Block} {known : Known}
    (hlinks : ∀ b ∈ bs, ∀ links, Archive.children follow b = .ok links →
      ∀ l ∈ links, Archive.Covered bs l)
    (hsame : ∀ b ∈ rs, b.cid ∈ bs.map (·.cid) → b ∈ bs) (hfollow : ∀ b ∈ rs, follow b.cid = true)
    (hchained : Chained known rs) (hknown : ∀ c, known c → follow c = true →
      c.codec = Cid.dagCbor → c.isIdentity = false → c ∈ bs.map (·.cid)) : ∀ b ∈ rs, b ∈ bs := by
  induction rs generalizing known with
  | nil => exact fun b hb => by cases hb
  | cons b rs ih =>
    obtain ⟨hb, v, hv, hrest⟩ := hchained
    have hmem : b ∈ bs := hsame b (List.mem_cons_self ..)
      (hknown b.cid hb (hfollow b (List.mem_cons_self ..)) hv.codec (hv.tame.isIdentity hv.codec))
    intro b' hb'
    rcases List.mem_cons.mp hb' with rfl | hb'
    · exact hmem
    · refine ih (fun b hb => hsame b (List.mem_cons_of_mem _ hb))
        (fun b hb => hfollow b (List.mem_cons_of_mem _ hb)) hrest ?_ b' hb'
      rintro c (hc | hc) hfollowed hcodec hid
      · exact hknown c hc hfollowed hcodec hid
      · -- a link of a visited block has been visited too
        have hstored : c.isStoredBlock = true := by
          rw [(hv.tidy.links c hc).isStoredBlock, hcodec]
          rfl
        have hcovered := hlinks b hmem _ (Archive.children_of_carries hv follow) c
          (List.mem_filter.mpr ⟨hc, by rw [hstored, hfollowed]; rfl⟩)
        rcases hcovered with hidentity | hvisited
        · rw [hid] at hidentity
          cases hidentity
        · exact hvisited

/-- A visit from the roots of an execution comes by a block that is a root. -/
private theorem root_visited (h : Course blocks e rs ws (.ok outcome))
    (hfree : CollisionFree (blocks.also ws)) {follow : Cid → Bool} {view : View} {P : Cid → Prop}
    {bs : List Block}
    (hvisited : Archive.Visited follow view P (Retained.roots e.preroot outcome).cids bs)
    (hbs : ∀ b ∈ bs, blocks.also ws b) {b : Block} (hb : blocks.also ws b)
    (hroot : b.cid = e.preroot ∨ b.cid = outcome.postroot) : b ∈ bs := by
  obtain ⟨v, hv, -⟩ := h.extends_.closed b hb
  have hmem : b.cid ∈ (Retained.roots e.preroot outcome).cids := by
    simpa [Retained.roots, Roots.cids] using hroot
  rcases hvisited.roots b.cid hmem with hid | hcid
  · rw [hv.tame.isIdentity hv.codec] at hid
    cases hid
  · obtain ⟨b', hb', heq⟩ := List.mem_map.mp hcid
    rw [← hfree _ _ (hbs b' hb') hb heq]
    exact hb'

/-- A visit from the roots of an execution that follows the links to what was read comes by all
that was read. -/
theorem read_visited (h : Course blocks e rs ws (.ok outcome))
    (hfree : CollisionFree (blocks.also ws)) {follow : Cid → Bool} {view : View} {P : Cid → Prop}
    {bs : List Block}
    (hvisited : Archive.Visited follow view P (Retained.roots e.preroot outcome).cids bs)
    (hbs : ∀ b ∈ bs, blocks.also ws b) (hfollow : ∀ b ∈ rs, follow b.cid = true) :
    ∀ b ∈ rs, b ∈ bs := by
  obtain ⟨first, hfirst, hpreroot⟩ := h.root
  refine chained_mem hvisited.links (fun b hb hcid => ?_) hfollow h.chained ?_
  · obtain ⟨b', hb', heq⟩ := List.mem_map.mp hcid
    rw [← hfree _ _ (hbs b' hb') (Or.inl (h.mem b hb)) heq]
    exact hb'
  · rintro c rfl - - -
    rw [← hpreroot]
    exact List.mem_map_of_mem
      (h.root_visited hfree hvisited hbs (Or.inl (h.mem first hfirst)) (Or.inl hpreroot))

/-- The visit from the roots of an execution over what was read comes by the roots, by all that
was read, and by nothing else. -/
theorem collect (h : Course blocks e rs ws (.ok outcome))
    (hfree : CollisionFree (blocks.also ws)) {reads : List Cid}
    (hreads : ∀ c, c ∈ reads ↔ c ∈ rs.map (·.cid)) :
    ∃ bs, BlockM.Path Archive.Missed
        (Archive.collect reads.contains (Retained.roots e.preroot outcome)) bs [] (.ok ⟨bs, none⟩) ∧
      (bs.map (·.cid)).Nodup ∧ (∀ b ∈ bs, blocks.also ws b) ∧ (∀ b ∈ rs, b ∈ bs) ∧
      ∀ c, c ∈ bs.map (·.cid) ↔ c = e.preroot ∨ c = outcome.postroot ∨ c ∈ reads := by
  obtain ⟨first, hfirst, hpreroot⟩ := h.root
  obtain ⟨last, hlast, hpostroot⟩ := h.postroot
  -- the blocks that the visit may come by
  have hall (b : Block) (hb : b ∈ last :: rs) : (blocks.also ws) b := by
    rcases List.mem_cons.mp hb with rfl | hb
    · exact hlast
    · exact Or.inl (h.mem b hb)
  have hfree' : CollisionFree fun b => b ∈ last :: rs := hfree.mono hall
  have hnames (c : Cid) : (c = e.preroot ∨ c = outcome.postroot ∨ c ∈ reads) ↔
      ∃ b ∈ last :: rs, b.cid = c := by
    constructor
    · rintro (rfl | rfl | hc)
      · exact ⟨first, List.mem_cons_of_mem _ hfirst, hpreroot⟩
      · exact ⟨last, List.mem_cons_self .., hpostroot⟩
      · obtain ⟨b, hb, rfl⟩ := List.mem_map.mp ((hreads c).mp hc)
        exact ⟨b, List.mem_cons_of_mem _ hb, rfl⟩
    · rintro ⟨b, hb, rfl⟩
      rcases List.mem_cons.mp hb with rfl | hb
      · exact Or.inr (Or.inl hpostroot)
      · exact Or.inr (Or.inr ((hreads _).mpr (List.mem_map_of_mem hb)))
  have hfollow (c : Cid) : Archive.following reads.contains (Retained.roots e.preroot outcome) c =
      true ↔ c = e.preroot ∨ c = outcome.postroot ∨ c ∈ reads := by
    simp [Archive.following, Retained.roots, Roots.cids, or_assoc]
  have hopen : Archive.Open (Archive.following reads.contains (Retained.roots e.preroot outcome))
      (Memory.ofBlocks (last :: rs)).get?
      (fun c => c = e.preroot ∨ c = outcome.postroot ∨ c ∈ reads) := by
    intro c hc _
    obtain ⟨b, hb, rfl⟩ := (hnames c).mp hc
    obtain ⟨v, hv, -⟩ := h.extends_.closed b (hall b hb)
    refine ⟨b.data, _, Memory.get?_ofBlocks hfree' hb, Archive.children_of_carries hv _, ?_⟩
    intro l hl
    have hl' := (List.mem_filter.mp hl).2
    rw [Bool.and_eq_true] at hl'
    exact (hfollow l).mp hl'.2
  have hroots : ∀ c ∈ (Retained.roots e.preroot outcome).cids,
      c = e.preroot ∨ c = outcome.postroot ∨ c ∈ reads := by
    simp [Retained.roots, Roots.cids]
  obtain ⟨bs, hpath, hvisited⟩ := Archive.collect_path hopen hroots
  have hbs (b : Block) (hb : b ∈ bs) : b ∈ last :: rs :=
    Memory.mem_of_get?_ofBlocks (hvisited.held b hb).2.2
  have hbs' (b : Block) (hb : b ∈ bs) : blocks.also ws b := hall b (hbs b hb)
  have hrs : ∀ b ∈ rs, b ∈ bs := h.read_visited hfree hvisited hbs' fun b hb =>
    (hfollow _).mpr (Or.inr (Or.inr ((hreads _).mpr (List.mem_map_of_mem hb))))
  refine ⟨bs, hpath, hvisited.nodup, hbs', hrs, fun c => ?_⟩
  rw [hnames]
  constructor
  · intro hc
    obtain ⟨b, hb, rfl⟩ := List.mem_map.mp hc
    exact ⟨b, hbs b hb, rfl⟩
  · rintro ⟨b, hb, rfl⟩
    refine List.mem_map_of_mem ?_
    rcases List.mem_cons.mp hb with rfl | hb
    · exact h.root_visited hfree hvisited hbs' hlast (Or.inr hpostroot)
    · exact hrs b hb

/-- On any blocks among which is all that it reads, the execution has the same outcome. -/
theorem executes (h : Course blocks e rs ws (.ok outcome)) {bs : List Block}
    (hfree : CollisionFree fun b => b ∈ bs) (hrs : ∀ b ∈ rs, b ∈ bs) (mode : WriteMode) :
    ((Memory.ofBlocks bs).exec (Transfer.engine { e with mode })).1 = .ok outcome := by
  have hpath := Transfer.engine_path h.apply mode
  rw [hpath.exec fun b hb => Memory.get?_ofBlocks hfree (hrs b hb)]

/-- Without one of the blocks that it reads, the execution fails. -/
theorem misses (h : Course blocks e rs ws (.ok outcome)) {bs : List Block}
    (hfree : CollisionFree fun b => b ∈ bs) (hrs : ∀ b ∈ rs, b ∈ bs) {b : Block} (hb : b ∈ rs)
    (mode : WriteMode) :
    ∃ f, ((Memory.ofBlocks (bs.filter (· ≠ b))).exec (Transfer.engine { e with mode })).1 =
      .error f := by
  have hpath := Transfer.engine_path h.apply mode
  have hwithin : (Memory.ofBlocks (bs.filter (· ≠ b))).Within fun b => b ∈ bs :=
    (Memory.within_ofBlocks _).mono fun b hb => (List.mem_filter.mp hb).1
  refine hpath.exec_miss (fun b' hb' => hwithin.get? hfree (hrs b' hb')) ⟨b, hb, ?_⟩
  exact Memory.get?_ofBlocks_filter_ne hfree (hrs b hb)

/-- Of the blocks of an archive, all but a new root were read. -/
theorem mem_reads (h : Course blocks e rs ws (.ok outcome)) (hfree : CollisionFree (blocks.also ws))
    {b : Block} (hb : blocks.also ws b)
    (hcid : b.cid = e.preroot ∨ b.cid = outcome.postroot ∨ b.cid ∈ rs.map (·.cid))
    (hold : b.cid = outcome.postroot → outcome.postroot = e.preroot) : b ∈ rs := by
  obtain ⟨b', hb', heq⟩ : ∃ b' ∈ rs, b'.cid = b.cid := by
    obtain ⟨first, hfirst, hpreroot⟩ := h.root
    rcases hcid with hcid | hcid | hcid
    · exact ⟨first, hfirst, hpreroot.trans hcid.symm⟩
    · exact ⟨first, hfirst, (hpreroot.trans (hold hcid).symm).trans hcid.symm⟩
    · exact List.mem_map.mp hcid
  rw [← hfree _ _ (Or.inl (h.mem b' hb')) hb heq]
  exact hb'

end Transfer.Course

namespace ReadRecord

/-- What is recorded of blocks that were found are their identifiers. -/
theorem reads_addAll (bs : List Block) (cs : List Cid) :
    ∃ reads, (ReadRecord.addAll ⟨some cs⟩ bs).reads = some reads ∧
      ∀ c, c ∈ reads ↔ c ∈ cs ∨ c ∈ bs.map (·.cid) := by
  induction bs generalizing cs with
  | nil => exact ⟨cs, rfl, by simp⟩
  | cons b bs ih =>
    obtain ⟨reads, hreads, hmem⟩ := ih (insertNew cs b.cid)
    refine ⟨reads, hreads, fun c => ?_⟩
    rw [hmem c, mem_insertNew, List.map_cons, List.mem_cons, or_assoc]

/-- A record that is started before the blocks are found lists them and nothing else. -/
theorem mem_finish_addAll_start (r : ReadRecord) (bs : List Block) (c : Cid) :
    c ∈ (r.start.addAll bs).finish.1 ↔ c ∈ bs.map (·.cid) := by
  obtain ⟨reads, hreads, hmem⟩ := reads_addAll bs []
  have hfinish : (r.start.addAll bs).finish.1 = reads := by
    show (ReadRecord.addAll ⟨some []⟩ bs).reads.getD [] = reads
    rw [hreads]
    rfl
  rw [hfinish, hmem]
  simp

end ReadRecord

namespace Retained

variable {σ : Type}

/-- What is retained of an outcome once the blocks of a visit are written. -/
abbrev archived (preroot : Cid) (outcome : Outcome) (bs : List Block) : Retained where
  preroot
  postroot := outcome.postroot
  receipt := outcome.receipt
  archive := Archive.encode (roots preroot outcome) bs

/-- Its archive is read as the two roots and the blocks. -/
theorem decode_archived {preroot : Cid} {outcome : Outcome} {bs : List Block}
    (h : ∀ b ∈ bs, ∃ v, b.Carries v) :
    Archive.decode (archived preroot outcome bs).archive = .ok {
      roots := roots preroot outcome, blocks := bs, whole := true } := by
  have hlength : (roots preroot outcome).cids.length = 2 := rfl
  exact Archive.decode_encode (Archive.length_headerCbor_le (by rw [hlength]; decide))
    (by rw [hlength]; decide) (Archive.readable_of_carries h)

private theorem written_path {preroot : Cid} {outcome : Outcome} {follow : Cid → Bool}
    {bs : List Block}
    (h : BlockM.Path Archive.Missed (Archive.collect follow (roots preroot outcome)) bs []
      (.ok ⟨bs, none⟩)) (cause : Cause) :
    BlockM.Path Failed ((do
        .ofExcept (ofOutcome preroot outcome (← Archive.Visit.archive (roots preroot outcome) <$>
          Archive.collect follow (roots preroot outcome))) : BlockM Retained).context cause) bs []
      (.ok (archived preroot outcome bs)) := by
  have harchive : BlockM.Path (fun r => ∃ written e, r = .ok written ∧ written.result = .error e)
      (Archive.Visit.archive (roots preroot outcome) <$>
        Archive.collect follow (roots preroot outcome)) (bs ++ []) []
      (.ok (Archive.Visit.archive (roots preroot outcome) ⟨bs, none⟩)) := by
    rw [map_eq]
    refine h.andThen (.done _) ?_
    rintro _ ⟨v, e, rfl, hv⟩
    exact ⟨_, rfl, _, e, rfl, by rw [Archive.Visit.archive, hv]⟩
  rw [List.append_nil] at harchive
  have hwritten : BlockM.Path Failed (do
      .ofExcept (ofOutcome preroot outcome (← Archive.Visit.archive (roots preroot outcome) <$>
        Archive.collect follow (roots preroot outcome))) : BlockM Retained) (bs ++ []) []
      (.ok (archived preroot outcome bs)) := by
    rw [bind_eq]
    refine harchive.andThen (.done _) ?_
    rintro _ ⟨written, e, rfl, hresult⟩
    refine ⟨_, rfl, e, ?_⟩
    rw [ofOutcome, hresult]
    rfl
  rw [List.append_nil] at hwritten
  have hcontext := hwritten.andThen (f := fun r => .done (r.mapError (Failure.context cause)))
    (.done _) (by
      rintro _ ⟨e, rfl⟩
      exact endsIn_failed _)
  rw [List.append_nil] at hcontext
  exact hcontext

/-- What is retained when the listed blocks are written. -/
theorem ofListed_path {preroot : Cid} {outcome : Outcome} {listed : List Cid} {bs : List Block}
    (h : BlockM.Path Archive.Missed (Archive.collect listed.contains (roots preroot outcome)) bs []
      (.ok ⟨bs, none⟩)) (cause : Cause) :
    BlockM.Path Failed ((ofListed preroot outcome listed).context cause) bs []
      (.ok (archived preroot outcome bs)) := written_path h cause

/-- What is retained when all reachable blocks are written. -/
theorem ofReachable_path {preroot : Cid} {outcome : Outcome} {bs : List Block}
    (h : BlockM.Path Archive.Missed (Archive.collect (fun _ => true) (roots preroot outcome)) bs []
      (.ok ⟨bs, none⟩)) (cause : Cause) :
    BlockM.Path Failed ((ofReachable preroot outcome).context cause) bs []
      (.ok (archived preroot outcome bs)) := written_path h cause

/-- A retention by reads, whatever is written in the end. -/
private def recorded (s : BlockStore (StateT Memory (StateM σ))) (engine : Engine) (e : Execution)
    (write : Outcome → List Cid → BlockM Retained) :
    ExceptT Fault (StateT ReadRecord (StateT Memory (StateM σ))) Retained := do
  (modify ReadRecord.start : StateT ReadRecord (StateT Memory (StateM σ)) Unit)
  let executed ← ExceptT.lift ((engine e).run s.traced)
  let reads ← (modifyGet ReadRecord.finish : StateT ReadRecord (StateT Memory (StateM σ)) (List Cid))
  match executed with
  | .error f => throw (.of .replay f)
  | .ok outcome => (Workspace.traced s).run .retention (write outcome reads)

private theorem perform_recorded (s : BlockStore (StateT Memory (StateM σ))) (engine : Engine)
    (e : Execution) (write : Outcome → List Cid → BlockM Retained) (w : Standing σ) :
    w.perform (recorded s engine e write).run =
      let executed := Standing.perform { w with record := w.record.start } ((engine e).run s.traced)
      let after := { executed.2 with record := executed.2.record.finish.2 }
      match executed.1 with
      | .error f => (.error (.of .replay f), after)
      | .ok outcome =>
        let written := after.perform ((write outcome executed.2.record.finish.1).run s.traced)
        (written.1.mapError (Fault.of .retention), written.2) := by
  have hexecuted : w.perform (recorded s engine e write).run =
      let executed := Standing.perform { w with record := w.record.start } ((engine e).run s.traced)
      executed.2.perform (ExceptT.run (do
        let reads ← (modifyGet ReadRecord.finish :
          StateT ReadRecord (StateT Memory (StateM σ)) (List Cid))
        match executed.1 with
        | .error f => throw (.of .replay f)
        | .ok outcome => (Workspace.traced s).run .retention (write outcome reads))) := rfl
  rw [hexecuted]
  dsimp only
  cases (Standing.perform { w with record := w.record.start } ((engine e).run s.traced)).1 <;> rfl

/-- A retention by reads records the execution, then writes the archive of what was read. -/
theorem perform_accessedCids (s : BlockStore (StateT Memory (StateM σ))) (engine : Engine)
    (e : Execution) (w : Standing σ) :
    w.perform (accessedCids (.traced s) engine e).run =
      let executed := Standing.perform { w with record := w.record.start } ((engine e).run s.traced)
      let after := { executed.2 with record := executed.2.record.finish.2 }
      match executed.1 with
      | .error f => (.error (.of .replay f), after)
      | .ok outcome =>
        let written := after.perform ((((ofListed e.preroot outcome executed.2.record.finish.1).context
          .writingTracedArchive)).run s.traced)
        (written.1.mapError (Fault.of .retention), written.2) :=
  perform_recorded s engine e (fun outcome reads =>
    (ofListed e.preroot outcome reads).context .writingTracedArchive) w

/-- What is read while a message is executed over a recording store. -/
def readsOf (backing : Backing σ) (w : Standing σ) (e : Execution) : List Cid :=
  (Standing.perform { w with record := w.record.start }
    ((Transfer.engine e).run backing.store.traced)).2.record.finish.1

/-- A recorded execution that ends well goes its course, and on record is what that reads. -/
theorem perform_course {blocks all : Blocks} {e : Execution} {rs ws : List Block}
    {r : Except Failure Outcome} (hcourse : Transfer.Course blocks e rs ws r)
    {s : BlockStore (StateT Memory (StateM σ))} (hs : Serves s all) (hfree : CollisionFree all)
    (hall : ∀ b, blocks.also ws b → all b) {w after : Standing σ} (hw : w.memory.Within all)
    {outcome : Outcome}
    (hrun : Standing.perform { w with record := w.record.start }
      ((Transfer.engine e).run s.traced) = (.ok outcome, after)) :
    r = .ok outcome ∧ after.memory.Within all ∧
      ∀ c, c ∈ after.record.finish.1 ↔ c ∈ rs.map (·.cid) := by
  have hreadable : ∀ b ∈ rs, all b ∧ b.cid.isIdentity = false := fun b hb =>
    ⟨hall b (Or.inl (hcourse.mem b hb)), hcourse.stored (Or.inl (hcourse.mem b hb))⟩
  have hws : ∀ b ∈ Transfer.kept e.mode ws, all b := fun b hb =>
    hall b (Or.inr (Transfer.mem_of_mem_kept hb))
  obtain ⟨hr, hwent⟩ := hcourse.engine.perform_traced (w := { w with record := w.record.start })
    hs hfree hreadable hws hw hrun (by rintro ⟨f, hf⟩; cases hf)
  refine ⟨hr.symm, hwent.within, fun c => ?_⟩
  rw [hwent.record_eq]
  exact w.record.mem_finish_addAll_start rs c

/-- A written archive is that of the blocks that its visit comes by. -/
private theorem eq_archived {all : Blocks} {s : BlockStore (StateT Memory (StateM σ))}
    (hs : Serves s all) (hfree : CollisionFree all) {preroot : Cid} {outcome : Outcome}
    {listed : List Cid} {bs : List Block} {cause : Cause}
    (hcollect : BlockM.Path Archive.Missed
      (Archive.collect listed.contains (roots preroot outcome)) bs [] (.ok ⟨bs, none⟩))
    (hbs : ∀ b ∈ bs, all b ∧ b.cid.isIdentity = false) {w w' : Standing σ}
    (hw : w.memory.Within all) {retained : Retained}
    (hrun : w.perform (((ofListed preroot outcome listed).context cause).run s.traced) =
      (.ok retained, w')) :
    retained = archived preroot outcome bs := by
  obtain ⟨hkept, -⟩ := (ofListed_path hcollect cause).perform_traced hs hfree hbs (by simp) hw hrun
    (by rintro ⟨f, hf⟩; cases hf)
  exact Except.ok.inj hkept

/-- All blocks that play a part when a message is executed: those that were computed for the state
before it, those that are computed for the state after it, and those that the store may hold. -/
def Involved (involved : List Block) (backing : Backing σ) (w : Standing σ) (e : Execution) :
    Blocks :=
  fun b => b ∈ involved ∨ b ∈ (Memory.ofBlocks involved).writes (Transfer.apply e) ∨
    b ∈ w.memory.blocks ∨ backing.Supplies b

/-- What is retained by reads of a message on a state that came of a new one, over a store that may
read through to a source: the archive is that of the two roots and of what was read; the message
can be executed on its blocks with the same outcome; and it cannot be if any of them, other than a
new root, is removed. -/
theorem accessedCids_archive {accounts : Nat} {held : Memory} {involved : List Block}
    {roots : List Cid} (history : Fixture.History accounts held involved roots)
    (backing : Backing σ) (w : Standing σ) {e : Execution} (hroot : e.preroot ∈ roots)
    (hfree : CollisionFree (Involved involved backing w e)) {retained : Retained}
    (h : (w.perform (accessedCids (.traced backing.store) Transfer.engine e).run).1 =
      .ok retained) :
    retained.preroot = e.preroot ∧
      ∃ blocks : List Block,
        Archive.decode retained.archive = .ok {
          roots := ⟨e.preroot, [retained.postroot]⟩, blocks, whole := true } ∧
        (blocks.map (·.cid)).Nodup ∧
        (∀ c, c ∈ blocks.map (·.cid) ↔
          c = e.preroot ∨ c = retained.postroot ∨ c ∈ readsOf backing w e) ∧
        (∀ mode, ((Memory.ofBlocks blocks).exec (Transfer.engine { e with mode })).1 =
          .ok { receipt := retained.receipt, postroot := retained.postroot }) ∧
        ∀ b ∈ blocks, (b.cid = retained.postroot → retained.postroot = e.preroot) →
          ∀ mode, ∃ f, ((Memory.ofBlocks (blocks.filter (· ≠ b))).exec
            (Transfer.engine { e with mode })).1 = .error f := by
  have hsound := history.sound (hfree.mono fun b hb => Or.inl hb)
  obtain ⟨rs, ws, r, hcourse⟩ := Transfer.exists_course hsound.closed e (hsound.roots _ hroot)
  have hinvolved : CollisionFree fun b => b ∈ involved := hfree.mono fun b hb => Or.inl hb
  have hserves := backing.serves hfree fun b hb => Or.inr (Or.inr (Or.inr hb))
  -- all blocks around the course play a part
  have hall : ∀ b, Blocks.also (fun b => b ∈ involved) ws b → Involved involved backing w e b := by
    have hwrites := Memory.writes_of_path hcourse.apply
      fun b hb => Memory.get?_ofBlocks hinvolved (hcourse.mem b hb)
    rintro b (hb | hb)
    · exact Or.inl hb
    · exact Or.inr (Or.inl (hwrites.symm ▸ hb))
  have hfree' := hfree.mono hall
  rw [perform_accessedCids] at h
  dsimp only at h
  rcases hexecuted : Standing.perform { w with record := w.record.start }
    ((Transfer.engine e).run backing.store.traced) with ⟨executed, after⟩
  rw [hexecuted] at h
  cases executed with
  | error f => cases h
  | ok outcome =>
    obtain ⟨rfl, hwithin, hreads⟩ := perform_course hcourse hserves hfree hall
      (fun b hb => Or.inr (Or.inr (Or.inl hb))) hexecuted
    have hreadsOf : readsOf backing w e = after.record.finish.1 := by rw [readsOf, hexecuted]
    obtain ⟨blocks, hcollect, hnodup, hblocks, hrs, hcids⟩ := hcourse.collect hfree' hreads
    have hdistinct : CollisionFree fun b => b ∈ blocks := hfree'.mono hblocks
    rcases hwritten : Standing.perform { after with record := after.record.finish.2 }
      (((ofListed e.preroot outcome after.record.finish.1).context .writingTracedArchive).run
        backing.store.traced) with ⟨written, last⟩
    dsimp only at h
    rw [hwritten] at h
    cases written with
    | error f => cases h
    | ok kept =>
      obtain rfl : kept = retained := Except.ok.inj h
      obtain rfl := eq_archived (w := { after with record := after.record.finish.2 }) hserves hfree
        hcollect (fun b hb => ⟨hall b (hblocks b hb), hcourse.stored (hblocks b hb)⟩) hwithin hwritten
      refine ⟨rfl, blocks, decode_archived fun b hb => hcourse.carries (hblocks b hb), hnodup,
        hreadsOf ▸ hcids, fun mode => hcourse.executes hdistinct hrs mode, ?_⟩
      intro b hb hpostroot mode
      have hcid := (hcids b.cid).mp (List.mem_map_of_mem hb)
      rw [hreads] at hcid
      have hread : b ∈ rs := hcourse.mem_reads hfree' (hblocks b hb) hcid hpostroot
      exact hcourse.misses hdistinct hrs hread mode

/-! ## A small state

A state without accounts, on which the reward actor pays the actor that holds burnt funds. -/

/-- The payment. -/
def samplePayment (root : Cid) : Execution :=
  Fixture.execution root
    (Fixture.Payment.send ⟨.reward, .id .reward⟩ ⟨.burnt, .id .burnt⟩ 0 5)

/-- All blocks that play a part. -/
private def sampleBlocks (s : Fixture.State) (held : Memory) : List Block :=
  let involved := Memory.empty.writes (Fixture.newState 0)
  involved ++ (Memory.ofBlocks involved).writes (Transfer.apply (samplePayment s.root)) ++
    held.blocks

/-- The payment on the state that is held, over a store with nothing behind it. -/
private def sampleRun (s : Fixture.State) (held : Memory) : Except Fault Retained :=
  (Standing.perform (σ := Unit) ⟨.off, held, ()⟩
    (accessedCids (.traced (Backing.store .none)) Transfer.engine (samplePayment s.root)).run).1

set_option maxRecDepth 20000 in
private theorem sample_runs :
    (match Memory.empty.exec (Fixture.newState 0) with
      | (.ok s, held) =>
        Block.areDistinct (sampleBlocks s held) && (sampleRun s held).toOption.isSome
      | _ => false) = true := by
  decide +kernel

/-- The payment can be executed on nothing but the blocks of its archive. -/
theorem accessedCids_archive_payment :
    ∃ (s : Fixture.State) (held : Memory) (retained : Retained) (blocks : List Block),
      Memory.empty.exec (Fixture.newState 0) = (.ok s, held) ∧
      Archive.decode retained.archive = .ok {
        roots := ⟨s.root, [retained.postroot]⟩, blocks, whole := true } ∧
      ((Memory.ofBlocks blocks).exec (Transfer.engine (samplePayment s.root))).1 =
        .ok { receipt := retained.receipt, postroot := retained.postroot } := by
  have hruns := sample_runs
  split at hruns
  · next s held hstate =>
    rw [Bool.and_eq_true] at hruns
    obtain ⟨hdistinct, hrun⟩ := hruns
    cases hretained : sampleRun s held with
    | error f =>
      rw [hretained] at hrun
      cases hrun
    | ok retained =>
      have hfree : CollisionFree (Involved (Memory.empty.writes (Fixture.newState 0)) .none
          (⟨.off, held, ()⟩ : Standing Unit) (samplePayment s.root)) := by
        refine (CollisionFree.of_areDistinct hdistinct).mono fun b hb => ?_
        rcases hb with hb | hb | hb | hb
        · exact List.mem_append_left _ (List.mem_append_left _ hb)
        · exact List.mem_append_left _ (List.mem_append_right _ hb)
        · exact List.mem_append_right _ hb
        · exact hb.elim
      obtain ⟨-, blocks, hdecode, -, -, hexec, -⟩ := accessedCids_archive (.created hstate) .none
        (⟨.off, held, ()⟩ : Standing Unit) (e := samplePayment s.root)
        (List.mem_singleton_self _) hfree hretained
      exact ⟨s, held, retained, blocks, hstate, hdecode, hexec .writeThrough⟩
  · cases hruns

end Retained

end ReplayVector
