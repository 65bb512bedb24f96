import ReplayVector.Proofs.Execution.Masking
import ReplayVector.Proofs.Extraction.Stages
import ReplayVector.Proofs.State.MaskLinks

/-!
# The stage that masks the state

A stage that keeps the state of the actors that a message touches masks the state, applies the
message to what is left, and writes an archive of that. On a chain that holds the state nothing of
this fails: masks of new states have room for all keys, the message touches nothing that was left
out, and what it reads is reachable from the masked root.

* `Transfer.MaskedRun`: a message on a masked state, in memory.
* `Extractor.runFrom_executeTarget_actors`: the stage.
-/

namespace ReplayVector

open BlockM Fixture

variable {blocks : Blocks} {objects : Memory} {retain : List Address} {preroot : Cid}
  {message : Message} {outcome : Outcome}

-- ---------------------------------------------------------------------------
-- In memory
-- ---------------------------------------------------------------------------

/-- The blocks that are computed when a state is masked and a message applied to what is left. -/
def maskBlocks (objects : Memory) (preroot : Cid) (retain : List Address) (message : Message) :
    List Block :=
  objects.writes (StateTree.mask preroot retain) ++
    match objects.exec (StateTree.mask preroot retain) with
    | (.ok masked, objects') => objects'.writes (Transfer.apply (Fixture.execution masked message))
    | (.error _, _) => []

namespace Transfer

/-- A message is applied to what a state is masked to, with the receipt that it has on the state. -/
structure MaskedRun (blocks : Blocks) (objects : Memory) (preroot : Cid) (retain : List Address)
    (message : Message) (receipt : Receipt) (masked : Cid) (objects' : Memory)
    (rs ws : List Block) (part : Outcome) : Prop where
  answers : objects.Answers (StateTree.mask preroot retain)
  mask : objects.exec (StateTree.mask preroot retain) = (.ok masked, objects')
  within : objects'.Within (blocks.also (maskBlocks objects preroot retain message))
  holds : objects'.Holds (blocks.also (objects.writes (StateTree.mask preroot retain)))
  course : Course (blocks.also (objects.writes (StateTree.mask preroot retain)))
    (Fixture.execution masked message) rs ws (.ok part)
  written : ∀ b ∈ ws, b ∈ maskBlocks objects preroot retain message
  receipt : part.receipt = receipt

/-- Masking finds all blocks that it reads among those that are held, and what it writes joins
them. -/
private theorem masking_extends (hblocks : blocks.Closed) (hroot : blocks.names preroot)
    (hwithin : objects.Within blocks) (hholds : objects.Holds blocks)
    (hfree : CollisionFree (blocks.also (objects.writes (StateTree.mask preroot retain))))
    {masked : Cid} {objects' : Memory}
    (hmask : objects.exec (StateTree.mask preroot retain) = (.ok masked, objects')) :
    objects.Answers (StateTree.mask preroot retain) ∧
      objects'.Holds (blocks.also (objects.writes (StateTree.mask preroot retain))) ∧
      (blocks.also (objects.writes (StateTree.mask preroot retain))).Closed ∧
      (blocks.also (objects.writes (StateTree.mask preroot retain))).names masked := by
  have hknown : Known.Within (fun c => c = preroot) blocks := by
    rintro c rfl -
    exact hroot
  have hgrounded : (StateTree.mask preroot retain).Grounded
      (onValue fun known masked => known.Stores masked) (fun c => c = preroot) :=
    @StateTree.grounded_mask (fun c => c = preroot) preroot rfl retain
  have hwithin' : objects.Within
      (blocks.also (objects.writes (StateTree.mask preroot retain))) :=
    hwithin.mono fun b hb => Or.inl hb
  have hextends := Memory.exec_grounded hgrounded hblocks hknown hwithin
  refine ⟨?_, ?_, hextends.closed, ?_⟩
  · exact hgrounded.answers hblocks hknown hfree (fun b hb => Or.inl hb) hwithin' hholds
      fun b hb => Or.inr hb
  · have hmemory := Memory.exec_snd objects (StateTree.mask preroot retain)
    rw [hmask] at hmemory
    rw [show objects' = _ from hmemory]
    exact hholds.putAll hfree hwithin' fun b hb => Or.inr hb
  · obtain ⟨known, hreached, hpost⟩ := hextends.reached
    rw [hmask] at hpost
    have hstored := hpost masked rfl
    exact hreached masked hstored.1 hstored.2

/-- A message that was applied to a state can be applied to what is left of it, if nothing is left
out that the message touches. -/
theorem Applies.masked (h : Applies blocks (Fixture.execution preroot message) outcome)
    (hblocks : blocks.Closed) (hroot : blocks.names preroot) (hwithin : objects.Within blocks)
    (hholds : objects.Holds blocks) {base : StateTree.Base} {L : Ledger}
    (hL : StateTree.Stores True objects.get? base L preroot)
    (hm : Ledger.Touching retain message) (hregistry : .id .registry ∈ retain)
    (hfree : CollisionFree (blocks.also (maskBlocks objects preroot retain message))) :
    ∃ masked objects' rs ws part, MaskedRun blocks objects preroot retain message outcome.receipt
      masked objects' rs ws part := by
  obtain ⟨masked, objects', hmask, hto⟩ :=
    (StateTree.exec_mask hL hregistry).resolve_right fun h => h.2.2 trivial
  have hmaskBlocks : maskBlocks objects preroot retain message =
      objects.writes (StateTree.mask preroot retain) ++
        objects'.writes (apply (Fixture.execution masked message)) := by
    rw [maskBlocks, hmask]
  have hsub : ∀ b, blocks.also (objects.writes (StateTree.mask preroot retain)) b →
      blocks.also (maskBlocks objects preroot retain message) b := fun b hb => by
    rw [hmaskBlocks]
    exact hb.imp_right (List.mem_append_left _)
  obtain ⟨hanswers, hholds', hclosed, hnames⟩ :=
    masking_extends hblocks hroot hwithin hholds (hfree.mono hsub) hmask
  have hto := hto _ hfree (hwithin.mono fun b hb => Or.inl hb) fun b hb => hsub b (Or.inr hb)
  -- the message on the state that was masked, which is still held, and on what is left of it
  obtain ⟨base', M, hmasks, hM⟩ := hto.stores
  have hL' : StateTree.Stores True objects'.get? base L preroot :=
    ⟨hL.actors.mono hto.keeps, hL.registered.mono hto.keeps⟩
  obtain ⟨rs, ws, hcourse, hws⟩ := h
  have hread : ∀ b ∈ rs, objects'.get? b.cid = some b.data :=
    fun b hb => hholds' b (Or.inl (hcourse.mem b hb))
  have hwrites : ∀ b ∈ objects'.writes (apply (Fixture.execution preroot message)),
      blocks.also (maskBlocks objects preroot retain message) b := by
    rw [Memory.writes_of_path hcourse.apply hread]
    exact fun b hb => Or.inl (hws b hb)
  obtain ⟨part, hpart, hreceipt⟩ := exec_apply_agrees hL' hM hmasks.agree hm hfree hto.within
    hwrites (congrArg Prod.fst (hcourse.apply.exec hread))
  -- the way that it goes there
  obtain ⟨rs', ws', r, hcourse'⟩ := exists_course hclosed (Fixture.execution masked message) hnames
  have hread' : ∀ b ∈ rs', objects'.get? b.cid = some b.data :=
    fun b hb => hholds' b (hcourse'.mem b hb)
  have hpart' : (objects'.exec (apply (Fixture.execution masked message))).1 = .ok part := hpart
  rw [hcourse'.apply.exec hread'] at hpart'
  obtain rfl : r = .ok part := hpart'
  refine ⟨masked, objects', rs', ws', part, hanswers, hmask, hto.within, hholds', hcourse', ?_,
    hreceipt⟩
  rw [hmaskBlocks, Memory.writes_of_path hcourse'.apply hread']
  exact fun b hb => List.mem_append_right _ hb

end Transfer

-- ---------------------------------------------------------------------------
-- In a run
-- ---------------------------------------------------------------------------

/-- A run that masks a state, applies a message to what is left, and writes the archive of that. -/
private theorem perform_accessedActors {w : Standing Chain} {ch : Chain} {s : Setting}
    (hs : s.baseFee = baseFee) (hgives : Gives Chain.node.readBlock ch.objects.get? ch)
    {receipt : Receipt} {masked : Cid} {objects' : Memory} {rs ws : List Block} {part : Outcome}
    (h : Transfer.MaskedRun blocks ch.objects preroot retain message receipt masked objects' rs ws
      part)
    (hfree : CollisionFree (blocks.also (maskBlocks ch.objects preroot retain message)))
    (hw : w.Over ch ch.objects) :
    ∃ bs w', w.perform (Retained.accessedActors extractor.workspace extractor.engine
        (s.execution preroot message .writeThrough) retain).run =
          (.ok (Retained.archived masked part bs), w') ∧ w'.chain = ch ∧
      Archive.Suffices
        ((blocks.also (ch.objects.writes (StateTree.mask preroot retain))).also ws) rs bs := by
  have hmasking : ch.objects.exec ((StateTree.mask preroot retain).context (.maskingTree preroot)) =
      (.ok masked, objects') := by
    rw [Memory.exec_context, h.mask]
    rfl
  obtain ⟨w₁, hfirst, hover₁⟩ := hw.run_ok hgives (h.answers.context _) hmasking .retention
  -- the message on the masked state
  have hpath : BlockM.Path Failed (Transfer.engine (s.execution masked message .writeThrough)) rs ws
      (.ok part) := by
    rw [Transfer.engine_writeThrough hs]
    exact h.course.apply
  obtain ⟨w₂, hsecond, hover₂⟩ := hover₁.run_path hgives hpath
    (fun b hb => h.holds b (h.course.mem b hb))
    (fun b hb => h.course.stored (Or.inl (h.course.mem b hb))) .replay
  -- the archive of what is left
  have hall : ∀ b, (blocks.also (ch.objects.writes (StateTree.mask preroot retain))).also ws b →
      blocks.also (maskBlocks ch.objects preroot retain message) b := by
    rintro b ((hb | hb) | hb)
    · exact Or.inl hb
    · exact Or.inr (List.mem_append_left _ hb)
    · exact Or.inr (h.written b hb)
  have hholds := h.holds.putAll hfree h.within fun b hb => Or.inr (h.written b hb)
  obtain ⟨bs, hwritten, hbs⟩ :=
    h.course.suffices_reachable (hfree.mono hall) hholds .writingMaskedArchive
  obtain ⟨w₃, hthird, hover₃⟩ := hover₂.run_path hgives hwritten
    (fun b hb => hholds b (hbs.mem b hb)) (fun b hb => h.course.stored (hbs.mem b hb)) .retention
  refine ⟨bs, w₃, ?_, hover₃.chain, hbs⟩
  refine (Standing.perform_bind_ok hfirst _).trans ?_
  exact (Standing.perform_bind_ok hsecond _).trans hthird

namespace Extractor

/-- A stage that keeps the actors that are touched gives the receipt of the message, and an archive
that is enough. -/
theorem runFrom_executeTarget_actors {w : Standing Chain} {ch : Chain} {s : Setting}
    (hs : s.baseFee = baseFee) (hgives : Gives Chain.node.readBlock ch.objects.get? ch)
    {r : Resolved} {accessed : List Address}
    (haccessed : (accessedAddresses Chain.node r.message r.inclusion.key).run ch =
      (.ok accessed, ch))
    {receipt : Receipt} {masked : Cid} {objects' : Memory} {rs ws : List Block} {part : Outcome}
    (h : Transfer.MaskedRun blocks ch.objects preroot (retainList accessed) r.message receipt masked
      objects' rs ws part)
    (hfree : CollisionFree
      (blocks.also (maskBlocks ch.objects preroot (retainList accessed) r.message)))
    (hw : w.Over ch ch.objects) :
    ∃ bs w', (extractor.executeTarget .accessedActors s r preroot).runFrom w =
        (.ok (Retained.archived masked part bs), w') ∧ w'.chain = ch ∧
      checkArchive Transfer.engine s r.message (Retained.archived masked part bs)
        (Gzip.pack (Retained.archived masked part bs).archive) = .ok () := by
  obtain ⟨bs, w', hperform, hchain, hbs⟩ := perform_accessedActors hs hgives h hfree hw
  have hasked : (RunM.asking .executeTarget .retention
      (accessedAddresses extractor.node r.message r.inclusion.key)).runFrom w =
        (.ok accessed, w) := by
    refine RunM.runFrom_asking_ok ?_ _ _
    rw [hw.chain]
    exact haccessed
  refine ⟨bs, w', ?_, hchain, checkArchive_of_suffices hs h.course hbs⟩
  rw [executeTarget, RunM.runFrom_bind_ok (runFrom_checkpoint_ok _ w)]
  dsimp only
  rw [RunM.runFrom_bind_ok hasked]
  exact RunM.runFrom_inStage_ok hperform _

end Extractor

end ReplayVector
