import ReplayVector.Proofs.Extraction.Gate
import ReplayVector.Proofs.Extraction.Selection
import ReplayVector.Proofs.Extraction.Sufficient
import ReplayVector.Proofs.Fixture.Chain

/-!
# The stages of a run over a chain of two tipsets

The node of a chain that is held answers every question about its messages, and never changes the
chain. What a run keeps of the chain's blocks, together with those that the chain holds, is one
memory: the run stands over it. Each stage gets its answers and goes on to stand over the memory
that it leaves.

* `Standing.Over`: where a run over a chain stands.
* `Standing.Over.run`: a computation that finds every block.
* `Extractor.runFrom_resolve`, `Extractor.runFrom_replayPrecursors`, …: the stages.
-/

namespace ReplayVector

open BlockM Fixture

variable {α β : Type}

-- ---------------------------------------------------------------------------
-- Questions
-- ---------------------------------------------------------------------------

/-- What extracts vectors of transfers from a chain that is held. -/
def Fixture.extractor : Extractor (StateM Chain) where
  node := Chain.node
  engine := Transfer.engine
  cancelled := pure false

/-- A question that the chain answers. -/
theorem run_queryFor {ch : Chain} {q : Question α} {a : α} (h : ch.answer q = .ok a) (c : Cause) :
    (Chain.node.queryFor c q).run ch = (.ok a, ch) := by
  show (withContext c (ch.answer q), ch) = _
  rw [h]
  rfl

namespace Extractor

theorem runFrom_checkpoint_ok (s : Stage) (w : Standing Chain) :
    (extractor.checkpoint s).runFrom w = (.ok (), w) := by
  rw [runFrom_checkpoint]
  rfl

variable {accounts : Nat} {make : Fixture.State → Option (List Message)} {t : TwoTipsets}
  {state : Fixture.State} {receipts : List Receipt} {root : Cid} {n : NamedMessage}
  {receipt : Receipt} {w : Standing Chain}

/-- The messages of the tipset that includes a message are executed in this setting. -/
def settingOf (t : TwoTipsets) : Setting where
  epoch := t.execution.height
  circSupply := t.chain.circSupply
  baseFee := t.inclusion.parentBaseFee
  networkVersion := t.chain.networkVersion
  timestamp := t.inclusion.minTimestamp

private theorem run_search (h : t.Makes accounts make state receipts root)
    (hnodup : (t.messages.map (·.cid)).Nodup) (hn : (n, receipt) ∈ t.messages.zip receipts) :
    (Resolved.search Chain.node n.cid).run t.chain = (.ok (t.execution, t.inclusion), t.chain) := by
  obtain ⟨-, hsearch, -⟩ := h.message hnodup hn
  have hexecution : (Chain.node.query (.tipset t.execution.key)).run t.chain =
      (.ok t.execution, t.chain) := congrArg (·, t.chain) h.tipset_execution
  have hinclusion : t.chain.answer (.tipset t.inclusion.key) = .ok t.inclusion := h.tipset_inclusion
  have hparents : t.execution.parentsKey? = some t.inclusion.key := by
    rw [Tipset.parentsKey?, h.parents]
    rfl
  rw [Resolved.search, run_question_bind_ok (run_queryFor hsearch _)]
  dsimp only [lookupIn]
  rw [run_question_bind_ok hexecution, hparents]
  dsimp only
  rw [run_question_bind_ok (run_queryFor hinclusion _)]
  rfl

private theorem run_around (h : t.Makes accounts make state receipts root) :
    (Resolved.around Chain.node t.inclusion.key.first).run t.chain =
      (.ok (t.execution, t.inclusion), t.chain) := by
  have hheight : t.inclusion.first.height = inclusionHeight := h.inclusion_height
  have hmax : inclusionHeight ≠ Int64.maxValue := by decide
  have hexecution : t.chain.answer (.tipsetAt (inclusionHeight + 1) none) = .ok t.execution :=
    h.tipsetAt_execution
  have hinclusion : t.chain.answer (.tipsetAt inclusionHeight (some t.execution.key)) =
      .ok t.inclusion := h.tipsetAt_inclusion
  rw [Resolved.around, run_question_bind_ok (run_queryFor h.block_inclusion _), hheight,
    if_neg hmax, run_question_bind_ok (run_queryFor hexecution _),
    run_question_bind_ok (run_queryFor hinclusion _)]
  rfl

/-- A message is located with a hint or without. -/
private theorem run_locate (h : t.Makes accounts make state receipts root)
    (hnodup : (t.messages.map (·.cid)).Nodup) (hn : (n, receipt) ∈ t.messages.zip receipts)
    {hint : Option Cid} (hhint : hint = none ∨ hint = some t.inclusion.key.first) :
    (Resolved.locate Chain.node n.cid hint).run t.chain =
      (.ok ⟨n.message, t.execution, t.inclusion⟩, t.chain) := by
  obtain ⟨hmessage, -, -⟩ := h.message hnodup hn
  have hparents : t.inclusion.key.lists t.execution.parents = true := by
    rw [h.parents, TipsetKey.lists, beq_self_eq_true]
  rw [Resolved.locate, run_question_bind_ok (run_queryFor hmessage _)]
  -- both ways lead to the same tipsets
  rcases hhint with rfl | rfl
  · rw [run_question_bind_ok (run_search h hnodup hn)]
    dsimp only
    rw [if_pos hparents]
    rfl
  · rw [run_question_bind_ok (run_around h)]
    dsimp only
    rw [if_pos hparents]
    rfl

/-- The first stage locates the message and learns the setting of its execution. -/
theorem runFrom_resolve (h : t.Makes accounts make state receipts root)
    (hnodup : (t.messages.map (·.cid)).Nodup) (hn : (n, receipt) ∈ t.messages.zip receipts)
    {request : ExtractionRequest} (hcid : request.cid = n.cid)
    (hhint : request.block = none ∨ request.block = some t.inclusion.key.first)
    (hw : w.chain = t.chain) :
    (extractor.resolve request).runFrom w =
      (.ok (⟨n.message, t.execution, t.inclusion⟩, settingOf t), w) := by
  have hsupply : t.chain.answer (.circulatingSupply t.inclusion.key) = .ok t.chain.circSupply := by
    rw [Chain.answer, h.tipset_inclusion]
    rfl
  have hversion : t.chain.answer (.networkVersion t.execution.key) =
      .ok t.chain.networkVersion := by
    rw [Chain.answer, h.tipset_execution]
    rfl
  rw [resolve, RunM.runFrom_bind_ok (runFrom_checkpoint_ok _ w)]
  refine RunM.runFrom_asking_ok ?_ _ _
  rw [hw, hcid]
  refine (run_question_bind_ok (run_locate h hnodup hn hhint) _).trans ?_
  refine (run_question_bind_ok (a := settingOf t) ?_ _).trans rfl
  show (Setting.ofTipsets Chain.node ⟨n.message, t.execution, t.inclusion⟩).run t.chain = _
  rw [Setting.ofTipsets, run_question_bind_ok (run_queryFor hsupply _),
    run_question_bind_ok (run_queryFor hversion _)]
  rfl

/-- All messages before the wanted one are selected. -/
private theorem select_all {pre post : List NamedMessage}
    (hpre : ∀ p ∈ pre, p.cid ≠ n.cid ∧ p.message ≠ n.message) :
    Selection.select .all n.cid n.message (pre ++ n :: post) = ⟨pre ++ [n], true⟩ := by
  have hnone : ∀ p ∈ pre, ¬Selection.Wanted n.cid n.message p := fun p hp hwanted =>
    hwanted.elim (hpre p hp).1 (hpre p hp).2
  have hkept : PrecursorChoice.all.kept n.message pre = pre := by simp [PrecursorChoice.kept]
  rw [Selection.select_append hnone, Selection.select_cons_of_wanted (Or.inl rfl), hkept]

/-- The second stage selects the messages before the wanted one. -/
theorem runFrom_selectPrecursors (h : t.Makes accounts make state receipts root)
    {pre post : List NamedMessage} (hmessages : t.messages = pre ++ n :: post)
    (hcids : (t.messages.map (·.cid)).Nodup) (hcontents : (t.messages.map (·.message)).Nodup)
    {request : ExtractionRequest} (hcid : request.cid = n.cid) (hall : request.precursors = .all)
    (hw : w.chain = t.chain) :
    (extractor.selectPrecursors request ⟨n.message, t.execution, t.inclusion⟩).runFrom w =
      (.ok pre, w) := by
  have hpre : ∀ p ∈ pre, p.cid ≠ n.cid ∧ p.message ≠ n.message := by
    intro p hp
    rw [hmessages, List.map_append, List.nodup_append] at hcids hcontents
    exact ⟨hcids.2.2 _ (List.mem_map_of_mem hp) _ (List.mem_cons_self ..),
      hcontents.2.2 _ (List.mem_map_of_mem hp) _ (List.mem_cons_self ..)⟩
  have hlisted : (RunM.asking .selectPrecursors .resolution (extractor.node.queryFor
      .gettingParentMessages (.parentMessages t.execution.key.first))).runFrom w =
        (.ok t.messages, w) := by
    refine RunM.runFrom_asking_ok ?_ _ _
    rw [hw]
    exact run_queryFor h.parentMessages _
  rw [selectPrecursors, RunM.runFrom_bind_ok (runFrom_checkpoint_ok _ w),
    RunM.runFrom_bind_ok hlisted, hmessages, hall, hcid]
  dsimp only
  rw [select_all hpre, Selection.target_of_found, Selection.precursors_of_found]
  rfl

end Extractor

-- ---------------------------------------------------------------------------
-- Blocks
-- ---------------------------------------------------------------------------

/-- A run stands over a memory: nothing has happened to the chain, and what is kept together with
what the chain holds is that memory. -/
structure Standing.Over (w : Standing Chain) (ch : Chain) (m : Memory) : Prop where
  chain : w.chain = ch
  mirrors : Memory.Mirrors ch.objects.get? w.memory m

variable {ch : Chain} {blocks : Blocks} {w : Standing Chain} {m m' : Memory}

theorem Standing.over_initial (ch : Chain) : (Standing.initial ch).Over ch ch.objects :=
  ⟨rfl, Memory.Mirrors.of_empty ch.objects⟩

theorem Standing.Over.of_same (h : w.Over ch m) (hsame : m'.get? = m.get?) : w.Over ch m' := by
  refine ⟨h.chain, fun c => ?_⟩
  rw [hsame]
  exact h.mirrors c

theorem Standing.Over.recording (h : w.Over ch m) (record : ReadRecord) :
    Standing.Over { w with record } ch m := ⟨h.chain, h.mirrors⟩

/-- A chain gives the blocks of its states. -/
theorem gives_objects (hblocks : blocks.Closed) (hobjects : ch.objects.Within blocks) :
    Gives Chain.node.readBlock ch.objects.get? ch := by
  intro c data hdata
  obtain ⟨v, hv, -⟩ := hblocks _ (hobjects _ (Memory.get?_eq_some hdata))
  refine ⟨?_, hv.verify⟩
  show (ch.answer (.object c), ch) = _
  rw [Chain.answer, hdata]
  rfl

/-- A computation that finds every block does what it does in memory. -/
theorem Standing.Over.run (h : w.Over ch m)
    (hgives : Gives Chain.node.readBlock ch.objects.get? ch) {p : BlockM α} (hp : m.Answers p) :
    ∃ w', w.perform (p.run extractor.workspace.store) = ((m.exec p).1, w') ∧
      w'.Over ch (m.exec p).2 ∧
      w'.record = (m.reads p).foldl (fun record c => record.add c) w.record := by
  obtain ⟨record, memory, chain⟩ := w
  obtain ⟨rfl, hmirrors⟩ := h
  obtain ⟨memory', hrun, hmirrors'⟩ := hp.run_readThrough hgives hmirrors record
  refine ⟨⟨(m.reads p).foldl (fun record c => record.add c) record, memory', chain⟩, ?_,
    ⟨rfl, hmirrors'⟩, rfl⟩
  have hpieces : p.run extractor.workspace.store record memory chain = _ := hrun
  rw [Standing.perform, hpieces]

theorem perform_workspace (w : Standing Chain) (kind : List Cause → Fault) (p : BlockM α) :
    w.perform (extractor.workspace.run kind p).run =
      ((w.perform (p.run extractor.workspace.store)).1.mapError (Fault.of kind),
        (w.perform (p.run extractor.workspace.store)).2) := rfl

/-- The same, as a step of a run. -/
theorem Standing.Over.run_ok (h : w.Over ch m)
    (hgives : Gives Chain.node.readBlock ch.objects.get? ch) {p : BlockM α} (hp : m.Answers p)
    {a : α} (hexec : m.exec p = (.ok a, m')) (kind : List Cause → Fault) :
    ∃ w', w.perform (extractor.workspace.run kind p).run = (.ok a, w') ∧ w'.Over ch m' := by
  obtain ⟨w', hperform, hover, -⟩ := h.run hgives hp
  rw [hexec] at hperform hover
  refine ⟨w', ?_, hover⟩
  rw [perform_workspace, hperform]
  rfl

/-- A computation that goes along a path over blocks that are held. -/
theorem Standing.Over.run_path (h : w.Over ch m)
    (hgives : Gives Chain.node.readBlock ch.objects.get? ch) {p : BlockM α} {rs ws : List Block}
    {a : α} (hp : BlockM.Path Failed p rs ws (.ok a)) (hrs : ∀ b ∈ rs, m.get? b.cid = some b.data)
    (hstored : ∀ b ∈ rs, b.cid.isIdentity = false) (kind : List Cause → Fault) :
    ∃ w', w.perform (extractor.workspace.run kind p).run = (.ok a, w') ∧
      w'.Over ch (m.putAll ws) := by
  have hanswers := (hp.answers hrs hstored).1
  exact h.run_ok hgives hanswers (hp.exec hrs) kind

namespace Extractor

/-- The third stage applies the messages of a trail, and ends with the root that it leads to. -/
theorem runFrom_replayPrecursors {s : Setting} (hs : s.baseFee = baseFee)
    (hgives : Gives Chain.node.readBlock ch.objects.get? ch) (hholds : ch.objects.Holds blocks)
    {ps : List NamedMessage} {receipts : List Receipt} {first last : Cid}
    (htrail : Transfer.Trail blocks first (ps.map (·.message)) receipts last)
    (hw : w.Over ch ch.objects) (index : Nat) :
    ∃ w', (extractor.replayPrecursors s index ps first).runFrom w = (.ok last, w') ∧
      w'.Over ch ch.objects := by
  -- by induction on the messages. Each one keeps blocks and writes some, but the chain holds them
  -- all, so the run stands over the same blocks afterwards.
  induction ps generalizing first receipts w index with
  | nil =>
    cases htrail
    exact ⟨w, rfl, hw⟩
  | cons p ps ih =>
    rw [List.map_cons] at htrail
    cases htrail with
    | @cons _ _ _ _ receipts outcome happlies hrest =>
      obtain ⟨hanswers, m', hexec, hsame⟩ := happlies.run hholds
      rw [← Transfer.apply_execution hs first p.message .writeThrough] at hanswers hexec
      have hcontext : ch.objects.exec ((Transfer.apply (s.execution first p.message
          .writeThrough)).context (.replayingPrecursor index p.cid)) = (.ok outcome, m') := by
        rw [Memory.exec_context, hexec]
        rfl
      obtain ⟨w₁, hrun, hover⟩ := hw.run_ok hgives (hanswers.context _) hcontext .replay
      obtain ⟨w', hreplay, hover'⟩ := ih hrest (hover.of_same hsame.symm) (index + 1)
      refine ⟨w', ?_, hover'⟩
      rw [replayPrecursors, RunM.runFrom_bind_ok (runFrom_checkpoint_ok _ w)]
      exact (RunM.runFrom_bind_ok (RunM.runFrom_inStage_ok hrun _) _).trans hreplay

/-- The execution of a message is recorded: all that it reads is listed, and nothing else. -/
private theorem perform_recording {s : Setting} (hs : s.baseFee = baseFee)
    (hgives : Gives Chain.node.readBlock ch.objects.get? ch) {preroot : Cid} {message : Message}
    {rs ws : List Block} {outcome : Outcome}
    (hcourse : Transfer.Course blocks (Fixture.execution preroot message) rs ws (.ok outcome))
    (hheld : ∀ b ∈ rs, m.get? b.cid = some b.data) (hw : w.Over ch m) :
    ∃ w', Standing.perform { w with record := w.record.start }
        ((Transfer.engine (s.execution preroot message .writeThrough)).run
          (ReadThrough.store Chain.node.readBlock).traced) = (.ok outcome, w') ∧
      w'.Over ch (m.putAll ws) ∧ ∀ c, c ∈ w'.record.finish.1 ↔ c ∈ rs.map (·.cid) := by
  obtain ⟨hanswers, hreads⟩ := hcourse.apply.answers hheld
    fun b hb => hcourse.stored (Or.inl (hcourse.mem b hb))
  obtain ⟨w', hperform, hover, hrecord⟩ := (hw.recording w.record.start).run hgives hanswers
  rw [hcourse.apply.exec hheld] at hperform hover
  refine ⟨w', ?_, hover, ?_⟩
  · rw [Transfer.engine_writeThrough hs]
    exact hperform
  · intro c
    rw [hreads, List.foldl_map] at hrecord
    rw [hrecord]
    exact w.record.mem_finish_addAll_start rs c

/-- A run that records an execution, and writes the archive of what was read. -/
private theorem perform_accessedCids {s : Setting} (hs : s.baseFee = baseFee)
    (hfree : CollisionFree blocks) (hgives : Gives Chain.node.readBlock ch.objects.get? ch)
    (hholds : ch.objects.Holds blocks) {preroot : Cid} {message : Message} {rs ws : List Block}
    {outcome : Outcome}
    (hcourse : Transfer.Course blocks (Fixture.execution preroot message) rs ws (.ok outcome))
    (hws : ∀ b ∈ ws, blocks b) (hw : w.Over ch ch.objects) :
    ∃ bs w', w.perform (Retained.accessedCids extractor.workspace extractor.engine
        (s.execution preroot message .writeThrough)).run =
          (.ok (Retained.archived preroot outcome bs), w') ∧ w'.chain = ch ∧
      Archive.Suffices (blocks.also ws) rs bs := by
  have hall : ∀ b, blocks.also ws b → blocks b := fun b hb => hb.elim id (hws b)
  obtain ⟨w₁, hexecuted, hover₁, hreads⟩ := perform_recording hs hgives hcourse
    (fun b hb => hholds b (hcourse.mem b hb)) hw
  -- the chain holds what was computed, so it holds the archive's blocks
  have hover₁' : w₁.Over ch ch.objects :=
    hover₁.of_same (Memory.get?_putAll_held fun b hb => hholds b (hws b hb)).symm
  obtain ⟨bs, hwritten, hbs⟩ :=
    hcourse.suffices_listed (hfree.mono hall) hreads .writingTracedArchive
  obtain ⟨w₂, hwrite, hover₂⟩ := (hover₁'.recording w₁.record.finish.2).run_path hgives hwritten
    (fun b hb => hholds b (hall b (hbs.mem b hb))) (fun b hb => hcourse.stored (hbs.mem b hb))
    .retention
  refine ⟨bs, w₂, ?_, hover₂.chain, hbs⟩
  refine (Retained.perform_accessedCids (ReadThrough.store Chain.node.readBlock) Transfer.engine _
    w).trans ?_
  rw [perform_workspace] at hwrite
  rw [hexecuted]
  exact hwrite

/-- A stage that keeps the blocks that are read gives the outcome, and an archive that is enough. -/
theorem runFrom_executeTarget_cids {s : Setting} (hs : s.baseFee = baseFee)
    (hfree : CollisionFree blocks) (hgives : Gives Chain.node.readBlock ch.objects.get? ch)
    (hholds : ch.objects.Holds blocks) {preroot : Cid} {r : Resolved} {outcome : Outcome}
    (happlies : Transfer.Applies blocks (Fixture.execution preroot r.message) outcome)
    (hw : w.Over ch ch.objects) :
    ∃ bs w', (extractor.executeTarget .accessedCids s r preroot).runFrom w =
        (.ok (Retained.archived preroot outcome bs), w') ∧ w'.chain = ch ∧
      checkArchive Transfer.engine s r.message (Retained.archived preroot outcome bs)
        (Gzip.pack (Retained.archived preroot outcome bs).archive) = .ok () := by
  obtain ⟨rs, ws, hcourse, hws⟩ := happlies
  obtain ⟨bs, w', hperform, hchain, hbs⟩ :=
    perform_accessedCids hs hfree hgives hholds hcourse hws hw
  refine ⟨bs, w', ?_, hchain, checkArchive_of_suffices hs hcourse hbs⟩
  rw [executeTarget, RunM.runFrom_bind_ok (runFrom_checkpoint_ok _ w)]
  exact RunM.runFrom_inStage_ok hperform _

/-- The comparison with the receipt of the chain passes if it is the receipt. -/
theorem runFrom_verifyReceipt_matched {w : Standing Chain} {r : Resolved} {c : Cid}
    {receipt : Receipt}
    (hanswer : w.chain.answer (.receipt c r.execution.key) = .ok (some receipt)) :
    (extractor.verifyReceipt c r receipt).runFrom w = (.ok .matched, w) := by
  have hnone : receipt.mismatches receipt = [] :=
    (Receipt.mismatches_eq_nil _ _).mpr ⟨rfl, rfl, rfl⟩
  have hcancelled : extractor.cancelled w.chain = (false, w.chain) := rfl
  have hask : extractor.node.ask (.receipt c r.execution.key) w.chain =
      (.ok (some receipt), w.chain) := congrArg (·, w.chain) hanswer
  rw [extractor.runFrom_verifyReceipt hcancelled, hask]
  dsimp only
  rw [Receipt.check_matched hnone]
  rfl

/-- A vector whose archive is enough comes out of the last stage, with the roots of what is
retained. -/
theorem runFrom_assemble_ok (w : Standing Chain) (request : ExtractionRequest) {r : Resolved}
    {s : Setting} {retained : Retained} {message : Bytes}
    (hmessage : r.message.encode? = some message)
    (hcheck : checkArchive Transfer.engine s r.message retained (Gzip.pack retained.archive) =
      .ok ()) :
    ∃ gen, (extractor.assemble request r s retained).runFrom w =
      (.ok (vector request gen s message retained (Gzip.pack retained.archive)), w) := by
  have hnetwork : (RunM.asking .assemble .resolution (extractor.node.queryFor .gettingNetworkName
      .networkName)).runFrom w = (.ok w.chain.networkName, w) :=
    RunM.runFrom_asking_ok (run_queryFor rfl _) _ _
  have hversion : (RunM.asking .assemble .resolution (extractor.node.queryFor .gettingNodeVersion
      .nodeVersion)).runFrom w = (.ok w.chain.nodeVersion, w) :=
    RunM.runFrom_asking_ok (run_queryFor rfl _) _ _
  have hchecked : (RunM.ofExcept .assemble (checkArchive extractor.engine s r.message retained
      (Gzip.pack retained.archive)) : RunM (StateM Chain) Unit).runFrom w = (.ok (), w) := by
    rw [RunM.runFrom_ofExcept, show extractor.engine = Transfer.engine from rfl, hcheck]
    rfl
  refine ⟨provenance w.chain.networkName w.chain.nodeVersion request.cid r, ?_⟩
  rw [assemble, RunM.runFrom_bind_ok (runFrom_checkpoint_ok _ w), RunM.runFrom_bind_ok hnetwork,
    RunM.runFrom_bind_ok hversion, hmessage]
  exact RunM.runFrom_bind_ok hchecked _

end Extractor

end ReplayVector
