import ReplayVector.Proofs.Extraction.Stages
import ReplayVector.Proofs.Extraction.Steady
import ReplayVector.Proofs.Extraction.Traced

/-!
# Runs that crash

A node may answer anything, or nothing at all. A run of the engine for transfers crashes on two of
its answers: on the header of the hinted block, if it is at the last height there is, so that there
is no height above; and on a message that has the last sequence number there is, if it comes to be
executed. On all other answers a run ends with a vector or with a fault that says what went wrong.

* `RunM.Steady`: parts of a run that do not crash.
* `Extractor.extract_crashes`: when a run crashes.
-/

namespace ReplayVector

open BlockM

variable {σ α β : Type}

-- a visit is not to be run to its limit
attribute [local irreducible] Archive.visitLimit

-- ---------------------------------------------------------------------------
-- Steps
-- ---------------------------------------------------------------------------

/-- A failure that is no crash makes a fault that is none. -/
theorem Uncrashed.fault_of_error {f : Failure} (h : Uncrashed (.error f : Except Failure α))
    {kind : List Cause → Fault} (hkind : ∀ causes, kind causes ≠ .crashed) :
    (.error (.of kind f) : Except Fault β) ≠ .error .crashed := by
  cases f with
  | because causes => exact fun heq => hkind causes (Except.error.inj heq)
  | crash => exact absurd rfl h

/-- So does a result. -/
theorem Uncrashed.fault {r : Except Failure α} (h : Uncrashed r) {kind : List Cause → Fault}
    (hkind : ∀ causes, kind causes ≠ .crashed) : r.mapError (Fault.of kind) ≠ .error .crashed := by
  cases r with
  | ok a => exact fun heq => nomatch heq
  | error f => exact h.fault_of_error hkind

/-- Wherever the run stands, the step does not crash. -/
def SteadyStep (p : ExceptT Fault (StateT ReadRecord (StateT Memory (StateM σ))) α) : Prop :=
  ∀ w : Standing σ, (w.perform p.run).1 ≠ .error .crashed

/-- Steady steps make up a steady step. -/
theorem SteadyStep.bind {p : ExceptT Fault (StateT ReadRecord (StateT Memory (StateM σ))) α}
    {f : α → ExceptT Fault (StateT ReadRecord (StateT Memory (StateM σ))) β} (hp : SteadyStep p)
    (hf : ∀ a, SteadyStep (f a)) : SteadyStep (p >>= f) := by
  intro w
  have hbind : w.perform (p >>= f).run =
      (w.perform p.run).2.perform (ExceptT.bindCont f (w.perform p.run).1) := rfl
  have hsteady := hp w
  rw [hbind]
  cases hrun : (w.perform p.run).1 with
  | error e =>
    rw [hrun] at hsteady
    exact fun heq => hsteady (error_eq_congr.mp heq)
  | ok a => exact hf a _

variable {s : BlockStore (StateT Memory (StateM σ))}

/-- A steady computation is a steady step over a steady store. -/
theorem steadyStep_run (hs : s.Steady) {kind : List Cause → Fault}
    (hkind : ∀ causes, kind causes ≠ .crashed) {p : BlockM α} (hp : p.Steady) :
    SteadyStep ((Workspace.traced s).run kind p) := by
  intro w
  exact (Always.run_traced hs hp w.record w.memory w.chain).fault hkind

namespace Retained

variable {e : Execution}

/-- Retaining by blocks is steady for every message with a successor of its sequence number. -/
theorem steady_accessedCids (hs : s.Steady) (h : e.message.sequence + 1 ≠ 0) :
    SteadyStep (accessedCids (.traced s) Transfer.engine e) := by
  intro w
  have hexecuted : Uncrashed (Standing.perform { w with record := w.record.start }
      ((Transfer.engine e).run s.traced)).1 :=
    Always.run_traced hs (Transfer.steady_engine h) _ _ _
  rw [perform_accessedCids]
  dsimp only
  cases hrun : (Standing.perform { w with record := w.record.start }
      ((Transfer.engine e).run s.traced)).1 with
  | error f =>
    rw [hrun] at hexecuted
    exact hexecuted.fault_of_error (by simp)
  | ok outcome =>
    exact Uncrashed.fault (Always.run_traced hs ((steady_ofListed _ _ _).context _) _ _ _) (by simp)

/-- So is retaining by actors, which masks the tree first. -/
theorem steady_accessedActors (hs : s.Steady) (h : e.message.sequence + 1 ≠ 0)
    (retain : List Address) : SteadyStep (accessedActors (.traced s) Transfer.engine e retain) := by
  refine (steadyStep_run hs (by simp) ((StateTree.steady_mask _ _).context _)).bind
    fun preroot => ?_
  have hengine := Transfer.steady_engine (e := { e with preroot }) h
  refine (steadyStep_run hs (by simp) hengine).bind fun outcome => ?_
  exact steadyStep_run hs (by simp) ((steady_ofReachable _ _).context _)

end Retained

/-- Asking for a trial run does not crash where the node does not. -/
theorem steadyInquiry_accessedAddresses {n : Node (StateM σ)} (hn : n.Steady) (m : Message)
    (key : TipsetKey) : SteadyInquiry (accessedAddresses n m key) := by
  refine (steadyInquiry_queryFor hn _ _).bind fun run => ?_
  exact steadyInquiry_pure _

/-- Nor do the questions about the network. -/
theorem Setting.steadyInquiry_ofTipsets {n : Node (StateM σ)} (hn : n.Steady) (r : Resolved) :
    SteadyInquiry (ofTipsets n r) := by
  refine (steadyInquiry_queryFor hn _ _).bind fun _ => ?_
  exact (steadyInquiry_queryFor hn _ _).bind fun _ => steadyInquiry_pure _

-- ---------------------------------------------------------------------------
-- Parts of a run
-- ---------------------------------------------------------------------------

namespace RunM

/-- Wherever it starts, the part of a run does not crash. -/
def Steady (p : RunM (StateM σ) α) : Prop :=
  ∀ w stage, (p.runFrom w).1 ≠ .error { stage, fault := .crashed }

variable {p : RunM (StateM σ) α} {f : α → RunM (StateM σ) β} {stage : Stage}

theorem steady_pure (a : α) : (pure a : RunM (StateM σ) α).Steady := fun _ _ h => nomatch h

/-- Ending with a fault that is no crash is steady. -/
theorem steady_throw {g : StageFault} (h : g.fault ≠ .crashed) :
    (throw g : RunM (StateM σ) α).Steady := by
  intro _ _ heq
  exact h (congrArg StageFault.fault (Except.error.inj heq))

/-- A run that fails does so in its first part, or after this has ended well. -/
theorem of_bind_error {w : Standing σ} {g : StageFault}
    (h : ((p >>= f).runFrom w).1 = .error g) :
    (p.runFrom w).1 = .error g ∨
      ∃ a w', p.runFrom w = (.ok a, w') ∧ ((f a).runFrom w').1 = .error g := by
  rw [runFrom_bind] at h
  rcases hrun : p.runFrom w with ⟨e | a, w'⟩
  · rw [hrun] at h
    exact Or.inl (error_eq_congr.mp h)
  · rw [hrun] at h
    exact Or.inr ⟨a, w', rfl, h⟩

/-- Steady runs make up a steady run. -/
theorem Steady.bind (hp : p.Steady) (hf : ∀ a, (f a).Steady) : (p >>= f).Steady := by
  intro w stage h
  rcases of_bind_error h with h | ⟨a, w', -, h⟩
  · exact hp w stage h
  · exact hf a w' stage h

/-- A steady step is steady in any stage. -/
theorem steady_inStage {p : ExceptT Fault (StateT ReadRecord (StateT Memory (StateM σ))) α}
    (h : SteadyStep p) : (inStage stage p).Steady := by
  intro w stage'
  have hstep := h w
  rw [runFrom_inStage]
  cases hrun : (w.perform p.run).1 with
  | error fault =>
    rw [hrun] at hstep
    intro heq
    cases heq
    exact hstep rfl
  | ok a => exact fun heq => nomatch heq

theorem steady_ofExcept {r : Except Fault α} (h : r ≠ .error .crashed) :
    (ofExcept stage r : RunM (StateM σ) α).Steady := steady_inStage fun _ => h

/-- So is a stage that asks what does not crash. -/
theorem steady_asking {kind : List Cause → Fault} (hkind : ∀ causes, kind causes ≠ .crashed)
    {q : ExceptT Failure (StateM σ) α} (h : SteadyInquiry q) : (asking stage kind q).Steady := by
  refine steady_inStage fun w => ?_
  exact (h w.chain).fault hkind

/-- A stage that asks crashes exactly where its question does, and says which stage it is. -/
theorem asking_crashes_iff {kind : List Cause → Fault} (hkind : ∀ causes, kind causes ≠ .crashed)
    {q : ExceptT Failure (StateM σ) α} {w : Standing σ} {stage' : Stage} :
    ((asking stage kind q).runFrom w).1 = .error { stage := stage', fault := .crashed } ↔
      stage' = stage ∧ (q.run w.chain).1 = .error .crash := by
  rw [runFrom_asking]
  rcases (q.run w.chain).1 with (causes | _) | a
  · constructor
    · exact fun h => absurd (congrArg StageFault.fault (Except.error.inj h)) (hkind causes)
    · exact fun h => nomatch h.2
  · constructor
    · exact fun h => ⟨(congrArg StageFault.stage (Except.error.inj h)).symm, rfl⟩
    · rintro ⟨rfl, -⟩
      rfl
  · constructor
    · exact fun h => nomatch h
    · exact fun h => nomatch h.2

end RunM

-- ---------------------------------------------------------------------------
-- The stages
-- ---------------------------------------------------------------------------

namespace Extractor

/-- The replay from the archive runs in memory, which does not crash. -/
theorem replayArchive_ne_crashed {e : Execution} (h : e.message.sequence + 1 ≠ 0) (car : Bytes) :
    replayArchive Transfer.engine e car ≠ .error .crashed := by
  have hloaded :=
    Uncrashed.withContext (Always.exec (Archive.steady_load car) .empty) .loadingArchive
  unfold replayArchive
  rcases hload : Memory.empty.exec (Archive.load car) with ⟨loaded, held⟩
  rw [hload] at hloaded
  have hreplayed :=
    Uncrashed.withContext (Always.exec (Transfer.steady_engine h) held) .replayingArchive
  dsimp only
  split
  · next f hf =>
    rw [hf] at hloaded
    exact hloaded.fault_of_error (by simp)
  · split
    · exact fun heq => nomatch heq
    · split
      · next f hf =>
        rw [hf] at hreplayed
        exact hreplayed.fault_of_error (by simp)
      · exact fun heq => nomatch heq

/-- Nor does the comparison after it. -/
theorem checkArchive_ne_crashed {m : Message} (h : m.sequence + 1 ≠ 0) (s : Setting)
    (r : Retained) (car : Bytes) :
    checkArchive Transfer.engine s m r car ≠ .error .crashed := by
  have hreplay := replayArchive_ne_crashed (e := s.execution r.preroot m .buffered) h car
  unfold checkArchive
  cases hrun : replayArchive Transfer.engine (s.execution r.preroot m .buffered) car with
  | error f =>
    rw [hrun] at hreplay
    exact fun heq => hreplay (error_eq_congr.mp heq)
  | ok outcome =>
    dsimp only [bind, Except.bind]
    split
    · exact fun heq => nomatch heq
    · exact fun heq => nomatch heq

variable (x : Extractor (StateM σ))

theorem steady_checkpoint (stage : Stage) : (x.checkpoint stage).Steady := by
  intro w stage'
  rw [runFrom_checkpoint]
  split
  · exact fun heq => nomatch congrArg StageFault.fault (Except.error.inj heq)
  · exact fun heq => nomatch heq

/-- The node answers for the message and for the block that is the hint, and the block is at the
last height there is. -/
def HintsLastHeight (request : ExtractionRequest) (s : σ) : Prop :=
  ∃ c, x.cancelled s = (false, c) ∧ ∃ block message c' header c'', request.block = some block ∧
    x.node.ask (.message request.cid) c = (.ok message, c') ∧
    x.node.ask (.block block) c' = (.ok header, c'') ∧ header.height = Int64.maxValue

/-- The messages that a run has to execute, in their order. -/
def schedule (request : ExtractionRequest) : RunM (StateM σ) (List Message) := do
  let (r, _) ← x.resolve request
  let precursors ← x.selectPrecursors request r
  return precursors.map (·.message) ++ [r.message]

/-- A run has to execute a message whose sequence number is the last one there is. -/
def SchedulesLastSequence (request : ExtractionRequest) (s : σ) : Prop :=
  ∃ ms, ((x.schedule request).runFrom (.initial s)).1 = .ok ms ∧ ∃ m ∈ ms, m.sequence + 1 = 0

section Steady

variable {x} (hnode : x.node.Steady)
include hnode

/-- Locating the message crashes in one case. -/
theorem resolve_crashes_iff (request : ExtractionRequest) (w : Standing σ) (stage : Stage) :
    ((x.resolve request).runFrom w).1 = .error { stage, fault := .crashed } ↔
      stage = .resolve ∧ x.HintsLastHeight request w.chain := by
  rw [resolve, RunM.runFrom_bind, runFrom_checkpoint]
  rcases hcancelled : x.cancelled w.chain with ⟨_ | _, c⟩
  · have hsetting (r : Resolved) : SteadyInquiry (do return (r, ← Setting.ofTipsets x.node r) :
        ExceptT Failure (StateM σ) (Resolved × Setting)) :=
      (Setting.steadyInquiry_ofTipsets hnode r).bind fun _ => steadyInquiry_pure _
    refine (RunM.asking_crashes_iff (by simp)).trans (and_congr_right fun _ => ?_)
    rw [crashes_bind hsetting, Resolved.locate_crashes_iff hnode]
    constructor
    · exact fun h => ⟨c, hcancelled, h⟩
    · rintro ⟨c', hc', h⟩
      cases hcancelled.symm.trans hc'
      exact h
  · constructor
    · intro h
      cases congrArg StageFault.fault (Except.error.inj h)
    · rintro ⟨-, c', hc', -⟩
      cases hcancelled.symm.trans hc'

/-- Selecting precursors is steady, whatever the node lists. -/
theorem steady_selectPrecursors (request : ExtractionRequest) (r : Resolved) :
    (x.selectPrecursors request r).Steady := by
  refine (x.steady_checkpoint _).bind fun _ =>
    (RunM.steady_asking (by simp) (steadyInquiry_queryFor hnode _ _)).bind fun listed => ?_
  dsimp only
  split
  · exact (RunM.steady_throw (by simp)).bind fun _ => RunM.steady_pure _
  · exact RunM.steady_pure _

/-- So is the comparison of the receipt. -/
theorem steady_verifyReceipt (cid : Cid) (r : Resolved) (receipt : Receipt) :
    (x.verifyReceipt cid r receipt).Steady := by
  refine (x.steady_checkpoint _).bind fun _ =>
    (RunM.steady_asking (by simp) (steadyInquiry_queryFor hnode _ _)).bind fun expected =>
      RunM.steady_ofExcept ?_
  cases Receipt.check expected receipt with
  | error ms => exact fun heq => nomatch Except.error.inj heq
  | ok check => exact fun heq => nomatch heq

variable (hengine : x.engine = Transfer.engine)
include hengine

/-- Replaying is steady if every precursor has a successor of its sequence number. -/
theorem steady_replayPrecursors (s : Setting) (index : Nat) (precursors : List NamedMessage)
    (root : Cid) (h : ∀ p ∈ precursors, p.message.sequence + 1 ≠ 0) :
    (x.replayPrecursors s index precursors root).Steady := by
  induction precursors generalizing index root with
  | nil => exact RunM.steady_pure _
  | cons p rest ih =>
    refine (x.steady_checkpoint _).bind fun _ => (RunM.steady_inStage ?_).bind fun outcome =>
      ih _ _ fun q hq => h q (List.mem_cons_of_mem _ hq)
    rw [hengine]
    exact steadyStep_run (steady_readThrough fun c ch => hnode (.object c) ch) (by simp)
      ((Transfer.steady_engine (h p (List.mem_cons_self ..))).context _)

/-- Executing the target is, if the target has one. -/
theorem steady_executeTarget (retention : Retention) (s : Setting) {r : Resolved} (preroot : Cid)
    (h : r.message.sequence + 1 ≠ 0) : (x.executeTarget retention s r preroot).Steady := by
  have hstore := steady_readThrough fun c ch => hnode (.object c) ch
  refine (x.steady_checkpoint _).bind fun _ => ?_
  rw [hengine]
  cases retention with
  | accessedCids => exact RunM.steady_inStage (Retained.steady_accessedCids hstore h)
  | accessedActors =>
    exact (RunM.steady_asking (by simp) (steadyInquiry_accessedAddresses hnode _ _)).bind
      fun accessed => RunM.steady_inStage (Retained.steady_accessedActors hstore h _)

/-- So is putting the parts together, where the target is replayed once more. -/
theorem steady_assemble (request : ExtractionRequest) {r : Resolved} (s : Setting)
    (retained : Retained) (h : r.message.sequence + 1 ≠ 0) :
    (x.assemble request r s retained).Steady := by
  refine (x.steady_checkpoint _).bind fun _ =>
    (RunM.steady_asking (by simp) (steadyInquiry_queryFor hnode _ _)).bind fun network =>
      (RunM.steady_asking (by simp) (steadyInquiry_queryFor hnode _ _)).bind fun version => ?_
  split
  · exact RunM.steady_throw (by simp)
  · refine (RunM.steady_ofExcept ?_).bind fun _ => RunM.steady_pure _
    rw [hengine]
    exact checkArchive_ne_crashed h s retained _

/-- When a run of the engine for transfers crashes, whatever the node answers. It does so only if
the hint is a block at the last height there is, or if it has to execute a message with the last
sequence number there is. A hint at the last height always makes it crash. -/
theorem extract_crashes (request : ExtractionRequest) (s : σ) :
    (∀ stage, (x.extract request s).1 = .error { stage, fault := .crashed } →
      x.HintsLastHeight request s ∨ x.SchedulesLastSequence request s) ∧
    (x.HintsLastHeight request s →
      (x.extract request s).1 = .error { stage := .resolve, fault := .crashed }) := by
  constructor
  · intro stage h
    by_contra hnot
    obtain ⟨hhint, hlast⟩ := not_or.mp hnot
    rw [extract, RunM.start_eq, stages] at h
    rcases RunM.of_bind_error h with h | ⟨⟨r, setting⟩, w, hresolve, h⟩
    · exact hhint ((resolve_crashes_iff hnode request _ stage).mp h).2
    rcases RunM.of_bind_error h with h | ⟨precursors, w', hselect, h⟩
    · exact steady_selectPrecursors hnode request r w stage h
    have hsequence (m : Message) (hm : m ∈ precursors.map (·.message) ++ [r.message]) :
        m.sequence + 1 ≠ 0 := by
      refine fun heq => hlast ⟨_, ?_, m, hm, heq⟩
      rw [schedule, RunM.runFrom_bind_ok hresolve]
      dsimp only
      rw [RunM.runFrom_bind_ok hselect]
      rfl
    have htarget : r.message.sequence + 1 ≠ 0 :=
      hsequence _ (List.mem_append_right _ (List.mem_singleton_self _))
    have hprecursors (p : NamedMessage) (hp : p ∈ precursors) : p.message.sequence + 1 ≠ 0 :=
      hsequence _ (List.mem_append_left _ (List.mem_map_of_mem hp))
    -- what is left of the run is steady
    exact ((steady_replayPrecursors hnode hengine setting 0 precursors _ hprecursors).bind
      fun preroot => (steady_executeTarget hnode hengine _ setting preroot htarget).bind
        fun retained => (steady_verifyReceipt hnode request.cid r retained.receipt).bind
          fun check => (steady_assemble hnode hengine request setting retained htarget).bind
            fun v => RunM.steady_pure _) w' stage h
  · intro hhint
    have hresolve := (resolve_crashes_iff hnode request (.initial s) .resolve).mpr ⟨rfl, hhint⟩
    rw [extract, RunM.start_eq, stages, RunM.runFrom_bind]
    rcases hrun : (x.resolve request).runFrom (.initial s) with ⟨e | a, w⟩
    · rw [hrun] at hresolve
      exact error_eq_congr.mp hresolve
    · rw [hrun] at hresolve
      cases hresolve

end Steady

end Extractor

-- ---------------------------------------------------------------------------
-- Chains that are held
-- ---------------------------------------------------------------------------

namespace Fixture.Chain

theorem uncrashed_entry (f : Cause) (found : Option α) : Uncrashed (entry f found) := by
  cases found with
  | none => exact uncrashed_because _
  | some a => exact uncrashed_ok a

theorem uncrashed_tipset (ch : Chain) (key : TipsetKey) : Uncrashed (ch.tipset key) :=
  uncrashed_entry _ _

/-- A chain that is asked for a height fails without a crash. -/
theorem uncrashed_tipsetAt (ch : Chain) (height : Epoch) (start : Option TipsetKey) :
    Uncrashed (ch.tipsetAt height start) := by
  have hsearch (top : Tipset) : Uncrashed (if height ≤ top.height then
      entry (.nothingAtOrBelow height) (ch.tipsets.reverse.find? fun t => t.height ≤ height)
      else .error (.of .aboveStart)) := by
    split
    · exact uncrashed_entry _ _
    · exact uncrashed_because _
  cases start with
  | none => exact (uncrashed_entry _ _).bind hsearch
  | some key => exact (ch.uncrashed_tipset key).bind hsearch

theorem uncrashed_subcalls (ch : Chain) (m : Message) : Uncrashed (ch.subcalls m) := by
  unfold subcalls
  repeat' split
  all_goals first | exact uncrashed_ok _ | exact uncrashed_because _

/-- A chain that is held has an answer, or none, but does not crash. -/
theorem steady_node : node.Steady := by
  intro α q ch
  show Uncrashed (ch.answer q)
  cases q with
  | message c => exact uncrashed_entry _ _
  | search c => exact uncrashed_ok _
  | tipset key => exact ch.uncrashed_tipset key
  | tipsetAt height start => exact ch.uncrashed_tipsetAt height start
  | block c => exact uncrashed_entry _ _
  | parentMessages c => exact uncrashed_entry _ _
  | circulatingSupply key => exact (ch.uncrashed_tipset key).map _
  | receipt c key => exact (ch.uncrashed_tipset key).map _
  | networkName => exact uncrashed_ok _
  | nodeVersion => exact uncrashed_ok _
  | networkVersion key => exact (ch.uncrashed_tipset key).map _
  | trial m key =>
    exact (ch.uncrashed_tipset key).bind fun _ =>
      (ch.uncrashed_subcalls m).bind fun _ => uncrashed_ok _
  | object c => exact uncrashed_entry _ _

end Fixture.Chain

namespace Extractor

open Fixture

/-- The run on the small chain, without a hint and from the first sequence number on, does not
crash. -/
theorem extract_crashes_sample :
    ¬∃ stage, (extractor.extract (.ofCid sampleCid) (sampleChain (.plain .ok 0))).1 =
      .error { stage, fault := .crashed } := by
  rintro ⟨stage, h⟩
  rcases (extract_crashes Chain.steady_node rfl _ _).1 stage h with
    ⟨c, -, block, message, c', header, c'', hhint, -⟩ | ⟨ms, hms, m, hm, hlast⟩
  · cases hhint
  · have hscheduled : ((extractor.schedule (.ofCid sampleCid)).runFrom
        (.initial (sampleChain (.plain .ok 0)))).1.toOption.all
          (fun ms => ms.all fun m => m.sequence + 1 != 0) = true := by
      decide +kernel
    rw [hms] at hscheduled
    have hm' := List.all_eq_true.mp hscheduled m hm
    rw [hlast] at hm'
    cases hm'

/-- A chain of one tipset, at the last height there is. -/
def summit : Chain :=
  { Chain.empty with messages := [(sampleCid, sampleMessage)] }.push
    (sampleTipset 1 Int64.maxValue [])

/-- Every question is answered without a crash, and with the one block of the chain as a hint the
run crashes all the same. -/
theorem extract_summit :
    Chain.node.Steady ∧
    (extractor.extract { ExtractionRequest.ofCid sampleCid with block := some (.inline [1]) }
      summit).1 = .error { stage := .resolve, fault := .crashed } :=
  ⟨Chain.steady_node, by decide +kernel⟩

end Extractor

end ReplayVector
