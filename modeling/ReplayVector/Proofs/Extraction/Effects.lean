import ReplayVector.Extraction

/-!
# The effects of an extraction

An extraction has no effects but those of the questions it asks the chain and of its looks at
whether it has been asked to end. So two extractors that ask alike extract alike, and one with the
effects of a larger monad leaves alone whatever that monad adds.

* `Simulation`: computations of two monads that are alike as soon as their parts are.
* `BlockStore.Alike.run`: computations over blocks are alike over stores that answer alike.
* `Extractor.Alike.extract`: extractions are alike if their questions are.
* `Extractor.extract_lift`: extractions with the effects of a larger monad.
-/

namespace ReplayVector

/-- A way to compare computations of two monads: those that do nothing are alike, and so are
sequences of computations that are alike. -/
structure Simulation (m n : Type → Type) [Monad m] [Monad n] where
  Rel : {α : Type} → m α → n α → Prop
  pure {α : Type} (a : α) : Rel (Pure.pure a) (Pure.pure a)
  bind {α β : Type} {c : m α} {d : n α} {f : α → m β} {g : α → n β} :
    Rel c d → (∀ a, Rel (f a) (g a)) → Rel (c >>= f) (d >>= g)

variable {m n : Type → Type} [Monad m] [Monad n] {α β σ ε : Type}

namespace Simulation

-- ---------------------------------------------------------------------------
-- Larger monads
-- ---------------------------------------------------------------------------

/-- Computations with a state are alike if they are alike from every state. -/
def withState (S : Simulation m n) (σ : Type) : Simulation (StateT σ m) (StateT σ n) where
  Rel c d := ∀ s, S.Rel (c.run s) (d.run s)
  pure a s := S.pure (a, s)
  bind hc hf s := S.bind (hc s) fun ended => hf ended.1 ended.2

/-- Computations that can fail are alike if they are alike with their failures as outcomes. -/
def withFailure (S : Simulation m n) (ε : Type) : Simulation (ExceptT ε m) (ExceptT ε n) where
  Rel c d := S.Rel c.run d.run
  pure a := S.pure (Except.ok a)
  bind hc hf := S.bind hc fun
    | Except.ok a => hf a
    | Except.error e => S.pure (Except.error e)

/-- A computation and its lift to a larger monad. -/
def lifting (m n : Type → Type) [Monad m] [Monad n] [MonadLiftT m n] [LawfulMonadLiftT m n] :
    Simulation m n where
  Rel c d := d = liftM c
  pure a := (liftM_pure a).symm
  bind {_ _ c _ f _} hc hf := by
    rw [hc, liftM_bind]
    exact congrArg _ (funext hf)

variable (S : Simulation m n)

/-- Computations that are alike stay so beside a state that they leave alone. -/
theorem rel_lift {c : m α} {d : n α} (h : S.Rel c d) :
    (S.withState σ).Rel (liftM c : StateT σ m α) (liftM d : StateT σ n α) := by
  intro s
  exact S.bind h fun a => S.pure (a, s)

/-- A change of the state alone is alike in both monads. -/
theorem rel_modifyGet (f : σ → α × σ) :
    (S.withState σ).Rel (modifyGet f : StateT σ m α) (modifyGet f : StateT σ n α) :=
  fun s => S.pure (f s)

/-- Outcomes may be changed by one function. -/
theorem rel_map {c : StateT σ m α} {d : StateT σ n α} (h : (S.withState σ).Rel c d) (f : α → β) :
    (S.withState σ).Rel (f <$> c) (f <$> d) := by
  intro s
  refine S.bind (h s) fun ended => ?_
  exact S.pure (f ended.1, ended.2)

/-- Failing at once is alike in both monads. -/
theorem rel_throw (e : ε) :
    (S.withFailure ε).Rel (throw e : ExceptT ε m α) (throw e : ExceptT ε n α) :=
  S.pure (Except.error (α := α) e)

/-- Computations over the store of a run. -/
def run (S : Simulation m n) :
    Simulation (StateT ReadRecord (StateT Memory m)) (StateT ReadRecord (StateT Memory n)) :=
  (S.withState Memory).withState ReadRecord

/-- Stages of a run. -/
abbrev stages (S : Simulation m n) : Simulation (RunM m) (RunM n) := S.run.withFailure StageFault

end Simulation

variable {S : Simulation m n}

-- ---------------------------------------------------------------------------
-- Stores
-- ---------------------------------------------------------------------------

/-- The stores answer alike. -/
structure BlockStore.Alike (S : Simulation m n) (s : BlockStore m) (s' : BlockStore n) : Prop where
  get (c : Cid) : S.Rel (s.get c) (s'.get c)
  has (c : Cid) : S.Rel (s.has c) (s'.has c)
  put (b : Block) : S.Rel (s.put b) (s'.put b)

section Stores

variable {s : BlockStore m} {s' : BlockStore n}

/-- A computation over blocks is alike over stores that answer alike. -/
theorem BlockStore.Alike.run (h : s.Alike S s') (p : BlockM α) : S.Rel (p.run s) (p.run s') := by
  -- by induction on the computation: after each answer it goes on alike
  induction p with
  | done r => exact S.pure r
  | get c next ih => exact S.bind (h.get c) ih
  | has c next ih => exact S.bind (h.has c) ih
  | put b next ih => exact S.bind (h.put b) ih

/-- Stores that answer alike still do when their reads are recorded. -/
theorem BlockStore.Alike.traced (h : s.Alike S s') :
    s.traced.Alike (S.withState ReadRecord) s'.traced where
  get c := by
    refine (S.withState _).bind (S.rel_lift (h.get c)) fun r => ?_
    rcases r with _ | _ | _
    · exact (S.withState _).pure _
    · exact (S.withState _).pure _
    · exact (S.withState _).bind (S.rel_modifyGet _) fun _ => (S.withState _).pure _
  has c := by
    refine (S.withState _).bind (S.rel_lift (h.has c)) fun r => ?_
    rcases r with _ | _ | _
    · exact (S.withState _).pure _
    · exact (S.withState _).pure _
    · exact (S.withState _).bind (S.rel_modifyGet _) fun _ => (S.withState _).pure _
  put b := S.rel_lift (h.put b)

end Stores

namespace ReadThrough

variable {readBlock : Cid → m (Except Failure Bytes)} {readBlock' : Cid → n (Except Failure Bytes)}

/-- What is kept of a block that was asked for is the same on both sides. -/
theorem rel_fetch (h : ∀ c, S.Rel (readBlock c) (readBlock' c)) (c : Cid) :
    (S.withState Memory).Rel (fetch readBlock c) (fetch readBlock' c) := by
  refine (S.withState _).bind (S.rel_lift (h c)) fun r => ?_
  cases withContext (.fetchingBlock c) r with
  | error e => exact (S.withState _).pure _
  | ok data =>
    dsimp only
    cases (Block.mk c data).verify with
    | error e => exact (S.withState _).pure _
    | ok _ => exact (S.withState _).bind (S.rel_modifyGet _) fun _ => (S.withState _).pure _

/-- Stores that read through to sources which answer alike answer alike. -/
theorem alike_store (h : ∀ c, S.Rel (readBlock c) (readBlock' c)) :
    (store readBlock).Alike (S.withState Memory) (store readBlock') where
  get c := by
    show (S.withState Memory).Rel (if _ then _ else _) (if _ then _ else _)
    split
    · exact (S.withState _).pure _
    · refine (S.withState _).bind (S.rel_modifyGet _) fun held => ?_
      cases held.get? c with
      | some data => exact (S.withState _).pure _
      | none => exact (S.withState _).bind (rel_fetch h c) fun _ => (S.withState _).pure _
  has c := by
    refine (S.withState _).bind (S.rel_modifyGet _) fun held => ?_
    split
    · exact (S.withState _).pure _
    · refine (S.withState _).bind (rel_fetch h c) fun fetched => ?_
      cases fetched <;> exact (S.withState _).pure _
  put b := (S.withState _).bind (S.rel_modifyGet _) fun _ => (S.withState _).pure _

end ReadThrough

-- ---------------------------------------------------------------------------
-- Questions
-- ---------------------------------------------------------------------------

/-- The nodes answer alike. -/
structure Node.Alike (S : Simulation m n) (a : Node m) (a' : Node n) : Prop where
  ask {α : Type} (q : Question α) : S.Rel (a.ask q) (a'.ask q)

namespace Node.Alike

variable {a : Node m} {a' : Node n} (h : a.Alike S a')
include h

theorem query (q : Question α) : (S.withFailure Failure).Rel (a.query q) (a'.query q) := h.ask q

theorem queryFor (c : Cause) (q : Question α) :
    (S.withFailure Failure).Rel (a.queryFor c q) (a'.queryFor c q) :=
  S.bind (h.ask q) fun _ => S.pure _

/-- Searching for the tipsets around a message asks the same questions of both nodes. -/
theorem search (c : Cid) :
    (S.withFailure Failure).Rel (Resolved.search a c) (Resolved.search a' c) := by
  refine (S.withFailure _).bind (h.queryFor _ _) fun found => ?_
  cases found with
  | none => exact S.rel_throw _
  | some found =>
    refine (S.withFailure _).bind (h.query _) fun execution => ?_
    cases execution.parentsKey? with
    | none => exact S.rel_throw _
    | some parents =>
      exact (S.withFailure _).bind (h.queryFor _ _) fun _ => (S.withFailure _).pure _

/-- Asking for the tipsets around a given block does so too. -/
theorem around (block : Cid) :
    (S.withFailure Failure).Rel (Resolved.around a block) (Resolved.around a' block) := by
  refine (S.withFailure _).bind (h.queryFor _ _) fun header => ?_
  split
  · exact S.rel_throw _
  · exact (S.withFailure _).bind (h.queryFor _ _) fun _ =>
      (S.withFailure _).bind (h.queryFor _ _) fun _ => (S.withFailure _).pure _

/-- So a message is located alike, with a hint and without one. -/
theorem locate (c : Cid) (hint : Option Cid) :
    (S.withFailure Failure).Rel (Resolved.locate a c hint) (Resolved.locate a' c hint) := by
  refine (S.withFailure _).bind (h.queryFor _ _) fun message => ?_
  cases hint with
  | none =>
    refine (S.withFailure _).bind (h.search c) fun tipsets => ?_
    dsimp only
    split
    · exact (S.withFailure _).pure _
    · exact S.rel_throw _
  | some block =>
    refine (S.withFailure _).bind (h.around block) fun tipsets => ?_
    dsimp only
    split
    · exact (S.withFailure _).pure _
    · exact S.rel_throw _

/-- What is read off the tipsets is the same. -/
theorem ofTipsets (r : Resolved) :
    (S.withFailure Failure).Rel (Setting.ofTipsets a r) (Setting.ofTipsets a' r) := by
  refine (S.withFailure _).bind (h.queryFor _ _) fun _ => ?_
  refine (S.withFailure _).bind (h.queryFor _ _) fun _ => ?_
  exact (S.withFailure _).pure _

/-- A trial run names the same addresses. -/
theorem accessedAddresses (message : Message) (key : TipsetKey) : (S.withFailure Failure).Rel
    (ReplayVector.accessedAddresses a message key)
    (ReplayVector.accessedAddresses a' message key) := by
  refine (S.withFailure _).bind (h.queryFor _ _) fun _ => ?_
  exact (S.withFailure _).pure _

end Node.Alike

-- ---------------------------------------------------------------------------
-- Parts of stages
-- ---------------------------------------------------------------------------

namespace RunM

/-- An effect of the monad below is alike in a whole run if it is alike there. -/
theorem rel_lift {c : m α} {d : n α} (h : S.Rel c d) :
    S.stages.Rel (liftM c : RunM m α) (liftM d : RunM n α) :=
  (S.withState _).rel_map ((S.withState _).rel_lift (S.rel_lift h)) _

/-- A stage names itself in its failures, and nothing else about them differs. -/
theorem rel_inStage (s : Stage) {p : ExceptT Fault (StateT ReadRecord (StateT Memory m)) α}
    {q : ExceptT Fault (StateT ReadRecord (StateT Memory n)) α}
    (h : (S.run.withFailure Fault).Rel p q) : S.stages.Rel (inStage s p) (inStage s q) :=
  S.run.bind h fun _ => S.run.pure _

/-- A stage that only asks is alike if its questions are. -/
theorem rel_asking (s : Stage) (kind : List Cause → Fault) {p : ExceptT Failure m α}
    {q : ExceptT Failure n α} (h : (S.withFailure Failure).Rel p q) :
    S.stages.Rel (asking s kind p) (asking s kind q) := by
  refine rel_inStage s ?_
  exact S.run.bind ((S.withState _).rel_lift (S.rel_lift h)) fun _ => S.run.pure _

theorem rel_ofExcept (s : Stage) (r : Except Fault α) :
    S.stages.Rel (ofExcept s r : RunM m α) (ofExcept s r : RunM n α) :=
  rel_inStage s (S.run.pure r)

/-- Runs that are alike from every record and memory are alike from none. -/
theorem rel_start {p : RunM m α} {q : RunM n α} (h : S.stages.Rel p q) : S.Rel p.start q.start := by
  refine S.bind (h .off .empty) fun ended => ?_
  exact S.pure _

end RunM

section Workspaces

variable {w : Workspace (StateT ReadRecord (StateT Memory m))}
  {w' : Workspace (StateT ReadRecord (StateT Memory n))}

/-- A computation over blocks is alike in workspaces whose stores answer alike. -/
theorem Workspace.rel_run (h : w.store.Alike S.run w'.store) (kind : List Cause → Fault)
    (p : BlockM α) : (S.run.withFailure Fault).Rel (w.run kind p) (w'.run kind p) := by
  refine S.run.bind (h.run p) fun r => ?_
  exact S.run.pure _

/-- Retaining by actors runs over the workspace alone, so it is alike. -/
theorem Retained.rel_accessedActors (h : w.store.Alike S.run w'.store) (engine : Engine)
    (e : Execution) (retain : List Address) : (S.run.withFailure Fault).Rel
      (accessedActors w engine e retain) (accessedActors w' engine e retain) := by
  refine (S.run.withFailure _).bind (Workspace.rel_run h _ _) fun _ => ?_
  refine (S.run.withFailure _).bind (Workspace.rel_run h _ _) fun _ => ?_
  exact Workspace.rel_run h _ _

end Workspaces

-- ---------------------------------------------------------------------------
-- Extractions
-- ---------------------------------------------------------------------------

namespace Extractor

/-- The extractors have the same engine, compress alike and ask alike. -/
structure Alike (S : Simulation m n) (x : Extractor m) (x' : Extractor n) : Prop where
  node : x.node.Alike S x'.node
  engine : x.engine = x'.engine
  cancelled : S.Rel x.cancelled x'.cancelled
  pack : x.pack = x'.pack

namespace Alike

variable {x : Extractor m} {x' : Extractor n} (h : x.Alike S x')
include h

/-- The workspaces of extractors that ask alike answer alike. -/
theorem workspace : x.workspace.store.Alike S.run x'.workspace.store := by
  have hstores := ReadThrough.alike_store fun c => h.node.ask (.object c)
  exact hstores.traced

/-- Retaining by blocks is alike, for it starts and reads the same record. -/
theorem accessedCids (e : Execution) : (S.run.withFailure Fault).Rel
    (Retained.accessedCids x.workspace x.engine e)
    (Retained.accessedCids x'.workspace x'.engine e) := by
  -- the parts that cannot fail, among those that can
  have hlift {β : Type} {c : StateT ReadRecord (StateT Memory m) β}
      {d : StateT ReadRecord (StateT Memory n) β} (hc : S.run.Rel c d) :
      (S.run.withFailure Fault).Rel (liftM c : ExceptT Fault _ β) (liftM d : ExceptT Fault _ β) :=
    (S.withState _).rel_map hc _
  rw [h.engine]
  refine (S.run.withFailure _).bind (hlift ((S.withState _).rel_modifyGet _)) fun _ => ?_
  refine (S.run.withFailure _).bind (hlift (h.workspace.run _)) fun executed => ?_
  refine (S.run.withFailure _).bind (hlift ((S.withState _).rel_modifyGet _)) fun reads => ?_
  cases executed with
  | error f => exact S.run.rel_throw _
  | ok outcome => exact Workspace.rel_run h.workspace _ _

/-- Both extractors end at a checkpoint, or both go on. -/
theorem checkpoint (s : Stage) : S.stages.Rel (x.checkpoint s) (x'.checkpoint s) := by
  refine S.stages.bind (RunM.rel_lift h.cancelled) fun cancelled => ?_
  split
  · exact S.run.rel_throw _
  · exact S.stages.pure _

/-- The first stage asks for the tipsets and what is read off them. -/
theorem resolve (request : ExtractionRequest) :
    S.stages.Rel (x.resolve request) (x'.resolve request) := by
  refine S.stages.bind (h.checkpoint _) fun _ => RunM.rel_asking _ _ ?_
  refine (S.withFailure _).bind (h.node.locate _ _) fun r => ?_
  exact (S.withFailure _).bind (h.node.ofTipsets r) fun _ => (S.withFailure _).pure _

/-- The second asks for the messages of a tipset and selects among the answers. -/
theorem selectPrecursors (request : ExtractionRequest) (r : Resolved) :
    S.stages.Rel (x.selectPrecursors request r) (x'.selectPrecursors request r) := by
  refine S.stages.bind (h.checkpoint _) fun _ => ?_
  refine S.stages.bind (RunM.rel_asking _ _ (h.node.queryFor _ _)) fun listed => ?_
  dsimp only
  split
  · exact S.stages.bind (S.run.rel_throw _) fun _ => S.stages.pure _
  · exact S.stages.pure _

/-- The third runs the engine on one message after the other, by induction on them. -/
theorem replayPrecursors (s : Setting) (index : Nat) (ps : List NamedMessage) (root : Cid) :
    S.stages.Rel (x.replayPrecursors s index ps root) (x'.replayPrecursors s index ps root) := by
  induction ps generalizing index root with
  | nil => exact S.stages.pure root
  | cons p ps ih =>
    rw [Extractor.replayPrecursors, Extractor.replayPrecursors, h.engine]
    exact S.stages.bind (h.checkpoint _) fun _ =>
      S.stages.bind (RunM.rel_inStage _ (Workspace.rel_run h.workspace _ _)) fun _ => ih _ _

/-- The fourth runs the engine once more, retaining in one of two ways. -/
theorem executeTarget (retention : Retention) (s : Setting) (r : Resolved) (preroot : Cid) :
    S.stages.Rel (x.executeTarget retention s r preroot)
      (x'.executeTarget retention s r preroot) := by
  refine S.stages.bind (h.checkpoint _) fun _ => ?_
  cases retention with
  | accessedCids => exact RunM.rel_inStage _ (h.accessedCids _)
  | accessedActors =>
    refine S.stages.bind (RunM.rel_asking _ _ (h.node.accessedAddresses _ _)) fun accessed => ?_
    rw [h.engine]
    exact RunM.rel_inStage _ (Retained.rel_accessedActors h.workspace _ _ _)

/-- The fifth asks for the receipt and compares. -/
theorem verifyReceipt (cid : Cid) (r : Resolved) (receipt : Receipt) :
    S.stages.Rel (x.verifyReceipt cid r receipt) (x'.verifyReceipt cid r receipt) := by
  refine S.stages.bind (h.checkpoint _) fun _ => ?_
  exact S.stages.bind (RunM.rel_asking _ _ (h.node.queryFor _ _)) fun _ => RunM.rel_ofExcept _ _

/-- The last asks for the network and puts the parts together. -/
theorem assemble (request : ExtractionRequest) (r : Resolved) (s : Setting)
    (retained : Retained) :
    S.stages.Rel (x.assemble request r s retained) (x'.assemble request r s retained) := by
  refine S.stages.bind (h.checkpoint _) fun _ => ?_
  refine S.stages.bind (RunM.rel_asking _ _ (h.node.queryFor _ _)) fun network => ?_
  refine S.stages.bind (RunM.rel_asking _ _ (h.node.queryFor _ _)) fun nodeVersion => ?_
  cases r.message.encode? with
  | none => exact S.run.rel_throw _
  | some message =>
    dsimp only
    rw [h.engine, h.pack]
    exact S.stages.bind (RunM.rel_ofExcept _ _) fun _ => S.stages.pure _

/-- Extractors that ask alike extract alike. -/
theorem extract (request : ExtractionRequest) :
    S.Rel (x.extract request) (x'.extract request) := by
  refine RunM.rel_start ?_
  refine S.stages.bind (h.resolve request) fun _ => ?_
  refine S.stages.bind (h.selectPrecursors request _) fun _ => ?_
  refine S.stages.bind (h.replayPrecursors _ _ _ _) fun _ => ?_
  refine S.stages.bind (h.executeTarget _ _ _ _) fun _ => ?_
  refine S.stages.bind (h.verifyReceipt _ _ _) fun _ => ?_
  exact S.stages.bind (h.assemble request _ _ _) fun _ => S.stages.pure _

end Alike

-- ---------------------------------------------------------------------------
-- Larger monads
-- ---------------------------------------------------------------------------

/-- An extractor with the effects of a larger monad. -/
def lift [MonadLiftT m n] (x : Extractor m) : Extractor n where
  node := x.node.lift
  engine := x.engine
  cancelled := liftM x.cancelled
  pack := x.pack

omit [Monad m] [Monad n] in
theorem cancelled_lift [MonadLiftT m n] (x : Extractor m) :
    (x.lift : Extractor n).cancelled = liftM x.cancelled := rfl

/-- What an extractor does with the effects of a larger monad is what it does without them. -/
theorem extract_lift [MonadLiftT m n] [LawfulMonadLiftT m n] (x : Extractor m)
    (request : ExtractionRequest) :
    (x.lift : Extractor n).extract request = liftM (x.extract request) := by
  have halike : Alike (.lifting m n) x (x.lift : Extractor n) := ⟨⟨fun _ => rfl⟩, rfl, rfl, rfl⟩
  exact halike.extract request

end Extractor

end ReplayVector
