import ReplayVector.Extraction.Precursors
import ReplayVector.Extraction.Resolution
import ReplayVector.Extraction.Retention
import ReplayVector.Store.Memory
import ReplayVector.TestVector

/-!
# Extracting test vectors

An extraction locates a message on the chain, replays the messages before it, executes it, compares
its receipt with the one on the chain, and puts together a test vector. Before the vector is handed
out, its message is executed once more on nothing but the vector's own blocks, and the outcome has
to be the same.
-/

namespace ReplayVector

/-- What to extract, and how. -/
structure ExtractionRequest where
  /-- The message. -/
  cid : Cid
  /-- A block that includes the message; without it the message is searched for. -/
  block : Option Cid
  /-- The name of the vector. -/
  id : String
  kind : VectorClass
  retention : Retention
  precursors : PrecursorChoice
  deriving DecidableEq

/-- The request for a message that leaves everything else open. -/
def ExtractionRequest.ofCid (cid : Cid) : ExtractionRequest where
  cid
  block := none
  id := "(undefined)"
  kind := .message
  retention := .accessedCids
  precursors := .sender

/-- What the executions of a run have in common. -/
structure Setting where
  epoch : Epoch
  circSupply : TokenAmount
  baseFee : TokenAmount
  networkVersion : NetworkVersion
  timestamp : UInt64
  deriving DecidableEq

namespace Setting

/-- The execution of a message in a setting. -/
def execution (s : Setting) (preroot : Cid) (message : Message) (mode : WriteMode) : Execution where
  preroot
  epoch := s.epoch
  message
  circSupply := s.circSupply
  baseFee := s.baseFee
  networkVersion := s.networkVersion
  timestamp := s.timestamp
  mode

/-- Asks for the setting in which the messages of a tipset are executed. -/
def ofTipsets [Monad m] (n : Node m) (r : Resolved) : ExceptT Failure m Setting := do
  let circSupply ← n.queryFor .gettingSupply (.circulatingSupply r.inclusion.key)
  let networkVersion ← n.queryFor .gettingNetworkVersion (.networkVersion r.execution.key)
  return {
    epoch := r.execution.height
    circSupply
    baseFee := r.inclusion.parentBaseFee
    networkVersion
    timestamp := r.inclusion.minTimestamp }

end Setting

/-- A vector, and whether its receipt was compared with the one on the chain. -/
structure Extraction where
  vector : TestVector
  receiptCheck : ReceiptCheck
  deriving DecidableEq

/-- What an extraction works with. -/
structure Extractor (m : Type → Type) where
  node : Node m
  engine : Engine
  /-- Tells whether the run has been asked to end. -/
  cancelled : m Bool
  /-- Compresses an archive. -/
  pack : Bytes → Bytes := Gzip.pack

/-- The effects of a run: it may end with a fault, and it works on a store that reads through to
the chain and can record what is read. -/
abbrev RunM (m : Type → Type) := ExceptT StageFault (StateT ReadRecord (StateT Memory m))

namespace RunM

/-- The faults of a stage. -/
def inStage [Monad m] (s : Stage) (p : ExceptT Fault (StateT ReadRecord (StateT Memory m)) α) :
    RunM m α :=
  ExceptT.mk do return (← p.run).mapError fun fault => { stage := s, fault }

/-- A question to the chain that is part of a stage. -/
def asking [Monad m] (s : Stage) (kind : List Cause → Fault) (q : ExceptT Failure m α) :
    RunM m α :=
  RunM.inStage s (ExceptT.mk do return (← q.run).mapError (Fault.of kind))

/-- A result as part of a stage. -/
def ofExcept [Monad m] (s : Stage) (r : Except Fault α) : RunM m α :=
  RunM.inStage s (ExceptT.mk (pure r))

/-- Runs with an empty store. -/
def start [Monad m] (p : RunM m α) : m (Except StageFault α) := do
  return (← (p.run.run .off).run .empty).1.1

end RunM

namespace Extractor

/-! ## The archive -/

/-- Executes the message of a vector on nothing but the blocks of its archive. -/
def replayArchive (engine : Engine) (e : Execution) (car : Bytes) : Except Fault Outcome :=
  let (loaded, held) := Memory.empty.exec (Archive.load car)
  match withContext .loadingArchive loaded with
  | .error f => .error (Fault.of .retention f)
  | .ok _ =>
    if held.size = 0 then .error (.retention [.emptyArchive])
    else
      match withContext .replayingArchive (held.exec (engine e)).1 with
      | .error f => .error (Fault.of .replay f)
      | .ok outcome => .ok outcome

/-- Checks that the archive is enough to execute the message with the same outcome. -/
def checkArchive (engine : Engine) (s : Setting) (message : Message) (r : Retained)
    (car : Bytes) : Except Fault Unit := do
  let outcome ← replayArchive engine (s.execution r.preroot message .buffered) car
  if outcome = { receipt := r.receipt, postroot := r.postroot } then return
  else .error (.retention [.replayDiffers outcome.postroot outcome.receipt.exitCode
    r.postroot r.receipt.exitCode])

/-! ## Assembly -/

/-- Where a vector comes from: the network, the message, its tipsets, the software of the node,
and the generator. -/
def provenance (network nodeVersion : String) (cid : Cid) (r : Resolved) : List Provenance := [
  { source := s!"network:{network}", version := none },
  { source := s!"message:{cid}", version := none },
  { source := s!"inclusion_tipset:{r.inclusion.key}", version := none },
  { source := s!"execution_tipset:{r.execution.key}", version := none },
  { source := "github.com/filecoin-project/lotus", version := some nodeVersion },
  { source := "forest-tvx", version := some "0.1.0+git.unknown" }]

/-- The vector of an execution. -/
def vector (request : ExtractionRequest) (gen : List Provenance) (s : Setting) (message : Bytes)
    (r : Retained) (car : Bytes) : TestVector where
  kind := request.kind
  info := { id := request.id, provenance := gen }
  car
  preconditions := {
    epoch := s.epoch
    circSupply := s.circSupply.atto
    baseFee := s.baseFee.atto
    stateRoot := r.preroot }
  applyMessages := [message]
  postconditions := { stateRoot := r.postroot, receipts := [.ofReceipt r.receipt] }

/-! ## The stages -/

variable [Monad m] (x : Extractor m)

/-- Ends the run before a stage if it has been asked to end. -/
def checkpoint (s : Stage) : RunM m Unit := do
  if ← (liftM x.cancelled : RunM m Bool) then throw { stage := s, fault := .cancelled }

/-- The store of a run. -/
def workspace : Workspace (StateT ReadRecord (StateT Memory m)) :=
  .traced (ReadThrough.store x.node.readBlock)

/-- Locates the message and learns the setting of its execution. -/
def resolve (request : ExtractionRequest) : RunM m (Resolved × Setting) := do
  x.checkpoint .resolve
  RunM.asking .resolve .resolution do
    let r ← Resolved.locate x.node request.cid request.block
    return (r, ← Setting.ofTipsets x.node r)

/-- Selects the messages that have to be applied first. -/
def selectPrecursors (request : ExtractionRequest) (r : Resolved) :
    RunM m (List NamedMessage) := do
  x.checkpoint .selectPrecursors
  let listed ← RunM.asking .selectPrecursors .resolution
    (x.node.queryFor .gettingParentMessages (.parentMessages r.execution.key.first))
  let selection := Selection.select request.precursors request.cid r.message listed
  if selection.target.isNone then
    let fault := .precursorNotFound request.cid selection.related.length
    throw { stage := .selectPrecursors, fault }
  return selection.precursors

/-- Applies messages one after the other, the first one having the given index, and gives the root
after them. -/
def replayPrecursors (s : Setting) : Nat → List NamedMessage → Cid → RunM m Cid
  | _, [], root => return root
  | index, p :: rest, root => do
    x.checkpoint .replayPrecursors
    let outcome ← RunM.inStage .replayPrecursors (x.workspace.run .replay
      ((x.engine (s.execution root p.message .writeThrough)).context
        (.replayingPrecursor index p.cid)))
    replayPrecursors s (index + 1) rest outcome.postroot

/-- Executes the message and cuts out the state it needs. -/
def executeTarget (retention : Retention) (s : Setting) (r : Resolved) (preroot : Cid) :
    RunM m Retained := do
  x.checkpoint .executeTarget
  let e := s.execution preroot r.message .writeThrough
  match retention with
  | .accessedCids => RunM.inStage .executeTarget (Retained.accessedCids x.workspace x.engine e)
  | .accessedActors =>
    let accessed ← RunM.asking .executeTarget .retention
      (accessedAddresses x.node r.message r.inclusion.key)
    RunM.inStage .executeTarget (Retained.accessedActors x.workspace x.engine e (retainList accessed))

/-- Compares the receipt with the one on the chain. -/
def verifyReceipt (cid : Cid) (r : Resolved) (receipt : Receipt) : RunM m ReceiptCheck := do
  x.checkpoint .verifyReceipt
  let expected ← RunM.asking .verifyReceipt .resolution
    (x.node.queryFor .gettingReceipt (.receipt cid r.execution.key))
  RunM.ofExcept .verifyReceipt ((Receipt.check expected receipt).mapError .verification)

/-- Puts the vector together and checks its archive. -/
def assemble (request : ExtractionRequest) (r : Resolved) (s : Setting) (retained : Retained) :
    RunM m TestVector := do
  x.checkpoint .assemble
  let network ← RunM.asking .assemble .resolution
    (x.node.queryFor .gettingNetworkName .networkName)
  let nodeVersion ← RunM.asking .assemble .resolution
    (x.node.queryFor .gettingNodeVersion .nodeVersion)
  match r.message.encode? with
  | none => throw { stage := .assemble, fault := .serialization [.unworded] }
  | some message =>
    let car := x.pack retained.archive
    RunM.ofExcept .assemble (checkArchive x.engine s r.message retained car)
    return vector request (provenance network nodeVersion request.cid r) s message retained car

/-- All stages up to the vector. -/
def stages (request : ExtractionRequest) : RunM m Extraction := do
  let (r, s) ← x.resolve request
  let precursors ← x.selectPrecursors request r
  let preroot ← x.replayPrecursors s 0 precursors r.inclusion.parentState
  let retained ← x.executeTarget request.retention s r preroot
  let receiptCheck ← x.verifyReceipt request.cid r retained.receipt
  return { vector := ← x.assemble request r s retained, receiptCheck }

/-- Extracts a vector, and writes nothing. -/
def extract (request : ExtractionRequest) : m (Except StageFault Extraction) :=
  (x.stages request).start

end Extractor

end ReplayVector
