import ReplayVector.Archive.Writer
import ReplayVector.Chain.Node
import ReplayVector.Execution
import ReplayVector.Extraction.Fault
import ReplayVector.State.Mask
import ReplayVector.Store.Tracing

/-!
# Cutting out the state of an execution

There are two ways to cut the state that a message needs out of the whole state. One executes the
message and keeps the blocks that were read; the other keeps all the state of the actors that the
message touches and executes it on that. Either way the result is an archive, together with the
outcome of the execution.
-/

namespace ReplayVector

/-- How the state is cut out. -/
inductive Retention where
  /-- The blocks that the execution reads. -/
  | accessedCids
  /-- The state of the actors that the message touches. -/
  | accessedActors
  deriving DecidableEq, Inhabited

namespace Retention

/-- The name of a way to cut out the state. -/
def name : Retention → String
  | accessedCids => "accessed-cids"
  | accessedActors => "accessed-actors"

/-- The way to cut out the state with a name. -/
def ofName? (name : String) : Option Retention :=
  [accessedCids, accessedActors].find? (·.name == name)

end Retention

/-- The state that was cut out, and the outcome of the execution on it. -/
structure Retained where
  preroot : Cid
  postroot : Cid
  receipt : Receipt
  /-- The archive, with the two roots as its roots. -/
  archive : Bytes
  deriving DecidableEq

/-- How a store is told to record what is read from it. -/
structure Tracer (m : Type → Type) where
  start : m Unit
  /-- Ends the record and hands it out. -/
  finish : m (List Cid)

/-- A store to work on, which may be able to record reads. -/
structure Workspace (m : Type → Type) where
  store : BlockStore m
  tracer : Option (Tracer m)

namespace Workspace

/-- A store that records nothing. -/
def plain (s : BlockStore m) : Workspace m := { store := s, tracer := none }

/-- A store that records what is read from another one. -/
def traced [Monad m] (s : BlockStore m) : Workspace (StateT ReadRecord m) where
  store := s.traced
  tracer := some {
    start := modify ReadRecord.start
    finish := modifyGet ReadRecord.finish }

/-- Runs a computation over the blocks of the store, for a step of the given kind. -/
def run [Monad m] (w : Workspace m) (kind : List Cause → Fault) (p : BlockM α) :
    ExceptT Fault m α :=
  ExceptT.mk do return (← p.run w.store).mapError (Fault.of kind)

end Workspace

namespace Retained

/-- The two roots of an archive. -/
def roots (preroot : Cid) (outcome : Outcome) : Roots := ⟨preroot, [outcome.postroot]⟩

/-- What is retained of an execution, once its archive has been written. -/
def ofOutcome (preroot : Cid) (outcome : Outcome) (written : Archive.Written) :
    Except Failure Retained :=
  written.result.map fun _ =>
    { preroot, postroot := outcome.postroot, receipt := outcome.receipt, archive := written.bytes }

/-- Writes the archive of everything reachable from the roots. -/
def ofReachable (preroot : Cid) (outcome : Outcome) : BlockM Retained := do
  .ofExcept (ofOutcome preroot outcome (← Archive.write (roots preroot outcome)))

/-- Writes the archive of the roots and the listed blocks. -/
def ofListed (preroot : Cid) (outcome : Outcome) (listed : List Cid) : BlockM Retained := do
  .ofExcept (ofOutcome preroot outcome
    (← Archive.writeIncluding (roots preroot outcome) listed))

/-- Executes a message and keeps the blocks that were read. -/
def accessedCids [Monad m] (w : Workspace m) (engine : Engine) (e : Execution) :
    ExceptT Fault m Retained := do
  match w.tracer with
  | none => throw (.retention [.noReadTracing])
  | some tracer =>
    tracer.start
    let executed ← ExceptT.lift ((engine e).run w.store)
    let reads ← tracer.finish
    match executed with
    | .error f => throw (.of .replay f)
    | .ok outcome =>
      w.run .retention ((ofListed e.preroot outcome reads).context .writingTracedArchive)

/-- Executes a message on the state that is left of the retained addresses, and keeps all of
it. -/
def accessedActors [Monad m] (w : Workspace m) (engine : Engine) (e : Execution)
    (retain : List Address) : ExceptT Fault m Retained := do
  let preroot ← w.run .retention
    ((StateTree.mask e.preroot retain).context (.maskingTree e.preroot))
  let outcome ← w.run .replay (engine { e with preroot })
  w.run .retention ((ofReachable preroot outcome).context .writingMaskedArchive)

end Retained

/-- The addresses that a message touches when it is applied to the state of a tipset: its sender
and receiver, then the parties of the calls it makes, each once. -/
def accessedAddresses [Monad m] (n : Node m) (message : Message) (key : TipsetKey) :
    ExceptT Failure m (List Address) := do
  let run ← n.queryFor .tracingMessage (.trial message key)
  return run.trace.touched.foldl insertNew ([message.sender, message.receiver].foldl insertNew [])

end ReplayVector
