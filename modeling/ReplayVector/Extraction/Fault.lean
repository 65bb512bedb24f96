import ReplayVector.Extraction.Verification
import ReplayVector.Failure

/-!
# How an extraction fails

An extraction goes through stages, and the first fault ends it. The fault tells what kind of step
failed, and for most kinds it carries the chain of causes.
-/

namespace ReplayVector

/-- The stages of an extraction. -/
inductive Stage where
  | resolve
  | selectPrecursors
  | replayPrecursors
  | executeTarget
  | verifyReceipt
  | assemble
  | serialize
  deriving DecidableEq, Inhabited

namespace Stage

/-- The stages in their order. -/
def all : List Stage :=
  [resolve, selectPrecursors, replayPrecursors, executeTarget, verifyReceipt, assemble, serialize]

/-- The name of a stage. -/
def name : Stage → String
  | resolve => "resolve"
  | selectPrecursors => "select_precursors"
  | replayPrecursors => "replay_precursors"
  | executeTarget => "execute_target"
  | verifyReceipt => "verify_receipt"
  | assemble => "assemble"
  | serialize => "serialize"

end Stage

/-- What went wrong in a stage. -/
inductive Fault where
  /-- The chain did not say what had to be known. -/
  | resolution (causes : List Cause)
  /-- The message is not among those its tipset executes. -/
  | precursorNotFound (target : Cid) (found : Nat)
  /-- A message could not be executed. -/
  | replay (causes : List Cause)
  /-- The receipt of the execution is not the one on the chain. -/
  | verification (mismatches : List Mismatch)
  /-- The state could not be cut out, or what was cut out is not enough. -/
  | retention (causes : List Cause)
  /-- The vector could not be written. -/
  | serialization (causes : List Cause)
  /-- The run was asked to end. -/
  | cancelled
  /-- The run could not go on at all. -/
  | crashed
  deriving DecidableEq

namespace Fault

/-- The fault of the given kind that a failure leads to. -/
def of (kind : List Cause → Fault) : Failure → Fault
  | .because causes => kind causes
  | .crash => crashed

/-- A description, followed by the wording of the causes if there is one. -/
def describe (what : String) (causes : List Cause) : String :=
  match (Failure.because causes).message? with
  | some text => s!"{what}: {text}"
  | none => what

/-- The name of the kind of a fault. -/
def kind : Fault → String
  | resolution _ => "Resolution"
  | precursorNotFound .. => "PrecursorNotFound"
  | replay _ => "Replay"
  | verification _ => "Verification"
  | retention _ => "Retention"
  | serialization _ => "Serialization"
  | cancelled => "Cancelled"
  | crashed => "Crashed"

/-- The wording of a fault. -/
def message : Fault → String
  | resolution causes => describe "failed to resolve message and tipsets from chain" causes
  | precursorNotFound target found =>
    s!"message {target} not found in the canonical messages of its execution tipset; " ++
    s!"precursors found: {found}"
  | replay causes => describe "message execution failed" causes
  | verification mismatches =>
    "receipt sanity check failed: " ++ "; ".intercalate (mismatches.map Mismatch.message)
  | retention causes => describe "state retention failed" causes
  | serialization causes => describe "failed to write the test vector" causes
  | cancelled => "extraction was cancelled"
  | crashed => "the run could not go on"

end Fault

/-- A fault and the stage it occurred in. -/
structure StageFault where
  stage : Stage
  fault : Fault
  deriving DecidableEq

/-- The wording of a fault, after the name of its stage. -/
def StageFault.message (f : StageFault) : String := s!"{f.stage.name}: {f.fault.message}"

end ReplayVector
