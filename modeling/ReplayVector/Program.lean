import ReplayVector.CommandLine
import ReplayVector.Execution.Preflight
import ReplayVector.Extraction.Delivery
import ReplayVector.Rpc.Connection

/-!
# The program

What the program does once its arguments have been read: it finds the node, extracts a vector from
the node's chain, and delivers it.
-/

namespace ReplayVector

/-- How the program ends without a vector. -/
inductive ProgramFault where
  /-- The node could not be found or reached. -/
  | starting (f : Failure)
  /-- The extraction failed. -/
  | running (f : StageFault)
  deriving DecidableEq

/-- The wording of a fault of the program. -/
def ProgramFault.message : ProgramFault → String
  | starting f => (f.message?).getD "the node could not be reached"
  | running f => f.message

/-- What the program works with. -/
structure Program (m : Type → Type) where
  network : Network m
  output : Output m
  engine : Engine := Preflight.engine
  /-- Tells whether the run has been asked to end. -/
  cancelled : m Bool

namespace Program

/-- The endpoint that a command names, or the usual one. -/
def endpoint (c : CommandLine.Command) : Except Failure Endpoint :=
  match c.api with
  | some text => withContext .badApiInfo (Endpoint.ofString text)
  | none => Endpoint.ofVariable none

/-- Where the vector of a command goes. -/
def destination (c : CommandLine.Command) : Destination :=
  match c.out with
  | some path => .file (Path.ofString path)
  | none => .standardOutput

/-- Carries out a command. -/
def run [Monad m] (p : Program m) (c : CommandLine.Command) :
    m (Except ProgramFault Extraction) := do
  match endpoint c with
  | .error f => return .error (.starting f)
  | .ok e =>
    match withContext .initializingClient (← p.network.connect e) with
    | .error f => return .error (.starting f)
    | .ok connection =>
      let x : Extractor m :=
        { node := connection.node, engine := p.engine, cancelled := p.cancelled }
      return (← x.run p.output (destination c) c.request).mapError .running

end Program

end ReplayVector
