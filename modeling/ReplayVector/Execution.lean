import ReplayVector.Chain.Message
import ReplayVector.Chain.Tipset
import ReplayVector.Store.Memory

/-!
# Applying messages

An engine applies one message to a state. It is a computation over blocks that depends on nothing
but the blocks it reads and the parameters of the execution.
-/

namespace ReplayVector

/-- What happens to the blocks that an execution writes. -/
inductive WriteMode where
  /-- What the state after the message consists of is written to the store. -/
  | writeThrough
  /-- Only the root of that state is computed. -/
  | buffered
  deriving DecidableEq, Inhabited

/-- What the application of a message depends on besides blocks. -/
structure Execution where
  preroot : Cid
  epoch : Epoch
  message : Message
  circSupply : TokenAmount
  baseFee : TokenAmount
  networkVersion : UInt32
  /-- The time that the engine reports for the epoch. -/
  timestamp : UInt64
  mode : WriteMode

/-- The receipt of a message, and the root of the state after it. -/
structure Outcome where
  receipt : Receipt
  postroot : Cid
  deriving DecidableEq

/-- What applies a message to a state. -/
abbrev Engine := Execution → BlockM Outcome

namespace Receipt

/-- The receipt of a message that returns nothing. -/
def plain (exitCode : ExitCode) (gasUsed : UInt64) : Receipt :=
  { exitCode, returnData := [], gasUsed, eventsRoot := none }

end Receipt

namespace ExitCode

def ok : ExitCode := 0
/-- The sender does not exist or cannot send. -/
def senderInvalid : ExitCode := 1
/-- The sender's sequence number or balance does not fit the message. -/
def senderStateInvalid : ExitCode := 2
/-- The receiver does not exist. -/
def invalidReceiver : ExitCode := 5
def insufficientFunds : ExitCode := 6
def outOfGas : ExitCode := 7
def notFound : ExitCode := 17

end ExitCode

end ReplayVector
