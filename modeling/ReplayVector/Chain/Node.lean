import ReplayVector.Chain.Lookup
import ReplayVector.Failure

/-!
# Nodes

A node answers questions about the chain. A question fixes the type of its answer, and a node is a
way to answer every question. Nothing else is known of a node: its answers may contradict each
other, and the same question may be answered differently the next time.
-/

namespace ReplayVector

/-- The version of the rules that a network follows. -/
abbrev NetworkVersion := UInt32

/-- What can be asked about the chain; the index is the type of the answer. -/
inductive Question : Type → Type where
  /-- The message with an identifier. -/
  | message (c : Cid) : Question Message
  /-- Where a message was executed; none if the node does not know of it. -/
  | search (c : Cid) : Question (Option MessageLookup)
  /-- The tipset with a key. -/
  | tipset (key : TipsetKey) : Question Tipset
  /-- The tipset at a height, or the next one below, on the way back from the tipset with a key or
  from the head. -/
  | tipsetAt (height : Epoch) (start : Option TipsetKey) : Question Tipset
  /-- The header of a block. -/
  | block (c : Cid) : Question BlockHeader
  /-- The messages that the tipset of a block executes, in order. -/
  | parentMessages (c : Cid) : Question (List NamedMessage)
  /-- The tokens in circulation as of a tipset. -/
  | circulatingSupply (key : TipsetKey) : Question TokenAmount
  /-- The receipt of a message that a tipset executed; none if there is none. -/
  | receipt (c : Cid) (key : TipsetKey) : Question (Option Receipt)
  /-- The name of the network. -/
  | networkName : Question String
  /-- The version of the node. -/
  | nodeVersion : Question String
  /-- The rules in force at a tipset. -/
  | networkVersion (key : TipsetKey) : Question NetworkVersion
  /-- How a message goes if it is applied to the state of a tipset on trial. -/
  | trial (m : Message) (key : TipsetKey) : Question TrialRun
  /-- The bytes of a block of the state. -/
  | object (c : Cid) : Question Bytes

/-- A way to answer questions, with the effects of a monad. -/
structure Node (m : Type → Type) where
  ask : {α : Type} → Question α → m (Except Failure α)

namespace Node

/-- A node with the effects of a larger monad. -/
def lift [MonadLiftT m n] (a : Node m) : Node n where
  ask q := liftM (a.ask q)

/-- Asks a question. -/
def query (n : Node m) (q : Question α) : ExceptT Failure m α := ExceptT.mk (n.ask q)

/-- Asks a question, and says what for if there is no answer. -/
def queryFor [Monad m] (n : Node m) (c : Cause) (q : Question α) : ExceptT Failure m α :=
  ExceptT.mk do return withContext c (← n.ask q)

/-- How a store fetches blocks from the node. -/
def readBlock (n : Node m) (c : Cid) : m (Except Failure Bytes) := n.ask (.object c)

end Node

end ReplayVector
