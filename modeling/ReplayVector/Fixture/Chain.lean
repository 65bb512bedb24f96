import ReplayVector.Chain.Node
import ReplayVector.Execution.Transfer
import ReplayVector.Store.Memory

/-!
# A chain to try things out on

A chain held in memory, as a node that answers every question from what is held. Where tables hold
something twice, the first entry counts.
-/

namespace ReplayVector.Fixture

/-- What is held of a chain. -/
structure Chain where
  /-- The tipsets by height; the last one is the head. -/
  tipsets : List Tipset
  blocks : List (Cid × BlockHeader)
  messages : List (Cid × Message)
  lookups : List (Cid × MessageLookup)
  parentMessages : List (Cid × List NamedMessage)
  receipts : List (Cid × Receipt)
  /-- The blocks of the state. -/
  objects : Memory
  networkName : String
  nodeVersion : String
  networkVersion : NetworkVersion
  circSupply : TokenAmount
  /-- Trial runs show the outermost call only. -/
  shallowTraces : Bool

namespace Chain

/-- The chain that holds nothing. -/
def empty : Chain where
  tipsets := []
  blocks := []
  messages := []
  lookups := []
  parentMessages := []
  receipts := []
  objects := .empty
  networkName := "testnet"
  nodeVersion := "1.23.4+mock"
  networkVersion := 21
  circSupply := .ofWhole 1000000
  shallowTraces := false

/-- Adds a tipset on top, together with its blocks. -/
def push (ch : Chain) (t : Tipset) : Chain :=
  { ch with
    tipsets := ch.tipsets ++ [t]
    blocks := (t.key.cids.zip t.headers).reverse ++ ch.blocks }

/-- An entry of a table, or the failure that stands for its absence. -/
def entry (f : Cause) (found : Option α) : Except Failure α :=
  match found with
  | some a => .ok a
  | none => .error (.of f)

/-- The tipset with a key. -/
def tipset (ch : Chain) (key : TipsetKey) : Except Failure Tipset :=
  entry (.unknownTipset key) (ch.tipsets.find? (·.key == key))

/-- The tipset at a height or the next one below, no higher than where the search starts. -/
def tipsetAt (ch : Chain) (height : Epoch) (start : Option TipsetKey) : Except Failure Tipset := do
  let top ← match start with
    | some key => ch.tipset key
    | none => entry .emptyChain ch.tipsets.getLast?
  if height ≤ top.height then
    entry (.nothingAtOrBelow height) (ch.tipsets.reverse.find? fun t => t.height ≤ height)
  else .error (.of .aboveStart)

/-- The calls that a message leads to in a trial run. -/
def subcalls (ch : Chain) (m : Message) : Except Failure (List CallTrace) :=
  if m.method = Transfer.forwardMethod ∧ ! ch.shallowTraces then
    match Transfer.beneficiaryOf? m.params.val with
    | some a => .ok [.call m.receiver a []]
    | none => .error .unworded
  else .ok []

/-- The answer to a question. -/
def answer (ch : Chain) : Question α → Except Failure α
  | .message c => entry (.unknownMessage c) (ch.messages.lookup c)
  | .search c => .ok (ch.lookups.lookup c)
  | .tipset key => ch.tipset key
  | .tipsetAt height start => ch.tipsetAt height start
  | .block c => entry (.unknownBlock c) (ch.blocks.lookup c)
  | .parentMessages c => entry (.unknownBlock c) (ch.parentMessages.lookup c)
  | .circulatingSupply key => (ch.tipset key).map fun _ => ch.circSupply
  | .receipt c key => (ch.tipset key).map fun _ => ch.receipts.lookup c
  | .networkName => .ok ch.networkName
  | .nodeVersion => .ok ch.nodeVersion
  | .networkVersion key => (ch.tipset key).map fun _ => ch.networkVersion
  | .trial m key => do
    let _ ← ch.tipset key
    return { trace := .call m.sender m.receiver (← ch.subcalls m), error := "" }
  | .object c => entry (.unknownBlock c) (ch.objects.get? c)

/-- The node that answers from the chain it holds, and never changes it. -/
def node : Node (StateM Chain) where
  ask q := fun ch => (ch.answer q, ch)

end Chain

end ReplayVector.Fixture
