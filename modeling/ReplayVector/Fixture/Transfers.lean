import ReplayVector.Fixture.Chain
import ReplayVector.Fixture.State

/-!
# A chain of two tipsets

The lower tipset includes some messages between accounts, the upper one executes them. Everything
that a node can be asked about them is held.
-/

namespace ReplayVector.Fixture

/-- What a message between accounts, given by their indices, does. -/
inductive Payment where
  /-- Moves value to the receiver. -/
  | direct (sender receiver : Nat) (sequence value : UInt64)
  /-- Moves value to the receiver by way of another account. -/
  | forwarded (sender via receiver : Nat) (sequence value : UInt64)

namespace Payment

/-- A message that moves value. -/
def send (sender receiver : Account) (sequence value : UInt64) : Message where
  version := 0
  sender := sender.robust
  receiver := receiver.robust
  sequence
  value := ⟨value.toNat⟩
  method := 0
  params := ∅
  gasLimit := 10000000
  gasFeeCap := 200
  gasPremium := 1

/-- A message that moves value by way of another account. -/
def forward? (sender via receiver : Account) (sequence value : UInt64) : Option Message := do
  let params ← Bytes.upTo? maxParams (Cbor.bytes receiver.robust.toBytes).encode
  return { send sender via sequence value with method := Transfer.forwardMethod, params }

/-- The message of a payment; `none` if there are not enough accounts. -/
def message? (accounts : List Account) : Payment → Option Message
  | direct sender receiver sequence value => do
    return send (← accounts[sender]?) (← accounts[receiver]?) sequence value
  | forwarded sender via receiver sequence value => do
    forward? (← accounts[sender]?) (← accounts[via]?) (← accounts[receiver]?) sequence value

/-- Direct payments with the sequence numbers that their order gives them. -/
def inSequence (payments : List (Nat × Nat × UInt64)) : List Payment :=
  go [] payments
where
  /-- Numbers the payments after those whose senders are given. -/
  go (senders : List Nat) : List (Nat × Nat × UInt64) → List Payment
    | [] => []
    | (sender, receiver, value) :: rest =>
      direct sender receiver (senders.count sender).toUInt64 value :: go (sender :: senders) rest

/-- The number of accounts that direct payments are about, and at least two. -/
def accountsOf (payments : List (Nat × Nat × UInt64)) : Nat :=
  payments.foldl (fun n p => max n (max p.1 p.2.1 + 1)) 2

end Payment

/-- A name for something that is never looked at. -/
def nameless (what : String) : Cid := .ofDagCbor (Bytes.ofString what)

/-- The height of the lower tipset. -/
def inclusionHeight : Epoch := 10

/-- The base fee of both tipsets. -/
def baseFee : TokenAmount := 100

/-- A tipset of one block. -/
def oneBlock (what : String) (height : Epoch) (parents : List Cid) (stateRoot : Cid) : Tipset where
  key := ⟨nameless what, []⟩
  first := {
    miner := .id 1000
    parents, height, stateRoot
    receipts := nameless "receipts"
    messages := nameless "messages"
    timestamp := (1700000000 + 30 * height.toInt).toNat.toUInt64
    parentBaseFee := baseFee }
  rest := []
  length_eq := List.length_nil
  agree := List.forall_mem_nil _

/-- The execution of a message in the upper tipset. -/
def execution (preroot : Cid) (message : Message) : Execution where
  preroot
  epoch := inclusionHeight + 1
  message
  circSupply := .ofWhole 1000000
  baseFee
  networkVersion := 21
  timestamp := 0
  mode := .writeThrough

/-- Executes messages one after the other, and gives their receipts and the final root. -/
def executeAll : List Message → Cid → BlockM (List Receipt × Cid)
  | [], root => return ([], root)
  | m :: ms, root => do
    let outcome ← Transfer.engine (execution root m)
    let (receipts, root) ← executeAll ms outcome.postroot
    return (outcome.receipt :: receipts, root)

/-- A chain of two tipsets, and the messages it is about. -/
structure TwoTipsets where
  chain : Chain
  messages : List NamedMessage
  inclusion : Tipset
  execution : Tipset

/-- Names a message. -/
def named (m : Message) : BlockM NamedMessage := do
  return { cid := ← .ofOption .crash m.cid?, message := m }

/-- The state, the messages that are made for it, their receipts and the root after them. -/
def executeMessages (accounts : Nat) (make : State → Option (List Message)) :
    BlockM (State × List NamedMessage × List Receipt × Cid) := do
  let state ← newState accounts
  let messages ← .ofOption .crash (make state)
  let (receipts, root) ← executeAll messages state.root
  return (state, ← messages.mapM named, receipts, root)

/-- Adds a message and its receipt to a chain that executes it in the given tipset. -/
def Chain.addExecuted (ch : Chain) (t : Tipset) (m : NamedMessage) (r : Receipt) : Chain :=
  { ch with
    messages := (m.cid, m.message) :: ch.messages
    lookups :=
      (m.cid, { message := m.cid, receipt := r, tipset := t.key, height := t.height }) ::
        ch.lookups
    receipts := (m.cid, r) :: ch.receipts }

/-- The chain of two tipsets that includes and executes the messages that are made for a new
state. -/
def TwoTipsets.ofMessages (accounts : Nat) (make : State → Option (List Message)) :
    Except Failure TwoTipsets := do
  let (executed, objects) := Memory.empty.exec (executeMessages accounts make)
  let (state, messages, receipts, root) ← executed.mapError fun _ => .crash
  let inclusion := oneBlock "inclusion" inclusionHeight [nameless "grandparent"] state.root
  let execution := oneBlock "execution" (inclusionHeight + 1) inclusion.key.cids root
  let chain := (messages.zip receipts).foldl
    (fun ch (m, r) => ch.addExecuted execution m r) { Chain.empty with objects }
  let chain := { chain with parentMessages := [(execution.key.first, messages)] }
  return { chain := (chain.push inclusion).push execution, messages, inclusion, execution }

/-- The chain of two tipsets that makes the given payments. -/
def TwoTipsets.ofPayments (accounts : Nat) (payments : List Payment) : Except Failure TwoTipsets :=
  ofMessages accounts fun state => payments.mapM (·.message? state.accounts)

end ReplayVector.Fixture
