import ReplayVector.Execution
import ReplayVector.State.Tree

/-!
# Transfers

An engine for plain transfers of value on real state trees. A message that gets past the check of
its sequence number costs a fixed amount of gas, whose base part is burnt and whose premium part
goes to the reward actor. The value goes to the receiver or, for the forwarding method, to the
address in the parameters. Actors are never created.
-/

namespace ReplayVector.Transfer

/-- The gas of every message that gets past the check of its sequence number. -/
def gas : UInt64 := 1000

/-- The method that passes the value on to the address in the parameters. -/
def forwardMethod : UInt64 := 2

/-- The address in the parameters of a message. -/
def beneficiaryOf? (params : Bytes) : Option Address :=
  match Cbor.decode? params with
  | some (.bytes bs) => Address.ofBytes? bs
  | _ => none

/-- The ID of the actor that the value goes to; `none` if the address does not resolve. -/
def beneficiary (m : Message) (receiver : ActorId) : TreeM (Option ActorId) :=
  if m.method ≠ forwardMethod then return some receiver
  else do TreeM.resolve (← BlockM.ofOption .unworded (beneficiaryOf? m.params.val))

/-- Changes the balance of an actor that has to exist. -/
def credit (id : ActorId) (missing : Cause) (amount : TokenAmount) : TreeM Unit := do
  match ← TreeM.getActor id with
  | none => BlockM.fail (.of missing)
  | some a => TreeM.setActor id { a with balance := a.balance + amount }

/-- Moves the value of a message from its sender, who has paid for gas already. -/
def moveValue (m : Message) (senderId : ActorId) (sender : Actor) : TreeM ExitCode := do
  match ← TreeM.resolve m.receiver with
  | none => return .invalidReceiver
  | some receiver =>
    if sender.balance < m.value then return .insufficientFunds
    else
      match ← beneficiary m receiver with
      | none => return .notFound
      | some id =>
        TreeM.setActor senderId { sender with balance := sender.balance - m.value }
        credit id .missingBeneficiary m.value
        return .ok

/-- Gives an amount to an actor of the protocol. -/
def payProtocol (a : Address) (amount : TokenAmount) : TreeM Unit := do
  match ← TreeM.resolve a with
  | none => BlockM.fail (.of .missingFeeRecipient)
  | some id => credit id (.missingActor a) amount

/-- Applies a message to the tree of the execution. -/
def transact (e : Execution) : TreeM Outcome := do
  let m := e.message
  let rejected (code : ExitCode) : Outcome := { receipt := .plain code 0, postroot := e.preroot }
  match ← TreeM.resolve m.sender with
  | none => return rejected .senderInvalid
  | some senderId =>
    match ← TreeM.getActor senderId with
    | none => return rejected .senderInvalid
    | some sender =>
      if sender.sequence ≠ m.sequence then return rejected .senderStateInvalid
      else
        let burn := e.baseFee.scale gas.toNat
        let tip := m.gasPremium.scale gas.toNat
        if sender.balance < burn + tip then BlockM.fail (.of (.uncoveredGas m.sender))
        else if sender.sequence + 1 = 0 then BlockM.fail .crash
        else
          let sender := { sender with
            sequence := sender.sequence + 1, balance := sender.balance - (burn + tip) }
          TreeM.setActor senderId sender
          let code ← moveValue m senderId sender
          payProtocol (.id .burnt) burn
          payProtocol (.id .reward) tip
          return { receipt := .plain code gas, postroot := ← TreeM.write }

/-- Applies a message and writes the state after it. -/
def apply (e : Execution) : BlockM Outcome := do
  (transact e).run' (← StateTree.load e.preroot)

/-- The engine for transfers. -/
def engine : Engine := fun e =>
  match e.mode with
  | .writeThrough => apply e
  | .buffered => (apply e).buffered

end ReplayVector.Transfer
