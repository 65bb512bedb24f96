import ReplayVector.Chain.Message
import ReplayVector.State.Hamt

/-!
# Actors

An actor has code, a state of its own, a count of the messages it has sent, and a balance. A few
actors exist on every chain under fixed IDs.
-/

namespace ReplayVector

/-- The record of an actor. -/
structure Actor where
  code : Cid
  /-- The identifier of the actor's own state. -/
  head : Cid
  sequence : UInt64
  balance : TokenAmount
  delegatedAddress : Option Address
  deriving DecidableEq, Inhabited

namespace ActorId

/-- The actor whose state lists the code of the built-in actors. -/
def system : ActorId := 0
/-- The actor that maps addresses to IDs. -/
def registry : ActorId := 1
/-- The actor that block rewards come from and tips go to. -/
def reward : ActorId := 2
/-- The actor that holds what has been burnt. -/
def burnt : ActorId := 99
/-- The first ID that is given out to other actors. -/
def firstFree : ActorId := 100

end ActorId

namespace Actor

/-- The structured form; `none` if the balance is too large for it. -/
def toCbor? (a : Actor) : Option Cbor := do
  let balance ← a.balance.toBytes?
  let delegated := match a.delegatedAddress with
    | some d => .bytes d.toBytes
    | none => .null
  return .list [.link a.code, .link a.head, .ofUInt64 a.sequence, .bytes balance, delegated]

/-- Reads an optional address. -/
def delegatedOf? : Cbor → Option (Option Address)
  | .null => some none
  | .bytes bs => (Address.ofBytes? bs).map some
  | _ => none

/-- Reads the structured form. -/
def ofCbor? : Cbor → Option Actor
  | .list [.link code, .link head, sequence, .bytes balance, delegated] => do
    return {
      code, head
      sequence := ← sequence.toUInt64?
      balance := ← TokenAmount.ofBytes? balance
      delegatedAddress := ← delegatedOf? delegated }
  | _ => none

/-- How actors are stored in maps. -/
def packing : Packing Actor := { toCbor?, ofCbor? }

end Actor

end ReplayVector
