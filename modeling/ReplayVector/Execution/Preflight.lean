import ReplayVector.Execution
import ReplayVector.State.Tree

/-!
# The checks before a message runs

An engine that goes as far as the checks that come before any code of an actor runs. It loads the
state, the manifest that lists the code of the built-in actors, and that code, and turns away
messages whose gas, sender, sequence number or balance does not do. Messages that pass are beyond
it.
-/

namespace ReplayVector.Preflight

/-- The network versions that there are rules for. -/
def firstVersion : UInt32 := 21
def lastVersion : UInt32 := 29

/-- The name and the code of a built-in actor. -/
abbrev Manifest := List (String × Cid)

/-- The structured form of a manifest. -/
def manifestCbor (m : Manifest) : Cbor := .list (m.map fun (name, code) => .list [.text name, .link code])

/-- Reads a line of a manifest. -/
def lineOf? : Cbor → Option (String × Cid)
  | .list [.text name, .link code] => some (name, code)
  | _ => none

/-- The actors that a manifest has to name. -/
def requiredNames : List String :=
  ["account", "system", "init", "placeholder", "eam", "ethaccount"]

/-- Reads a manifest that names what it has to. -/
def manifestOf? : Cbor → Option Manifest
  | .list lines => do
    let m ← lines.mapM lineOf?
    if requiredNames.all fun name => (m.lookup name).isSome then some m else none
  | _ => none

/-- Reads the link to the manifest in the system actor's state. -/
def manifestLinkOf? : Cbor → Option Cid
  | .list [.link c] => some c
  | _ => none

/-- Loads the state and the manifest. -/
def createMachine (e : Execution) : BlockM (StateTree × Manifest) :=
  (do
    if ! (← .holds e.preroot) then .fail .unworded
    else
      let _ ← .writeCbor (.list [])
      let tree ← StateTree.ofRoot e.preroot
      let (system, tree) ← tree.findActor .system
      let system ← .ofOption .unworded system
      let manifest ← .readAs manifestLinkOf? system.head
      return (tree, ← .readAs manifestOf? manifest)
    : BlockM (StateTree × Manifest)).context .creatingMachine

/-- Loads the code of the built-in actors. -/
def loadCode : Manifest → BlockM Unit
  | [] => return
  | (_, code) :: rest => do
    let _ ← .ofOption .unworded (← .read code)
    loadCode rest

/-- The gas for carrying a message of the given length. -/
def inclusionGas (length : Nat) : Nat := 560663 + 1300 * length

/-- The code of a message that is turned away. -/
def rejection (manifest : Manifest) (m : Message) (length : Nat) : TreeM ExitCode := do
  if m.gasLimit = 0 ∨ m.gasLimit.toNat ≥ 2 ^ 63 then BlockM.fail .unworded
  else if inclusionGas length > m.gasLimit.toNat then return .outOfGas
  else
    match ← TreeM.findId m.sender with
    | none => return .senderInvalid
    | some id =>
      match ← TreeM.findActor id with
      | none => return .senderInvalid
      | some sender =>
        if manifest.lookup "account" ≠ some sender.code ∧
            manifest.lookup "ethaccount" ≠ some sender.code then return .senderInvalid
        else if sender.sequence ≠ m.sequence then return .senderStateInvalid
        else if sender.balance < m.gasFeeCap.scale m.gasLimit.toNat then
          return .senderStateInvalid
        else BlockM.fail .unworded

/-- Writes the state, which no rejection changes, as the mode of the execution says. -/
def writeState (e : Execution) (tree : StateTree) : BlockM Cid :=
  match e.mode with
  | .writeThrough => tree.write
  | .buffered => tree.write.buffered

/-- The engine that goes as far as the checks. -/
def engine : Engine := fun e => do
  if e.networkVersion < firstVersion then .fail (.of (.oldNetwork e.networkVersion))
  else if e.networkVersion > lastVersion then .fail .crash
  else
    let (tree, manifest) ← createMachine e
    loadCode manifest
    let bytes ← .ofOption .unworded e.message.encode?
    let (code, tree) ←
      ((rejection manifest e.message bytes.length).run tree).context .executingMessage
    return { receipt := .plain code 0, postroot := ← writeState e tree }

end ReplayVector.Preflight
