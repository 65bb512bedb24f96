import ReplayVector.Execution.Preflight

/-!
# A state to try things out on

A state tree with the protocol's actors and some accounts, each with ten tokens. The accounts have
the addresses of made-up public keys, which the registry knows.
-/

namespace ReplayVector.Fixture

/-- An account of the state. -/
structure Account where
  id : ActorId
  robust : Address
  deriving DecidableEq

/-- The root of a state, and its accounts. -/
structure State where
  root : Cid
  accounts : List Account

/-- The name of the network. -/
def networkName : String := "testnet"

/-- The balance of every account. -/
def accountBalance : TokenAmount := .ofWhole 10

/-- The code of a built-in actor, held inline. -/
def actorCode (name : String) : Cid := .inline (Bytes.ofString ("fil/12/" ++ name))

/-- Writes the state of an actor and gives its record. -/
def newActor (code : String) (state : Cbor) (balance : TokenAmount) : BlockM Actor := do
  return { code := actorCode code, head := ← .writeCbor state, sequence := 0, balance,
           delegatedAddress := none }

/-- The most accounts of a state. -/
def maxAccounts : Nat := 255

/-- The address of the account with the given index: its key is one byte, which counts the accounts
from one, 65 times. -/
def accountAddress? (index : Nat) : Option Address :=
  if index < maxAccounts then some (.ofPublicKey (List.replicate 65 (index + 1).toUInt8)) else none

/-- An actor's state that consists of an address. -/
def addressState (a : Address) : Cbor := .list [.bytes a.toBytes]

/-- Adds accounts with the given indices. -/
def addAccounts : List Nat → Registry → StateTree → List Account →
    BlockM (Registry × StateTree × List Account)
  | [], registry, tree, accounts => return (registry, tree, accounts.reverse)
  | i :: rest, registry, tree, accounts => do
    let robust ← .ofOption .crash (accountAddress? i)
    let (id, registry) ← registry.assign robust
    let id ← .ofExcept id
    let actor ← newActor "account" (addressState robust) accountBalance
    addAccounts rest registry (tree.setActor id actor) (⟨id, robust⟩ :: accounts)

/-- Writes a state with the given number of accounts. -/
def newState (accounts : Nat) : BlockM State := do
  let registry ← Registry.create networkName
  let tree ← StateTree.create StateTree.version
  let system ← newActor "system" (.list [.text "system"]) 0
  let reward ← newActor "reward" (.list [.text "reward"]) (.ofWhole 1000)
  let burnt ← newActor "account" (addressState (.id .burnt)) 0
  let tree := ((tree.setActor .system system).setActor .reward reward).setActor .burnt burnt
  let (registry, tree, accounts) ← addAccounts (List.range accounts) registry tree []
  let init ← newActor "init" registry.toCbor 0
  return { root := ← (tree.setActor .registry init).write, accounts }

/-! ## States for the engine of preflight checks -/

/-- The built-in actors with code of their own, in the order of the manifest. -/
def codeNames : List String :=
  ["system", "init", "cron", "account", "reward", "placeholder", "eam", "ethaccount"]

/-- A module without behaviour that carries a name. -/
def codeModule (name : String) : Bytes :=
  let text := Bytes.ofString name
  [0x00, 0x61, 0x73, 0x6d, 0x01, 0x00, 0x00, 0x00, 0x01, 0x04, 0x01, 0x60, 0x00, 0x00, 0x03, 0x02,
    0x01, 0x00, 0x0a, 0x04, 0x01, 0x02, 0x00, 0x0b, 0x00, (text.length + 1).toUInt8,
    text.length.toUInt8] ++ text

/-- The block of a module. -/
def codeBlock (name : String) : Block where
  cid := .v1 Cid.raw (Multihash.blake2b256 (codeModule name))
  data := codeModule name

/-- Writes the code of the named actors. -/
def writeCode : List String → BlockM Unit
  | [] => return
  | name :: rest => do
    .write (codeBlock name)
    writeCode rest

/-- Changes the record of an actor, if it is there. -/
def editActor (id : ActorId) (edit : Actor → Actor) : TreeM Unit := do
  match ← TreeM.getActor id with
  | none => return
  | some a => TreeM.setActor id (edit a)

/-- Gives the actors of a state code that engines can load, and lists it in a manifest. The
names in `except` are left out of both; `code` among them leaves out all code, and `manifest` lets
the link to the manifest lead nowhere. -/
def withCode (s : State) (except : List String) : BlockM State := do
  let names := codeNames.filter fun name => !except.contains name
  if !except.contains "code" then writeCode names
  let manifest ← .writeCbor (Preflight.manifestCbor (names.map fun name => (name, (codeBlock name).cid)))
  let manifest := if except.contains "manifest" then
    Cid.ofDagCbor (Bytes.ofString "no manifest") else manifest
  let head ← .writeCbor (.list [.link manifest])
  let setCode (name : String) (a : Actor) : Actor := { a with code := (codeBlock name).cid }
  let edits : TreeM Cid := do
    editActor .system fun a => { setCode "system" a with head }
    editActor .registry (setCode "init")
    editActor .reward (setCode "reward")
    editActor .burnt (setCode "account")
    for account in s.accounts do editActor account.id (setCode "account")
    TreeM.write
  return { s with root := ← edits.run' (← StateTree.load s.root) }

end ReplayVector.Fixture
