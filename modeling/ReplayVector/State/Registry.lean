import ReplayVector.State.Actor

/-!
# The registry of addresses

The state of the actor that maps addresses to IDs: a stored map, the next ID it will give out, and
the name of the network.
-/

namespace ReplayVector

/-- Which IDs addresses stand for, and the next ID to give out. -/
structure Registry where
  addressMap : Cid
  nextId : ActorId
  networkName : String
  deriving DecidableEq

namespace Registry

/-- The structured form. -/
def toCbor (r : Registry) : Cbor :=
  .list [.link r.addressMap, .ofUInt64 r.nextId, .text r.networkName]

/-- Reads the structured form. -/
def ofCbor? : Cbor → Option Registry
  | .list [.link addressMap, nextId, .text networkName] => do
    return { addressMap, nextId := ← nextId.toUInt64?, networkName }
  | _ => none

/-- How IDs are stored in the address map. -/
def packing : Packing ActorId := { toCbor? := fun n => some (.ofUInt64 n), ofCbor? := Cbor.toUInt64? }

/-- A registry without addresses. -/
def create (networkName : String) : BlockM Registry := do
  let (addressMap, _) ← (Hamt.flush packing .empty).context .creatingAddressMap
  return { addressMap, nextId := .firstFree, networkName }

/-- Reads the address map. -/
def loadMap (r : Registry) : BlockM (Hamt ActorId) :=
  (Hamt.load packing r.addressMap).context .loadingAddressMap

/-- The ID that the address map has for an address. -/
def lookup (r : Registry) (a : Address) : BlockM (Option ActorId) := do
  let (found, _) ← (← Hamt.load packing r.addressMap).get? packing a.toBytes
  return found

/-- The ID an address stands for. Addresses that are IDs stand for themselves, whether or not the
actor exists. -/
def resolve (r : Registry) (a : Address) : BlockM (Option ActorId) :=
  match a.id? with
  | some id => return some id
  | none => do
    let (found, _) ← ((← r.loadMap).get? packing a.toBytes).context .readingAddressMap
    return found

/-- Gives the next ID to an address; the number goes up even if the address map then fails. -/
def assign (r : Registry) (a : Address) : BlockM (Except Failure ActorId × Registry) :=
  if a.id?.isSome then return (.error (.of (.mappingId a)), r)
  else if r.nextId + 1 = 0 then return (.error .crash, r)
  else do
    let advanced := { r with nextId := r.nextId + 1 }
    let stored : BlockM Cid := do
      let map ← (← r.loadMap).set packing a.toBytes r.nextId |>.context .writingAddressMap
      let (addressMap, _) ← (map.flush packing).context .storingAddressMap
      return addressMap
    match ← stored.attempt with
    | .ok addressMap => return (.ok r.nextId, { advanced with addressMap })
    | .error e => return (.error e, advanced)

/-- Copies the entries of the listed addresses that are no IDs to another map. -/
def copyEntries : List Address → Hamt ActorId → Hamt ActorId → BlockM (Hamt ActorId)
  | [], _, pruned => return pruned
  | a :: as, map, pruned =>
    if a.id?.isSome then copyEntries as map pruned
    else do
      let (found, map) ← (map.get? packing a.toBytes).context .readingAddressMap
      match found with
      | none => copyEntries as map pruned
      | some id =>
        let pruned ← (pruned.set packing a.toBytes id).context .writingAddressMap
        copyEntries as map pruned

/-- The registry with only the listed addresses in its map. -/
def restrict (r : Registry) (retain : List Address) : BlockM Registry := do
  let pruned ← copyEntries retain (← r.loadMap) .empty
  let (addressMap, _) ← (pruned.flush packing).context .storingAddressMap
  return { r with addressMap }

end Registry

end ReplayVector
