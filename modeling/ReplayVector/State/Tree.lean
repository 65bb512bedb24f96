import ReplayVector.State.Registry

/-!
# State trees

The state of all actors: a stored map from IDs to actors, under a root block that names a version
and a further block. Actors that were read or set are kept until the tree is flushed; addresses
that were resolved are kept as long as the tree.
-/

namespace ReplayVector

/-- The root block of a state tree. -/
structure StateRoot where
  /-- One of the versions 0 to 5. -/
  version : UInt64
  actors : Cid
  info : Cid
  deriving DecidableEq

namespace StateRoot

/-- The structured form. -/
def toCbor (r : StateRoot) : Cbor := .list [.ofUInt64 r.version, .link r.actors, .link r.info]

/-- Reads the structured form. -/
def ofCbor? : Cbor → Option StateRoot
  | .list [version, .link actors, .link info] => do
    let version ← version.toUInt64?
    if version ≤ 5 then some { version, actors, info } else none
  | _ => none

/-- Reads a root block, which has to be there. -/
def load (root : Cid) : BlockM StateRoot := do
  match ← .readCbor? root with
  | none => .fail (.of (.missingRoot root))
  | some v => .ofOption .unworded (ofCbor? v)

end StateRoot

/-- An actor in memory, and whether the stored map has yet to learn of it. -/
structure KnownActor where
  actor : Option Actor
  changed : Bool

/-- The state of all actors. -/
structure StateTree where
  map : Hamt Actor
  info : Cid
  /-- The actors that were read or set, each once. -/
  known : List (ActorId × KnownActor)
  /-- The addresses that were resolved. -/
  resolved : List (Address × ActorId)

namespace StateTree

/-- The one version that trees are created and loaded in. -/
def version : UInt64 := 5

/-- The key of an actor in the stored map. -/
def key (id : ActorId) : Bytes := (Address.id id).toBytes

/-- An empty tree of the given version. -/
def create (v : UInt64) : BlockM StateTree :=
  if v = version then
    (do return { map := .empty, info := ← .writeCbor (.list []), known := [], resolved := [] }
      : BlockM StateTree).summarize .creatingTree
  else .fail (.of .creatingTree)

/-- The tree under a root block. Why the root block cannot be read is not told. -/
def ofRoot (root : Cid) : BlockM StateTree := do
  let r ← (BlockM.readAs StateRoot.ofCbor? root).summarize .unworded
  if r.version ≠ version then .fail .unworded
  else return { map := ← Hamt.load Actor.packing r.actors, info := r.info, known := [], resolved := [] }

/-- The tree under a root block. -/
def load (root : Cid) : BlockM StateTree := (ofRoot root).summarize (.loadingTree root)

/-- Sets what is known of an actor. -/
def setKnown (id : ActorId) (k : KnownActor) :
    List (ActorId × KnownActor) → List (ActorId × KnownActor)
  | [] => [(id, k)]
  | (i, k') :: rest => if i = id then (id, k) :: rest else (i, k') :: setKnown id k rest

/-- Sets an actor. -/
def setActor (t : StateTree) (id : ActorId) (a : Actor) : StateTree :=
  { t with known := setKnown id ⟨some a, true⟩ t.known }

/-- Finds an actor, in memory or in the stored map. -/
def findActor (t : StateTree) (id : ActorId) : BlockM (Option Actor × StateTree) := do
  match t.known.lookup id with
  | some k => return (k.actor, t)
  | none =>
    let (actor, map) ← t.map.get? Actor.packing (key id)
    return (actor, { t with map, known := setKnown id ⟨actor, false⟩ t.known })

/-- Finds an actor. -/
def getActor (t : StateTree) (id : ActorId) : BlockM (Option Actor × StateTree) :=
  (t.findActor id).summarize (.loadingActor id)

/-- The ID that an address other than an ID stands for, as the tree's registry says. -/
def askRegistry (t : StateTree) (a : Address) : BlockM (Option ActorId × StateTree) := do
  let (actor, t) ← t.findActor .registry
  let actor ← .ofOption .unworded actor
  let registry ← .readAs Registry.ofCbor? actor.head
  match ← registry.lookup a with
  | none => return (none, t)
  | some id => return (some id, { t with resolved := (a, id) :: t.resolved })

/-- Finds the ID that an address stands for, in memory or in the registry. -/
def findId (t : StateTree) (a : Address) : BlockM (Option ActorId × StateTree) :=
  match a.id? with
  | some id => return (some id, t)
  | none =>
    match t.resolved.lookup a with
    | some id => return (some id, t)
    | none => t.askRegistry a

/-- The ID that an address stands for. -/
def resolve (t : StateTree) (a : Address) : BlockM (Option ActorId × StateTree) :=
  (t.findId a).summarize (.resolvingAddress a)

/-- Moves what was changed into the stored map. An actor that the map refuses counts as moved. -/
def moveChanged : List (ActorId × KnownActor) → Hamt Actor →
    BlockM (Except Failure Unit × List (ActorId × KnownActor) × Hamt Actor)
  | [], map => return (.ok (), [], map)
  | (id, k) :: rest, map =>
    match k.changed, k.actor with
    | true, some a => do
      let moved : KnownActor := { k with changed := false }
      match ← (map.set Actor.packing (key id) a).attempt with
      | .error e => return (.error e, (id, moved) :: rest, map)
      | .ok map =>
        let (r, rest, map) ← moveChanged rest map
        return (r, (id, moved) :: rest, map)
    | _, _ => do
      let (r, rest, map) ← moveChanged rest map
      return (r, (id, k) :: rest, map)

/-- Writes what was changed and gives the root, together with the tree as it is then. -/
def flush (t : StateTree) : BlockM (Except Failure Cid × StateTree) := do
  let (moved, known, map) ← moveChanged t.known t.map
  let t := { t with known, map }
  match moved with
  | .error e => return (.error (e.summarize .flushingTree), t)
  | .ok () =>
    match ← (map.flush Actor.packing).attempt with
    | .error e => return (.error (e.summarize .flushingTree), t)
    | .ok (actors, map) =>
      let root : StateRoot := { version, actors, info := t.info }
      let written ← (BlockM.writeCbor root.toCbor).attempt
      return (written.mapError (Failure.summarize .flushingTree), { t with map })

/-- Writes what was changed and gives the root. -/
def write (t : StateTree) : BlockM Cid := do .ofExcept (← t.flush).1

end StateTree

/-- A computation over blocks that reads and changes a state tree. -/
abbrev TreeM := StateT StateTree BlockM

namespace TreeM

/-- The ID that an address stands for. -/
def resolve (a : Address) : TreeM (Option ActorId) := fun t => t.resolve a

/-- Finds an actor. -/
def getActor (id : ActorId) : TreeM (Option Actor) := fun t => t.getActor id

/-- Finds the ID that an address stands for, and tells all reasons if that fails. -/
def findId (a : Address) : TreeM (Option ActorId) := fun t => t.findId a

/-- Finds an actor, and tells all reasons if that fails. -/
def findActor (id : ActorId) : TreeM (Option Actor) := fun t => t.findActor id

/-- Sets an actor. -/
def setActor (id : ActorId) (a : Actor) : TreeM Unit := modify (·.setActor id a)

/-- Writes what was changed and gives the root. -/
def write : TreeM Cid := fun t => do return (← t.write, t)

end TreeM

end ReplayVector
