import ReplayVector.Hash.Sha2
import ReplayVector.Store.BlockM

/-!
# Maps stored as tries

A map from byte strings to values, cut into blocks. The hash of a key gives a path of numbers
below 32. A node has a branch for each number that begins the path of one of its keys: a bucket of
at most three entries, sorted by key, or another node for the rest of the paths. Nodes are read
from the store when a path leads through them, and written when the map is flushed; a node that
was read and not changed keeps its identifier.
-/

namespace ReplayVector

/-- How values are written as structured data and read from it. -/
structure Packing (β : Type) where
  toCbor? : β → Option Cbor
  ofCbor? : Cbor → Option β

namespace Hamt

/-- What a node holds for one number. -/
inductive Branch (β : Type) where
  | bucket (entries : List (Bytes × β))
  /-- A node that has not been read. -/
  | link (c : Cid)
  /-- A node, with its identifier unless it was changed. -/
  | node (stored : Option Cid) (slots : List (UInt8 × Branch β))

/-- The branches of a node, sorted by number. -/
abbrev Slots (β : Type) := List (UInt8 × Branch β)

/-! ## Paths -/

/-- The bits of a byte, the highest first. -/
def bitsOf (b : UInt8) : List Bool := (List.range 8).reverse.map fun i => b.toNat.testBit i

/-- The numbers in groups of five bits; bits that fill no group are dropped. -/
def groupsOfFive : List Bool → List UInt8
  | a :: b :: c :: d :: e :: rest =>
    [a, b, c, d, e].foldl (fun n bit => 2 * n + bit.toUInt8) 0 :: groupsOfFive rest
  | _ => []

/-- The path of a key. -/
def path (key : Bytes) : List UInt8 := groupsOfFive ((Hash.sha256 key).flatMap bitsOf)

/-- The length of every path. -/
def levels : Nat := 51

/-! ## Branches -/

/-- The branch for a number. -/
def find? (i : UInt8) (slots : Slots β) : Option (Branch β) := slots.lookup i

/-- Sets the branch for a number. -/
def put (i : UInt8) (b : Branch β) : Slots β → Slots β
  | [] => [(i, b)]
  | (j, b') :: slots =>
    if i = j then (i, b) :: slots
    else if i < j then (i, b) :: (j, b') :: slots
    else (j, b') :: put i b slots

/-- Adds an entry to a sorted bucket. -/
def addEntry (key : Bytes) (value : β) : List (Bytes × β) → List (Bytes × β)
  | [] => [(key, value)]
  | (k, v) :: es => if key < k then (key, value) :: (k, v) :: es else (k, v) :: addEntry key value es

/-- Sets the value of the first entry with a key. -/
def setEntry (key : Bytes) (value : β) : List (Bytes × β) → List (Bytes × β)
  | [] => []
  | (k, v) :: es => if k = key then (key, value) :: es else (k, v) :: setEntry key value es

/-- The most entries of a bucket. -/
def bucketSize : Nat := 3

/-! ## Structured form -/

/-- The bit field that tells which numbers have a branch, most significant byte first. -/
def bitField (slots : Slots β) : Bytes :=
  Bytes.magnitude (slots.map fun s => 2 ^ s.1.toNat).sum

/-- The structured form of a bucket's entry. -/
def entryCbor? (p : Packing β) (entry : Bytes × β) : Option Cbor :=
  (p.toCbor? entry.2).map fun v => .list [.bytes entry.1, v]

/-- The structured form of a branch; `none` for changed nodes, which have to be written first. -/
def branchCbor? (p : Packing β) : Branch β → Option Cbor
  | .bucket entries => (entries.mapM (entryCbor? p)).map .list
  | .link c => some (.link c)
  | .node stored _ => stored.map .link

/-- The structured form of a node. -/
def nodeCbor? (p : Packing β) (slots : Slots β) : Option Cbor :=
  (slots.mapM fun s => branchCbor? p s.2).map fun branches =>
    .list [.bytes (bitField slots), .list branches]

/-- Reads an entry of a bucket. -/
def entryOf? (p : Packing β) : Cbor → Option (Bytes × β)
  | .list [.bytes key, v] => (p.ofCbor? v).map (key, ·)
  | _ => none

/-- Reads a branch. -/
def branchOf? (p : Packing β) : Cbor → Option (Branch β)
  | .link c => some (.link c)
  | .list entries => (entries.mapM (entryOf? p)).map .bucket
  | _ => none

/-- The numbers of the bits that are set. -/
def bitsSet (field : Bytes) : List UInt8 :=
  ((List.range 256).filter (Bytes.toNatBE field).testBit).map Nat.toUInt8

/-- Reads a node. It has as many branches as bits are set, and at most 32. -/
def nodeOf? (p : Packing β) : Cbor → Option (Slots β)
  | .list [.bytes field, .list branches] =>
    if field.length > 32 ∨ branches.length > 32 then none
    else if (bitsSet field).length ≠ branches.length then none
    else (branches.mapM (branchOf? p)).map ((bitsSet field).zip ·)
  | _ => none

/-! ## Access -/

/-- Reads the node under an identifier. -/
def loadNode (p : Packing β) (c : Cid) : BlockM (Slots β) := .readAs (nodeOf? p) c

/-- Writes a node all of whose branches have been written. -/
def storeNode (p : Packing β) (slots : Slots β) : BlockM Cid := do
  .writeCbor (← .ofOption .unworded (nodeCbor? p slots))

/-- Looks a key up along what is left of its path. Nodes that are read stay in the result. -/
def lookup (p : Packing β) (key : Bytes) : List UInt8 → Slots β → BlockM (Option β × Slots β)
  | [], _ => .fail .unworded
  | i :: rest, slots =>
    match find? i slots with
    | none => return (none, slots)
    | some (.bucket entries) => return (entries.lookup key, slots)
    | some (.link c) => do
      let (found, inner) ← lookup p key rest (← loadNode p c)
      return (found, put i (.node (some c) inner) slots)
    | some (.node stored inner) => do
      let (found, inner) ← lookup p key rest inner
      return (found, put i (.node stored inner) slots)

/-- Sets the value of a key along what is left of its path, `height` numbers. The first component
tells whether anything changed. A full bucket becomes a node. -/
def insert [DecidableEq β] (p : Packing β) :
    (height : Nat) → List UInt8 → Bytes → β → Slots β → BlockM (Bool × Slots β)
  | height + 1, i :: rest, key, value, slots =>
    match find? i slots with
    | none => return (true, put i (.bucket [(key, value)]) slots)
    | some (.bucket entries) =>
      match entries.lookup key with
      | some old =>
        if old = value then return (false, slots)
        else return (true, put i (.bucket (setEntry key value entries)) slots)
      | none =>
        if entries.length < bucketSize then
          return (true, put i (.bucket (addEntry key value entries)) slots)
        else do
          let (_, inner) ← insert p height rest key value []
          let inner ← entries.foldlM (fun inner (k, v) => do
            let (_, inner) ← insert p height ((path k).drop (levels - height)) k v inner
            return inner) inner
          return (true, put i (.node none inner) slots)
    | some (.link c) => do
      let (changed, inner) ← insert p height rest key value (← loadNode p c)
      return (changed, put i (.node (if changed then none else some c) inner) slots)
    | some (.node stored inner) => do
      let (changed, inner) ← insert p height rest key value inner
      return (changed, put i (.node (if changed then none else stored) inner) slots)
  | _, _, _, _, _ => .fail .unworded

mutual

/-- Writes a changed node after the changed nodes below it. -/
def flushBranch (p : Packing β) : Branch β → BlockM (Branch β)
  | .node none slots => do
    let slots ← flushSlots p slots
    return .node (some (← storeNode p slots)) slots
  | .node (some c) slots => return .node (some c) slots
  | .bucket entries => return .bucket entries
  | .link c => return .link c

/-- Writes the changed nodes among branches, in order. -/
def flushSlots (p : Packing β) : Slots β → BlockM (Slots β)
  | [] => return []
  | (i, b) :: rest => do
    let b ← flushBranch p b
    return (i, b) :: (← flushSlots p rest)

end

end Hamt

/-- A map stored as a trie: its root node, and the identifier of that unless it was changed. -/
structure Hamt (β : Type) where
  root : Hamt.Slots β
  stored : Option Cid

namespace Hamt

/-- The empty map, not yet written. -/
def empty : Hamt β := ⟨[], none⟩

/-- The map whose root node has the given identifier. -/
def load (p : Packing β) (c : Cid) : BlockM (Hamt β) := do return ⟨← loadNode p c, some c⟩

/-- The value of a key, and the map with the nodes read on the way. -/
def get? (p : Packing β) (m : Hamt β) (key : Bytes) : BlockM (Option β × Hamt β) := do
  let (found, root) ← lookup p key (path key) m.root
  return (found, { m with root })

/-- The map with another value for a key. -/
def set [DecidableEq β] (p : Packing β) (m : Hamt β) (key : Bytes) (value : β) :
    BlockM (Hamt β) := do
  let (changed, root) ← insert p levels (path key) key value m.root
  return { root, stored := if changed then none else m.stored }

/-- Writes what was changed and gives the identifier of the map. -/
def flush (p : Packing β) (m : Hamt β) : BlockM (Cid × Hamt β) := do
  match m.stored with
  | some c => return (c, m)
  | none =>
    let root ← flushSlots p m.root
    let c ← storeNode p root
    return (c, { root, stored := some c })

end Hamt

end ReplayVector
