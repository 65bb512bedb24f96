import ReplayVector.Store.BlockM

/-!
# Blocks in memory

A finite map from identifiers to bytes, in the order in which identifiers were first written. It
takes any bytes under any identifier.

Two things are built on it. `BlockM.aside` turns a computation into one that writes nothing: what it
would write is kept aside and its own later reads see that first. `ReadThrough.store` keeps blocks in
memory and fetches from the chain what it does not hold: fetched blocks are checked before they are
kept, blocks held inline in their identifiers are never fetched, and writes stay in memory.
-/

namespace ReplayVector

/-- Blocks held in memory, each identifier once. -/
structure Memory where
  blocks : List Block
  deriving DecidableEq

namespace Memory

/-- No blocks. -/
def empty : Memory := ⟨[]⟩

instance : Inhabited Memory := ⟨empty⟩

/-- The bytes held under an identifier. -/
def get? (m : Memory) (c : Cid) : Option Bytes := (m.blocks.find? (·.cid == c)).map Block.data

/-- The block is held. -/
def contains (m : Memory) (c : Cid) : Bool := m.blocks.any (·.cid == c)

/-- Puts a block in the place of the one under the same identifier, or at the end. -/
def insert : List Block → Block → List Block
  | [], b => [b]
  | b' :: bs, b => if b'.cid = b.cid then b :: bs else b' :: insert bs b

/-- Holds a block, in the place of any other one under its identifier. -/
def put (m : Memory) (b : Block) : Memory := ⟨insert m.blocks b⟩

/-- The number of blocks held. -/
def size (m : Memory) : Nat := m.blocks.length

/-- Holds further blocks. -/
def putAll (m : Memory) (bs : List Block) : Memory := bs.foldl put m

/-- The store that keeps its blocks in memory. -/
def store [Monad m] : BlockStore (StateT Memory m) where
  get c := do return .ok ((← MonadState.get).get? c)
  has c := do return .ok ((← MonadState.get).contains c)
  put b := do
    modify (·.put b)
    return .ok ()

/-- Runs a computation over the blocks in memory. -/
def exec (m : Memory) (p : BlockM α) : Except Failure α × Memory :=
  (p.run store : StateM Memory (Except Failure α)) m

theorem find?_insert (bs : List Block) (b : Block) (c : Cid) :
    (insert bs b).find? (·.cid == c) = if b.cid = c then some b else bs.find? (·.cid == c) := by
  induction bs with
  | nil => by_cases h : b.cid = c <;> simp [insert, h]
  | cons b' bs ih =>
    by_cases h' : b'.cid = b.cid <;> by_cases h : b.cid = c <;> by_cases h'' : b'.cid = c <;>
      simp_all [insert]

/-- A block that was written is read back, and no other one changes. -/
theorem get?_put (m : Memory) (b : Block) (c : Cid) :
    (m.put b).get? c = if b.cid = c then some b.data else m.get? c := by
  simp only [get?, put, find?_insert]
  split <;> rfl

end Memory

/-! ## Writing aside -/

namespace BlockM

/-- A computation that keeps what it writes aside, in addition to what is aside already. Whether
a block is there is found out by reading it. -/
def aside (writes : Memory) : BlockM α → BlockM (α × Memory)
  | done r => done (r.map (·, writes))
  | get c next =>
    match writes.get? c with
    | some data => (next (.ok (some data))).aside writes
    | none => get c fun r => (next r).aside writes
  | has c next =>
    match writes.get? c with
    | some _ => (next (.ok true)).aside writes
    | none => get c fun r => (next (r.map Option.isSome)).aside writes
  | put b next => (next (.ok ())).aside (writes.put b)

/-- A computation whose writes are discarded when it ends. -/
def buffered (p : BlockM α) : BlockM α := (·.1) <$> p.aside .empty

end BlockM

/-! ## Reading through to the chain -/

namespace ReadThrough

/-- Fetches a block, checks it and keeps it. -/
def fetch [Monad m] (readBlock : Cid → m (Except Failure Bytes)) (c : Cid) :
    StateT Memory m (Except Failure Bytes) := do
  match withContext (.fetchingBlock c) (← readBlock c) with
  | .error e => return .error e
  | .ok data =>
    let b : Block := { cid := c, data }
    match b.verify with
    | .error e => return .error e
    | .ok () =>
      modify (·.put b)
      return .ok data

/-- The store that fetches blocks with `readBlock`. -/
def store [Monad m] (readBlock : Cid → m (Except Failure Bytes)) :
    BlockStore (StateT Memory m) where
  get c := do
    if c.isIdentity then return .ok (some c.hash.digest.val)
    else
      match (← MonadState.get).get? c with
      | some data => return .ok (some data)
      | none => return (← fetch readBlock c).map some
  has c := do
    if c.isIdentity ∨ (← MonadState.get).contains c then return .ok true
    else
      match ← fetch readBlock c with
      | .ok _ => return .ok true
      | .error _ => return .ok false
  put b := do
    modify (·.put b)
    return .ok ()

end ReadThrough

end ReplayVector
