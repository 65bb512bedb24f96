import ReplayVector.Block

/-!
# Computations over blocks

A computation over blocks is a tree: each node asks a store for one thing, and how it goes on
depends on nothing but the answer. So whatever is written this way, an engine that applies
messages as well as a writer of archives, is a function of the blocks it can read. `BlockStore`
says what a store has to do, and `BlockM.run` lets a store answer.
-/

namespace ReplayVector

/-- A computation that reads and writes blocks. -/
inductive BlockM (α : Type) where
  | done (result : Except Failure α)
  /-- Asks for the bytes of a block. -/
  | get (c : Cid) (next : Except Failure (Option Bytes) → BlockM α)
  /-- Asks whether a block is there. -/
  | has (c : Cid) (next : Except Failure Bool → BlockM α)
  /-- Asks for a block to be written. -/
  | put (b : Block) (next : Except Failure Unit → BlockM α)

namespace BlockM

/-- The computation that ends with a value. -/
protected def pure (a : α) : BlockM α := done (.ok a)

/-- Goes on with what a computation ends with, whether it failed or not. -/
def andThen : BlockM α → (Except Failure α → BlockM β) → BlockM β
  | done r, f => f r
  | get c next, f => get c fun r => (next r).andThen f
  | has c next, f => has c fun r => (next r).andThen f
  | put b next, f => put b fun r => (next r).andThen f

/-- Goes on with the value of a computation, unless it failed. -/
protected def bind (p : BlockM α) (f : α → BlockM β) : BlockM β :=
  p.andThen fun
    | .ok a => f a
    | .error e => done (.error e)

instance : Monad BlockM where
  pure := BlockM.pure
  bind := BlockM.bind

/-- The computation that fails. -/
def fail (f : Failure) : BlockM α := done (.error f)

/-- A result as a computation that asks for nothing. -/
def ofExcept (r : Except Failure α) : BlockM α := done r

/-- A value, or the failure that stands for its absence. -/
def ofOption (f : Failure) : Option α → BlockM α
  | some a => .pure a
  | none => fail f

/-- Ends with the outcome of a computation instead of failing. -/
def attempt (p : BlockM α) : BlockM (Except Failure α) := p.andThen fun r => done (.ok r)

/-- Rewords the failure of a computation. -/
def mapFailure (f : Failure → Failure) (p : BlockM α) : BlockM α :=
  p.andThen fun r => done (r.mapError f)

/-- Says what was being done when a computation failed. -/
def context (c : Cause) (p : BlockM α) : BlockM α := p.mapFailure (Failure.context c)

/-- Says what failed, and drops the reasons. -/
def summarize (c : Cause) (p : BlockM α) : BlockM α := p.mapFailure (Failure.summarize c)

/-! ## Blocks -/

/-- The bytes of a block, if it is there. -/
def read (c : Cid) : BlockM (Option Bytes) := get c done

/-- Whether a block is there. -/
def holds (c : Cid) : BlockM Bool := has c done

/-- Writes a block. -/
def write (b : Block) : BlockM Unit := put b done

/-- Reads structured data; `none` if the block is not there. The identifier has to announce
structured data. -/
def readCbor? (c : Cid) : BlockM (Option Cbor) := do
  if c.codec ≠ Cid.dagCbor then fail .unworded
  else
    match ← read c with
    | none => return none
    | some data =>
      match Cbor.decode? data with
      | some v => return some v
      | none => fail .unworded

/-- Reads structured data that has to be there and of the shape of a type. -/
def readAs (f : Cbor → Option α) (c : Cid) : BlockM α := do
  ofOption .unworded ((← readCbor? c).bind f)

/-- Writes structured data and gives its identifier. -/
def writeCbor (v : Cbor) : BlockM Cid := do
  let b := Block.ofDagCbor v.encode
  write b
  return b.cid

end BlockM

/-! ## Stores -/

/-- What a store does when it is asked, with the effects of a monad. -/
structure BlockStore (m : Type → Type) where
  get : Cid → m (Except Failure (Option Bytes))
  has : Cid → m (Except Failure Bool)
  put : Block → m (Except Failure Unit)

/-- A store with the effects of a larger monad. -/
def BlockStore.lift [MonadLiftT m n] (s : BlockStore m) : BlockStore n where
  get c := liftM (s.get c)
  has c := liftM (s.has c)
  put b := liftM (s.put b)

/-- Lets a store answer a computation. -/
def BlockM.run [Monad m] (s : BlockStore m) : BlockM α → m (Except Failure α)
  | .done r => pure r
  | .get c next => do (next (← s.get c)).run s
  | .has c next => do (next (← s.has c)).run s
  | .put b next => do (next (← s.put b)).run s

end ReplayVector
