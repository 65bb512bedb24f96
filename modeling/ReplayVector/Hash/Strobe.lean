import ReplayVector.Hash.Keccak

/-!
# A hash over the STROBE protocol framework

The message is associated data of a STROBE-128 run under the name `StrobeHash`; the digest is the
output of its pseudo-random function.
-/

namespace ReplayVector.Hash.Strobe

/-- The state of a run: 200 bytes, the position in the block, and where the operation began. -/
structure Run where
  state : Array UInt8
  position : Nat := 0
  start : Nat := 0

/-- The bytes of a block that operations may touch. -/
def rate : Nat := 166

/-- The permutation on bytes. -/
def permute (state : Array UInt8) : Array UInt8 :=
  (bytesLE (Keccak.permute (wordsLE UInt64 state.toList).toArray).toList).toArray

/-- Combines a byte with the state. -/
def touch (state : Array UInt8) (i : Nat) (b : UInt8) : Array UInt8 :=
  state.set! i (state[i]! ^^^ b)

/-- Closes the block. -/
def Run.close (r : Run) : Run :=
  let s := touch r.state r.position r.start.toUInt8
  let s := touch (touch s (r.position + 1) 0x04) (rate + 1) 0x80
  { state := permute s }

/-- Moves on by one byte. -/
def Run.advance (r : Run) : Run :=
  let r := { r with position := r.position + 1 }
  if r.position = rate then r.close else r

/-- Takes bytes in. -/
def Run.absorb (r : Run) (bs : Bytes) : Run :=
  bs.foldl (fun r b => { r with state := touch r.state r.position b }.advance) r

/-- Gives `n` bytes out. -/
def Run.squeeze : Nat → Run → Bytes
  | 0, _ => []
  | n + 1, r =>
    r.state[r.position]! :: squeeze n { r with state := r.state.set! r.position 0 }.advance

/-- Begins an operation; one that needs a fresh block closes the present one. -/
def Run.begin (r : Run) (flags : UInt8) (fresh : Bool) : Run :=
  let old := r.start
  let r := { r with start := r.position + 1 }.absorb [old.toUInt8, flags]
  if fresh ∧ r.position ≠ 0 then r.close else r

/-- A run under the given name. -/
def Run.new (name : Bytes) : Run :=
  let head : Bytes := [1, (rate + 2).toUInt8, 1, 0, 1, 96] ++ Bytes.ofString "STROBEv1.0.2"
  let r : Run := { state := permute (fill 200 head).toArray }
  (r.begin 0x12 false).absorb name

end ReplayVector.Hash.Strobe

namespace ReplayVector.Hash

/-- The STROBE hash with a digest of `size` bytes. -/
def strobe (size : Nat) (bs : Bytes) : Bytes :=
  let r := ((Strobe.Run.new (Bytes.ofString "StrobeHash")).begin 0x02 false).absorb bs
  (r.begin 0x07 true).squeeze size

end ReplayVector.Hash
