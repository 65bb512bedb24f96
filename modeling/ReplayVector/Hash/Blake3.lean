import ReplayVector.Hash.Blake2

/-!
# BLAKE3

A message is cut into chunks of 1024 bytes, which are the leaves of a binary tree; the left
subtree of a node holds the largest power of two of chunks that leaves one for the right.
-/

namespace ReplayVector.Hash.Blake3

/-- The order of the message words in a round, relative to the round before. -/
def permutation : List Nat := [2, 6, 3, 10, 7, 0, 4, 13, 1, 11, 12, 5, 9, 14, 15, 8]

def rotations : Nat × Nat × Nat × Nat := (16, 12, 8, 7)

def chunkStart : Nat := 1
def chunkEnd : Nat := 2
def parent : Nat := 4
def root : Nat := 8

/-- The chaining value of a block of at most 64 bytes. -/
def compress (chain : List UInt32) (block : Bytes) (counter flags : Nat) : List UInt32 :=
  let v := Blake2.rowsOf (chain ++ Blake2.initialS.take 4 ++
    [counter.toUInt32, (counter / 2 ^ 32).toUInt32, block.length.toUInt32, flags.toUInt32])
  let message := wordsLE UInt32 (fill 64 block)
  let (v, _) := (List.range 7).foldl (fun (v, message) _ =>
    (Blake2.round rotations message v, Blake2.permute permutation message)) (v, message)
  v.fold

/-- The chaining value of the remaining blocks of a chunk. -/
def chunkBlocks (counter flags : Nat) : List UInt32 → Nat → List Bytes → List UInt32
  | chain, _, [] => chain
  | chain, start, [block] => compress chain block counter (start + chunkEnd + flags)
  | chain, start, block :: blocks =>
    chunkBlocks counter flags (compress chain block counter start) 0 blocks

/-- The chaining value of a chunk. -/
def chunk (bs : Bytes) (counter flags : Nat) : List UInt32 :=
  chunkBlocks counter flags Blake2.initialS chunkStart (if bs = [] then [[]] else chunks 64 bs)

/-- The largest power of two below `n`, for `n` above one. -/
def leftSize (n : Nat) : Nat := 2 ^ (n - 1).log2

/-- The chaining value of a subtree whose first chunk has the given index. -/
def tree : (fuel : Nat) → List Bytes → (counter flags : Nat) → List UInt32
  | 0, _, _, _ => []
  | _, [], counter, flags => chunk [] counter flags
  | _, [leaf], counter, flags => chunk leaf counter flags
  | fuel + 1, leaves, counter, flags =>
    let size := leftSize leaves.length
    let left := tree fuel (leaves.take size) counter 0
    let right := tree fuel (leaves.drop size) (counter + size) 0
    compress Blake2.initialS (bytesLE left ++ bytesLE right) 0 (parent + flags)

end ReplayVector.Hash.Blake3

namespace ReplayVector.Hash

/-- BLAKE3 with a digest of 32 bytes. -/
def blake3 (bs : Bytes) : Bytes :=
  let leaves := chunks 1024 bs
  bytesLE (Blake3.tree (leaves.length + 1) leaves 0 Blake3.root)

end ReplayVector.Hash
