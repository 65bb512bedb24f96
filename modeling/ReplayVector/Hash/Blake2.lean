import ReplayVector.Hash.Word

/-!
# BLAKE2b and BLAKE2s

The unkeyed hash of either word width, with a digest of any length up to the state's.
-/

namespace ReplayVector.Hash.Blake2

/-- The permutations of the message words, one a round. -/
def sigma : List (List Nat) := [
  [0, 1, 2, 3, 4, 5, 6, 7, 8, 9, 10, 11, 12, 13, 14, 15],
  [14, 10, 4, 8, 9, 15, 13, 6, 1, 12, 0, 2, 11, 7, 5, 3],
  [11, 8, 12, 0, 5, 2, 15, 13, 10, 14, 3, 6, 7, 1, 9, 4],
  [7, 9, 3, 1, 13, 12, 11, 14, 2, 6, 5, 10, 4, 0, 15, 8],
  [9, 0, 5, 7, 2, 4, 10, 15, 14, 1, 11, 12, 6, 8, 3, 13],
  [2, 12, 6, 10, 0, 11, 8, 3, 4, 13, 7, 5, 15, 14, 1, 9],
  [12, 5, 1, 15, 14, 13, 4, 10, 0, 7, 6, 3, 9, 2, 8, 11],
  [13, 11, 7, 14, 12, 1, 3, 9, 5, 0, 15, 4, 8, 6, 2, 10],
  [6, 15, 14, 9, 11, 3, 0, 8, 12, 2, 13, 7, 1, 4, 10, 5],
  [10, 2, 8, 4, 7, 6, 1, 5, 15, 11, 9, 14, 3, 12, 13, 0]]

/-- What sets the members of the family apart, beside the width of their words. -/
structure Variant where
  rounds : Nat
  rotations : Nat × Nat × Nat × Nat

/-- The working state: four rows of four words. -/
structure Rows (α : Type) where
  a : List α
  b : List α
  c : List α
  d : List α

section
variable {α : Type} [Word α]
open Word (rotateRight)

/-- The rows of sixteen words. -/
def rowsOf (ws : List α) : Rows α where
  a := ws.take 4
  b := (ws.drop 4).take 4
  c := (ws.drop 8).take 4
  d := ws.drop 12

/-- Mixes message words into each column, two at a time. -/
@[specialize] def mix (r : Nat × Nat × Nat × Nat) :
    List α → List α → List α → List α → List α → Rows α
  | a :: as, b :: bs, c :: cs, d :: ds, x :: y :: words =>
    let a := a + b + x
    let d := rotateRight (d ^^^ a) r.1
    let c := c + d
    let b := rotateRight (b ^^^ c) r.2.1
    let a := a + b + y
    let d := rotateRight (d ^^^ a) r.2.2.1
    let c := c + d
    let b := rotateRight (b ^^^ c) r.2.2.2
    let rest := mix r as bs cs ds words
    { a := a :: rest.a, b := b :: rest.b, c := c :: rest.c, d := d :: rest.d }
  | _, _, _, _, _ => { a := [], b := [], c := [], d := [] }

/-- One round: every column, then every diagonal. The diagonals become columns when the rows are
rotated. -/
@[specialize] def round (r : Nat × Nat × Nat × Nat) (words : List α) (v : Rows α) : Rows α :=
  let v := mix r v.a v.b v.c v.d (words.take 8)
  let v := mix r v.a (v.b.rotateLeft 1) (v.c.rotateLeft 2) (v.d.rotateLeft 3) (words.drop 8)
  { a := v.a, b := v.b.rotateRight 1, c := v.c.rotateRight 2, d := v.d.rotateRight 3 }

/-- The words in the given order. -/
def permute (order : List Nat) (words : List α) : List α := order.map fun i => words.getD i default

/-- The upper half of the working state, combined with the lower. -/
def Rows.fold (v : Rows α) : List α := List.zipWith (· ^^^ ·) (v.a ++ v.b) (v.c ++ v.d)

/-- The state after one block, of which `count` bytes of the message are done with it. -/
@[specialize] def compress (variant : Variant) (initial state : List α) (block : Bytes)
    (count : Nat) (last : Bool) : List α :=
  let message := wordsLE α (fill (16 * Word.width α) block)
  let none : α := Word.ofNat 0
  let low : α := Word.ofNat count
  let high : α := Word.ofNat (count / 2 ^ (8 * Word.width α))
  let flags := [none, none, none, none, low, high, if last then ~~~none else none, none]
  let v := rowsOf (state ++ List.zipWith (· ^^^ ·) initial flags)
  let v := (List.range variant.rounds).foldl
    (fun v i => round variant.rotations (permute (sigma.getD (i % 10) []) message) v) v
  List.zipWith (· ^^^ ·) state v.fold

/-- The state after the blocks of a message, the first `count` bytes of which are done. -/
@[specialize] def absorb (variant : Variant) (initial : List α) :
    List α → Nat → List Bytes → List α
  | state, _, [] => state
  | state, count, [block] => compress variant initial state block (count + block.length) true
  | state, count, block :: blocks =>
    let count := count + block.length
    absorb variant initial (compress variant initial state block count false) count blocks

/-- The digest of `size` bytes of a message. -/
@[specialize] def digest (variant : Variant) (initial : List α) (size : Nat) (bs : Bytes) : Bytes :=
  let state := initial.modifyHead (· ^^^ Word.ofNat (0x01010000 + size))
  let blocks := if bs = [] then [[]] else chunks (16 * Word.width α) bs
  (bytesLE (absorb variant initial state 0 blocks)).take size

end

def variantB : Variant := { rounds := 12, rotations := (32, 24, 16, 63) }
def variantS : Variant := { rounds := 10, rotations := (16, 12, 8, 7) }
def initialB : List UInt64 := initialWords UInt64
def initialS : List UInt32 := initialWords UInt32

end ReplayVector.Hash.Blake2

namespace ReplayVector.Hash

/-- BLAKE2b with a digest of `size` bytes, at most 64. -/
def blake2b (size : Nat) (bs : Bytes) : Bytes := Blake2.digest Blake2.variantB Blake2.initialB size bs

/-- BLAKE2s with a digest of `size` bytes, at most 32. -/
def blake2s (size : Nat) (bs : Bytes) : Bytes := Blake2.digest Blake2.variantS Blake2.initialS size bs

end ReplayVector.Hash
