import ReplayVector.Hash.Word

/-!
# The Keccak permutation and its hash functions

The permutation works on 25 words of 64 bits. The sponge absorbs a message in blocks of the rate;
the SHA-3 functions and plain Keccak differ in one byte of padding.
-/

namespace ReplayVector.Hash.Keccak

/-- One step of the shift register that the round constants are read from. -/
def registerStep (r : Nat) : Nat := (if r ≥ 128 then (2 * r) ^^^ 0x171 else 2 * r) % 256

/-- Bit `t` of the shift register's output. -/
def registerBit (t : Nat) : Bool := (Nat.repeat registerStep t 1) % 2 == 1

/-- The constant of a round: bit `2 ^ j - 1` is bit `j + 7 * round` of the register. -/
def roundConstant (round : Nat) : UInt64 :=
  (List.range 7).foldl (fun c j =>
    if registerBit (j + 7 * round) then c ^^^ (2 ^ (2 ^ j - 1) : Nat).toUInt64 else c) 0

def roundConstants : Array UInt64 := ((List.range 24).map roundConstant).toArray

/-- The position after `(x, y)` on the walk that gives each word its rotation. -/
def nextPosition (p : Nat × Nat) : Nat × Nat := (p.2, (2 * p.1 + 3 * p.2) % 5)

/-- The rotation of each word, by index `x + 5 * y`. -/
def offsets : Array Nat :=
  ((List.range 24).foldl (fun (table, p) t =>
    ((table : Array Nat).set! (p.1 + 5 * p.2) ((t + 1) * (t + 2) / 2 % 64), nextPosition p))
    (Array.replicate 25 0, (1, 0))).1

/-- Rotation to the left by less than 64. -/
def rotateLeft (x : UInt64) (n : Nat) : UInt64 :=
  if n = 0 then x else (x <<< n.toUInt64) ||| (x >>> (64 - n).toUInt64)

/-- One round of the permutation. -/
def round (s : Array UInt64) (constant : UInt64) : Array UInt64 :=
  let column (x : Nat) := s[x]! ^^^ s[x + 5]! ^^^ s[x + 10]! ^^^ s[x + 15]! ^^^ s[x + 20]!
  let columns := #[column 0, column 1, column 2, column 3, column 4]
  let parity := ((List.range 5).map fun x =>
    columns[(x + 4) % 5]! ^^^ rotateLeft columns[(x + 1) % 5]! 1).toArray
  let mixed := (List.range 25).foldl (fun (t : Array UInt64) i =>
    let x := i % 5
    let y := i / 5
    t.set! (y + 5 * ((2 * x + 3 * y) % 5)) (rotateLeft (s[i]! ^^^ parity[x]!) offsets[i]!))
    (Array.replicate 25 0)
  let out := ((List.range 25).map fun i =>
    let y := i / 5 * 5
    let x := i % 5
    mixed[i]! ^^^ (~~~mixed[y + (x + 1) % 5]! &&& mixed[y + (x + 2) % 5]!)).toArray
  out.set! 0 (out[0]! ^^^ constant)

/-- The permutation of 24 rounds. -/
def permute (s : Array UInt64) : Array UInt64 := roundConstants.foldl round s

/-- The state after one block of the rate. -/
def absorbBlock (s : Array UInt64) (block : Bytes) : Array UInt64 :=
  permute (s.zipWith (· ^^^ ·) (wordsLE UInt64 (fill 200 block)).toArray)

/-- The message in whole blocks: a domain byte after it, and the top bit of the last byte set. -/
def pad (rate : Nat) (domain : UInt8) (bs : Bytes) : Bytes :=
  let missing := rate - bs.length % rate
  if missing = 1 then bs ++ [domain ||| 0x80]
  else bs ++ domain :: List.replicate (missing - 2) 0 ++ [0x80]

/-- The digest of `size` bytes, at most the rate. -/
def digest (domain : UInt8) (size : Nat) (bs : Bytes) : Bytes :=
  let rate := 200 - 2 * size
  let final := (chunks rate (pad rate domain bs)).foldl absorbBlock (Array.replicate 25 0)
  (bytesLE final.toList).take size

end ReplayVector.Hash.Keccak

namespace ReplayVector.Hash

/-- SHA-3 with a digest of `size` bytes. -/
def sha3 (size : Nat) (bs : Bytes) : Bytes := Keccak.digest 0x06 size bs

/-- Keccak, as it was before it became SHA-3, with a digest of `size` bytes. -/
def keccak (size : Nat) (bs : Bytes) : Bytes := Keccak.digest 0x01 size bs

end ReplayVector.Hash
