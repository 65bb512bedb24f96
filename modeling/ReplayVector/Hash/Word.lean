import ReplayVector.Bytes

/-!
# Machine words of the hash functions

The hash functions come in pairs that differ in the width of their words: `UInt32` or `UInt64`.
`Word` names the operations they share, so that each family is written once.
-/

namespace ReplayVector.Hash

/-- A machine word with wrapping addition, bitwise operations and rotation to the right. -/
class Word (α : Type) extends Add α, XorOp α, AndOp α, Complement α, Inhabited α where
  /-- The number of bytes. -/
  width : Nat
  ofNat : Nat → α
  toNat : α → Nat
  rotateRight : α → Nat → α
  shiftRight : α → Nat → α

instance : Word UInt32 where
  width := 4
  ofNat := Nat.toUInt32
  toNat := UInt32.toNat
  rotateRight x n := (x >>> n.toUInt32) ||| (x <<< (32 - n).toUInt32)
  shiftRight x n := x >>> n.toUInt32

instance : Word UInt64 where
  width := 8
  ofNat := Nat.toUInt64
  toNat := UInt64.toNat
  rotateRight x n := (x >>> n.toUInt64) ||| (x <<< (64 - n).toUInt64)
  shiftRight x n := x >>> n.toUInt64

/-- Cuts a byte string into pieces of `size` bytes; the last may be shorter. -/
def chunks (size : Nat) (bs : Bytes) : List Bytes :=
  if _h : size = 0 ∨ bs = [] then []
  else bs.take size :: chunks size (bs.drop size)
termination_by bs.length
decreasing_by
  have : bs.length ≠ 0 := fun h0 => _h (Or.inr (List.length_eq_zero_iff.mp h0))
  simp; omega

/-- A byte string filled up with zeros to `size` bytes. -/
def fill (size : Nat) (bs : Bytes) : Bytes := bs ++ List.replicate (size - bs.length) 0

/-- The words written in a byte string, most significant byte first. -/
def wordsBE (α : Type) [Word α] (bs : Bytes) : List α :=
  (chunks (Word.width α) bs).map fun c => Word.ofNat (Bytes.toNatBE c)

/-- The words written in a byte string, least significant byte first. -/
def wordsLE (α : Type) [Word α] (bs : Bytes) : List α :=
  (chunks (Word.width α) bs).map fun c => Word.ofNat (Bytes.toNatLE c)

/-- The bytes of words, most significant first. -/
def bytesBE {α : Type} [Word α] (ws : List α) : Bytes :=
  ws.flatMap fun w => Bytes.ofNatBE (Word.width α) (Word.toNat w)

/-- The bytes of words, least significant first. -/
def bytesLE {α : Type} [Word α] (ws : List α) : Bytes :=
  ws.flatMap fun w => Bytes.ofNatLE (Word.width α) (Word.toNat w)

/-! ## Fractional parts of roots

The constants of several hash functions are the first bits of the fractional parts of the square
or cube roots of the first primes.
-/

/-- The largest number whose `k`-th power is at most `n`, sought below `2 ^ bits`. -/
def rootFloor (k n : Nat) : (bits : Nat) → (low : Nat) → Nat
  | 0, low => low
  | bits + 1, low =>
    let next := low + 2 ^ bits
    rootFloor k n bits (if next ^ k ≤ n then next else low)

/-- The first primes, found by trial division below `limit`. -/
def primesBelow (limit : Nat) : List Nat :=
  (List.range limit).filter fun n =>
    decide (2 ≤ n) && (List.range n).all fun d => decide (d < 2) || n % d != 0

/-- The first `8 * width` bits of the fractional part of the `k`-th root of each number. -/
def rootFractions (α : Type) [Word α] (k : Nat) (ns : List Nat) : List α :=
  let bits := 8 * Word.width α
  ns.map fun n => Word.ofNat (rootFloor k (n * 2 ^ (k * bits)) (bits + 6) 0)

/-- The primes below 410: the first eighty. -/
def firstPrimes : List Nat := primesBelow 410

/-- The square roots of the first eight primes: the initial state of several hash functions. -/
def initialWords (α : Type) [Word α] : List α := rootFractions α 2 (firstPrimes.take 8)

end ReplayVector.Hash
