import ReplayVector.Hash.Word

/-!
# SHA-256 and SHA-512

Both members of the family run the same compression over words of different width.
-/

namespace ReplayVector.Hash.Sha2

/-- What sets the members of the family apart, beside the width of their words. -/
structure Variant where
  rounds : Nat
  /-- Rotations of the two functions on the state, and rotations and shift on the schedule. -/
  state0 : Nat × Nat × Nat
  state1 : Nat × Nat × Nat
  schedule0 : Nat × Nat × Nat
  schedule1 : Nat × Nat × Nat

section
variable {α : Type} [Word α]
open Word (rotateRight shiftRight)

/-- Three rotations of a word, combined. -/
@[specialize] def rotations (r : Nat × Nat × Nat) (x : α) : α :=
  rotateRight x r.1 ^^^ rotateRight x r.2.1 ^^^ rotateRight x r.2.2

/-- Two rotations and a shift of a word, combined. -/
@[specialize] def rotationsShift (r : Nat × Nat × Nat) (x : α) : α :=
  rotateRight x r.1 ^^^ rotateRight x r.2.1 ^^^ shiftRight x r.2.2

/-- Extends a message schedule by a word. Here its last word comes first. -/
@[specialize] def extend (v : Variant) (w : List α) : List α :=
  let word (back : Nat) := w.getD (back - 1) default
  (rotationsShift v.schedule1 (word 2) + word 7 + rotationsShift v.schedule0 (word 15) + word 16) :: w

/-- The message schedule: the sixteen words of a block, extended to one word a round. -/
@[specialize] def schedule (v : Variant) (block : List α) : List α :=
  (Nat.repeat (extend v) (v.rounds - 16) block.reverse).reverse

/-- One round on the eight words of the state. -/
@[specialize] def round (v : Variant) (k w : α) : List α → List α
  | [a, b, c, d, e, f, g, h] =>
    let t1 := h + rotations v.state1 e + ((e &&& f) ^^^ (~~~e &&& g)) + k + w
    let t2 := rotations v.state0 a + ((a &&& b) ^^^ (a &&& c) ^^^ (b &&& c))
    [t1 + t2, a, b, c, d + t1, e, f, g]
  | s => s

/-- The state after one block. -/
@[specialize] def compress (v : Variant) (constants state : List α) (block : Bytes) : List α :=
  let w := schedule v (wordsBE α block)
  let final := (constants.zip w).foldl (fun s (k, w) => round v k w s) state
  state.zipWith (· + ·) final

/-- The message with a set bit, zeros and its length in bits, in whole blocks of sixteen words. -/
def pad (width : Nat) (bs : Bytes) : Bytes :=
  let block := 16 * width
  let zeros := (2 * block - (bs.length + 1 + 2 * width) % block) % block
  bs ++ 0x80 :: List.replicate zeros 0 ++ Bytes.ofNatBE (2 * width) (8 * bs.length)

/-- The digest of a message. -/
@[specialize] def digest (v : Variant) (constants initial : List α) (bs : Bytes) : Bytes :=
  bytesBE ((chunks (16 * Word.width α) (pad (Word.width α) bs)).foldl (compress v constants) initial)

end

def variant256 : Variant where
  rounds := 64
  state0 := (2, 13, 22)
  state1 := (6, 11, 25)
  schedule0 := (7, 18, 3)
  schedule1 := (17, 19, 10)

def variant512 : Variant where
  rounds := 80
  state0 := (28, 34, 39)
  state1 := (14, 18, 41)
  schedule0 := (1, 8, 7)
  schedule1 := (19, 61, 6)

def constants256 : List UInt32 := rootFractions UInt32 3 (firstPrimes.take 64)
def constants512 : List UInt64 := rootFractions UInt64 3 firstPrimes
def initial256 : List UInt32 := initialWords UInt32
def initial512 : List UInt64 := initialWords UInt64

end ReplayVector.Hash.Sha2

namespace ReplayVector.Hash

/-- SHA-256. -/
def sha256 (bs : Bytes) : Bytes := Sha2.digest Sha2.variant256 Sha2.constants256 Sha2.initial256 bs

/-- SHA-512. -/
def sha512 (bs : Bytes) : Bytes := Sha2.digest Sha2.variant512 Sha2.constants512 Sha2.initial512 bs

end ReplayVector.Hash
