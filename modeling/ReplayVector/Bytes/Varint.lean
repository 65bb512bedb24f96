import ReplayVector.Bytes

/-!
# Variable-length numbers

A number is written seven bits a byte, least significant first; every byte but the last has its
top bit set. A reader takes at most ten bytes, and refuses a final zero byte that a shorter form
would not need. The number is taken modulo `2 ^ 64`.
-/

namespace ReplayVector.Varint

/-- The shortest form of a number. -/
def encode (n : Nat) : Bytes :=
  if n < 128 then [n.toUInt8] else (n % 128 + 128).toUInt8 :: encode (n / 128)
termination_by n
decreasing_by omega

/-- What the front of a byte string says about a number. -/
inductive Decoded where
  /-- A number, and the bytes after it. -/
  | value (n : UInt64) (rest : Bytes)
  /-- The string ends inside the number. -/
  | incomplete
  /-- No number begins like this. -/
  | invalid
  deriving DecidableEq, Repr

/-- Reads on after `index` bytes of a number, whose value so far is `acc`. -/
def decodeFrom (index acc : Nat) : Bytes → Decoded
  | [] => .incomplete
  | b :: rest =>
    let acc := acc + (b.toNat % 128) * 2 ^ (7 * index)
    if b < 128 then
      if b = 0 ∧ index ≠ 0 then .invalid else .value acc.toUInt64 rest
    else if index = 9 then .invalid
    else decodeFrom (index + 1) acc rest

/-- Reads the number at the front of a byte string. -/
def decode (bs : Bytes) : Decoded := decodeFrom 0 0 bs

/-- Reads the number at the front of a byte string, which has to be whole. -/
def decode? (bs : Bytes) : Option (UInt64 × Bytes) :=
  match decode bs with
  | .value n rest => some (n, rest)
  | _ => none

/-- Reads a byte string that is one number and nothing else. -/
def decodeAll? (bs : Bytes) : Option UInt64 :=
  match decode bs with
  | .value n [] => some n
  | _ => none

end ReplayVector.Varint
