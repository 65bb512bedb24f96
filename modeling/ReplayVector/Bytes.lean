/-!
# Byte strings

A byte string is a list of bytes, so that every codec of this library is a recursion on its
input. This module holds the conversions that all formats share: numbers in either byte order,
hexadecimal text, and UTF-8.
-/

-- The powers and the zero of numbers are the core library's in every module, whatever algebra the
-- module imports.
attribute [instance (20000)] instPowNat Zero.ofOfNat0
attribute [default_instance (20000)] instHPow instPowNat

namespace ReplayVector

/-- A byte string. -/
abbrev Bytes := List UInt8

namespace Bytes

/-! ## Numbers -/

/-- The lowest `width` bytes of a number, least significant first. -/
def ofNatLE : Nat → Nat → Bytes
  | 0, _ => []
  | width + 1, n => n.toUInt8 :: ofNatLE width (n / 256)

/-- The number whose bytes, least significant first, are given. -/
def toNatLE : Bytes → Nat
  | [] => 0
  | b :: bs => b.toNat + 256 * toNatLE bs

/-- The lowest `width` bytes of a number, most significant first. -/
def ofNatBE (width n : Nat) : Bytes := (ofNatLE width n).reverse

/-- The number whose bytes, most significant first, are given. -/
def toNatBE (bs : Bytes) : Nat := toNatLE bs.reverse

/-- The bytes of a number, least significant first, without leading zeros: none for zero. -/
def magnitudeLE (n : Nat) : Bytes :=
  if n = 0 then [] else n.toUInt8 :: magnitudeLE (n / 256)
termination_by n
decreasing_by omega

/-- The bytes of a number, most significant first, without leading zeros: none for zero. -/
def magnitude (n : Nat) : Bytes := (magnitudeLE n).reverse

/-- A number of some width has as many bytes. -/
theorem length_ofNatLE (width n : Nat) : (ofNatLE width n).length = width := by
  induction width generalizing n with
  | zero => rfl
  | succ width ih => simp [ofNatLE, ih]

theorem length_ofNatBE (width n : Nat) : (ofNatBE width n).length = width := by
  simp [ofNatBE, length_ofNatLE]

/-- Writing a number that fits and reading it back is the identity. -/
theorem toNatLE_ofNatLE {width n : Nat} (h : n < 256 ^ width) :
    toNatLE (ofNatLE width n) = n := by
  induction width generalizing n with
  | zero => simp at h; simp [ofNatLE, toNatLE, h]
  | succ width ih =>
    have hn : n / 256 < 256 ^ width := by
      apply Nat.div_lt_of_lt_mul
      simpa [Nat.pow_succ, Nat.mul_comm] using h
    simp only [ofNatLE, toNatLE, ih hn]
    have : n.toUInt8.toNat = n % 256 := rfl
    omega

/-- A number that fits into its width is read back. -/
theorem toNatBE_ofNatBE {width n : Nat} (h : n < 256 ^ width) :
    toNatBE (ofNatBE width n) = n := by
  simp [toNatBE, ofNatBE, toNatLE_ofNatLE h]

/-- A number is read back from as many bytes as it needs. -/
theorem toNatLE_magnitudeLE (n : Nat) : toNatLE (magnitudeLE n) = n := by
  induction n using Nat.strongRecOn with
  | ind n ih =>
    rw [magnitudeLE]
    split
    · next h => simp [toNatLE, h]
    · next h =>
      simp only [toNatLE, ih (n / 256) (by omega)]
      have : n.toUInt8.toNat = n % 256 := rfl
      omega

theorem toNatBE_magnitude (n : Nat) : toNatBE (magnitude n) = n := by
  simp [toNatBE, magnitude, toNatLE_magnitudeLE]

/-! ## Hexadecimal text -/

/-- The lower-case hexadecimal digit of a number below 16. -/
def hexDigit (n : Nat) : Char :=
  if n < 10 then Char.ofNat (48 + n) else Char.ofNat (87 + n)

/-- The value of a hexadecimal digit of either case. -/
def hexValue? (c : Char) : Option Nat :=
  if '0' ≤ c ∧ c ≤ '9' then some (c.toNat - 48)
  else if 'a' ≤ c ∧ c ≤ 'f' then some (c.toNat - 87)
  else if 'A' ≤ c ∧ c ≤ 'F' then some (c.toNat - 55)
  else none

/-- Lower-case hexadecimal text, two digits a byte. -/
def toHex (bs : Bytes) : String :=
  String.ofList (bs.flatMap fun b => [hexDigit (b.toNat / 16), hexDigit (b.toNat % 16)])

/-- Reads pairs of hexadecimal digits. -/
def ofHexChars? : List Char → Option Bytes
  | [] => some []
  | [_] => none
  | h :: l :: cs => do
    let high ← hexValue? h
    let low ← hexValue? l
    let rest ← ofHexChars? cs
    return (16 * high + low).toUInt8 :: rest

/-- Reads hexadecimal text of either case. -/
def ofHex? (s : String) : Option Bytes := ofHexChars? s.toList

/-! ## Text -/

/-- The UTF-8 bytes of a text. -/
def ofString (s : String) : Bytes := s.toUTF8.toList

/-- The text whose UTF-8 bytes are given; `none` if they are not valid UTF-8. -/
def toString? (bs : Bytes) : Option String := String.fromUTF8? ⟨bs.toArray⟩

/-- The first `n` bytes and the rest; `none` if there are fewer. -/
def take? : Nat → Bytes → Option (Bytes × Bytes)
  | 0, bs => some ([], bs)
  | _ + 1, [] => none
  | n + 1, b :: bs => (take? n bs).map fun (front, rest) => (b :: front, rest)

/-- What was put in front is taken off. -/
theorem take?_append (front rest : Bytes) : take? front.length (front ++ rest) = some (front, rest) := by
  induction front with
  | nil => rfl
  | cons b bs ih => simp [take?, ih]

/-- What was taken off stood in front. -/
theorem eq_append_of_take? {n : Nat} {bs front rest : Bytes} (h : take? n bs = some (front, rest)) :
    bs = front ++ rest ∧ front.length = n := by
  induction n generalizing bs front with
  | zero => simp [take?] at h; simp [← h.1, h.2]
  | succ n ih =>
    match bs with
    | [] => simp [take?] at h
    | b :: bs =>
      simp only [take?, Option.map_eq_some_iff] at h
      obtain ⟨⟨front', rest'⟩, h', heq⟩ := h
      simp only [Prod.mk.injEq] at heq
      obtain ⟨rfl, rfl⟩ := heq
      obtain ⟨rfl, rfl⟩ := ih h'
      simp

/-- A byte string of exactly `n` bytes. -/
abbrev Sized (n : Nat) := { bs : Bytes // bs.length = n }

/-- A byte string of at most `n` bytes. -/
abbrev UpTo (n : Nat) := { bs : Bytes // bs.length ≤ n }

instance : EmptyCollection (UpTo n) := ⟨⟨[], Nat.zero_le n⟩⟩
instance : Inhabited (UpTo n) := ⟨∅⟩

/-- A byte string as one of exactly `n` bytes, if that is its length. -/
def sized? (n : Nat) (bs : Bytes) : Option (Sized n) :=
  if h : bs.length = n then some ⟨bs, h⟩ else none

/-- A byte string as one of at most `n` bytes, if it is that short. -/
def upTo? (n : Nat) (bs : Bytes) : Option (UpTo n) :=
  if h : bs.length ≤ n then some ⟨bs, h⟩ else none

/-- The first `n` bytes of a byte string, filled up with zeros. -/
def resize (n : Nat) (bs : Bytes) : Sized n :=
  ⟨(bs ++ List.replicate n 0).take n, by simp⟩

/-- The first `n` bytes of a byte string. -/
def truncate (n : Nat) (bs : Bytes) : UpTo n := ⟨bs.take n, List.length_take_le n bs⟩

end Bytes

end ReplayVector
