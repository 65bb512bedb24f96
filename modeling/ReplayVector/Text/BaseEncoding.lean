import ReplayVector.Bytes

/-!
# Bytes written in an alphabet

Two ways of writing a byte string as text. A *bit alphabet* has `2 ^ bits` symbols and writes the
bits of the string in groups, most significant first, the last group filled up with zeros
(base 2, 8, 16, 32 and 64). A *digit alphabet* has any number of symbols and writes the string as
one number, each leading zero byte as one leading zero digit (base 10, 36 and 58).

Reading is strict: a character outside the alphabet, a group that carries no byte, set bits in
the filling, or wrong padding is refused. So each byte string has one written form.
-/

namespace ReplayVector.Text

/-! ## Bits of a byte string -/

/-- The eight bits of a byte, most significant first. -/
def byteBits (b : UInt8) : List Bool :=
  [7, 6, 5, 4, 3, 2, 1, 0].map fun i => b.toNat.testBit i

/-- The bits of a byte string, most significant first. -/
def toBits (bs : Bytes) : List Bool := bs.flatMap byteBits

/-- The number that a list of bits writes, most significant first. -/
def bitsValue (bits : List Bool) : Nat := bits.foldl (fun n b => 2 * n + b.toNat) 0

/-- The whole bytes at the front of a list of bits, and the bits left over. -/
def ofBits : List Bool → Bytes × List Bool
  | a :: b :: c :: d :: e :: f :: g :: h :: rest =>
    let (bytes, left) := ofBits rest
    ((bitsValue [a, b, c, d, e, f, g, h]).toUInt8 :: bytes, left)
  | bits => ([], bits)

/-- The index of a character in an alphabet. -/
def indexOf? (symbols : List Char) (c : Char) : Option Nat := symbols.idxOf? c

/-! ## Bit alphabets -/

/-- An alphabet of `2 ^ bits` symbols, with the length up to which `'='` pads a text (1 for none). -/
structure BitAlphabet where
  bits : Nat
  symbols : List Char
  block : Nat := 1

namespace BitAlphabet

/-- The bits cut into groups; the last group is filled up with zeros. -/
def groups (width : Nat) (bits : List Bool) : List (List Bool) :=
  if _h : width = 0 ∨ bits = [] then []
  else
    let front := bits.take width
    (front ++ List.replicate (width - front.length) false) :: groups width (bits.drop width)
termination_by bits.length
decreasing_by
  have : bits.length ≠ 0 := fun h0 => _h (Or.inr (List.length_eq_zero_iff.mp h0))
  rw [List.length_drop]
  omega

/-- The padding that a text of `n` symbols needs. -/
def padding (a : BitAlphabet) (n : Nat) : Nat := (a.block - n % a.block) % a.block

/-- A byte string in the alphabet, with padding. -/
def encode (a : BitAlphabet) (bs : Bytes) : List Char :=
  let text := (groups a.bits (toBits bs)).map fun g => a.symbols.getD (bitsValue g) '?'
  text ++ List.replicate (a.padding text.length) '='

/-- The value of each symbol. -/
def values? (a : BitAlphabet) (cs : List Char) : Option (List Nat) := cs.mapM (indexOf? a.symbols)

/-- The lowest `width` bits of a number, most significant first. -/
def bitsOf (width n : Nat) : List Bool := (List.range width).reverse.map fun i => n.testBit i

/-- Reads symbols without padding: every group carries a part of a byte, the filling is zero. -/
def decodeUnpadded (a : BitAlphabet) (cs : List Char) : Option Bytes := do
  let values ← a.values? cs
  let (bytes, left) := ofBits (values.flatMap (bitsOf a.bits))
  if left.length < a.bits ∧ left.all (· == false) then some bytes else none

/-- Reads blocks of symbols, each padded on its own. -/
def decodeBlocks (a : BitAlphabet) (cs : List Char) : Option Bytes :=
  if _h : cs = [] ∨ a.block = 0 then some []
  else if cs.length < a.block then none
  else do
    let block := cs.take a.block
    let symbols := (block.reverse.dropWhile (· == '=')).reverse
    if symbols = [] then none else
    let front ← a.decodeUnpadded symbols
    let rest ← a.decodeBlocks (cs.drop a.block)
    return front ++ rest
termination_by cs.length
decreasing_by
  have : cs.length ≠ 0 := fun h0 => _h (Or.inl (List.length_eq_zero_iff.mp h0))
  rw [List.length_drop]
  omega

/-- Reads a text in the alphabet: with padding where the alphabet pads. -/
def decode (a : BitAlphabet) (cs : List Char) : Option Bytes :=
  if a.block ≤ 1 then a.decodeUnpadded cs else a.decodeBlocks cs

end BitAlphabet

/-! ## Digit alphabets -/

/-- The digits of a number in a base, least significant first; none for zero. -/
def digitsLE (base n : Nat) : List Nat :=
  if _h : n = 0 ∨ base < 2 then [] else n % base :: digitsLE base (n / base)
termination_by n
decreasing_by
  exact Nat.div_lt_self (by omega) (by omega)

/-- A byte string as one number in the digits of an alphabet. -/
def encodeDigits (symbols : List Char) (bs : Bytes) : List Char :=
  let zeros := (bs.takeWhile (· == 0)).length
  List.replicate zeros (symbols.headD '0') ++
    (digitsLE symbols.length (Bytes.toNatBE bs)).reverse.map fun d => symbols.getD d '?'

/-- Reads a number in the digits of an alphabet as the byte string it stands for. -/
def decodeDigits (symbols : List Char) (cs : List Char) : Option Bytes := do
  let digits ← cs.mapM (indexOf? symbols)
  let zeros := (digits.takeWhile (· == 0)).length
  let value := digits.foldl (fun n d => n * symbols.length + d) 0
  return List.replicate zeros 0 ++ Bytes.magnitude value

/-! ## The alphabets in use -/

def lowerLetters : String := "abcdefghijklmnopqrstuvwxyz"
def upperLetters : String := "ABCDEFGHIJKLMNOPQRSTUVWXYZ"
def decimalDigits : String := "0123456789"

/-- Lower-case base 32 without padding: the text form of addresses and content identifiers. -/
def base32 : BitAlphabet := { bits := 5, symbols := (lowerLetters ++ "234567").toList }

def base64Symbols : List Char := (upperLetters ++ lowerLetters ++ decimalDigits ++ "+/").toList
def base64UrlSymbols : List Char := (upperLetters ++ lowerLetters ++ decimalDigits ++ "-_").toList

/-- Padded base 64 in the standard alphabet. -/
def base64 : BitAlphabet := { bits := 6, symbols := base64Symbols, block := 4 }

/-- The alphabet of base 58: digits and letters without `0`, `O`, `I` and `l`. -/
def base58Symbols : List Char := "123456789ABCDEFGHJKLMNPQRSTUVWXYZabcdefghijkmnopqrstuvwxyz".toList

/-- A byte string in padded base 64. -/
def toBase64 (bs : Bytes) : String := String.ofList (base64.encode bs)

/-- Reads padded base 64. The whole text is one run of blocks, of which only the last may pad. -/
def ofBase64? (s : String) : Option Bytes :=
  let cs := s.toList
  let symbols := (cs.reverse.dropWhile (· == '=')).reverse
  if cs.length = symbols.length + base64.padding symbols.length then base64.decodeUnpadded symbols
  else none

end ReplayVector.Text
