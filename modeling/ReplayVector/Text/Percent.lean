import ReplayVector.Bytes

/-!
# Percent encoding

Bytes that may not stand in a text are written as a percent sign and two hexadecimal digits.
-/

namespace ReplayVector.Text

/-- Replaces percent signs and the two digits after them by bytes. Other percent signs stay. -/
def percentDecode : Bytes → Bytes
  | [] => []
  | 0x25 :: h :: l :: rest =>
    match Bytes.hexValue? (Char.ofNat h.toNat), Bytes.hexValue? (Char.ofNat l.toNat) with
    | some h, some l => (16 * h + l).toUInt8 :: percentDecode rest
    | _, _ => 0x25 :: percentDecode (h :: l :: rest)
  | b :: rest => b :: percentDecode rest

/-- An upper-case hexadecimal digit. -/
def upperHexDigit (n : Nat) : Char := if n < 10 then Char.ofNat (48 + n) else Char.ofNat (55 + n)

/-- The text of a character: as it is, unless it is one of the `reserved`, a control character or
not ASCII. -/
def percentEncodeChar (reserved : List Char) (c : Char) : List Char :=
  if c.toNat < 0x20 ∨ c.toNat ≥ 0x7f ∨ c ∈ reserved then
    (Bytes.ofString (String.singleton c)).flatMap fun b =>
      ['%', upperHexDigit (b.toNat / 16), upperHexDigit (b.toNat % 16)]
  else [c]

/-- A text in which reserved characters, controls and those that are not ASCII are encoded. -/
def percentEncode (reserved : List Char) (cs : List Char) : List Char :=
  cs.flatMap (percentEncodeChar reserved)

end ReplayVector.Text
