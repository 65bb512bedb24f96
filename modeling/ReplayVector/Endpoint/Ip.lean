import ReplayVector.Bytes
import ReplayVector.Text.Fields

/-!
# Internet addresses

Addresses of version 4 are four numbers with dots between them, those of version 6 eight groups of
hexadecimal digits with colons between them. In the text of a version 6 address two colons in a
row stand for groups of zeros, and the last two groups may be written as an address of version 4.
-/

namespace ReplayVector

/-- An internet address of version 4. -/
structure Ipv4 where
  octets : Bytes.Sized 4
  deriving DecidableEq

namespace Ipv4

/-- Reads a number below 256 without leading zeros. -/
def octet? (cs : List Char) : Option UInt8 :=
  if cs = ['0'] then some 0
  else if cs ≠ [] ∧ cs.length ≤ 3 ∧ cs.all Char.isDigit ∧ cs.head? ≠ some '0' ∧
      Text.digitsValue cs < 256 then
    some (Text.digitsValue cs).toUInt8
  else none

/-- Reads four numbers with dots between them. -/
def ofChars? (cs : List Char) : Option Ipv4 := do
  let octets ← (Text.fields '.' cs).mapM octet?
  let octets ← Bytes.sized? 4 octets
  return ⟨octets⟩

/-- The address with a number of 32 bits. -/
def ofNat (n : Nat) : Ipv4 := ⟨⟨Bytes.ofNatBE 4 n, Bytes.length_ofNatBE 4 n⟩⟩

/-- Four numbers with dots between them. -/
def toChars (a : Ipv4) : List Char :=
  Text.join '.' (a.octets.val.map fun b => (Nat.repr b.toNat).toList)

instance : ToString Ipv4 := ⟨fun a => String.ofList a.toChars⟩

end Ipv4

/-- An internet address of version 6. -/
structure Ipv6 where
  groups : { gs : List UInt16 // gs.length = 8 }
  deriving DecidableEq

namespace Ipv6

/-- Reads one to four hexadecimal digits. -/
def group? (cs : List Char) : Option UInt16 :=
  if cs ≠ [] ∧ cs.length ≤ 4 then
    (cs.mapM Bytes.hexValue?).map fun ds => (ds.foldl (fun n d => 16 * n + d) 0).toUInt16
  else none

/-- The two groups that an address of version 4 fills. -/
def ofIpv4 (a : Ipv4) : List UInt16 :=
  match a.octets.val with
  | [a, b, c, d] => [a.toUInt16 * 256 + b.toUInt16, c.toUInt16 * 256 + d.toUInt16]
  | _ => []

/-- Reads groups; the last field may be an address of version 4 if `tail` says so. -/
def readFields? (tail : Bool) : List (List Char) → Option (List UInt16)
  | [] => some []
  | [field] =>
    match group? field with
    | some g => some [g]
    | none => if tail then (Ipv4.ofChars? field).map ofIpv4 else none
  | field :: rest => do
    let g ← group? field
    let gs ← readFields? tail rest
    return g :: gs

/-- Reads groups with colons between them; an empty text has none. -/
def readGroups? (tail : Bool) (cs : List Char) : Option (List UInt16) :=
  if cs = [] then some [] else readFields? tail (Text.fields ':' cs)

/-- The parts of a text before and after the first two colons in a row. -/
def cutZeros? : List Char → Option (List Char × List Char)
  | [] => none
  | ':' :: ':' :: rest => some ([], rest)
  | c :: rest => (cutZeros? rest).map fun (front, back) => (c :: front, back)

/-- The address with the given groups, if there are eight. -/
def ofGroups? (gs : List UInt16) : Option Ipv6 :=
  if h : gs.length = 8 then some ⟨gs, h⟩ else none

/-- Reads the text of an address. Two colons in a row stand for at least one group. -/
def ofChars? (cs : List Char) : Option Ipv6 :=
  match cutZeros? cs with
  | none => (readGroups? true cs).bind ofGroups?
  | some (front, back) => do
    let front ← readGroups? false front
    let back ← readGroups? true back
    if front.length + back.length ≤ 7 then
      ofGroups? (front ++ List.replicate (8 - front.length - back.length) 0 ++ back)
    else none

/-- Where the first of the longest runs of zeros starts, and its length. -/
def longestZeros (gs : List UInt16) : Nat × Nat :=
  (List.range gs.length).foldl (fun best i =>
    let run := ((gs.drop i).takeWhile (· == 0)).length
    if run > best.2 then (i, run) else best) (0, 0)

/-- Groups in hexadecimal, with colons between them. -/
def joinGroups (gs : List UInt16) : List Char :=
  Text.join ':' (gs.map fun g => Nat.toDigits 16 g.toNat)

/-- The groups in hexadecimal; two colons stand for the longest run of two or more zeros. -/
def toHexChars (a : Ipv6) : List Char :=
  let gs := a.groups.val
  let (start, run) := longestZeros gs
  if run ≤ 1 then joinGroups gs
  else joinGroups (gs.take start) ++ [':', ':'] ++ joinGroups (gs.drop (start + run))

/-- The address of version 4 that an address stands for. -/
def mapped? (a : Ipv6) : Option Ipv4 :=
  match a.groups.val with
  | [0, 0, 0, 0, 0, 0xffff, g, h] => some (Ipv4.ofNat (g.toNat * 65536 + h.toNat))
  | _ => none

/-- The text of an address, with the version 4 address that it stands for if there is one. -/
def toChars (a : Ipv6) : List Char :=
  match a.mapped? with
  | some b => "::ffff:".toList ++ b.toChars
  | none => a.toHexChars

instance : ToString Ipv6 := ⟨fun a => String.ofList a.toChars⟩

end Ipv6

end ReplayVector
