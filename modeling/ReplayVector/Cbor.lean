import ReplayVector.Cid

/-!
# Structured data with links

The data model of dag-cbor blocks: plain values, lists, maps with text keys, and links to other
blocks. `Cbor.encode` writes every head in its shortest form and keeps the order of entries.
-/

namespace ReplayVector

/-- A structured value. -/
inductive Cbor where
  | null
  | bool (b : Bool)
  /-- A whole number in `[-2 ^ 64, 2 ^ 64)`. -/
  | int (n : Int)
  /-- A floating-point number, by its 64 bits. -/
  | float (bits : UInt64)
  | bytes (bs : Bytes)
  | text (s : String)
  | list (items : List Cbor)
  | map (entries : List (String × Cbor))
  | link (c : Cid)
  deriving Inhabited

namespace Cbor

/-! ## Writing -/

/-- The head of an item: its kind and a number in the fewest bytes. -/
def head (kind : UInt8) (n : Nat) : Bytes :=
  let lead (low : UInt8) : UInt8 := kind * 32 + low
  if n < 24 then [lead n.toUInt8]
  else if n < 2 ^ 8 then lead 24 :: Bytes.ofNatBE 1 n
  else if n < 2 ^ 16 then lead 25 :: Bytes.ofNatBE 2 n
  else if n < 2 ^ 32 then lead 26 :: Bytes.ofNatBE 4 n
  else lead 27 :: Bytes.ofNatBE 8 n

/-- The encoding of a byte string. -/
def encodeBytes (bs : Bytes) : Bytes := head 2 bs.length ++ bs

/-- The encoding of a text. -/
def encodeText (s : String) : Bytes := head 3 s.utf8ByteSize ++ Bytes.ofString s

mutual

/-- The encoding of a value. -/
def encode : Cbor → Bytes
  | .null => [0xf6]
  | .bool false => [0xf4]
  | .bool true => [0xf5]
  | .int n => if 0 ≤ n then head 0 n.toNat else head 1 (-1 - n).toNat
  | .float bits => 0xfb :: Bytes.ofNatBE 8 bits.toNat
  | .bytes bs => encodeBytes bs
  | .text s => encodeText s
  | .list items => head 4 items.length ++ encodeItems items
  | .map entries => head 5 entries.length ++ encodeEntries entries
  | .link c => head 6 42 ++ encodeBytes (0 :: c.toBytes)

/-- The encodings of values, one after the other. -/
def encodeItems : List Cbor → Bytes
  | [] => []
  | v :: vs => encode v ++ encodeItems vs

/-- The encodings of keys and values, one after the other. -/
def encodeEntries : List (String × Cbor) → Bytes
  | [] => []
  | (k, v) :: es => encodeText k ++ encode v ++ encodeEntries es

end

/-! ## Links -/

mutual

/-- The links of a value, each as often as it occurs, in the order of the value. -/
def links : Cbor → List Cid
  | .link c => [c]
  | .list items => linksOfItems items
  | .map entries => linksOfEntries entries
  | _ => []

/-- The links of values. -/
def linksOfItems : List Cbor → List Cid
  | [] => []
  | v :: vs => links v ++ linksOfItems vs

/-- The links of a map's values. -/
def linksOfEntries : List (String × Cbor) → List Cid
  | [] => []
  | (_, v) :: es => links v ++ linksOfEntries es

end

/-! ## Numbers -/

/-- A number without sign. -/
def ofUInt64 (n : UInt64) : Cbor := .int n.toNat

/-- The number, if it fits in 64 bits without sign. -/
def toUInt64? : Cbor → Option UInt64
  | .int n => if 0 ≤ n ∧ n < 2 ^ 64 then some n.toNat.toUInt64 else none
  | _ => none

end Cbor

/-- The identifier of a structured value's block. -/
def Cid.ofCbor (v : Cbor) : Cid := Cid.ofDagCbor v.encode

end ReplayVector
