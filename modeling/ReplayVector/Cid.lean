import ReplayVector.Hash.Multihash
import ReplayVector.Text.Multibase

/-!
# Content identifiers

The name of a block: how its bytes are to be read (the codec) and their digest. Version 0 is the
short form for one codec and one hash function; version 1 names both.
-/

namespace ReplayVector

/-- The name of a block. -/
inductive Cid where
  /-- A SHA-256 digest of a block of the first file format. -/
  | v0 (digest : Bytes.Sized 32)
  | v1 (codec : UInt64) (hash : Multihash)
  deriving DecidableEq

namespace Cid

/-- The codec of version 0 identifiers. -/
def dagPb : UInt64 := 0x70
/-- The codec of blocks that hold structured data with links. -/
def dagCbor : UInt64 := 0x71
/-- The codec of blocks that hold plain bytes. -/
def raw : UInt64 := 0x55

instance : Inhabited Cid := ⟨.v1 0 ⟨Multihash.identityCode, ⟨[], by simp⟩⟩⟩

def version : Cid → Nat
  | v0 _ => 0
  | v1 _ _ => 1

def codec : Cid → UInt64
  | v0 _ => dagPb
  | v1 c _ => c

def hash : Cid → Multihash
  | v0 d => ⟨Multihash.sha256Code, ⟨d.val, by have := d.property; omega⟩⟩
  | v1 _ h => h

/-- The identifier of structured data. -/
def ofDagCbor (data : Bytes) : Cid := v1 dagCbor (Multihash.blake2b256 data)

/-- The identifier of plain bytes that are short enough to stand in it. -/
def inline (data : Bytes) : Cid := v1 raw ⟨Multihash.identityCode, Bytes.truncate 64 data⟩

/-! ## Bytes -/

/-- The bytes of an identifier. -/
def toBytes : Cid → Bytes
  | v0 d => (0x12 : UInt8) :: 0x20 :: d.val
  | v1 codec hash => (1 : UInt8) :: Varint.encode codec.toNat ++ hash.toBytes

/-- Reads the identifier at the front of a byte string. -/
def ofBytes? (bs : Bytes) : Option (Cid × Bytes) := do
  let (version, bs) ← Varint.decode? bs
  let (codec, bs) ← Varint.decode? bs
  if version = 0x12 ∧ codec = 0x20 then
    let (digest, rest) ← Bytes.take? 32 bs
    let digest ← Bytes.sized? 32 digest
    return (v0 digest, rest)
  else if version = 1 then
    let (hash, rest) ← Multihash.ofBytes? bs
    return (v1 codec hash, rest)
  else none

/-! ## Text -/

/-- The canonical text: base 58 for version 0, lower-case base 32 for version 1. -/
def toString : Cid → String
  | c@(v0 _) => String.ofList (Text.encodeDigits Text.base58Symbols c.toBytes)
  | c => Text.Multibase.encode c.toBytes

instance : ToString Cid := ⟨toString⟩

/-- The part of a text after the first `/ipfs/`, or the whole text. -/
def afterScheme : List Char → List Char → List Char
  | whole, [] => whole
  | whole, cs@(_ :: rest) =>
    if "/ipfs/".toList.isPrefixOf cs then cs.drop 6 else afterScheme whole rest

/-- Reads an identifier from text, bare or after `/ipfs/`. Bytes after the digest are ignored. -/
def ofString? (s : String) : Option Cid := do
  let cs := afterScheme s.toList s.toList
  let text := String.ofList cs
  if text.utf8ByteSize < 2 then none else
  let bytes ←
    if text.utf8ByteSize = 46 ∧ "Qm".toList.isPrefixOf cs then
      Text.decodeDigits Text.base58Symbols cs
    else Text.Multibase.decode text
  (ofBytes? bytes).map (·.1)

/-! ## Blocks -/

/-- The identifier holds the data itself. -/
def isIdentity (c : Cid) : Bool := c.hash.code == Multihash.identityCode

/-- The identifier names a block that stores keep: not inline, structured or plain. -/
def isStoredBlock (c : Cid) : Bool :=
  !c.isIdentity && (c.codec == dagCbor || c.codec == raw)

end Cid

end ReplayVector
