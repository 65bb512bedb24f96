import ReplayVector.Bytes.Varint
import ReplayVector.Hash.Sha2
import ReplayVector.Hash.Blake3
import ReplayVector.Hash.Strobe

/-!
# Self-describing digests

A multihash is the code of a hash function and a digest of at most 64 bytes. The identity "hash"
(code 0) keeps the data itself as the digest.
-/

namespace ReplayVector

/-- The code of a hash function and a digest. -/
structure Multihash where
  code : UInt64
  digest : Bytes.UpTo 64
  deriving DecidableEq

namespace Multihash

def identityCode : UInt64 := 0
def sha256Code : UInt64 := 0x12
def blake2b256Code : UInt64 := 0xb220

/-- The hash functions by their codes. -/
def functions : List (UInt64 × (Bytes → Bytes)) :=
  [(0x12, Hash.sha256), (0x13, Hash.sha512),
   (0x14, Hash.sha3 64), (0x15, Hash.sha3 48), (0x16, Hash.sha3 32), (0x17, Hash.sha3 28),
   (0x1a, Hash.keccak 28), (0x1b, Hash.keccak 32), (0x1c, Hash.keccak 48), (0x1d, Hash.keccak 64),
   (0x1e, Hash.blake3),
   (blake2b256Code, Hash.blake2b 32), (0xb240, Hash.blake2b 64),
   (0xb250, Hash.blake2s 16), (0xb260, Hash.blake2s 32),
   (0x3312e7, Hash.strobe 32), (0x3312e8, Hash.strobe 64)]

/-- The digest of data under the function with the given code; `none` for an unknown code. -/
def ofData? (code : UInt64) (data : Bytes) : Option Multihash :=
  (functions.lookup code).map fun f => ⟨code, Bytes.truncate 64 (f data)⟩

/-- The BLAKE2b digest of 32 bytes. -/
def blake2b256 (data : Bytes) : Multihash := ⟨blake2b256Code, Bytes.truncate 64 (Hash.blake2b 32 data)⟩

/-- Code, length and digest. -/
def toBytes (h : Multihash) : Bytes :=
  Varint.encode h.code.toNat ++ Varint.encode h.digest.val.length ++ h.digest.val

/-- Reads the multihash at the front of a byte string. -/
def ofBytes? (bs : Bytes) : Option (Multihash × Bytes) := do
  let (code, bs) ← Varint.decode? bs
  let (size, bs) ← Varint.decode? bs
  if size > 64 then none else
  let (digest, rest) ← Bytes.take? size.toNat bs
  let digest ← Bytes.upTo? 64 digest
  return (⟨code, digest⟩, rest)

end Multihash

end ReplayVector
