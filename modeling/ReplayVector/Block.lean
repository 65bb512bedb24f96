import ReplayVector.Failure

/-!
# Blocks

A block is a byte string under its identifier. It is genuine if the identifier is that of its
bytes: an identifier that holds data inline has to hold exactly these bytes, any other one their
digest.
-/

namespace ReplayVector

/-- A byte string under its identifier. -/
structure Block where
  cid : Cid
  data : Bytes
  deriving DecidableEq

namespace Block

/-- Checks that the identifier is that of the bytes. -/
def verify (b : Block) : Except Failure Unit :=
  if b.cid.isIdentity then
    if b.cid.hash.digest.val = b.data then .ok () else .error (.of (.inlineMismatch b.cid))
  else
    match Multihash.ofData? b.cid.hash.code b.data with
    | none => .error .unworded
    | some hash =>
      if hash = b.cid.hash then .ok ()
      else .error (.of (.digestMismatch b.cid (.v1 b.cid.codec hash)))

/-- The block of structured data. -/
def ofDagCbor (data : Bytes) : Block := { cid := .ofDagCbor data, data }

end Block

end ReplayVector
