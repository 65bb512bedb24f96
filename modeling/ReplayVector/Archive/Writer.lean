import ReplayVector.Archive
import ReplayVector.Chain.Lookup

/-!
# Writing what is reachable

`Archive.collect` visits the blocks reachable from some roots depth first, the first link of a
block first, each block once. Blocks held inline in their identifiers are skipped, and only
structured blocks are searched for links. `Archive.write` makes an archive of what is visited.
-/

namespace ReplayVector.Archive

/-- What a visit has come to: the blocks visited so far, in order, and why it ended early. -/
structure Visit where
  blocks : List Block
  failure : Option Failure

/-- The links of a block that a visit follows. -/
def children (follow : Cid → Bool) (b : Block) : Except Failure (List Cid) :=
  if b.cid.codec = Cid.dagCbor then
    match Cbor.decode? b.data with
    | some v => .ok (v.links.filter fun c => c.isStoredBlock && follow c)
    | none => .error (.because [.decodingLinks b.cid, .unworded])
  else .ok []

/-- Visits the identifiers on a stack and what they link to, with at most `fuel` blocks. -/
def visit (follow : Cid → Bool) :
    (fuel : Nat) → (seen : List Cid) → (visited : List Block) → (stack : List Cid) → BlockM Visit
  | 0, _, visited, _ => return ⟨visited.reverse, none⟩
  | fuel + 1, seen, visited, stack =>
    match stack.dropWhile fun c => c.isIdentity || seen.contains c with
    | [] => return ⟨visited.reverse, none⟩
    | c :: stack => .get c fun
      | .error e => return ⟨visited.reverse, some e⟩
      | .ok none => return ⟨visited.reverse, some (.of (.missingBlock c))⟩
      | .ok (some data) =>
        let b : Block := { cid := c, data }
        match children follow b with
        | .error e => return ⟨visited.reverse, some e⟩
        | .ok links => visit follow fuel (c :: seen) (b :: visited) (links ++ stack)

/-- More than the number of all identifiers: a codec and a hash code of 64 bits each, and a digest
of at most 64 bytes. No visit, which sees each identifier at most once, reaches it. -/
def visitLimit : Nat := 2 ^ 642

/-- Visits the roots and the blocks they lead to over links that are roots themselves or for which
`follow` holds. -/
def collect (follow : Cid → Bool) (roots : Roots) : BlockM Visit :=
  visit (fun c => roots.cids.contains c || follow c) visitLimit [] [] roots.cids

/-- What has been written of an archive, and how many blocks are in it, or why it ends early. -/
structure Written where
  bytes : Bytes
  result : Except Failure Nat

/-- The archive of a visit. -/
def Visit.archive (roots : Roots) (v : Visit) : Written where
  bytes := encode roots v.blocks
  result := match v.failure with
    | none => .ok v.blocks.length
    | some e => .error e

/-- Writes an archive of everything reachable from the roots. -/
def write (roots : Roots) : BlockM Written := Visit.archive roots <$> collect (fun _ => true) roots

/-- Writes an archive of the roots and of what is reachable from them over the listed blocks. -/
def writeIncluding (roots : Roots) (listed : List Cid) : BlockM Written :=
  Visit.archive roots <$> collect listed.contains roots

end ReplayVector.Archive
