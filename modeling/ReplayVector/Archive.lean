import ReplayVector.Archive.Frame
import ReplayVector.Gzip
import ReplayVector.Store.BlockM

/-!
# Archives of blocks

An archive is a sequence of frames: a header that lists root identifiers, then one frame for each
block, its identifier followed by its bytes. `Archive.encode` writes an archive and
`Archive.decode` reads one, compressed or not. `Archive.load` puts the blocks into a store and
checks each of them before.
-/

namespace ReplayVector

/-- The identifiers that an archive starts from; there is at least one. -/
structure Roots where
  first : Cid
  rest : List Cid
  deriving DecidableEq

/-- The identifiers in order. -/
def Roots.cids (r : Roots) : List Cid := r.first :: r.rest

/-- Some identifiers as roots; `none` if there are none. -/
def Roots.ofCids? : List Cid → Option Roots
  | [] => none
  | c :: cs => some ⟨c, cs⟩

namespace Archive

/-- The version that headers name. -/
def version : UInt64 := 1

/-! ## Writing -/

/-- The header as structured data. -/
def headerCbor (r : Roots) : Cbor :=
  .map [("roots", .list (r.cids.map .link)), ("version", .ofUInt64 version)]

/-- The frame of the header. -/
def headerFrame (r : Roots) : Bytes := Frame.write (headerCbor r).encode

/-- The frame of a block. -/
def blockFrame (b : Block) : Bytes := Frame.write (b.cid.toBytes ++ b.data)

/-- An archive with the given roots and blocks. -/
def encode (r : Roots) (blocks : List Block) : Bytes := headerFrame r ++ blocks.flatMap blockFrame

/-! ## Reading -/

/-- Reads an identifier. -/
def linkOf? : Cbor → Option Cid
  | .link c => some c
  | _ => none

/-- Reads the content of a header. -/
def rootsOf? : Cbor → Option Roots
  | .map entries =>
    match entries.lookup "roots", entries.lookup "version" with
    | some (.list items), some v => do
      let roots ← Roots.ofCids? (← items.mapM linkOf?)
      if v.toUInt64? = some version then some roots else none
    | _, _ => none
  | _ => none

/-- Reads the frame of a block. -/
def blockOf? (frame : Bytes) : Option Block := (Cid.ofBytes? frame).map fun (cid, data) => ⟨cid, data⟩

/-- Reads the blocks of frames up to the first one that holds none. -/
def blocksOf : List Bytes → List Block × Bool
  | [] => ([], true)
  | f :: fs =>
    match blockOf? f with
    | none => ([], false)
    | some b =>
      let (bs, whole) := blocksOf fs
      (b :: bs, whole)

/-- What an archive holds. -/
structure Contents where
  roots : Roots
  /-- The blocks up to the first fault. -/
  blocks : List Block
  /-- There is no fault. -/
  whole : Bool

/-- What the frames of an archive hold. A fault in the header or the first block, which has to be
genuine, makes it unreadable as a whole. -/
def ofFrames (frames : List Bytes) (whole : Bool) : Except Failure Contents :=
  match frames with
  | [] => .error (.of .headerBlock)
  | header :: frames =>
    match (Cbor.decode? header).bind rootsOf? with
    | none => .error (.of .headerBlock)
    | some roots =>
      let (blocks, parsed) := blocksOf frames
      let whole := whole && parsed
      match blocks with
      | [] => if whole then .ok { roots, blocks, whole } else .error .unworded
      | first :: _ =>
        match first.verify with
        | .ok () => .ok { roots, blocks, whole }
        | .error _ => .error (.of .firstBlock)

/-- The bytes of an archive that may be compressed. -/
def unpacked (bs : Bytes) : Gzip.Unpacked :=
  if Gzip.isPacked bs then Gzip.unpack bs else { data := bs, sound := true }

/-- Reads an archive. -/
def decode (bs : Bytes) : Except Failure Contents :=
  let u := unpacked bs
  let (frames, whole) := Frame.readAll u.data
  ofFrames frames (whole && u.sound)

/-- Puts blocks into the store up to the first one that is not genuine. -/
def putAll : List Block → BlockM Unit
  | [] => return
  | b :: bs => do
    .ofExcept b.verify
    .write b
    putAll bs

/-- Puts the blocks of an archive into the store and gives its roots. Blocks before a fault are
put there too. -/
def load (bs : Bytes) : BlockM Roots := do
  let contents ← .ofExcept (decode bs)
  putAll contents.blocks
  if contents.whole then return contents.roots else .fail .unworded

end Archive

end ReplayVector
