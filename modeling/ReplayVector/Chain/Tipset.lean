import ReplayVector.Json.Form

/-!
# Blocks and tipsets

A tipset is a set of blocks at one height with the same parents, named by the list of their
identifiers. The type holds only consistent tipsets: as many headers as identifiers, all at one
height and with one list of parents.
-/

namespace ReplayVector

/-- A height of the chain. -/
abbrev Epoch := Int64

/-- What the header of a block says. -/
structure BlockHeader where
  miner : Address
  /-- The blocks of the parent tipset; none for the first block of the chain. -/
  parents : List Cid
  height : Epoch
  /-- The state before the messages of the parent tipset were applied to it. -/
  stateRoot : Cid
  receipts : Cid
  messages : Cid
  timestamp : UInt64
  parentBaseFee : TokenAmount
  deriving DecidableEq, Inhabited

/-- The identifiers of a tipset's blocks, in order; there is at least one. -/
structure TipsetKey where
  first : Cid
  rest : List Cid
  deriving DecidableEq, Inhabited

namespace TipsetKey

/-- The identifiers of the key. -/
def cids (k : TipsetKey) : List Cid := k.first :: k.rest

/-- The key of some identifiers; `none` if there are none. -/
def ofCids? : List Cid → Option TipsetKey
  | [] => none
  | c :: cs => some ⟨c, cs⟩

/-- The key lists exactly the given identifiers, in the same order. -/
def lists (k : TipsetKey) (cids : List Cid) : Bool := k.cids == cids

/-- The identifiers between braces. -/
def toString (k : TipsetKey) : String :=
  "\x7b" ++ ",".intercalate (k.cids.map Cid.toString) ++ "\x7d"

instance : ToString TipsetKey := ⟨toString⟩

end TipsetKey

/-- Blocks at one height with the same parents. -/
structure Tipset where
  key : TipsetKey
  first : BlockHeader
  rest : List BlockHeader
  length_eq : rest.length = key.rest.length
  agree : ∀ h ∈ rest, h.height = first.height ∧ h.parents = first.parents
  deriving DecidableEq

namespace Tipset

/-- The headers, in the order of the key. -/
def headers (t : Tipset) : List BlockHeader := t.first :: t.rest

/-- The height of the blocks. -/
def height (t : Tipset) : Epoch := t.first.height

/-- The blocks of the parent tipset. -/
def parents (t : Tipset) : List Cid := t.first.parents

/-- The key of the parent tipset; the first tipset of a chain has none. -/
def parentsKey? (t : Tipset) : Option TipsetKey := TipsetKey.ofCids? t.parents

/-- The state before the messages of the parent tipset were applied. -/
def parentState (t : Tipset) : Cid := t.first.stateRoot

def parentBaseFee (t : Tipset) : TokenAmount := t.first.parentBaseFee

/-- The earliest time among the blocks. -/
def minTimestamp (t : Tipset) : UInt64 :=
  t.rest.foldl (fun least h => if h.timestamp < least then h.timestamp else least) t.first.timestamp

/-- Pairs headers with the identifiers of a key, if they are consistent. -/
def ofHeaders (key : TipsetKey) (first : BlockHeader) (rest : List BlockHeader) :
    Except TipsetDefect Tipset :=
  if length_eq : rest.length = key.rest.length then
    if agree : ∀ h ∈ rest, h.height = first.height ∧ h.parents = first.parents then
      .ok { key, first, rest, length_eq, agree }
    else .error (.disagreement key.toString)
  else .error (.count key.toString (key.rest.length + 1) (rest.length + 1))

/-- The tipset that a key, headers and a height describe. -/
def ofParts (key : TipsetKey) (headers : List BlockHeader) (height : Epoch) :
    Except TipsetDefect Tipset := do
  match headers with
  | [] => .error (.noBlocks key.toString)
  | first :: rest =>
    let t ← ofHeaders key first rest
    if t.height = height then .ok t
    else .error (.height key.toString height.toInt t.height.toInt)

end Tipset

/-! ## JSON -/

namespace BlockHeader

open Json in
/-- The fields of the JSON form. -/
def fields : Fields [Address, List Cid, Epoch, Cid, Cid, Cid, UInt64, TokenAmount] :=
  .cons ⟨"Miner", Form.address.decoder⟩ <|
  .cons ⟨"Parents", Form.cid.list.decoder⟩ <|
  .cons ⟨"Height", Form.int64.decoder⟩ <|
  .cons ⟨"ParentStateRoot", Form.cid.decoder⟩ <|
  .cons ⟨"ParentMessageReceipts", Form.cid.decoder⟩ <|
  .cons ⟨"Messages", Form.cid.decoder⟩ <|
  .cons ⟨"Timestamp", Form.uint64.decoder⟩ <|
  .cons ⟨"ParentBaseFee", Form.tokenAmount.decoder⟩ .nil

open Json in
/-- The JSON form. Only the parents may be missing. -/
def form : Form BlockHeader where
  toJson h := record [
    ("Miner", Form.address.toJson h.miner),
    ("Parents", Form.cid.list.toJson h.parents),
    ("Height", Form.int64.toJson h.height),
    ("ParentStateRoot", Form.cid.toJson h.stateRoot),
    ("ParentMessageReceipts", Form.cid.toJson h.receipts),
    ("Messages", Form.cid.toJson h.messages),
    ("Timestamp", Form.uint64.toJson h.timestamp),
    ("ParentBaseFee", Form.tokenAmount.toJson h.parentBaseFee)]
  decoder depth j := do
    let (miner, parents, height, stateRoot, receipts, messages, timestamp, fee, ()) ←
      fields.read depth j
    return {
      miner := ← required miner
      parents := parents.getD []
      height := ← required height
      stateRoot := ← required stateRoot
      receipts := ← required receipts
      messages := ← required messages
      timestamp := ← required timestamp
      parentBaseFee := ← required fee }

/-- A header that names the empty identifier everywhere. -/
def sample (parents : List Cid) (height : Epoch) (timestamp : UInt64) : BlockHeader where
  miner := .id 1000
  parents := parents
  height := height
  stateRoot := default
  receipts := default
  messages := default
  timestamp := timestamp
  parentBaseFee := 100

open Json in
/-- The JSON of such a header. -/
def sampleJson (parents : Json) (height timestamp : Nat) : Json := record [
  ("Miner", ofString "f01000"),
  ("Parents", parents),
  ("Height", ofNat height),
  ("ParentStateRoot", Form.emptyCidJson),
  ("ParentMessageReceipts", Form.emptyCidJson),
  ("Messages", Form.emptyCidJson),
  ("Timestamp", ofNat timestamp),
  ("ParentBaseFee", ofString "100")]

def samples : List (Json × BlockHeader) :=
  [(sampleJson .null 0 1598306400, sample [] 0 1598306400)]

end BlockHeader

namespace TipsetKey

open Json in
/-- The JSON form: an array of identifiers that is not empty. -/
def form : Form TipsetKey where
  toJson k := Form.cid.array.toJson k.cids
  decoder depth j := do
    match ofCids? (← Form.cid.array.decoder depth j) with
    | some key => .ok key
    | none => .error .emptyKey

def samples : List (Json × TipsetKey) := [(.array [Json.Form.emptyCidJson], ⟨default, []⟩)]

end TipsetKey

namespace Tipset

open Json in
/-- The fields of the JSON form. -/
def fields : Fields [TipsetKey, List BlockHeader, Epoch] :=
  .cons ⟨"Cids", TipsetKey.form.decoder⟩ <|
  .cons ⟨"Blocks", BlockHeader.form.list.decoder⟩ <|
  .cons ⟨"Height", Form.int64.decoder⟩ .nil

open Json in
/-- The JSON form. The parts have to describe a consistent tipset. -/
def form : Form Tipset where
  toJson t := record [
    ("Cids", TipsetKey.form.toJson t.key),
    ("Blocks", BlockHeader.form.list.toJson t.headers),
    ("Height", Form.int64.toJson t.height)]
  decoder depth j := do
    let (key, headers, height, ()) ← fields.read depth j
    match ofParts (← required key) (← required headers) (← required height) with
    | .ok t => .ok t
    | .error defect => .error (.badTipset defect)

open Json in
def samples : List (Json × Tipset) :=
  [(record [("Cids", .array [Form.emptyCidJson]),
      ("Blocks", .array [BlockHeader.sampleJson (.array [Form.emptyCidJson]) 5 1]),
      ("Height", ofNat 5)],
    { key := ⟨default, []⟩, first := .sample [default] 5 1, rest := [], length_eq := rfl,
      agree := by simp })]

end Tipset

end ReplayVector
