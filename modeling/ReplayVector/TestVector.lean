import ReplayVector.Chain.Message

/-!
# Test vectors

A test vector is a document that holds one message, the blocks its execution reads, and the
expected outcome, so that the execution can be repeated without the chain. This module has the
document and its JSON form; the archive of blocks is opaque here.
-/

namespace ReplayVector

/-- The kind of a test vector. -/
inductive VectorClass where
  /-- One message applied to a state. -/
  | message
  deriving DecidableEq, Inhabited

/-- A line on where a vector comes from. -/
structure Provenance where
  source : String
  version : Option String
  deriving DecidableEq

/-- The name and provenance of a vector. -/
structure VectorMeta where
  id : String
  provenance : List Provenance
  deriving DecidableEq

/-- What the execution starts from. -/
structure Preconditions where
  epoch : Int64
  circSupply : Int
  baseFee : Int
  stateRoot : Cid
  deriving DecidableEq

/-- The expected outcome of a message. -/
structure VectorReceipt where
  exitCode : Int64
  returnValue : Bytes
  gasUsed : UInt64
  deriving DecidableEq

/-- What the execution ends with. -/
structure Postconditions where
  stateRoot : Cid
  receipts : List VectorReceipt
  deriving DecidableEq

/-- A message, the blocks its execution reads, and the expected outcome. -/
structure TestVector where
  kind : VectorClass
  info : VectorMeta
  /-- The compressed archive of blocks. -/
  car : Bytes
  preconditions : Preconditions
  /-- The structured forms of the messages. -/
  applyMessages : List Bytes
  postconditions : Postconditions
  deriving DecidableEq

/-- What a vector records of a receipt. -/
def VectorReceipt.ofReceipt (r : Receipt) : VectorReceipt where
  exitCode := r.exitCode.toNat.toInt64
  returnValue := r.returnData
  gasUsed := r.gasUsed

/-! ## JSON -/

open Json

namespace VectorClass

/-- The class is written as its name; an object that gives the name no content is read too. -/
def form : Form VectorClass where
  toJson _ := ofString "message"
  decoder depth j :=
    match j with
    | .string (some "message") => .ok .message
    | .object [(some "message", .null)] => (enter depth).map fun _ => .message
    | _ => .error .malformed

end VectorClass

/-- Whole numbers of any size, written as bare numbers. -/
def bareInteger : Form Int where
  toJson := ofInt
  decoder _ j :=
    match j with
    | .number spelling =>
      match TokenAmount.readInt spelling.toList with
      | some n => .ok n
      | none => .error .malformed
    | _ => .error .malformed

namespace Provenance

/-- The fields of the JSON form. -/
def fields : Fields [String, Option String] :=
  .cons ⟨"source", Form.string.decoder⟩ <|
  .cons ⟨"version", Form.string.option.decoder⟩ .nil

/-- The JSON form; an unknown version is left out. -/
def form : Form Provenance where
  toJson p := record (("source", ofString p.source) ::
    match p.version with
    | none => []
    | some v => [("version", ofString v)])
  decoder depth j := do
    let (source, version, ()) ← fields.read depth j
    return { source := ← required source, version := version.getD none }

end Provenance

namespace VectorMeta

/-- The fields of the JSON form. -/
def fields : Fields [String, List Provenance] :=
  .cons ⟨"id", Form.string.decoder⟩ <|
  .cons ⟨"gen", Provenance.form.array.decoder⟩ .nil

/-- The JSON form. -/
def form : Form VectorMeta where
  toJson m := record [("id", ofString m.id), ("gen", Provenance.form.array.toJson m.provenance)]
  decoder depth j := do
    let (id, provenance, ()) ← fields.read depth j
    return { id := ← required id, provenance := ← required provenance }

end VectorMeta

/-- The one field that holds a state root. -/
def rootFields : Fields [Cid] := .cons ⟨"root_cid", Form.cid.decoder⟩ .nil

/-- A state root as an object of its own. -/
def rootForm : Form Cid where
  toJson c := record [("root_cid", Form.cid.toJson c)]
  decoder depth j := do
    let (root, ()) ← rootFields.read depth j
    required root

namespace Preconditions

/-- The fields of the JSON form. -/
def fields : Fields [Int64, Int, Int, Cid] :=
  .cons ⟨"epoch", Form.int64.decoder⟩ <|
  .cons ⟨"circ_supply", bareInteger.decoder⟩ <|
  .cons ⟨"basefee", bareInteger.decoder⟩ <|
  .cons ⟨"state_tree", rootForm.decoder⟩ .nil

/-- The JSON form. -/
def form : Form Preconditions where
  toJson p := record [
    ("epoch", Form.int64.toJson p.epoch),
    ("circ_supply", bareInteger.toJson p.circSupply),
    ("basefee", bareInteger.toJson p.baseFee),
    ("state_tree", rootForm.toJson p.stateRoot)]
  decoder depth j := do
    let (epoch, circSupply, baseFee, stateRoot, ()) ← fields.read depth j
    return {
      epoch := ← required epoch
      circSupply := ← required circSupply
      baseFee := ← required baseFee
      stateRoot := ← required stateRoot }

end Preconditions

/-- The one field that holds the bytes of a message. -/
def messageFields : Fields [Bytes] := .cons ⟨"bytes", Form.bytes.decoder⟩ .nil

/-- The bytes of a message as an object of their own. -/
def messageForm : Form Bytes where
  toJson bs := record [("bytes", Form.bytes.toJson bs)]
  decoder depth j := do
    let (bs, ()) ← messageFields.read depth j
    required bs

namespace VectorReceipt

/-- The fields of the JSON form. -/
def fields : Fields [Int64, Bytes, UInt64] :=
  .cons ⟨"exit_code", Form.int64.decoder⟩ <|
  .cons ⟨"return", Form.bytes.decoder⟩ <|
  .cons ⟨"gas_used", Form.uint64.decoder⟩ .nil

/-- The JSON form. -/
def form : Form VectorReceipt where
  toJson r := record [
    ("exit_code", Form.int64.toJson r.exitCode),
    ("return", Form.bytes.toJson r.returnValue),
    ("gas_used", Form.uint64.toJson r.gasUsed)]
  decoder depth j := do
    let (exitCode, returnValue, gasUsed, ()) ← fields.read depth j
    return {
      exitCode := ← required exitCode
      returnValue := ← required returnValue
      gasUsed := ← required gasUsed }

end VectorReceipt

namespace Postconditions

/-- The fields of the JSON form. -/
def fields : Fields [Cid, List VectorReceipt] :=
  .cons ⟨"state_tree", rootForm.decoder⟩ <|
  .cons ⟨"receipts", VectorReceipt.form.array.decoder⟩ .nil

/-- The JSON form. -/
def form : Form Postconditions where
  toJson p := record [
    ("state_tree", rootForm.toJson p.stateRoot),
    ("receipts", VectorReceipt.form.array.toJson p.receipts)]
  decoder depth j := do
    let (stateRoot, receipts, ()) ← fields.read depth j
    return { stateRoot := ← required stateRoot, receipts := ← required receipts }

end Postconditions

namespace TestVector

/-- The fields of the JSON form. -/
def fields : Fields [VectorClass, VectorMeta, Bytes, Preconditions, List Bytes,
    Postconditions] :=
  .cons ⟨"class", VectorClass.form.decoder⟩ <|
  .cons ⟨"_meta", VectorMeta.form.decoder⟩ <|
  .cons ⟨"car", Form.bytes.decoder⟩ <|
  .cons ⟨"preconditions", Preconditions.form.decoder⟩ <|
  .cons ⟨"apply_messages", messageForm.array.decoder⟩ <|
  .cons ⟨"postconditions", Postconditions.form.decoder⟩ .nil

/-- The JSON form. -/
def form : Form TestVector where
  toJson v := record [
    ("class", VectorClass.form.toJson v.kind),
    ("_meta", VectorMeta.form.toJson v.info),
    ("car", Form.bytes.toJson v.car),
    ("preconditions", Preconditions.form.toJson v.preconditions),
    ("apply_messages", messageForm.array.toJson v.applyMessages),
    ("postconditions", Postconditions.form.toJson v.postconditions)]
  decoder depth j := do
    let (kind, info, car, preconditions, applyMessages, postconditions, ()) ←
      fields.read depth j
    return {
      kind := ← required kind
      info := ← required info
      car := ← required car
      preconditions := ← required preconditions
      applyMessages := ← required applyMessages
      postconditions := ← required postconditions }

/-- The document: indented JSON and a final line break. -/
def document (v : TestVector) : String := (form.toJson v).pretty ++ "\n"

end TestVector

end ReplayVector
