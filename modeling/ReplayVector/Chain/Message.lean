import ReplayVector.Cbor.Decode
import ReplayVector.Json.Form

/-!
# Messages and receipts

A message asks the chain to run a method of an actor, and its receipt says how that went. A
message has two forms: in blocks and test vectors a structured value of ten items, and JSON.
-/

namespace ReplayVector

/-- The most bytes that the parameters of a message can have: their length is a number of 64
bits. -/
def maxParams : Nat := 2 ^ 64 - 1

/-- A request of one actor to another. -/
structure Message where
  version : UInt64
  sender : Address
  receiver : Address
  /-- How many messages of the sender came before. -/
  sequence : UInt64
  value : TokenAmount
  method : UInt64
  params : Bytes.UpTo maxParams
  gasLimit : UInt64
  gasFeeCap : TokenAmount
  gasPremium : TokenAmount
  deriving DecidableEq, Inhabited

/-- The code that says how a message ended; zero is success. -/
abbrev ExitCode := UInt32

/-- The outcome of a message. -/
structure Receipt where
  exitCode : ExitCode
  returnData : Bytes
  gasUsed : UInt64
  eventsRoot : Option Cid
  deriving DecidableEq, Inhabited

namespace Message

/-! ## The structured form -/

/-- The structured form; `none` if an amount is too large for it. -/
def toCbor? (m : Message) : Option Cbor := do
  let value ← m.value.toBytes?
  let feeCap ← m.gasFeeCap.toBytes?
  let premium ← m.gasPremium.toBytes?
  return .list [.ofUInt64 m.version, .bytes m.receiver.toBytes, .bytes m.sender.toBytes,
    .ofUInt64 m.sequence, .bytes value, .ofUInt64 m.gasLimit, .bytes feeCap, .bytes premium,
    .ofUInt64 m.method, .bytes m.params.val]

/-- The bytes of the structured form. -/
def encode? (m : Message) : Option Bytes := m.toCbor?.map Cbor.encode

/-- Reads the structured form. -/
def ofCbor? : Cbor → Option Message
  | .list [version, .bytes receiver, .bytes sender, sequence, .bytes value, gasLimit,
      .bytes feeCap, .bytes premium, method, .bytes params] => do
    return {
      version := ← version.toUInt64?
      receiver := ← Address.ofBytes? receiver
      sender := ← Address.ofBytes? sender
      sequence := ← sequence.toUInt64?
      value := ← TokenAmount.ofBytes? value
      gasLimit := ← gasLimit.toUInt64?
      gasFeeCap := ← TokenAmount.ofBytes? feeCap
      gasPremium := ← TokenAmount.ofBytes? premium
      method := ← method.toUInt64?
      params := ← Bytes.upTo? maxParams params }
  | _ => none

/-- Reads the bytes of the structured form. -/
def decode? (bs : Bytes) : Option Message := do ofCbor? (← Cbor.decode? bs)

/-- The identifier of a message. -/
def cid? (m : Message) : Option Cid := m.encode?.map Cid.ofDagCbor

/-! ## JSON -/

open Json in
/-- The fields of the JSON form. -/
def fields : Fields [UInt64, Address, Address, UInt64, TokenAmount, UInt64, TokenAmount,
    TokenAmount, UInt64, Bytes.UpTo maxParams] :=
  .cons ⟨"Version", Form.uint64.decoder⟩ <|
  .cons ⟨"To", Form.address.decoder⟩ <|
  .cons ⟨"From", Form.address.decoder⟩ <|
  .cons ⟨"Nonce", Form.uint64.decoder⟩ <|
  .cons ⟨"Value", Form.tokenAmount.decoder⟩ <|
  .cons ⟨"GasLimit", Form.uint64.decoder⟩ <|
  .cons ⟨"GasFeeCap", Form.tokenAmount.decoder⟩ <|
  .cons ⟨"GasPremium", Form.tokenAmount.decoder⟩ <|
  .cons ⟨"Method", Form.uint64.decoder⟩ <|
  .cons ⟨"Params", (Form.bytesUpTo maxParams).decoder⟩ .nil

open Json in
/-- The JSON form. All fields but the two addresses may be missing. -/
def form : Form Message where
  toJson m := record [
    ("Version", Form.uint64.toJson m.version),
    ("To", Form.address.toJson m.receiver),
    ("From", Form.address.toJson m.sender),
    ("Nonce", Form.uint64.toJson m.sequence),
    ("Value", Form.tokenAmount.toJson m.value),
    ("GasLimit", Form.uint64.toJson m.gasLimit),
    ("GasFeeCap", Form.tokenAmount.toJson m.gasFeeCap),
    ("GasPremium", Form.tokenAmount.toJson m.gasPremium),
    ("Method", Form.uint64.toJson m.method),
    ("Params", (Form.bytesUpTo maxParams).toJson m.params)]
  decoder depth j := do
    let (version, receiver, sender, sequence, value, gasLimit, gasFeeCap, gasPremium, method,
      params, ()) ← fields.read depth j
    return {
      version := version.getD 0
      receiver := ← required receiver
      sender := ← required sender
      sequence := sequence.getD 0
      value := value.getD 0
      gasLimit := gasLimit.getD 0
      gasFeeCap := gasFeeCap.getD 0
      gasPremium := gasPremium.getD 0
      method := method.getD 0
      params := params.getD ∅ }

open Json in
def samples : List (Json × Message) :=
  [(record [
      ("Version", ofNat 0), ("To", ofString "f01001"), ("From", ofString "f01000"),
      ("Nonce", ofNat 7), ("Value", ofString "1000"), ("GasLimit", ofNat 1000000),
      ("GasFeeCap", ofString "200"), ("GasPremium", ofString "100"), ("Method", ofNat 0),
      ("Params", ofString "")],
    { version := 0, sender := .id 1000, receiver := .id 1001, sequence := 7, value := 1000,
      method := 0, params := ∅, gasLimit := 1000000, gasFeeCap := 200, gasPremium := 100 })]

end Message

namespace Receipt

open Json in
/-- The fields of the JSON form. -/
def fields : Fields [UInt32, Bytes, UInt64, Option Cid] :=
  .cons ⟨"ExitCode", Form.uint32.decoder⟩ <|
  .cons ⟨"Return", Form.bytes.decoder⟩ <|
  .cons ⟨"GasUsed", Form.uint64.decoder⟩ <|
  .cons ⟨"EventsRoot", Form.cid.option.decoder⟩ .nil

open Json in
/-- The JSON form. Only the root of the events may be missing. -/
def form : Form Receipt where
  toJson r := record [
    ("ExitCode", Form.uint32.toJson r.exitCode),
    ("Return", Form.bytes.toJson r.returnData),
    ("GasUsed", Form.uint64.toJson r.gasUsed),
    ("EventsRoot", Form.cid.option.toJson r.eventsRoot)]
  decoder depth j := do
    let (exitCode, returnData, gasUsed, eventsRoot, ()) ← fields.read depth j
    return {
      exitCode := ← required exitCode
      returnData := ← required returnData
      gasUsed := ← required gasUsed
      eventsRoot := eventsRoot.getD none }

open Json in
def samples : List (Json × Receipt) :=
  [(record [("ExitCode", ofNat 0), ("Return", ofString "aGVsbG8gd29ybGQh"), ("GasUsed", ofNat 0),
      ("EventsRoot", .null)],
    { exitCode := 0, returnData := Bytes.ofString "hello world!", gasUsed := 0,
      eventsRoot := none }),
   (record [("ExitCode", ofNat 16), ("Return", ofString ""), ("GasUsed", ofNat 1234),
      ("EventsRoot", Form.emptyCidJson)],
    { exitCode := 16, returnData := [], gasUsed := 1234, eventsRoot := some default })]

end Receipt

end ReplayVector
