import ReplayVector.Proofs.Chain.Forms
import ReplayVector.Proofs.Json.Changes
import ReplayVector.Rpc.Method
import ReplayVector.TestVector

/-!
# Documents are read whatever the order of members

Nodes and test vectors speak of records: objects with a fixed list of fields, some of which are
records again. Here is the list of their types and fields. Every document that is made of them is
read alike when, at any place of it, members are permuted, foreign members are added, or the values
of a record stand without their names.

* `grammar`: the types of records and their fields.
* `RecordType.tolerates`: one change.
* `Document.parse_changed`: any number of changes in the text of a document.
-/

namespace ReplayVector

open Json

-- ---------------------------------------------------------------------------
-- Types of records
-- ---------------------------------------------------------------------------

/-- The types of the records that nodes and test vectors speak of. -/
inductive RecordType where
  | cid
  | message
  | receipt
  | header
  | tipset
  | lookup
  | namedMessage
  | parties
  | call
  | trialRun
  | supply
  | nodeVersion
  | provenance
  | vectorMeta
  | stateRoot
  | preconditions
  | vectorMessage
  | vectorReceipt
  | postconditions
  | vector

/-- The fields of every type of records, in the order of their declaration. Addresses, amounts,
bytes and numbers are plain, and so is the class of a vector: an object may stand for it, but not
as a record. -/
def grammar : Grammar RecordType
  | .cid => [("/", .plain)]
  | .message => [("Version", .plain), ("To", .plain), ("From", .plain), ("Nonce", .plain),
      ("Value", .plain), ("GasLimit", .plain), ("GasFeeCap", .plain), ("GasPremium", .plain),
      ("Method", .plain), ("Params", .plain)]
  | .receipt => [("ExitCode", .plain), ("Return", .plain), ("GasUsed", .plain),
      ("EventsRoot", .record .cid)]
  | .header => [("Miner", .plain), ("Parents", .list (.record .cid)), ("Height", .plain),
      ("ParentStateRoot", .record .cid), ("ParentMessageReceipts", .record .cid),
      ("Messages", .record .cid), ("Timestamp", .plain), ("ParentBaseFee", .plain)]
  | .tipset => [("Cids", .list (.record .cid)), ("Blocks", .list (.record .header)),
      ("Height", .plain)]
  | .lookup => [("Message", .record .cid), ("Receipt", .record .receipt),
      ("TipSet", .list (.record .cid)), ("Height", .plain)]
  | .namedMessage => [("Cid", .record .cid), ("Message", .record .message)]
  | .parties => [("From", .plain), ("To", .plain)]
  | .call => [("Msg", .record .parties), ("Subcalls", .list (.record .call))]
  | .trialRun => [("ExecutionTrace", .record .call), ("Error", .plain)]
  | .supply => [("FilCirculating", .plain)]
  | .nodeVersion => [("Version", .plain)]
  | .provenance => [("source", .plain), ("version", .plain)]
  | .vectorMeta => [("id", .plain), ("gen", .list (.record .provenance))]
  | .stateRoot => [("root_cid", .record .cid)]
  | .preconditions => [("epoch", .plain), ("circ_supply", .plain), ("basefee", .plain),
      ("state_tree", .record .stateRoot)]
  | .vectorMessage => [("bytes", .plain)]
  | .vectorReceipt => [("exit_code", .plain), ("return", .plain), ("gas_used", .plain)]
  | .postconditions => [("state_tree", .record .stateRoot),
      ("receipts", .list (.record .vectorReceipt))]
  | .vector => [("class", .plain), ("_meta", .record .vectorMeta), ("car", .plain),
      ("preconditions", .record .preconditions), ("apply_messages", .list (.record .vectorMessage)),
      ("postconditions", .record .postconditions)]

theorem grammar_names_nodup (r : RecordType) : (grammar.names r).Nodup := by
  cases r <;> decide

namespace RecordType

/-- What a record of a type is read as. -/
def Value : RecordType → Type
  | cid => Cid
  | message => Message
  | receipt => Receipt
  | header => BlockHeader
  | tipset => Tipset
  | lookup => MessageLookup
  | namedMessage => NamedMessage
  | parties => Address × Address
  | call => CallTrace
  | trialRun => TrialRun
  | supply => TokenAmount
  | nodeVersion => String
  | provenance => Provenance
  | vectorMeta => VectorMeta
  | stateRoot => Cid
  | preconditions => Preconditions
  | vectorMessage => Bytes
  | vectorReceipt => VectorReceipt
  | postconditions => Postconditions
  | vector => TestVector

/-- How the records of a type are written and read. -/
def form : (r : RecordType) → Form r.Value
  | cid => Form.cid
  | message => Message.form
  | receipt => Receipt.form
  | header => BlockHeader.form
  | tipset => Tipset.form
  | lookup => MessageLookup.form
  | namedMessage => NamedMessage.form
  | parties => CallTrace.partiesForm
  | call => CallTrace.form
  | trialRun => TrialRun.form
  | supply => Rpc.wrapped "FilCirculating" .tokenAmount
  | nodeVersion => Rpc.wrapped "Version" .string
  | provenance => Provenance.form
  | vectorMeta => VectorMeta.form
  | stateRoot => rootForm
  | preconditions => Preconditions.form
  | vectorMessage => messageForm
  | vectorReceipt => VectorReceipt.form
  | postconditions => Postconditions.form
  | vector => TestVector.form

end RecordType

-- ---------------------------------------------------------------------------
-- Records of a chain
-- ---------------------------------------------------------------------------

/-- A record whose fields tolerate changes does so too. -/
private theorem tolerates_record {α : Type} {ts : List Type} (fields : Fields ts) {r : RecordType}
    {d : Decoder α} {make : Slots ts → Except Refusal α}
    (hfields : fields.Shaped grammar (grammar r))
    (hdecoder : ∀ depth j, d depth j = (fields.read depth j).bind make) :
    Tolerates grammar d (.record r) :=
  .record fields hdecoder (grammar_names_nodup r) hfields

/-- An identifier tolerates changes as any record. -/
theorem cid_tolerates : Tolerates grammar Form.cid.decoder (.record .cid) :=
  tolerates_record Form.cidFields (.plain .nil) fun _ _ => rfl

theorem TipsetKey.tolerates : Tolerates grammar form.decoder (.list (.record .cid)) :=
  cid_tolerates.list.bind fun _ _ => rfl

theorem Message.tolerates : Tolerates grammar form.decoder (.record .message) :=
  tolerates_record fields (.plain <| .plain <| .plain <| .plain <| .plain <| .plain <| .plain <|
    .plain <| .plain <| .plain .nil) fun _ _ => rfl

theorem Receipt.tolerates : Tolerates grammar form.decoder (.record .receipt) :=
  tolerates_record fields (.plain <| .plain <| .plain <| .cons cid_tolerates.optional .nil)
    fun _ _ => rfl

theorem BlockHeader.tolerates : Tolerates grammar form.decoder (.record .header) :=
  tolerates_record fields (.plain <| .cons cid_tolerates.nullableList <| .plain <|
    .cons cid_tolerates <| .cons cid_tolerates <| .cons cid_tolerates <| .plain <| .plain .nil)
    fun _ _ => rfl

theorem Tipset.tolerates : Tolerates grammar form.decoder (.record .tipset) :=
  tolerates_record fields (.cons TipsetKey.tolerates <| .cons BlockHeader.tolerates.nullableList <|
    .plain .nil) fun _ _ => rfl

theorem MessageLookup.tolerates : Tolerates grammar form.decoder (.record .lookup) :=
  tolerates_record fields (.cons cid_tolerates <| .cons Receipt.tolerates <|
    .cons TipsetKey.tolerates <| .plain .nil) fun _ _ => rfl

theorem NamedMessage.tolerates : Tolerates grammar form.decoder (.record .namedMessage) :=
  tolerates_record fields (.cons cid_tolerates <| .cons Message.tolerates .nil) fun _ _ => rfl

namespace CallTrace

/-- The parties to a call are a record of two texts. -/
theorem parties_tolerates : Tolerates grammar parties (.record .parties) :=
  tolerates_record partyFields (.plain <| .plain .nil) fun _ _ => rfl

/-- Calls tolerate changes at every level, as their subcalls do. -/
theorem decoderWithin_tolerates (calls : Nat) :
    Tolerates grammar (decoderWithin calls) (.record .call) := by
  induction calls with
  | zero => exact fun _ _ _ _ => rfl
  | succ calls ih =>
    exact tolerates_record (fieldsWith (decoderWithin calls))
      (.cons parties_tolerates <| .cons ih.nullableList .nil) fun _ _ => rfl

theorem tolerates : Tolerates grammar form.decoder (.record .call) :=
  fun _ _ hchange depth => decoderWithin_tolerates depth hchange depth

end CallTrace

theorem TrialRun.tolerates : Tolerates grammar form.decoder (.record .trialRun) :=
  tolerates_record fields (.cons CallTrace.tolerates <| .plain .nil) fun _ _ => rfl

-- ---------------------------------------------------------------------------
-- Records of a test vector
-- ---------------------------------------------------------------------------

theorem Provenance.tolerates : Tolerates grammar form.decoder (.record .provenance) :=
  tolerates_record fields (.plain <| .plain .nil) fun _ _ => rfl

theorem VectorMeta.tolerates : Tolerates grammar form.decoder (.record .vectorMeta) :=
  tolerates_record fields (.plain <| .cons Provenance.tolerates.list .nil) fun _ _ => rfl

theorem rootForm_tolerates : Tolerates grammar rootForm.decoder (.record .stateRoot) :=
  tolerates_record rootFields (.cons cid_tolerates .nil) fun _ _ => rfl

theorem Preconditions.tolerates : Tolerates grammar form.decoder (.record .preconditions) :=
  tolerates_record fields (.plain <| .plain <| .plain <| .cons rootForm_tolerates .nil)
    fun _ _ => rfl

theorem messageForm_tolerates : Tolerates grammar messageForm.decoder (.record .vectorMessage) :=
  tolerates_record messageFields (.plain .nil) fun _ _ => rfl

theorem VectorReceipt.tolerates : Tolerates grammar form.decoder (.record .vectorReceipt) :=
  tolerates_record fields (.plain <| .plain <| .plain .nil) fun _ _ => rfl

theorem Postconditions.tolerates : Tolerates grammar form.decoder (.record .postconditions) :=
  tolerates_record fields (.cons rootForm_tolerates <| .cons VectorReceipt.tolerates.list .nil)
    fun _ _ => rfl

theorem TestVector.tolerates : Tolerates grammar form.decoder (.record .vector) :=
  tolerates_record fields (.plain <| .cons VectorMeta.tolerates <| .plain <|
    .cons Preconditions.tolerates <| .cons messageForm_tolerates.list <|
    .cons Postconditions.tolerates .nil) fun _ _ => rfl

/-- Every type of records tolerates changes. -/
theorem RecordType.tolerates (r : RecordType) : Tolerates grammar r.form.decoder (.record r) := by
  cases r with
  | cid => exact cid_tolerates
  | message => exact Message.tolerates
  | receipt => exact Receipt.tolerates
  | header => exact BlockHeader.tolerates
  | tipset => exact Tipset.tolerates
  | lookup => exact MessageLookup.tolerates
  | namedMessage => exact NamedMessage.tolerates
  | parties => exact CallTrace.parties_tolerates
  | call => exact CallTrace.tolerates
  | trialRun => exact TrialRun.tolerates
  | supply =>
    exact tolerates_record (Rpc.wrapperFields "FilCirculating" .tokenAmount) (.plain .nil)
      fun _ _ => rfl
  | nodeVersion =>
    exact tolerates_record (Rpc.wrapperFields "Version" .string) (.plain .nil) fun _ _ => rfl
  | provenance => exact Provenance.tolerates
  | vectorMeta => exact VectorMeta.tolerates
  | stateRoot => exact rootForm_tolerates
  | preconditions => exact Preconditions.tolerates
  | vectorMessage => exact messageForm_tolerates
  | vectorReceipt => exact VectorReceipt.tolerates
  | postconditions => exact Postconditions.tolerates
  | vector => exact TestVector.tolerates

-- ---------------------------------------------------------------------------
-- Documents
-- ---------------------------------------------------------------------------

/-- What is written in a text: a record, or values that are made of records. -/
inductive Document : Type → Type 1 where
  /-- A value that has no records. -/
  | plain {α : Type} (f : Form α) : Document α
  | record (r : RecordType) : Document r.Value
  /-- The key of a tipset: an array of identifiers that is not empty. -/
  | key : Document TipsetKey
  | array {α : Type} (item : Document α) : Document (List α)
  /-- A list, the empty one being `null`. -/
  | list {α : Type} (item : Document α) : Document (List α)
  | option {α : Type} (content : Document α) : Document (Option α)
  | single {α : Type} (item : Document α) : Document α
  | pair {α β : Type} (first : Document α) (second : Document β) : Document (α × β)

namespace Document

/-- How a document is written and read. -/
def form : {α : Type} → Document α → Form α
  | _, plain f => f
  | _, record r => r.form
  | _, key => TipsetKey.form
  | _, array item => item.form.array
  | _, list item => item.form.list
  | _, option content => content.form.option
  | _, single item => item.form.single
  | _, pair first second => first.form.pair second.form

/-- The places of a document at which records stand. -/
def shape : {α : Type} → Document α → Shape RecordType
  | _, plain _ => .plain
  | _, record r => .record r
  | _, key => .list (.record .cid)
  | _, array item => .list item.shape
  | _, list item => .list item.shape
  | _, option content => content.shape
  | _, single item => .list item.shape
  | _, pair first second => .pair first.shape second.shape

theorem tolerates {α : Type} (doc : Document α) : Tolerates grammar doc.form.decoder doc.shape := by
  induction doc with
  | plain f => exact .plain _
  | record r => exact r.tolerates
  | key => exact TipsetKey.tolerates
  | array item ih => exact ih.list
  | list item ih => exact ih.nullableList
  | option content ih => exact ih.optional
  | single item ih => exact ih.single
  | pair first second ih ih' => exact ih.pair ih'

/-- Two texts whose values differ by any number of changes are read as the same value, or none of
them is read at all. -/
theorem parse_changed {α : Type} (doc : Document α) {text text' : String} {j j' : Json}
    (hread : read text = (j, some [])) (hread' : read text' = (j', some []))
    (hchanges : Relation.EqvGen (Change grammar doc.shape) j j') :
    (doc.form.parse text).toOption = (doc.form.parse text').toOption := by
  rw [Form.parse, Form.parse, decode_of_read _ hread, decode_of_read _ hread']
  exact doc.tolerates.eqvGen hchanges nesting

end Document

/-- A call whose parties have lost their names. -/
def unnamedCall : Json := record [
  ("Msg", .array [ofString "f01", ofString "f02"]),
  ("Subcalls", .null)]

/-- The same as a subcall of a call that has a member beside those that are read. -/
def changedCall : Json := record [
  ("Gas", ofNat 7),
  ("Msg", record [("From", ofString "f00"), ("To", ofString "f01")]),
  ("Subcalls", .array [unnamedCall])]

private theorem printed_unnamedCall : Printed unnamedCall := by
  apply printed_record
  simp only [List.forall_mem_cons, List.not_mem_nil, false_implies, implies_true, and_true]
  refine ⟨printed_array ?_, fun _ => Spells.null⟩
  simp only [List.forall_mem_cons, List.not_mem_nil, false_implies, implies_true, and_true]
  exact ⟨printed_ofString "f01", printed_ofString "f02"⟩

private theorem printed_changedCall : Printed changedCall := by
  apply printed_record
  simp only [List.forall_mem_cons, List.not_mem_nil, false_implies, implies_true, and_true]
  refine ⟨printed_ofNat 7, CallTrace.parties_faithful.printed (.id 0, .id 1), printed_array ?_⟩
  simp only [List.forall_mem_cons, List.not_mem_nil, false_implies, implies_true, and_true]
  exact printed_unnamedCall

theorem parse_changedCall : (CallTrace.form.parse changedCall.compact).toOption =
    some (.call (.id 0) (.id 1) [.call (.id 1) (.id 2) []]) := by
  let subcall : CallTrace := .call (.id 1) (.id 2) []
  let call : CallTrace := .call (.id 0) (.id 1) [subcall]
  have hread : read call.toJson.compact = (call.toJson, some []) :=
    read_compact (call.printed_toJson 0)
  have hread' : read changedCall.compact = (changedCall, some []) :=
    read_compact (printed_changedCall 0)
  -- the parties to the subcall lose their names, and the call gains a member
  have hunnamed : Change grammar (.record .call) subcall.toJson unnamedCall :=
    @Change.member _ grammar .call "Msg" _ [] [(some "Subcalls", .null)] _ _ (.head _)
      (.unnamed rfl (.refl [(some "From", ofString "f01"), (some "To", ofString "f02")]))
  have hmember := @Change.member _ grammar .call "Subcalls" _
    [(some "Msg", record [("From", ofString "f00"), ("To", ofString "f01")])] [] _ _
    (.tail _ (.head _)) (@Change.item _ grammar _ [] [] _ _ hunnamed)
  have hextended := @Change.extended _ grammar .call [] [(some "Gas", ofNat 7)]
    [(some "Msg", record [("From", ofString "f00"), ("To", ofString "f01")]),
      (some "Subcalls", .array [unnamedCall])]
    (by simp [Fields.Foreign, Grammar.names, grammar, ofNat, wellFormed])
  have hchanges : Relation.EqvGen (Change grammar (.record .call)) call.toJson changedCall :=
    .trans _ _ _ (.rel _ _ hmember) (.rel _ _ hextended)
  have hprinted : Printed (CallTrace.form.toJson call) := call.printed_toJson
  have hdecoder : CallTrace.form.decoder nesting (CallTrace.form.toJson call) = .ok call :=
    CallTrace.decoderWithin_toJson call (Nat.le_refl nesting) (by decide)
  have hparse : CallTrace.form.parse call.toJson.compact = .ok call :=
    (Form.parse_print_eq hprinted).trans hdecoder
  have hsame := (Document.record .call).parse_changed hread hread' hchanges
  exact hsame.symm.trans (congrArg Except.toOption hparse)

end ReplayVector
