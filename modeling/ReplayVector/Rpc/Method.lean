import ReplayVector.Chain.Node

/-!
# Methods of remote nodes

Every question about the chain is a method of the interface that nodes offer over a network. The
parameters of a method are an array of what the question is about, in order, and its result is the
answer, which two methods wrap in an object.
-/

namespace ReplayVector

open Json (Form Fields required)

namespace Rpc

/-- The fields of an object of which only one matters. -/
def wrapperFields (name : String) (f : Form α) : Fields [α] := .cons ⟨name, f.decoder⟩ .nil

/-- A value as the one member of an object that matters. -/
def wrapped (name : String) (f : Form α) : Form α where
  toJson a := Json.record [(name, f.toJson a)]
  decoder depth j := do
    let (slot, ()) ← (wrapperFields name f).read depth j
    required slot

/-- The height that a search starts at, and the tipset it goes back from. -/
def heightForm : Form (Int64 × Option TipsetKey) := .pair .int64 TipsetKey.form.option

/-- A message and a tipset. -/
def receiptForm : Form (Cid × TipsetKey) := .pair .cid TipsetKey.form

/-- A message to try out, and a tipset. -/
def trialForm : Form (Message × TipsetKey) := .pair Message.form TipsetKey.form

end Rpc

namespace Question

/-- The name of the method that answers a question. -/
def method : {α : Type} → Question α → String
  | _, .message _ => "Filecoin.ChainGetMessage"
  | _, .search _ => "Filecoin.StateSearchMsg"
  | _, .tipset _ => "Filecoin.ChainGetTipSet"
  | _, .tipsetAt .. => "Filecoin.ChainGetTipSetByHeight"
  | _, .block _ => "Filecoin.ChainGetBlock"
  | _, .parentMessages _ => "Filecoin.ChainGetParentMessages"
  | _, .circulatingSupply _ => "Filecoin.StateVMCirculatingSupplyInternal"
  | _, .receipt .. => "Filecoin.StateGetReceipt"
  | _, .networkName => "Filecoin.StateNetworkName"
  | _, .nodeVersion => "Filecoin.Version"
  | _, .networkVersion _ => "Filecoin.StateNetworkVersion"
  | _, .trial .. => "Filecoin.StateCall"
  | _, .object _ => "Filecoin.ChainReadObj"

/-- What a question is about, as the parameters of its method. -/
def parameters : {α : Type} → Question α → Json
  | _, .message c => Form.cid.single.toJson c
  | _, .search c => Form.cid.single.toJson c
  | _, .tipset key => TipsetKey.form.single.toJson key
  | _, .tipsetAt height start => Rpc.heightForm.toJson (height, start)
  | _, .block c => Form.cid.single.toJson c
  | _, .parentMessages c => Form.cid.single.toJson c
  | _, .circulatingSupply key => TipsetKey.form.single.toJson key
  | _, .receipt c key => Rpc.receiptForm.toJson (c, key)
  | _, .networkName => .array []
  | _, .nodeVersion => .array []
  | _, .networkVersion key => TipsetKey.form.single.toJson key
  | _, .trial m key => Rpc.trialForm.toJson (m, key)
  | _, .object c => Form.cid.single.toJson c

/-- The text of the parameters; the members of objects are sorted. -/
def parameterText (q : Question α) : String := q.parameters.sorted.compact

/-- How the answer is written. -/
def resultForm : {α : Type} → Question α → Form α
  | _, .message _ => Message.form
  | _, .search _ => MessageLookup.form.option
  | _, .tipset _ => Tipset.form
  | _, .tipsetAt .. => Tipset.form
  | _, .block _ => BlockHeader.form
  | _, .parentMessages _ => NamedMessage.form.list
  | _, .circulatingSupply _ => Rpc.wrapped "FilCirculating" .tokenAmount
  | _, .receipt .. => Receipt.form.option
  | _, .networkName => .string
  | _, .nodeVersion => Rpc.wrapped "Version" .string
  | _, .networkVersion _ => .uint32
  | _, .trial .. => TrialRun.form
  | _, .object _ => .bytes

end Question

end ReplayVector
