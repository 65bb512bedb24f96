import ReplayVector.Rpc.Connection

/-!
# Serving a node

The other end of a connection: it finds the question that a call puts, asks a node, and gives the
text of the answer.
-/

namespace ReplayVector.Rpc

open Json (Form)

/-- Any question, together with the type of its answer. -/
abbrev AnyQuestion := (α : Type) × Question α

/-- Reads the parameters of a method that has none. -/
def readNone : Json.Decoder Unit := fun _ j =>
  match j with
  | .array [] => .ok ()
  | _ => .error .malformed

/-- How the parameters of each method are read as a question. -/
def methods : List (String × Json.Decoder AnyQuestion) :=
  let about {β : Type} (d : Json.Decoder β) (ask : β → AnyQuestion) : Json.Decoder AnyQuestion :=
    fun depth j => match d depth j with
      | .ok b => .ok (ask b)
      | .error refusal => .error refusal
  [("Filecoin.ChainGetMessage", about Form.cid.single.decoder fun c => ⟨_, .message c⟩),
   ("Filecoin.StateSearchMsg", about Form.cid.single.decoder fun c => ⟨_, .search c⟩),
   ("Filecoin.ChainGetTipSet", about TipsetKey.form.single.decoder fun key => ⟨_, .tipset key⟩),
   ("Filecoin.ChainGetTipSetByHeight",
    about heightForm.decoder fun (height, start) => ⟨_, .tipsetAt height start⟩),
   ("Filecoin.ChainGetBlock", about Form.cid.single.decoder fun c => ⟨_, .block c⟩),
   ("Filecoin.ChainGetParentMessages",
    about Form.cid.single.decoder fun c => ⟨_, .parentMessages c⟩),
   ("Filecoin.StateVMCirculatingSupplyInternal",
    about TipsetKey.form.single.decoder fun key => ⟨_, .circulatingSupply key⟩),
   ("Filecoin.StateGetReceipt", about receiptForm.decoder fun (c, key) => ⟨_, .receipt c key⟩),
   ("Filecoin.StateNetworkName", about readNone fun _ => ⟨_, .networkName⟩),
   ("Filecoin.Version", about readNone fun _ => ⟨_, .nodeVersion⟩),
   ("Filecoin.StateNetworkVersion",
    about TipsetKey.form.single.decoder fun key => ⟨_, .networkVersion key⟩),
   ("Filecoin.StateCall", about trialForm.decoder fun (m, key) => ⟨_, .trial m key⟩),
   ("Filecoin.ChainReadObj", about Form.cid.single.decoder fun c => ⟨_, .object c⟩)]

/-- The question that a call puts. -/
def readQuestion (method parameters : String) : Except Json.Refusal AnyQuestion :=
  match methods.lookup method with
  | some d => Json.decode d parameters
  | none => .error .malformed

/-- Answers calls by asking a node. -/
def serve [Monad m] (n : Node m) : Connection m where
  call method parameters :=
    match readQuestion method parameters with
    | .ok ⟨_, q⟩ => do return (← n.ask q).map q.resultForm.print
    | .error refusal => return .error (.of (.refused refusal))

end ReplayVector.Rpc
