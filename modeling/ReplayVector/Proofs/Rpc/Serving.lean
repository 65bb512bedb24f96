import ReplayVector.Fixture.Chain
import ReplayVector.Proofs.Chain.Forms
import ReplayVector.Proofs.Json.Sorting
import ReplayVector.Rpc.Server

/-!
# A node behind a connection

The question that a call puts is found again from the name of its method and the text of its
parameters, although the members of the objects there are sorted, and every answer that fits into a
text is read back from it. So a chain answers alike at hand and behind a connection.

* `Question.readQuestion_parameterText`: the question is found again.
* `Question.resultForm_lossless`: the answers that are read back.
* `Rpc.serve_ask`: what comes back from a served node.
* `Fixture.Chain.answers_served`: a served chain.
-/

namespace ReplayVector

open Json

-- ---------------------------------------------------------------------------
-- Parameters
-- ---------------------------------------------------------------------------

theorem cid_sorted_faithful : Form.cid.sorted.Faithful 1 := by
  rw [Form.sorted_eq_self (f := Form.cid) fun _ => rfl]
  exact Form.cid_faithful

theorem TipsetKey.sorted_faithful : form.sorted.Faithful 2 := by
  have hcids : Form.cid.array.sorted = Form.cid.array := by
    rw [Form.sorted_array, Form.sorted_eq_self (f := Form.cid) fun _ => rfl]
  rw [Form.sorted_eq_self (f := form) fun k => congrFun (congrArg Form.toJson hcids) k.cids]
  exact form_faithful

theorem Message.sorted_faithful : form.sorted.Faithful 1 := by
  obtain ⟨make, hdecoder, hwritten⟩ := form_written
  refine .of_record_sorted fields (by decide) hdecoder fun m => ?_
  obtain ⟨ms, slots, hjson, hsorted, hms, hmake⟩ := hwritten m
  exact ⟨ms, slots, hjson, hsorted.symm ▸ hms, hmake⟩

namespace Rpc

theorem heightForm_sorted_faithful : heightForm.sorted.Faithful 3 := by
  rw [heightForm, Form.sorted_pair, Form.sorted_option,
    Form.sorted_eq_self (f := Form.int64) fun _ => rfl]
  refine (Form.int64_faithful.mono (by omega)).pair (TipsetKey.sorted_faithful.option fun k => ?_)
  exact nofun

theorem receiptForm_sorted_faithful : receiptForm.sorted.Faithful 3 := by
  have hcid : Form.cid.sorted.Faithful 2 := cid_sorted_faithful.mono (by omega)
  exact hcid.pair TipsetKey.sorted_faithful

theorem trialForm_sorted_faithful : trialForm.sorted.Faithful 3 := by
  have hmessage : Message.form.sorted.Faithful 2 := Message.sorted_faithful.mono (by omega)
  exact hmessage.pair TipsetKey.sorted_faithful

/-- A method finds the question about what it reads of its parameters. -/
private theorem readQuestion_eq {β : Type} {d : Decoder β} {method : String} (ask : β → AnyQuestion)
    (hmethod : methods.lookup method = some fun depth j =>
      match d depth j with
      | .ok b => .ok (ask b)
      | .error refusal => .error refusal)
    {j : Json} {b : β} (hprinted : Printed j) (hread : d nesting j = .ok b) :
    readQuestion method j.compact = .ok (ask b) := by
  rw [readQuestion, hmethod]
  show decode _ j.compact = _
  rw [decode, read_compact (hprinted 0)]
  simp only [hread, bind, Except.bind, if_true]

/-- So it finds a question from its parameters, the members of objects sorted. -/
private theorem readQuestion_print {β : Type} {f : Form β} {levels : Nat}
    (hf : f.sorted.Faithful levels) (hlevels : levels < nesting) {method : String}
    (ask : β → AnyQuestion)
    (hmethod : methods.lookup method = some fun depth j =>
      match f.decoder depth j with
      | .ok b => .ok (ask b)
      | .error refusal => .error refusal) (b : β) :
    readQuestion method (f.sorted.print b) = .ok (ask b) := by
  have hprinted := hf.printed b
  have hread := hf.decoder_toJson b nesting hlevels
  exact readQuestion_eq ask hmethod hprinted hread

end Rpc

namespace Question

/-- The question that a call puts is found again from its method and parameters. -/
theorem readQuestion_parameterText {α : Type} (q : Question α) :
    Rpc.readQuestion q.method q.parameterText = .ok ⟨α, q⟩ := by
  have hcid : Form.cid.single.sorted.Faithful 2 := by
    rw [Form.sorted_single]
    exact cid_sorted_faithful.single
  have hkey : TipsetKey.form.single.sorted.Faithful 3 := by
    rw [Form.sorted_single]
    exact TipsetKey.sorted_faithful.single
  cases q with
  | message c => exact Rpc.readQuestion_print hcid (by decide) (fun c => ⟨_, .message c⟩) rfl c
  | search c => exact Rpc.readQuestion_print hcid (by decide) (fun c => ⟨_, .search c⟩) rfl c
  | tipset key =>
    exact Rpc.readQuestion_print hkey (by decide) (fun key => ⟨_, .tipset key⟩) rfl key
  | tipsetAt height start =>
    exact Rpc.readQuestion_print Rpc.heightForm_sorted_faithful (by decide)
      (fun p => ⟨_, .tipsetAt p.1 p.2⟩) rfl (height, start)
  | block c => exact Rpc.readQuestion_print hcid (by decide) (fun c => ⟨_, .block c⟩) rfl c
  | parentMessages c =>
    exact Rpc.readQuestion_print hcid (by decide) (fun c => ⟨_, .parentMessages c⟩) rfl c
  | circulatingSupply key =>
    exact Rpc.readQuestion_print hkey (by decide) (fun key => ⟨_, .circulatingSupply key⟩) rfl key
  | receipt c key =>
    exact Rpc.readQuestion_print Rpc.receiptForm_sorted_faithful (by decide)
      (fun p => ⟨_, .receipt p.1 p.2⟩) rfl (c, key)
  | networkName =>
    exact Rpc.readQuestion_eq (d := Rpc.readNone) (fun _ => ⟨_, .networkName⟩) rfl
      (fun _ => Spells.emptyArray) rfl
  | nodeVersion =>
    exact Rpc.readQuestion_eq (d := Rpc.readNone) (fun _ => ⟨_, .nodeVersion⟩) rfl
      (fun _ => Spells.emptyArray) rfl
  | networkVersion key =>
    exact Rpc.readQuestion_print hkey (by decide) (fun key => ⟨_, .networkVersion key⟩) rfl key
  | trial m key =>
    exact Rpc.readQuestion_print Rpc.trialForm_sorted_faithful (by decide)
      (fun p => ⟨_, .trial p.1 p.2⟩) rfl (m, key)
  | object c => exact Rpc.readQuestion_print hcid (by decide) (fun c => ⟨_, .object c⟩) rfl c

end Question

-- ---------------------------------------------------------------------------
-- Results
-- ---------------------------------------------------------------------------

theorem Rpc.wrapped_faithful {α : Type} {name : String} {f : Form α} {levels : Nat}
    (hf : f.Faithful levels) : (wrapped name f).Faithful (levels + 1) := by
  refine .of_record (wrapperFields name f) (List.nodup_singleton _) (fun _ _ => rfl) fun a => ?_
  have hms : (wrapperFields name f).Written levels _ _ := .member hf a .nil
  exact ⟨_, _, rfl, hms, rfl⟩

namespace Question

/-- The answer to a question fits into a text. Only the calls of a trial run may nest too deep. -/
def Fits : {α : Type} → Question α → α → Prop
  | _, .trial .., r => (TrialRun.form.toJson r).levels < nesting
  | _, _, _ => True

/-- The answers that are read back from their text are those that fit into one. -/
theorem resultForm_lossless {α : Type} (q : Question α) : q.resultForm.Lossless q.Fits := by
  cases q with
  | message c => exact Message.form_faithful.lossless (by decide)
  | search c => exact (MessageLookup.form_faithful.option nofun).lossless (by decide)
  | tipset key => exact Tipset.form_faithful.lossless (by decide)
  | tipsetAt height start => exact Tipset.form_faithful.lossless (by decide)
  | block c => exact BlockHeader.form_faithful.lossless (by decide)
  | parentMessages c => exact NamedMessage.form_faithful.list.lossless (by decide)
  | circulatingSupply key =>
    exact (Rpc.wrapped_faithful Form.tokenAmount_faithful).lossless (by decide)
  | receipt c key => exact (Receipt.form_faithful.option nofun).lossless (by decide)
  | networkName => exact Form.string_faithful.lossless (by decide)
  | nodeVersion => exact (Rpc.wrapped_faithful Form.string_faithful).lossless (by decide)
  | networkVersion key => exact Form.uint32_faithful.lossless (by decide)
  | trial m key => exact TrialRun.lossless
  | object c => exact Form.bytes_faithful.lossless (by decide)

/-- The text of an answer that fits is read as the answer. -/
theorem readResult_print {α : Type} {q : Question α} {a : α} (h : q.Fits a) :
    q.readResult (.ok (q.resultForm.print a)) = .ok a := by
  have hparse := (q.resultForm_lossless.parse_print a).mpr h
  show withContext _ (match q.resultForm.parse (q.resultForm.print a) with
    | .ok a => .ok a
    | .error refusal => .error (.of (.refused refusal))) = _
  rw [hparse]
  rfl

end Question

-- ---------------------------------------------------------------------------
-- Served nodes
-- ---------------------------------------------------------------------------

/-- A served node is asked the same question, and its answer comes back by way of a text. -/
theorem Rpc.serve_ask {m : Type → Type} [Monad m] [LawfulMonad m] (n : Node m) {α : Type}
    (q : Question α) :
    (serve n).node.ask q = (fun r => q.readResult (r.map q.resultForm.print)) <$> n.ask q := by
  show (do return q.readResult (← (serve n).call q.method q.parameterText)) = _
  rw [serve]
  simp only [q.readQuestion_parameterText, bind_assoc, pure_bind, map_eq_pure_bind]

namespace Fixture.Chain

/-- Trial runs show at most one call below the outermost one. -/
private theorem fits_trial {ch : Chain} {m : Message} {key : TipsetKey} {r : TrialRun}
    (h : ch.answer (.trial m key) = .ok r) : (TrialRun.form.toJson r).levels < nesting := by
  obtain ⟨_, -, h⟩ := of_bind_ok h
  obtain ⟨ts, hsubcalls, h⟩ := of_bind_ok h
  cases h
  rw [TrialRun.levels_toJson, CallTrace.levels_call]
  unfold subcalls at hsubcalls
  split at hsubcalls
  · split at hsubcalls
    · cases hsubcalls
      rw [CallTrace.toJsonList, levelsOfItems, CallTrace.levels_call]
      decide
    · cases hsubcalls
  · cases hsubcalls
    decide

/-- Whatever a chain answers fits into a text. -/
theorem fits_answer {ch : Chain} {α : Type} {q : Question α} {a : α} (h : ch.answer q = .ok a) :
    q.Fits a := by
  cases q with
  | trial m key => exact fits_trial h
  | _ => trivial

/-- A chain behind a connection gives every answer that it gives at hand. -/
theorem answers_served {ch : Chain} {α : Type} {q : Question α} {a : α}
    (h : ch.answer q = .ok a) :
    Rpc.readQuestion q.method q.parameterText = .ok ⟨α, q⟩ ∧
      ((Rpc.serve node).node.ask q).run ch = pure (.ok a, ch) := by
  refine ⟨q.readQuestion_parameterText, ?_⟩
  rw [Rpc.serve_ask]
  show (q.readResult ((ch.answer q).map q.resultForm.print), ch) = (.ok a, ch)
  rw [h]
  exact congrArg (·, ch) (Question.readResult_print (fits_answer h))

/-- One tipset, whose block executed no messages, and a block without bytes. -/
private def sparse : Chain :=
  { empty with
    tipsets := [{
      key := ⟨.inline [1], []⟩, first := default, rest := [], length_eq := List.length_nil,
      agree := List.forall_mem_nil _ }]
    parentMessages := [(.inline [1], [])]
    objects := ⟨[⟨.inline [], []⟩]⟩ }

/-- A message that forwards its value to another actor. -/
private def forward : Message :=
  { version := 0, sender := .id 5, receiver := .id 6, sequence := 0, value := 1
    method := Transfer.forwardMethod, params := ⟨[0x42, 0x00, 0x07], by decide⟩
    gasLimit := 0, gasFeeCap := 0, gasPremium := 0 }

/-- What is absent or empty stays so, and a forwarded value shows as a call below the first. -/
theorem answers_served_sparse :
    ((Rpc.serve node).node.ask (.search (.inline [1]))).run sparse = pure (.ok none, sparse) ∧
    ((Rpc.serve node).node.ask (.parentMessages (.inline [1]))).run sparse =
      pure (.ok [], sparse) ∧
    ((Rpc.serve node).node.ask (.object (.inline []))).run sparse = pure (.ok [], sparse) ∧
    ((Rpc.serve node).node.ask (.trial forward ⟨.inline [1], []⟩)).run sparse =
      pure (.ok ⟨.call (.id 5) (.id 6) [.call (.id 6) (.id 7) []], ""⟩, sparse) :=
  ⟨(answers_served rfl).2, (answers_served rfl).2, (answers_served rfl).2,
    (answers_served rfl).2⟩

end Fixture.Chain

end ReplayVector
