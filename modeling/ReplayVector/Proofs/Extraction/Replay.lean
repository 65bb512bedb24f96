import ReplayVector.Proofs.Chain.Message
import ReplayVector.Proofs.Extraction.Gate
import ReplayVector.Proofs.Gzip.RoundTrip
import ReplayVector.Proofs.TestVector

/-!
# Vectors replay on their own

A vector that comes out of an extraction needs neither the chain nor the run it came from. Its
document is read back as the vector, its archive loads, its message is the one the chain answered
with, and the execution that its preconditions describe, over the loaded blocks alone, has the
outcome that its postconditions record.

* `Extractor.of_checkArchive_ok`: what the check of an archive establishes.
* `Extractor.extract_replays`: the promise of a vector.
-/

namespace ReplayVector.Extractor

/-! ## The check of the archive -/

/-- An archive that is executed loads without a fault. -/
theorem of_replayArchive_ok {engine : Engine} {e : Execution} {car : Bytes} {outcome : Outcome}
    (h : replayArchive engine e car = .ok outcome) :
    ∃ roots held, Memory.empty.exec (Archive.load car) = (.ok roots, held) ∧
      (held.exec (engine e)).1 = .ok outcome := by
  rcases hload : Memory.empty.exec (Archive.load car) with ⟨loaded, held⟩
  rw [replayArchive, hload] at h
  cases loaded with
  | error f => cases h
  | ok roots =>
    refine ⟨roots, held, rfl, ?_⟩
    simp only [withContext, Except.mapError] at h
    split at h
    · cases h
    · cases hrun : (held.exec (engine e)).1 with
      | error f =>
        rw [hrun] at h
        cases h
      | ok outcome' =>
        rw [hrun] at h
        cases h
        rfl

/-- An archive that passes the check loads, and the message has the same outcome on its blocks. -/
theorem of_checkArchive_ok {engine : Engine} {s : Setting} {message : Message} {r : Retained}
    {car : Bytes} (h : checkArchive engine s message r car = .ok ()) :
    ∃ roots held, Memory.empty.exec (Archive.load car) = (.ok roots, held) ∧
      (held.exec (engine (s.execution r.preroot message .buffered))).1 =
        .ok { receipt := r.receipt, postroot := r.postroot } := by
  rw [checkArchive] at h
  cases hreplay : replayArchive engine (s.execution r.preroot message .buffered) car with
  | error f =>
    rw [hreplay] at h
    cases h
  | ok outcome =>
    rw [hreplay] at h
    obtain ⟨roots, held, hload, hrun⟩ := of_replayArchive_ok hreplay
    refine ⟨roots, held, hload, ?_⟩
    by_cases heq : outcome = { receipt := r.receipt, postroot := r.postroot }
    · rw [hrun, heq]
    · simp only [bind, Except.bind, heq, if_false] at h
      cases h

/-! ## The message -/

variable {σ : Type} (x : Extractor (StateM σ))

/-- The first stage of a run locates the message and learns the setting of its execution. -/
def Resolves (request : ExtractionRequest) (s : σ) (r : Resolved) (setting : Setting) : Prop :=
  ∃ w, (x.resolve request).runFrom (.initial s) = (.ok (r, setting), w)

/-- The chain's answer to the first question of a run, which asks for the message. -/
def MessageAnswered (request : ExtractionRequest) (s : σ) (message : Message) : Prop :=
  ∃ c, x.cancelled s = (false, c) ∧ (x.node.ask (.message request.cid) c).1 = .ok message

/-- Both parts of a computation that ends well end well. -/
private theorem of_run_bind_ok {α β : Type} {p : ExceptT Failure (StateM σ) α}
    {f : α → ExceptT Failure (StateM σ) β} {s : σ} {b : β}
    (h : ((p >>= f).run s).1 = .ok b) :
    ∃ a, (p.run s).1 = .ok a ∧ ((f a).run (p.run s).2).1 = .ok b := by
  rw [run_question_bind] at h
  split at h
  · next a s' hp =>
    rw [hp]
    exact ⟨a, rfl, h⟩
  · cases h

/-- A question that is answered was answered by the node. -/
private theorem of_queryFor_ok {α : Type} {n : Node (StateM σ)} {c : Cause} {q : Question α}
    {s : σ} {a : α} (h : ((n.queryFor c q).run s).1 = .ok a) : (n.ask q s).1 = .ok a := by
  have hquery : ((n.queryFor c q).run s).1 = withContext c (n.ask q s).1 := rfl
  rw [hquery] at h
  cases ha : (n.ask q s).1 with
  | error f =>
    rw [ha] at h
    cases h
  | ok a' =>
    rw [ha] at h
    exact h

/-- The located message is the answer to the first question of the search. -/
private theorem of_locate_ok {n : Node (StateM σ)} {c : Cid} {hint : Option Cid} {s : σ}
    {r : Resolved} (h : ((Resolved.locate n c hint).run s).1 = .ok r) :
    (n.ask (.message c) s).1 = .ok r.message := by
  obtain ⟨message, hmessage, h⟩ := of_run_bind_ok h
  have hanswer := of_queryFor_ok hmessage
  cases hint with
  | none =>
    obtain ⟨⟨execution, inclusion⟩, -, h⟩ := of_run_bind_ok h
    dsimp only at h
    split at h
    · cases h
      exact hanswer
    · cases h
  | some block =>
    obtain ⟨⟨execution, inclusion⟩, -, h⟩ := of_run_bind_ok h
    dsimp only at h
    split at h
    · cases h
      exact hanswer
    · cases h

/-- The located message is the one the chain answered with. -/
theorem Resolves.messageAnswered {request : ExtractionRequest} {s : σ} {r : Resolved}
    {setting : Setting} (h : x.Resolves request s r setting) :
    x.MessageAnswered request s r.message := by
  obtain ⟨w, h⟩ := h
  obtain ⟨⟨⟩, w₁, hpoint, h⟩ := RunM.of_runFrom_bind_ok h
  rcases hc : x.cancelled s with ⟨stop, c⟩
  have hstart : x.cancelled (Standing.initial s).chain = (stop, c) := hc
  rw [runFrom_checkpoint, hstart] at hpoint
  cases stop with
  | true => cases hpoint
  | false =>
    cases hpoint
    refine ⟨c, hc, ?_⟩
    rw [RunM.runFrom_asking] at h
    have hfound := congrArg Prod.fst h
    cases hrun : ((do
        let r ← Resolved.locate x.node request.cid request.block
        return (r, ← Setting.ofTipsets x.node r) :
        ExceptT Failure (StateM σ) (Resolved × Setting)).run c).1 with
    | error f =>
      simp only [hrun] at hfound
      cases hfound
    | ok found =>
      simp only [hrun] at hfound
      cases hfound
      obtain ⟨r', hlocate, hrest⟩ := of_run_bind_ok hrun
      obtain ⟨setting', -, hrest⟩ := of_run_bind_ok hrest
      cases hrest
      exact of_locate_ok hlocate

/-! ## The promise of a vector -/

/-- The execution that the preconditions of a vector describe; the version of the rules and the
time, which a vector does not hold, are those of the run. -/
def replayOf (v : TestVector) (message : Message) (setting : Setting) : Execution where
  preroot := v.preconditions.stateRoot
  epoch := v.preconditions.epoch
  message
  circSupply := ⟨v.preconditions.circSupply⟩
  baseFee := ⟨v.preconditions.baseFee⟩
  networkVersion := setting.networkVersion
  timestamp := setting.timestamp
  mode := .buffered

/-- Every vector that comes out of an extraction replays on its own, whatever compresses its archive
to one member: its document holds it, its archive loads into an empty store, its one message is the
one the chain answered with, and over the loaded blocks alone that message has the recorded outcome. -/
theorem extract_replays (hpack : ∀ data, Gzip.IsMember data (x.pack data))
    (request : ExtractionRequest) (s : σ) {e : Extraction} (h : (x.extract request s).1 = .ok e) :
    TestVector.form.parse e.vector.document = .ok e.vector ∧
    ∃ r setting, x.Resolves request s r setting ∧ x.MessageAnswered request s r.message ∧
      (∃ message, e.vector.applyMessages = [message] ∧ Message.decode? message = some r.message) ∧
      ∃ archive roots held, Gzip.IsMember archive e.vector.car ∧
        Gzip.isPacked e.vector.car = true ∧
        Memory.empty.exec (Archive.load e.vector.car) = (.ok roots, held) ∧
        ∃ receipt recorded,
          (held.exec (x.engine (replayOf e.vector r.message setting))).1 =
            .ok { receipt, postroot := e.vector.postconditions.stateRoot } ∧
          e.vector.postconditions.receipts = [recorded] ∧
          recorded.exitCode.toInt = receipt.exitCode.toNat ∧
          recorded.returnValue = receipt.returnData ∧ recorded.gasUsed = receipt.gasUsed := by
  refine ⟨TestVector.parse_document e.vector, ?_⟩
  obtain ⟨r, setting, retained, w, w', w'', hexecuted, -, hvector⟩ := x.of_extract_ok h
  obtain ⟨gen, message, hmessage, hcheck, hvector⟩ := x.of_assemble_ok hvector
  obtain ⟨roots, held, hload, hrun⟩ := of_checkArchive_ok hcheck
  have hresolves : x.Resolves request s r setting := by
    obtain ⟨⟨r', setting'⟩, w₁, hresolve, hexecuted⟩ := RunM.of_runFrom_bind_ok hexecuted
    obtain ⟨precursors, w₂, -, hexecuted⟩ := RunM.of_runFrom_bind_ok hexecuted
    obtain ⟨preroot, w₃, -, hexecuted⟩ := RunM.of_runFrom_bind_ok hexecuted
    obtain ⟨retained', w₄, -, hexecuted⟩ := RunM.of_runFrom_bind_ok hexecuted
    rw [RunM.runFrom_pure] at hexecuted
    cases hexecuted
    exact ⟨w₁, hresolve⟩
  have hcode : retained.receipt.exitCode.toNat < 2 ^ 63 := by
    have := retained.receipt.exitCode.toNat_lt
    omega
  have hpacked : Gzip.isPacked (x.pack retained.archive) = true := by
    simpa using (hpack retained.archive).isPacked []
  rw [hvector]
  refine ⟨r, setting, hresolves, hresolves.messageAnswered, ?_, retained.archive, roots, held,
    hpack _, hpacked, hload, retained.receipt, .ofReceipt retained.receipt, hrun, rfl, ?_, rfl, rfl⟩
  · exact ⟨message, rfl, Message.decode?_of_encode? hmessage⟩
  · exact Int64.toInt_ofNat_of_lt hcode

set_option maxRecDepth 20000 in
/-- A vector comes out of the small chain, whose receipt is the engine's. -/
private theorem sample_extract_isOk :
    (sampleExtractor.extract (.ofCid sampleCid) (sampleChain (.plain .ok 0))).1.isOk = true := by
  decide +kernel

/-- The vector of the small chain replays: its archive is packed in stored blocks. -/
theorem extract_replays_sample :
    ∃ e, (sampleExtractor.extract (.ofCid sampleCid) (sampleChain (.plain .ok 0))).1 = .ok e ∧
      TestVector.form.parse e.vector.document = .ok e.vector ∧
      ∃ archive roots held, Gzip.IsMember archive e.vector.car ∧
        Memory.empty.exec (Archive.load e.vector.car) = (.ok roots, held) := by
  cases h : (sampleExtractor.extract (.ofCid sampleCid) (sampleChain (.plain .ok 0))).1 with
  | error f =>
    have hok := sample_extract_isOk
    rw [h] at hok
    cases hok
  | ok e =>
    obtain ⟨hdocument, r, setting, -, -, -, archive, roots, held, hmember, -, hload, -⟩ :=
      sampleExtractor.extract_replays Gzip.isMember_pack _ _ h
    exact ⟨e, rfl, hdocument, archive, roots, held, hmember, hload⟩

end ReplayVector.Extractor
