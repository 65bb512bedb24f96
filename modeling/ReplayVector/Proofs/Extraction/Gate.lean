import ReplayVector.Execution.Probe
import ReplayVector.Fixture.Chain
import ReplayVector.Proofs.Extraction.Runs
import ReplayVector.Proofs.Extraction.Verification
import Mathlib.Tactic.Tauto

/-!
# The gate of the receipt

No vector leaves an extraction whose receipt differs from the one on the chain. Whichever way the
state is cut out, one receipt is both compared with the chain's and recorded in the vector.

* `Extractor.stages_eq`: a run up to the receipt, the comparison, and the assembly.
* `Extractor.extract_gated`: a vector comes out only through the gate, and a difference ends the
  run there.
-/

namespace ReplayVector

namespace Extractor

variable {σ : Type} (x : Extractor (StateM σ))

/-! ## Up to the receipt -/

/-- The stages up to the execution of the message. -/
def executed (request : ExtractionRequest) : RunM (StateM σ) (Resolved × Setting × Retained) := do
  let (r, s) ← x.resolve request
  let precursors ← x.selectPrecursors request r
  let preroot ← x.replayPrecursors s 0 precursors r.inclusion.parentState
  let retained ← x.executeTarget request.retention s r preroot
  return (r, s, retained)

/-- The stages after it. -/
def delivered (request : ExtractionRequest) (r : Resolved) (s : Setting) (retained : Retained) :
    RunM (StateM σ) Extraction := do
  let receiptCheck ← x.verifyReceipt request.cid r retained.receipt
  return { vector := ← x.assemble request r s retained, receiptCheck }

/-- A run executes the message, and goes on with nothing but what came of that. -/
theorem stages_eq (request : ExtractionRequest) :
    x.stages request = x.executed request >>= fun (r, s, retained) =>
      x.delivered request r s retained := by
  simp only [stages, executed, delivered, bind_assoc, pure_bind]

/-- The run gets as far as an answer to the question for the receipt on the chain, and `receipt` is
that of its own execution. -/
def ReceiptAnswered (request : ExtractionRequest) (s : σ) (answer : Option Receipt)
    (receipt : Receipt) : Prop :=
  ∃ r setting retained w c,
    (x.executed request).runFrom (.initial s) = (.ok (r, setting, retained), w) ∧
    x.cancelled w.chain = (false, c) ∧
    (x.node.ask (.receipt request.cid r.execution.key) c).1 = .ok answer ∧
    retained.receipt = receipt

/-! ## The comparison -/

/-- What the comparison does once the chain has answered. -/
theorem runFrom_verifyReceipt {w : Standing σ} {c : σ} (hc : x.cancelled w.chain = (false, c))
    (cid : Cid) (r : Resolved) (receipt : Receipt) :
    (x.verifyReceipt cid r receipt).runFrom w =
      (match (x.node.ask (.receipt cid r.execution.key) c).1 with
        | .error f => .error {
            stage := .verifyReceipt, fault := .of .resolution (f.context .gettingReceipt) }
        | .ok expected => (Receipt.check expected receipt).mapError
            fun ms => { stage := .verifyReceipt, fault := .verification ms },
        { w with chain := (x.node.ask (.receipt cid r.execution.key) c).2 }) := by
  have hpoint : (x.checkpoint .verifyReceipt).runFrom w = (.ok (), { w with chain := c }) := by
    rw [runFrom_checkpoint, hc]
    rfl
  rw [verifyReceipt, RunM.runFrom_bind_ok hpoint, RunM.runFrom_bind, RunM.runFrom_asking]
  rcases ha : x.node.ask (.receipt cid r.execution.key) c with ⟨answer, c'⟩
  have hquery : ((x.node.queryFor .gettingReceipt (.receipt cid r.execution.key)).run c) =
      (withContext .gettingReceipt answer, c') := by
    show (withContext .gettingReceipt (x.node.ask (.receipt cid r.execution.key) c).1,
      (x.node.ask (.receipt cid r.execution.key) c).2) = _
    rw [ha]
  rw [hquery]
  cases answer with
  | error f => rfl
  | ok expected =>
    show (RunM.ofExcept .verifyReceipt _).runFrom _ =
      ((Receipt.check expected receipt).mapError _, _)
    rw [RunM.runFrom_ofExcept]
    cases Receipt.check expected receipt <;> rfl

/-- A comparison that passes had an answer from the chain. -/
theorem of_verifyReceipt_ok {w w' : Standing σ} {cid : Cid} {r : Resolved} {receipt : Receipt}
    {check : ReceiptCheck} (h : (x.verifyReceipt cid r receipt).runFrom w = (.ok check, w')) :
    ∃ c answer, x.cancelled w.chain = (false, c) ∧
      (x.node.ask (.receipt cid r.execution.key) c).1 = .ok answer ∧
      Receipt.check answer receipt = .ok check := by
  rcases hc : x.cancelled w.chain with ⟨stop, c⟩
  cases stop with
  | true =>
    have hpoint : (x.checkpoint .verifyReceipt).runFrom w =
        (.error { stage := .verifyReceipt, fault := .cancelled }, { w with chain := c }) := by
      rw [runFrom_checkpoint, hc]
      rfl
    rw [verifyReceipt, RunM.runFrom_bind_error hpoint] at h
    cases h
  | false =>
    rw [x.runFrom_verifyReceipt hc] at h
    have h := congrArg Prod.fst h
    cases ha : (x.node.ask (.receipt cid r.execution.key) c).1 with
    | error f =>
      rw [ha] at h
      cases h
    | ok answer =>
      refine ⟨c, answer, rfl, ha, ?_⟩
      rw [ha] at h
      cases hcheck : Receipt.check answer receipt with
      | error ms =>
        simp only [hcheck] at h
        cases h
      | ok check' =>
        simp only [hcheck] at h
        cases h
        rfl

/-! ## The gate -/

/-- A vector comes out of a run that executed the message, got past the comparison and assembled
what it had. -/
theorem of_extract_ok {request : ExtractionRequest} {s : σ} {e : Extraction}
    (h : (x.extract request s).1 = .ok e) :
    ∃ r setting retained w w' w'',
      (x.executed request).runFrom (.initial s) = (.ok (r, setting, retained), w) ∧
      (x.verifyReceipt request.cid r retained.receipt).runFrom w = (.ok e.receiptCheck, w') ∧
      (x.assemble request r setting retained).runFrom w' = (.ok e.vector, w'') := by
  rw [extract, RunM.start_eq, stages_eq] at h
  rcases hrun : (x.executed request >>= fun (r, s, retained) =>
    x.delivered request r s retained).runFrom (.initial s) with ⟨ended, w''⟩
  rw [hrun] at h
  obtain rfl : ended = .ok e := h
  obtain ⟨⟨r, setting, retained⟩, w, hexecuted, hrest⟩ := RunM.of_runFrom_bind_ok hrun
  obtain ⟨check, w', hcheck, hrest⟩ := RunM.of_runFrom_bind_ok hrest
  obtain ⟨vector, w₃, hvector, hrest⟩ := RunM.of_runFrom_bind_ok hrest
  rw [RunM.runFrom_pure] at hrest
  cases hrest
  exact ⟨r, setting, retained, w, w', w'', hexecuted, hcheck, hvector⟩

/-- Whatever is assembled records the receipt of the execution. -/
theorem of_assemble_ok {request : ExtractionRequest} {r : Resolved} {s : Setting}
    {retained : Retained} {w w' : Standing σ} {v : TestVector}
    (h : (x.assemble request r s retained).runFrom w = (.ok v, w')) :
    ∃ gen message, r.message.encode? = some message ∧
      checkArchive x.engine s r.message retained (x.pack retained.archive) = .ok () ∧
      v = vector request gen s message retained (x.pack retained.archive) := by
  obtain ⟨-, w₁, -, h⟩ := RunM.of_runFrom_bind_ok h
  obtain ⟨network, w₂, -, h⟩ := RunM.of_runFrom_bind_ok h
  obtain ⟨nodeVersion, w₃, -, h⟩ := RunM.of_runFrom_bind_ok h
  split at h
  · rw [RunM.runFrom_throw] at h
    cases h
  · next message hmessage =>
    obtain ⟨⟨⟩, w₄, hcheck, h⟩ := RunM.of_runFrom_bind_ok h
    rw [RunM.runFrom_ofExcept] at hcheck
    rw [RunM.runFrom_pure] at h
    refine ⟨provenance network nodeVersion request.cid r, message, hmessage, ?_, ?_⟩
    · cases hresult : checkArchive x.engine s r.message retained (x.pack retained.archive) with
      | ok _ => rfl
      | error f =>
        rw [hresult] at hcheck
        cases hcheck
    · cases h
      rfl

/-- The gate of the receipt, in both directions. A vector comes out only if the chain answered the
question for the receipt; the comparison is skipped exactly if there is none, and otherwise the
receipt on the chain has the exit code, the return value and the gas that the vector records. And
in a run that gets as far as a receipt which differs in one of them, the comparison ends the run
with the list of all differences, in order. -/
theorem extract_gated (request : ExtractionRequest) (s : σ) :
    (∀ e, (x.extract request s).1 = .ok e →
      ∃ answer receipt recorded, x.ReceiptAnswered request s answer receipt ∧
        e.vector.postconditions.receipts = [recorded] ∧
        (e.receiptCheck = .skipped ↔ answer = none) ∧
        ∀ expected, answer = some expected → e.receiptCheck = .matched ∧
          recorded.exitCode.toInt = expected.exitCode.toNat ∧
          recorded.returnValue = expected.returnData ∧ recorded.gasUsed = expected.gasUsed) ∧
    ∀ expected receipt, x.ReceiptAnswered request s (some expected) receipt →
      expected.exitCode ≠ receipt.exitCode ∨ expected.returnData ≠ receipt.returnData ∨
        expected.gasUsed ≠ receipt.gasUsed →
      (x.extract request s).1 = .error {
        stage := .verifyReceipt
        fault := .verification ((expected.compared receipt).filter Mismatch.isReal) } := by
  constructor
  · intro e h
    obtain ⟨r, setting, retained, w, w', w'', hexecuted, hcheck, hvector⟩ := x.of_extract_ok h
    obtain ⟨c, answer, hcancelled, hanswer, hcheck⟩ := x.of_verifyReceipt_ok hcheck
    obtain ⟨gen, message, -, -, hvector⟩ := x.of_assemble_ok hvector
    obtain ⟨hskipped, hmatched⟩ := Receipt.check_eq_ok hcheck
    refine ⟨answer, retained.receipt, .ofReceipt retained.receipt,
      ⟨r, setting, retained, w, c, hexecuted, hcancelled, hanswer, rfl⟩, ?_, hskipped, ?_⟩
    · rw [hvector]
      rfl
    · intro expected hexpected
      obtain ⟨hcheck, hnone⟩ := hmatched expected hexpected
      obtain ⟨hcode, hreturn, hgas⟩ := (Receipt.mismatches_eq_nil _ _).mp hnone
      refine ⟨hcheck, ?_, hreturn.symm, hgas.symm⟩
      have hlt : retained.receipt.exitCode.toNat < 2 ^ 63 := by
        have := retained.receipt.exitCode.toNat_lt
        omega
      rw [hcode]
      exact Int64.toInt_ofNat_of_lt hlt
  · rintro expected receipt ⟨r, setting, retained, w, c, hexecuted, hcancelled, hanswer, rfl⟩ hne
    have hlisted : expected.mismatches retained.receipt ≠ [] := by
      rw [Ne, Receipt.mismatches_eq_nil]
      tauto
    have hverify := x.runFrom_verifyReceipt hcancelled request.cid r retained.receipt
    simp only [hanswer, Receipt.check_some hlisted, Receipt.mismatches_eq] at hverify
    have hrest : (x.delivered request r setting retained).runFrom w = _ :=
      RunM.runFrom_bind_error hverify _
    rw [extract, RunM.start_eq, stages_eq, RunM.runFrom_bind_ok hexecuted]
    exact congrArg Prod.fst hrest

/-! ## A small chain

A chain of one message, on which the engine that touches no block can be run. -/

/-- The identifier of the message. -/
def sampleCid : Cid := .inline [0]

/-- The message. -/
def sampleMessage : Message where
  version := 0
  sender := .id 100
  receiver := .id 101
  sequence := 0
  value := 0
  method := 0
  params := ∅
  gasLimit := 0
  gasFeeCap := 0
  gasPremium := 0

/-- The one block of the state. -/
def sampleState : Block := .ofDagCbor (Cbor.list []).encode

/-- A tipset of one block, named by one byte. -/
def sampleTipset (name : UInt8) (height : Epoch) (parents : List Cid) : Tipset where
  key := ⟨.inline [name], []⟩
  first := {
    miner := .id 1000
    parents, height
    stateRoot := sampleState.cid
    receipts := .inline []
    messages := .inline []
    timestamp := 0
    parentBaseFee := 0 }
  rest := []
  length_eq := List.length_nil
  agree := List.forall_mem_nil _

/-- The chain, on which the message has the given receipt. -/
def sampleChain (receipt : Receipt) : Fixture.Chain :=
  let execution := sampleTipset 2 11 [.inline [1]]
  ({ Fixture.Chain.empty with
    messages := [(sampleCid, sampleMessage)]
    lookups := [(sampleCid, {
      message := sampleCid, receipt, tipset := execution.key, height := execution.height })]
    parentMessages := [(execution.key.first, [⟨sampleCid, sampleMessage⟩])]
    receipts := [(sampleCid, receipt)]
    objects := ⟨[sampleState]⟩ }.push (sampleTipset 1 10 [.inline []])).push execution

/-- Runs over the chain. -/
def sampleExtractor : Extractor (StateM Fixture.Chain) where
  node := Fixture.Chain.node
  engine := Probe.echo
  cancelled := pure false

/-- A receipt with another exit code and return value than the engine's. -/
def sampleReceipt : Receipt := { Receipt.plain .outOfGas 0 with returnData := [1] }

private theorem ok_of_toOption {ε α : Type} {x : Except ε α} {a : α} (h : x.toOption = some a) :
    x = .ok a := by
  cases x with
  | error e => cases h
  | ok b => exact congrArg Except.ok (Option.some.inj h)

/-- A run on the chain gets as far as the receipt. -/
private theorem sample_receiptAnswered :
    sampleExtractor.ReceiptAnswered (.ofCid sampleCid) (sampleChain sampleReceipt)
      (some sampleReceipt) (.plain .ok 0) := by
  have hrun : ((sampleExtractor.executed (.ofCid sampleCid)).runFrom
      (.initial (sampleChain sampleReceipt))).1.toOption.any (fun e =>
        (((sampleExtractor.executed (.ofCid sampleCid)).runFrom
          (.initial (sampleChain sampleReceipt))).2.chain.answer
            (.receipt sampleCid e.1.execution.key)).toOption == some (some sampleReceipt) &&
          e.2.2.receipt == .plain .ok 0) = true := by
    decide +kernel
  rcases hexecuted : (sampleExtractor.executed (.ofCid sampleCid)).runFrom
    (.initial (sampleChain sampleReceipt)) with ⟨e, w⟩
  rw [hexecuted] at hrun
  obtain ⟨⟨r, setting, retained⟩, he, hrun⟩ := (Option.any_eq_true _ _).mp hrun
  rw [Bool.and_eq_true, beq_iff_eq, beq_iff_eq] at hrun
  obtain rfl : e = .ok (r, setting, retained) := ok_of_toOption he
  exact ⟨r, setting, retained, w, w.chain, hexecuted, rfl, ok_of_toOption hrun.1, hrun.2⟩

/-- The gate closes before a receipt that differs in two fields. -/
theorem extract_gated_sample :
    (sampleExtractor.extract (.ofCid sampleCid) (sampleChain sampleReceipt)).1 = .error {
      stage := .verifyReceipt
      fault := .verification [.exitCode .outOfGas .ok, .returnData [1] []] } :=
  (sampleExtractor.extract_gated (.ofCid sampleCid) (sampleChain sampleReceipt)).2 _ _
    sample_receiptAnswered (Or.inl (by decide))

end Extractor

end ReplayVector
