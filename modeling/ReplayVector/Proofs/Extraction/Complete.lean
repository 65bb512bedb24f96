import ReplayVector.Proofs.Chain.Calls
import ReplayVector.Proofs.Extraction.MaskedStage

/-!
# Extractions that go through

On a chain of two tipsets that executes payments, every message can be extracted: the messages
before it lead to the state it was executed on, what is cut out of that state is enough to execute
it once more, and its receipt is the one on the chain.

* `Extractor.extract_complete`: a vector comes out, whichever way the state is cut out.
-/

namespace ReplayVector

open Fixture

variable {accounts : Nat} {make : Fixture.State → Option (List Message)} {t : TwoTipsets}
  {state : Fixture.State} {receipts : List Receipt} {root : Cid}

/-- The chain tells which addresses a payment touches. -/
theorem run_accessedAddresses (h : t.Makes accounts make state receipts root) {message : Message}
    (hmessage : IsPayment message) :
    ∃ accessed, (accessedAddresses Chain.node message t.inclusion.key).run t.chain =
        (.ok accessed, t.chain) ∧ Ledger.Touching (retainList accessed) message := by
  obtain ⟨subcalls, htrial, hsubcalls⟩ := h.trial hmessage
  refine ⟨_, run_question_bind_ok (run_queryFor htrial _) _, Ledger.touching_retainList ?_ ?_ ?_⟩
  · simp [mem_foldl_insertNew, mem_insertNew]
  · simp [mem_foldl_insertNew, mem_insertNew]
  · intro hmethod a ha
    rw [hsubcalls hmethod a ha]
    simp [mem_foldl_insertNew, mem_insertNew, CallTrace.touched_eq, CallTrace.walk,
      CallTrace.walkAll]

namespace Extractor

/-- All blocks that are involved when a message of a chain is extracted: those of the states and
those of the messages, and where the state is masked, those of what is left of it and of what the
message does to that. -/
def involved (accounts : Nat) (make : Fixture.State → Option (List Message)) (t : TwoTipsets)
    (k : Nat) (n : NamedMessage) (retention : Retention) : List Block :=
  Memory.empty.writes (executeMessages accounts make) ++ messageBlocks t.messages ++
    match retention, rootAfter accounts make k,
      ((accessedAddresses Chain.node n.message t.inclusion.key).run t.chain).1 with
    | .accessedActors, some preroot, .ok accessed =>
      maskBlocks t.chain.objects preroot (retainList accessed) n.message
    | _, _, _ => []

private theorem mem_involved_of_mask {k : Nat} {n : NamedMessage} {preroot : Cid}
    {accessed : List Address} (hroot : rootAfter accounts make k = some preroot)
    (haccessed : (accessedAddresses Chain.node n.message t.inclusion.key).run t.chain =
      (.ok accessed, t.chain)) {b : Block}
    (hb : b ∈ maskBlocks t.chain.objects preroot (retainList accessed) n.message) :
    b ∈ involved accounts make t k n .accessedActors := by
  refine List.mem_append_right _ ?_
  rw [hroot, haccessed]
  exact hb

/-- What comes after the execution: the comparison passes, and the vector comes out. -/
private theorem runFrom_delivered {w : Standing Chain} {request : ExtractionRequest} {r : Resolved}
    {s : Setting} {retained : Retained} {message : Bytes}
    (hanswer : w.chain.answer (.receipt request.cid r.execution.key) = .ok (some retained.receipt))
    (hmessage : r.message.encode? = some message)
    (hcheck : checkArchive Transfer.engine s r.message retained (Gzip.pack retained.archive) =
      .ok ()) :
    ∃ e, (extractor.delivered request r s retained).runFrom w = (.ok e, w) ∧
      e.receiptCheck = .matched ∧ e.vector.preconditions.stateRoot = retained.preroot ∧
      e.vector.postconditions.stateRoot = retained.postroot := by
  obtain ⟨gen, hassemble⟩ := runFrom_assemble_ok w request hmessage hcheck
  refine ⟨⟨vector request gen s message retained (Gzip.pack retained.archive), .matched⟩, ?_, rfl,
    rfl, rfl⟩
  rw [delivered, RunM.runFrom_bind_ok (runFrom_verifyReceipt_matched hanswer),
    RunM.runFrom_bind_ok hassemble]
  rfl

variable {blocks : Blocks} {k : Nat} {n : NamedMessage} {receipt : Receipt} {preroot : Cid}
  {outcome : Outcome} {request : ExtractionRequest} {pre post : List NamedMessage}
  {earlier : List Receipt}

/-- The run gets to the execution of its message, on the root that the messages before it lead to,
and goes on with what is retained. -/
private theorem runFrom_executed (h : t.Makes accounts make state receipts root)
    (hmessages : t.messages = pre ++ n :: post) (hcids : (t.messages.map (·.cid)).Nodup)
    (hcontents : (t.messages.map (·.message)).Nodup) (hn : (n, receipt) ∈ t.messages.zip receipts)
    (hcid : request.cid = n.cid) (hall : request.precursors = .all)
    (hhint : request.block = none ∨ request.block = some t.inclusion.key.first)
    (htarget : TwoTipsets.Target accounts make t.chain.objects blocks state.root pre n.message
      earlier preroot outcome) :
    ∃ w, w.Over t.chain t.chain.objects ∧ ∀ retained w',
      (extractor.executeTarget request.retention (settingOf t) ⟨n.message, t.execution, t.inclusion⟩
        preroot).runFrom w = (.ok retained, w') →
      (extractor.executed request).runFrom (.initial t.chain) =
        (.ok (⟨n.message, t.execution, t.inclusion⟩, settingOf t, retained), w') := by
  have hover := Standing.over_initial t.chain
  obtain ⟨w, hreplay, hover'⟩ := runFrom_replayPrecursors (s := settingOf t) h.parentBaseFee
    (gives_objects htarget.closed htarget.within) htarget.holds htarget.trail hover 0
  refine ⟨w, hover', fun retained w' hretained => ?_⟩
  rw [executed, RunM.runFrom_bind_ok (runFrom_resolve h hcids hn hcid hhint hover.chain),
    RunM.runFrom_bind_ok (runFrom_selectPrecursors h hmessages hcids hcontents hcid hall
      hover.chain), h.parentState, RunM.runFrom_bind_ok hreplay, RunM.runFrom_bind_ok hretained]
  rfl

/-- What is retained has the receipt of the chain, and an archive that is enough. -/
private theorem executeTarget_retains (h : t.Makes accounts make state receipts root)
    (hmessage : IsPayment n.message)
    (htarget : TwoTipsets.Target accounts make t.chain.objects
      (fun b => b ∈ Memory.empty.writes (executeMessages accounts make)) state.root pre n.message
      earlier preroot outcome)
    (hfree : CollisionFree fun b => b ∈ involved accounts make t pre.length n request.retention)
    {w : Standing Chain} (hw : w.Over t.chain t.chain.objects) :
    ∃ retained w',
      (extractor.executeTarget request.retention (settingOf t) ⟨n.message, t.execution, t.inclusion⟩
        preroot).runFrom w = (.ok retained, w') ∧ w'.chain = t.chain ∧
      checkArchive Transfer.engine (settingOf t) n.message retained (Gzip.pack retained.archive) =
        .ok () ∧
      retained.receipt = outcome.receipt ∧
      (request.retention = .accessedCids →
        retained.preroot = preroot ∧ retained.postroot = outcome.postroot) := by
  have hgives := gives_objects htarget.closed htarget.within
  cases hretention : request.retention with
  | accessedCids =>
    obtain ⟨bs, w', hrun, hchain, hcheck⟩ := runFrom_executeTarget_cids (s := settingOf t)
      (r := ⟨n.message, t.execution, t.inclusion⟩) h.parentBaseFee
      (hfree.mono fun b hb => List.mem_append_left _ (List.mem_append_left _ hb)) hgives
      htarget.holds htarget.applies hw
    exact ⟨_, w', hrun, hchain, hcheck, rfl, fun _ => ⟨rfl, rfl⟩⟩
  | accessedActors =>
    obtain ⟨accessed, haccessed, htouching⟩ := run_accessedAddresses h hmessage
    obtain ⟨base, L, hL⟩ := htarget.stores
    have hfree' : CollisionFree (Blocks.also
        (fun b => b ∈ Memory.empty.writes (executeMessages accounts make))
        (maskBlocks t.chain.objects preroot (retainList accessed) n.message)) := by
      refine hfree.mono fun b hb => ?_
      rw [hretention]
      exact hb.elim (fun hb => List.mem_append_left _ (List.mem_append_left _ hb))
        fun hb => mem_involved_of_mask htarget.before haccessed hb
    obtain ⟨masked, objects', rs, ws, part, hmasked⟩ := htarget.applies.masked htarget.closed
      htarget.root htarget.within htarget.holds hL htouching (registry_mem_retainList _)
      hfree'
    obtain ⟨bs, w', hrun, hchain, hcheck⟩ := runFrom_executeTarget_actors (s := settingOf t)
      (r := ⟨n.message, t.execution, t.inclusion⟩) h.parentBaseFee hgives haccessed hmasked hfree'
      hw
    exact ⟨_, w', hrun, hchain, hcheck, hmasked.receipt, fun h => by cases h⟩

/-- Every message of a chain of payments can be extracted, whichever way the state is cut out and
with or without the block that includes it. The receipt matches the one on the chain; and if the
blocks that are read are kept, the roots are those of the chain before and after the message. -/
theorem extract_complete (ht : TwoTipsets.ofMessages accounts make = .ok t)
    (hpayments : ∀ n ∈ t.messages, IsPayment n.message)
    (hcontents : (t.messages.map (·.message)).Nodup) (hk : t.messages[k]? = some n)
    (hcid : request.cid = n.cid) (hall : request.precursors = .all)
    (hhint : request.block = none ∨ request.block = some t.inclusion.key.first)
    (hfree : CollisionFree fun b => b ∈ involved accounts make t k n request.retention) :
    ∃ e, (extractor.extract request t.chain).1 = .ok e ∧ e.receiptCheck = .matched ∧
      (request.retention = .accessedCids →
        rootAfter accounts make k = some e.vector.preconditions.stateRoot ∧
        rootAfter accounts make (k + 1) = some e.vector.postconditions.stateRoot) := by
  obtain ⟨state, receipts, root, h⟩ := TwoTipsets.makes_of_ok ht
  obtain ⟨hlt, hget⟩ := List.getElem?_eq_some_iff.mp hk
  -- the messages before, the message, and those after it
  obtain ⟨pre, post, hlength, hmessages⟩ : ∃ pre post, pre.length = k ∧
      t.messages = pre ++ n :: post := by
    refine ⟨t.messages.take k, t.messages.drop (k + 1), by simp [Nat.le_of_lt hlt], ?_⟩
    rw [← hget, List.getElem_cons_drop, List.take_append_drop]
  subst hlength
  have hexec := h.exec
  rw [hmessages] at hexec
  obtain ⟨earlier, later, preroot, outcome, rfl, htarget⟩ := TwoTipsets.target_of_exec hexec
    (hfree.mono fun b hb => List.mem_append_left _ (List.mem_append_left _ hb))
  -- its identifier is that of no other, and its receipt is the one that was computed
  obtain ⟨m, hexecutes, -⟩ := executes_of_exec h.exec
  have hcids := nodup_cids hexecutes.isNamed
    (hfree.mono fun b hb => List.mem_append_left _ (List.mem_append_right _ hb)) hcontents
  have hn : (n, outcome.receipt) ∈
      t.messages.zip (earlier ++ outcome.receipt :: later) := by
    rw [hmessages, List.zip_append (by simpa using htarget.trail.length_eq.symm)]
    exact List.mem_append_right _ (List.mem_cons_self ..)
  obtain ⟨-, -, hanswer⟩ := h.message hcids hn
  obtain ⟨message, hencode⟩ : ∃ message, n.message.encode? = some message := by
    have hnamed := hexecutes.isNamed n (by simp [hmessages])
    obtain ⟨message, hmessage, -⟩ := Option.map_eq_some_iff.mp hnamed
    exact ⟨message, hmessage⟩
  -- the run
  obtain ⟨w, hover, hexecuted⟩ :=
    runFrom_executed h hmessages hcids hcontents hn hcid hall hhint htarget
  obtain ⟨retained, w', hretained, hchain, hcheck, hreceipt, hroots⟩ :=
    executeTarget_retains h (hpayments n (List.mem_of_getElem? hk)) htarget hfree hover
  have hanswer' : w'.chain.answer (.receipt request.cid t.execution.key) =
      .ok (some retained.receipt) := by
    rw [hchain, hcid, hreceipt]
    exact hanswer
  obtain ⟨e, hdelivered, hmatched, hpreroot, hpostroot⟩ := runFrom_delivered
    (r := ⟨n.message, t.execution, t.inclusion⟩) hanswer' hencode hcheck
  refine ⟨e, ?_, hmatched, fun hretention => ?_⟩
  · rw [extract, RunM.start_eq, stages_eq, RunM.runFrom_bind_ok (hexecuted _ _ hretained)]
    exact congrArg Prod.fst hdelivered
  · obtain ⟨hpre, hpost⟩ := hroots hretention
    rw [hpreroot, hpostroot, hpre, hpost]
    exact ⟨htarget.before, htarget.after⟩

/-- A payment, and another one by way of an account. -/
def smallPayments : List Payment := [.direct 0 0 0 5, .forwarded 0 0 0 1 5]

/-- Messages of the payments. -/
private def makeSmall (s : Fixture.State) : Option (List Message) :=
  smallPayments.mapM (·.message? s.accounts)

/-- The request for a message, with the block that includes it and the actors that it touches. -/
def smallRequest (t : TwoTipsets) (n : NamedMessage) : ExtractionRequest :=
  { ExtractionRequest.ofCid n.cid with
    block := some t.inclusion.key.first
    retention := .accessedActors
    precursors := .all }

set_option maxRecDepth 20000 in
private theorem small_distinct :
    (match TwoTipsets.ofMessages 1 makeSmall with
      | .ok t => match t.messages[1]? with
        | some n => decide (t.messages.map (·.message)).Nodup &&
          Block.areDistinct (involved 1 makeSmall t 1 n .accessedActors)
        | none => false
      | .error _ => false) = true := by
  decide +kernel

/-- The second payment is extracted from the actors that it touches. -/
theorem extract_complete_forwarded :
    ∃ t n e, TwoTipsets.ofPayments 1 smallPayments = .ok t ∧ t.messages[1]? = some n ∧
      (extractor.extract (smallRequest t n) t.chain).1 = .ok e ∧ e.receiptCheck = .matched := by
  have hdistinct := small_distinct
  split at hdistinct
  · next t ht =>
    split at hdistinct
    · next n hn =>
      rw [Bool.and_eq_true] at hdistinct
      obtain ⟨state, receipts, root, h⟩ := TwoTipsets.makes_of_ok ht
      have hcid : (smallRequest t n).cid = n.cid := rfl
      obtain ⟨e, hextract, hmatched, -⟩ := extract_complete ht (h.isPayment rfl)
        (of_decide_eq_true hdistinct.1) hn hcid rfl (Or.inr rfl) (.of_areDistinct hdistinct.2)
      exact ⟨t, n, e, ht, hn, hextract, hmatched⟩
    · cases hdistinct
  · cases hdistinct

end Extractor

end ReplayVector
