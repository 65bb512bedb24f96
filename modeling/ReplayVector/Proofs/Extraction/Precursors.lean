import ReplayVector.Fixture.Transfers
import ReplayVector.Proofs.Execution.Insists
import ReplayVector.Proofs.Execution.Sequences
import ReplayVector.Proofs.Extraction.Runs
import ReplayVector.Proofs.Extraction.Selection
import ReplayVector.Proofs.Fixture.Contents

/-!
# Replays of all messages, and of the sender's alone

A run may apply all messages before its target, or only those of the same sender. The messages that
are left out change balances, and no sequence number of the sender. So after either replay the
sender's actor has the same sequence number, and all that can differ in the receipt of the target is
whether its value is there to be sent.

* `Extractor.Sees.of_replayPrecursors_ok`: a replay does what its messages do on all blocks there are.
* `Setting.parallel_of_replays`: two replays of a list, message by message.
* `Extractor.replayPrecursors_agree`: what holds after both.
-/

namespace ReplayVector

open BlockM

-- ---------------------------------------------------------------------------
-- Addresses in a state
-- ---------------------------------------------------------------------------

namespace StateTree

variable {neat : Prop} {view : View} {base : Base} {L : Ledger} {root : Cid}

/-- The actor that an address stands for in the state under a root. -/
def holderAt (root : Cid) (a : Address) : BlockM (Option Actor) := do
  match ← idAt root a with
  | none => return none
  | some id => actorAt root id

theorem Stores.gives_holderAt (h : Stores neat view base L root) (a : Address) :
    (holderAt root a).Gives view ((L.resolve a).bind L.actors) := by
  refine (h.gives_idAt a).bind ?_
  cases L.resolve a with
  | none => exact gives_pure view _
  | some id => exact h.actors.gives_actorAt id

end StateTree

-- ---------------------------------------------------------------------------
-- Replays
-- ---------------------------------------------------------------------------

namespace Setting

/-- Applies messages one after the other, and gives the root after them. -/
def replay (s : Setting) (engine : Engine) : List NamedMessage → Cid → BlockM Cid
  | [], root => return root
  | n :: ns, root => do
    let outcome ← engine (s.execution root n.message .writeThrough)
    s.replay engine ns outcome.postroot

variable {s : Setting} {view : View} {L : Ledger}

/-- The first message of a replay, and the others. -/
theorem on_replay_cons {engine : Engine} {n : NamedMessage} {ns : List NamedMessage} {root : Cid}
    {outcome : Outcome}
    (h : ((engine (s.execution root n.message .writeThrough)).on view).1 = .ok outcome) :
    (s.replay engine (n :: ns) root).on view =
      (((s.replay engine ns outcome.postroot).on view).1,
        ((engine (s.execution root n.message .writeThrough)).on view).2 ++
          ((s.replay engine ns outcome.postroot).on view).2) := by
  rw [replay, on_bind]
  rcases hfirst : (engine (s.execution root n.message .writeThrough)).on view with ⟨r, ws⟩
  rw [hfirst] at h
  obtain rfl : r = .ok outcome := h
  rfl

/-- A state, and messages that are replayed on it with the end of the replay. All blocks that are
written are in view. -/
structure Replays (s : Setting) (view : View) (L : Ledger) (ns : List NamedMessage)
    (root last : Cid) : Prop where
  stores : ∃ base, StateTree.Stores False view base L root
  ends : ((s.replay Transfer.engine ns root).on view).1 = .ok last
  written : ∀ b ∈ ((s.replay Transfer.engine ns root).on view).2, view.blocks b

/-- The first message of a replay is settled, and the others are replayed on what comes of it. -/
theorem Replays.of_cons {n : NamedMessage} {ns : List NamedMessage} {root last : Cid}
    (h : s.Replays view L (n :: ns) root last) :
    ∃ settlement next,
      L.settle (s.execution root n.message .writeThrough) = some settlement ∧
      s.Replays view (settlement.after L) ns next last := by
  obtain ⟨base, hL⟩ := h.stores
  obtain ⟨outcome, ws, -, happly, -, -⟩ := of_on_bind_ok (Prod.ext h.ends rfl)
  have hfirst : ((Transfer.engine (s.execution root n.message .writeThrough)).on view).1 =
      .ok outcome := congrArg Prod.fst happly
  have hends := h.ends
  have hwritten := h.written
  rw [on_replay_cons hfirst] at hends hwritten
  obtain ⟨settlement, base', hsettle, -, hstores⟩ :=
    Transfer.of_apply_ok (e := s.execution root n.message .writeThrough) hL (Prod.ext hfirst rfl)
      (fun _ _ hc => hc) fun b hb => hwritten b (List.mem_append_left _ hb)
  exact ⟨settlement, outcome.postroot, hsettle, ⟨base', hstores⟩, hends,
    fun b hb => hwritten b (List.mem_append_right _ hb)⟩

/-- Replays of all messages and of the sender's alone keep the ledgers in agreement on the sender. -/
theorem parallel_of_replays {M : Ledger} {c : Cid} {target : Message} {listed : List NamedMessage}
    {root₁ root₂ last₁ last₂ : Cid} (hparallel : L.Parallel target.sender M)
    (hown : ∀ n ∈ listed, ∀ id, L.resolve n.message.sender = some id →
      L.resolve target.sender = some id → n.message.sender = target.sender)
    (hall : s.Replays view L (Selection.select .all c target listed).precursors root₁ last₁)
    (hsender : s.Replays view M (Selection.select .sender c target listed).precursors root₂ last₂) :
    ∃ base₁ base₂ L' M', StateTree.Stores False view base₁ L' last₁ ∧
      StateTree.Stores False view base₂ M' last₂ ∧ L'.Parallel target.sender M' := by
  -- with no message left, both ends are reached
  have hdone {root₁ root₂ : Cid} {L M : Ledger} (hparallel : L.Parallel target.sender M)
      (h₁ : s.Replays view L [] root₁ last₁) (h₂ : s.Replays view M [] root₂ last₂) :
      ∃ base₁ base₂ L' M', StateTree.Stores False view base₁ L' last₁ ∧
        StateTree.Stores False view base₂ M' last₂ ∧ L'.Parallel target.sender M' := by
    obtain ⟨base₁, hL⟩ := h₁.stores
    obtain ⟨base₂, hM⟩ := h₂.stores
    obtain rfl : root₁ = last₁ := Except.ok.inj h₁.ends
    obtain rfl : root₂ = last₂ := Except.ok.inj h₂.ends
    exact ⟨base₁, base₂, L, M, hL, hM, hparallel⟩
  induction listed generalizing L M root₁ root₂ with
  | nil => exact hdone hparallel hall hsender
  | cons n listed ih =>
    by_cases hwanted : Selection.Wanted c target n
    · rw [Selection.select_cons_of_wanted hwanted] at hall hsender
      exact hdone hparallel hall hsender
    · rw [Selection.precursors_select_cons hwanted] at hall hsender
      have hincluded : PrecursorChoice.all.includes target n = true := rfl
      rw [if_pos hincluded] at hall
      obtain ⟨settlement, next, hsettle, hall⟩ := hall.of_cons
      have hown' : ∀ n ∈ listed, ∀ id, (settlement.after L).resolve n.message.sender = some id →
          (settlement.after L).resolve target.sender = some id →
          n.message.sender = target.sender := by
        intro n' hn' id
        rw [Ledger.resolve_congr (Ledger.ids_settle hsettle),
          Ledger.resolve_congr (Ledger.ids_settle hsettle)]
        exact hown n' (List.mem_cons_of_mem _ hn') id
      split at hsender
      · next hincluded =>
        -- a message of the sender is replayed in both
        have hsame : n.message.sender = target.sender := by
          simpa [PrecursorChoice.includes] using hincluded
        obtain ⟨settlement', next', hsettle', hsender⟩ := hsender.of_cons
        rw [← hsame] at hparallel
        have hafter := hparallel.settle_both rfl rfl hsettle hsettle'
        rw [hsame] at hafter
        exact ih hafter hown' hall hsender
      · next hexcluded =>
        -- a message of another actor is left out of the second one
        refine ih (hparallel.settle_left (fun id hid hid' => hexcluded ?_) hsettle) hown' hall hsender
        have hsame := hown n (List.mem_cons_self ..) id hid hid'
        simpa [PrecursorChoice.includes] using hsame

end Setting

-- ---------------------------------------------------------------------------
-- Runs
-- ---------------------------------------------------------------------------

namespace Extractor

variable {σ : Type} {x : Extractor (StateM σ)} {view : View} {w w' : Standing σ}

/-- All blocks that a run may come by from where it stands are in view: those inline in their
identifiers, those held, and those that the chain supplies. -/
structure Sees (x : Extractor (StateM σ)) (w : Standing σ) (view : View) : Prop where
  inline : ∀ c, c.isIdentity = true → view c = some c.hash.digest.val
  held : w.memory.Within view.blocks
  supplied : ∀ b, Supplies x.node.readBlock b → view.blocks b

theorem Sees.move (h : x.Sees w view) (hheld : w'.memory.Within view.blocks) : x.Sees w' view :=
  ⟨h.inline, hheld, h.supplied⟩

/-- A computation that ends well over the store of a run does what it does on the view. -/
theorem Sees.of_perform_ok {α : Type} (h : x.Sees w view) {p : BlockM α} (hinsists : p.Insists Failed)
    (horderly : p.Orderly) {a : α} (hrun : w.perform (p.run x.workspace.store) = (.ok a, w')) :
    (p.on view).1 = .ok a ∧ ((∀ b ∈ (p.on view).2, view.blocks b) → x.Sees w' view) := by
  have hpieces : p.run (ReadThrough.store x.node.readBlock).traced w.record w.memory w.chain =
      (((.ok a, w'.record), w'.memory), w'.chain) := by
    obtain ⟨hresult, hstanding⟩ := Prod.mk.inj hrun
    rw [← hresult, ← hstanding]
    rfl
  obtain ⟨hon, hwithin⟩ :=
    hinsists.of_run_ok (offers_readThrough h.inline h.supplied) horderly h.held hpieces
  exact ⟨hon, fun hws => h.move (hwithin hws)⟩

/-- A step over the store of a run that ends well. -/
private theorem perform_of_inStage_ok {α : Type} {stage : Stage} {kind : List Cause → Fault}
    {p : BlockM α} {a : α}
    (h : (RunM.inStage stage (x.workspace.run kind p)).runFrom w = (.ok a, w')) :
    w.perform (p.run x.workspace.store) = (.ok a, w') := by
  have hstep : (RunM.inStage stage (x.workspace.run kind p)).runFrom w =
      (((w.perform (p.run x.workspace.store)).1.mapError (Fault.of kind)).mapError
        fun fault => { stage, fault }, (w.perform (p.run x.workspace.store)).2) := rfl
  rw [hstep] at h
  rcases hrun : w.perform (p.run x.workspace.store) with ⟨r, w₁⟩
  rw [hrun] at h
  cases r with
  | error f => cases h
  | ok a' =>
    cases h
    rfl

/-- A replay that ends well does what its messages do on the view. -/
theorem Sees.of_replayPrecursors_ok (hinsists : ∀ e, (x.engine e).Insists Failed)
    (horderly : ∀ e, (x.engine e).Orderly) {s : Setting} {i : Nat} {ns : List NamedMessage}
    {root last : Cid} (h : x.Sees w view)
    (hrun : (x.replayPrecursors s i ns root).runFrom w = (.ok last, w'))
    (hws : ∀ b ∈ ((s.replay x.engine ns root).on view).2, view.blocks b) :
    ((s.replay x.engine ns root).on view).1 = .ok last ∧ x.Sees w' view := by
  induction ns generalizing i root w with
  | nil =>
    cases hrun
    exact ⟨rfl, h⟩
  | cons n ns ih =>
    obtain ⟨⟨⟩, w₁, hcheckpoint, hrun⟩ := RunM.of_runFrom_bind_ok hrun
    obtain ⟨outcome, w₂, hstep, hrun⟩ := RunM.of_runFrom_bind_ok hrun
    have h₁ : x.Sees w₁ view := by
      rw [runFrom_checkpoint] at hcheckpoint
      obtain ⟨-, rfl⟩ := Prod.mk.inj hcheckpoint
      exact h.move h.held
    have hperform := perform_of_inStage_ok hstep
    obtain ⟨hfirst, h₂⟩ := h₁.of_perform_ok ((hinsists _).context _)
      ((horderly _).andThen fun _ => trivial) hperform
    rw [on_context] at hfirst h₂
    have hfirst : ((x.engine (s.execution root n.message .writeThrough)).on view).1 =
        .ok outcome := by
      cases hon : ((x.engine (s.execution root n.message .writeThrough)).on view).1 with
      | error f =>
        rw [hon] at hfirst
        cases hfirst
      | ok a =>
        rw [hon] at hfirst
        exact hfirst
    rw [Setting.on_replay_cons hfirst] at hws ⊢
    exact ih (h₂ fun b hb => hws b (List.mem_append_left _ hb)) hrun
      fun b hb => hws b (List.mem_append_right _ hb)

-- ---------------------------------------------------------------------------
-- Both replays
-- ---------------------------------------------------------------------------

/-- A message that is executed over the store of a run, on a state, is settled with the receipt that
it has. -/
private theorem Sees.settle_of_perform_ok (hengine : x.engine = Transfer.engine)
    (h : x.Sees w view) {base : StateTree.Base} {L : Ledger} {e : Execution}
    (hL : StateTree.Stores False view base L e.preroot) {outcome : Outcome}
    (hrun : w.perform ((x.engine e).run x.workspace.store) = (.ok outcome, w')) :
    ∃ settlement, L.settle e = some settlement ∧ outcome.receipt = settlement.receipt := by
  rw [hengine] at hrun
  obtain ⟨hon, -⟩ := h.of_perform_ok (Transfer.insists_engine e) (Transfer.orderly_engine e) hrun
  rw [Transfer.on_engine] at hon
  exact Transfer.settle_of_apply_ok hL hon

/-- Suppose all messages before the target are replayed on a readable state, and those of its sender
alone, where no message has the actor of the sender under another address. If both replays end well,
that actor has the same sequence number in both states. If the target can be executed on both, it
costs the same gas and returns the same, and it ends with the same exit code, unless funds are
lacking on just one of them. -/
theorem replayPrecursors_agree (hengine : x.engine = Transfer.engine) {s : Setting} {c : Cid}
    {target : Message} {listed : List NamedMessage} {root root₁ root₂ : Cid}
    {w₁ w₁' w₂ w₂' : Standing σ}
    (hreadable : StateTree.Readable view root) (h₁ : x.Sees w₁ view) (h₂ : x.Sees w₂ view)
    (hown : ∀ n ∈ listed, ∀ id, (StateTree.idAt root n.message.sender).Gives view (some id) →
      (StateTree.idAt root target.sender).Gives view (some id) → n.message.sender = target.sender)
    (hws : ∀ choice, ∀ b ∈ ((s.replay x.engine (Selection.select choice c target listed).precursors
      root).on view).2, view.blocks b)
    (hall : (x.replayPrecursors s 0 (Selection.select .all c target listed).precursors
      root).runFrom w₁ = (.ok root₁, w₁'))
    (hsender : (x.replayPrecursors s 0 (Selection.select .sender c target listed).precursors
      root).runFrom w₂ = (.ok root₂, w₂')) :
    (∃ a₁ a₂, (StateTree.holderAt root₁ target.sender).Gives view a₁ ∧
      (StateTree.holderAt root₂ target.sender).Gives view a₂ ∧
      a₂.map (·.sequence) = a₁.map (·.sequence)) ∧
    ∀ (mode : WriteMode) (v₁ v₁' v₂ v₂' : Standing σ) (outcome₁ outcome₂ : Outcome),
      v₁.memory = w₁'.memory → v₂.memory = w₂'.memory →
      v₁.perform ((x.engine (s.execution root₁ target mode)).run x.workspace.store) =
        (.ok outcome₁, v₁') →
      v₂.perform ((x.engine (s.execution root₂ target mode)).run x.workspace.store) =
        (.ok outcome₂, v₂') →
      outcome₂.receipt.gasUsed = outcome₁.receipt.gasUsed ∧
        outcome₂.receipt.returnData = outcome₁.receipt.returnData ∧
        (outcome₁.receipt.exitCode = outcome₂.receipt.exitCode ∨
          Xor (outcome₁.receipt.exitCode = .insufficientFunds)
            (outcome₂.receipt.exitCode = .insufficientFunds)) := by
  obtain ⟨base, L, hL⟩ := hreadable.stores
  have hinsists (e : Execution) : (x.engine e).Insists Failed :=
    hengine ▸ Transfer.insists_engine e
  have horderly (e : Execution) : (x.engine e).Orderly := hengine ▸ Transfer.orderly_engine e
  obtain ⟨hends₁, h₁'⟩ := h₁.of_replayPrecursors_ok hinsists horderly hall (hws .all)
  obtain ⟨hends₂, h₂'⟩ := h₂.of_replayPrecursors_ok hinsists horderly hsender (hws .sender)
  rw [hengine] at hws hends₁ hends₂
  -- both replays begin with the same ledger
  obtain ⟨base₁, base₂, L', M', hL', hM', hparallel⟩ := Setting.parallel_of_replays (.refl _ L)
    (fun n hn id hid hid' => hown n hn id (hid ▸ hL.gives_idAt _) (hid' ▸ hL.gives_idAt _))
    ⟨⟨base, hL⟩, hends₁, hws .all⟩ ⟨⟨base, hL⟩, hends₂, hws .sender⟩
  refine ⟨⟨_, _, hL'.gives_holderAt _, hM'.gives_holderAt _, ?_⟩, ?_⟩
  · rw [Ledger.resolve_congr hparallel.ids]
    cases hid : L'.resolve target.sender with
    | none => rfl
    | some id => exact hparallel.sequence id hid
  · intro mode v₁ v₁' v₂ v₂' outcome₁ outcome₂ hv₁ hv₂ hrun₁ hrun₂
    obtain ⟨settlement₁, hsettle₁, hreceipt₁⟩ :=
      (h₁'.move (hv₁ ▸ h₁'.held)).settle_of_perform_ok hengine
        (e := s.execution root₁ target mode) hL' hrun₁
    obtain ⟨settlement₂, hsettle₂, hreceipt₂⟩ :=
      (h₂'.move (hv₂ ▸ h₂'.held)).settle_of_perform_ok hengine
        (e := s.execution root₂ target mode) hM' hrun₂
    obtain ⟨hgas, hcode⟩ := hparallel.receipts rfl rfl hsettle₁ hsettle₂
    rw [hreceipt₁, hreceipt₂]
    refine ⟨hgas, ?_, hcode⟩
    cases settlement₁ <;> cases settlement₂ <;> rfl

-- ---------------------------------------------------------------------------
-- A small state
-- ---------------------------------------------------------------------------

/-- A run on a chain that answers nothing. -/
def offline : Extractor (StateM Unit) where
  node := { ask := fun _ => pure (.error .crash) }
  engine := Transfer.engine
  cancelled := pure false

/-- The setting of the small state. -/
def smallSetting : Setting where
  epoch := 11
  circSupply := .ofWhole 1000000
  baseFee := 100
  networkVersion := 21
  timestamp := 0

/-- The only account of the small state. -/
def smallAccount : Fixture.Account := ⟨.firstFree, .ofPublicKey (List.replicate 65 1)⟩

/-- The actor that hands out rewards. -/
def smallReward : Fixture.Account := ⟨.reward, .id .reward⟩

/-- A message of the small state, with a number for its name. -/
def smallMessage (number : UInt8) (sender receiver : Fixture.Account) (sequence : UInt64)
    (tokens : Nat) : NamedMessage where
  cid := .inline [number]
  message := { Fixture.Payment.send sender receiver sequence 0 with value := .ofWhole tokens }

/-- The account pays twelve tokens, which is more than it has at first. -/
def smallTarget : NamedMessage := smallMessage 2 smallAccount smallReward 1 12

/-- Before that, it pays one token and is paid five. -/
def smallList : List NamedMessage :=
  [smallMessage 0 smallAccount smallReward 0 1, smallMessage 1 smallReward smallAccount 0 5,
    smallTarget]

/-- The messages that are replayed before the target. -/
def smallPrecursors (choice : PrecursorChoice) : List NamedMessage :=
  (Selection.select choice smallTarget.cid smallTarget.message smallList).precursors

/-- The blocks of both replays. -/
def smallView (held : Memory) (root : Cid) : View := fun c =>
  if c.isIdentity then some c.hash.digest.val
  else
    let replayed := (held.exec (smallSetting.replay Transfer.engine (smallPrecursors .all) root)).2
    (replayed.exec (smallSetting.replay Transfer.engine (smallPrecursors .sender) root)).2.get? c

/-- The block is in view. -/
def inView (view : View) (b : Block) : Bool := view b.cid == some b.data

/-- Both replays of the small state, and then the target: with the payment in between it goes
through, without it the account lacks funds. -/
private def smallRuns (held : Memory) (root : Cid) : Bool :=
  let view := smallView held root
  let sender := (StateTree.idAt root smallTarget.message.sender).on view
  held.blocks.all (inView view) &&
    ([.all, .sender] : List PrecursorChoice).all (fun choice =>
      ((smallSetting.replay Transfer.engine (smallPrecursors choice) root).on view).2.all
        (inView view)) &&
    smallList.all (fun n => n.message.sender == smallTarget.message.sender ||
      ((StateTree.idAt root n.message.sender).on view).1.toOption != sender.1.toOption) &&
    match (offline.replayPrecursors smallSetting 0 (smallPrecursors .all) root).runFrom
        ⟨.off, held, ()⟩,
      (offline.replayPrecursors smallSetting 0 (smallPrecursors .sender) root).runFrom
        ⟨.off, held, ()⟩ with
    | (.ok root₁, w₁), (.ok root₂, w₂) =>
      let target (root : Cid) := (offline.engine (smallSetting.execution root smallTarget.message
        .writeThrough)).run offline.workspace.store
      match w₁.perform (target root₁), w₂.perform (target root₂) with
      | (.ok outcome₁, _), (.ok outcome₂, _) =>
        outcome₁.receipt.exitCode == .ok && outcome₂.receipt.exitCode == .insufficientFunds
      | _, _ => false
    | _, _ => false

set_option maxRecDepth 20000 in
private theorem smallRuns_newState :
    (match Memory.empty.exec (Fixture.newState 1) with
      | (.ok s, held) =>
        Block.areDistinct (Memory.empty.writes (Fixture.newState 1)) && smallRuns held s.root
      | _ => false) = true := by
  decide +kernel

/-- The small state and its replays are in view, and each run of it ends well. -/
private theorem of_smallRuns {held : Memory} {root : Cid} (h : smallRuns held root = true) :
    offline.Sees ⟨.off, held, ()⟩ (smallView held root) ∧
    (∀ choice, ∀ b ∈ ((smallSetting.replay offline.engine (smallPrecursors choice) root).on
      (smallView held root)).2, (smallView held root).blocks b) ∧
    (∀ n ∈ smallList, ∀ id,
      (StateTree.idAt root n.message.sender).Gives (smallView held root) (some id) →
      (StateTree.idAt root smallTarget.message.sender).Gives (smallView held root) (some id) →
      n.message.sender = smallTarget.message.sender) ∧
    ∃ root₁ root₂ w₁ w₂,
      (offline.replayPrecursors smallSetting 0 (smallPrecursors .all) root).runFrom
        ⟨.off, held, ()⟩ = (.ok root₁, w₁) ∧
      (offline.replayPrecursors smallSetting 0 (smallPrecursors .sender) root).runFrom
        ⟨.off, held, ()⟩ = (.ok root₂, w₂) ∧
      ∃ outcome₁ outcome₂ w₁' w₂',
        w₁.perform ((offline.engine (smallSetting.execution root₁ smallTarget.message
          .writeThrough)).run offline.workspace.store) = (.ok outcome₁, w₁') ∧
        w₂.perform ((offline.engine (smallSetting.execution root₂ smallTarget.message
          .writeThrough)).run offline.workspace.store) = (.ok outcome₂, w₂') ∧
        outcome₁.receipt.exitCode = .ok ∧ outcome₂.receipt.exitCode = .insufficientFunds := by
  have hview {b : Block} (hb : inView (smallView held root) b = true) :
      (smallView held root).blocks b := beq_iff_eq.mp hb
  rw [smallRuns] at h
  simp only [Bool.and_eq_true, List.all_eq_true] at h
  obtain ⟨⟨⟨hheld, hwritten⟩, hown⟩, hruns⟩ := h
  refine ⟨⟨fun c hc => if_pos hc, fun b hb => hview (hheld b hb), ?_⟩, ?_, ?_, ?_⟩
  · rintro b ⟨-, _, _, hb⟩
    cases hb
  · intro choice b hb
    exact hview (hwritten choice (by cases choice <;> decide) b hb)
  · intro n hn id hid hid'
    have hid : (StateTree.idAt root n.message.sender).on (smallView held root) =
      (.ok (some id), []) := hid
    have hid' : (StateTree.idAt root smallTarget.message.sender).on (smallView held root) =
      (.ok (some id), []) := hid'
    have hsame := hown n hn
    rw [hid, hid'] at hsame
    simpa using hsame
  · split at hruns
    · next root₁ w₁ root₂ w₂ hall hsender =>
      split at hruns
      · next outcome₁ w₁' outcome₂ w₂' hrun₁ hrun₂ =>
        rw [Bool.and_eq_true, beq_iff_eq, beq_iff_eq] at hruns
        exact ⟨root₁, root₂, w₁, w₂, hall, hsender, outcome₁, outcome₂, w₁', w₂', hrun₁, hrun₂,
          hruns⟩
      · cases hruns
    · cases hruns

/-- Both replays of the small state end well. The account has the same sequence number after both of
them, and the target goes through after the first one and lacks funds after the second one alone. -/
theorem replayPrecursors_agree_small :
    ∃ s held, Memory.empty.exec (Fixture.newState 1) = (.ok s, held) ∧
      ∃ root₁ root₂ w₁ w₂,
        (offline.replayPrecursors smallSetting 0 (smallPrecursors .all) s.root).runFrom
          ⟨.off, held, ()⟩ = (.ok root₁, w₁) ∧
        (offline.replayPrecursors smallSetting 0 (smallPrecursors .sender) s.root).runFrom
          ⟨.off, held, ()⟩ = (.ok root₂, w₂) ∧
        (∃ a₁ a₂,
          (StateTree.holderAt root₁ smallTarget.message.sender).Gives (smallView held s.root) a₁ ∧
          (StateTree.holderAt root₂ smallTarget.message.sender).Gives (smallView held s.root) a₂ ∧
          a₂.map (·.sequence) = a₁.map (·.sequence)) ∧
        ∃ outcome₁ outcome₂ w₁' w₂',
          w₁.perform ((offline.engine (smallSetting.execution root₁ smallTarget.message
            .writeThrough)).run offline.workspace.store) = (.ok outcome₁, w₁') ∧
          w₂.perform ((offline.engine (smallSetting.execution root₂ smallTarget.message
            .writeThrough)).run offline.workspace.store) = (.ok outcome₂, w₂') ∧
          outcome₁.receipt.exitCode = .ok ∧ outcome₂.receipt.exitCode = .insufficientFunds ∧
          outcome₂.receipt.gasUsed = outcome₁.receipt.gasUsed := by
  have hruns := smallRuns_newState
  split at hruns
  · next s held hstate =>
    rw [Bool.and_eq_true] at hruns
    obtain ⟨hdistinct, hruns⟩ := hruns
    obtain ⟨base, L, hstores⟩ := Fixture.stores_newState (.of_areDistinct hdistinct)
      (Memory.within_empty _) hstate fun b hb => hb
    obtain ⟨hsees, hws, hown, root₁, root₂, w₁, w₂, hall, hsender, outcome₁, outcome₂, w₁', w₂',
      hrun₁, hrun₂, hcode₁, hcode₂⟩ := of_smallRuns hruns
    have hreadable : StateTree.Readable (smallView held s.root) s.root := by
      have hsub : Hamt.Within held.get? (smallView held s.root) :=
        fun c data hc => hsees.held _ (Memory.get?_eq_some hc)
      exact StateTree.Stores.readable ⟨hstores.actors.mono hsub, hstores.registered.mono hsub⟩
    obtain ⟨hholders, hreceipts⟩ :=
      replayPrecursors_agree rfl hreadable hsees hsees hown hws hall hsender
    have hgas := (hreceipts .writeThrough w₁ w₁' w₂ w₂' outcome₁ outcome₂ rfl rfl hrun₁ hrun₂).1
    exact ⟨s, held, hstate, root₁, root₂, w₁, w₂, hall, hsender, hholders, outcome₁, outcome₂, w₁',
      w₂', hrun₁, hrun₂, hcode₁, hcode₂, hgas⟩
  · cases hruns

end Extractor

end ReplayVector
