import ReplayVector.Fixture.Transfers
import ReplayVector.Proofs.Execution.Masking
import ReplayVector.Proofs.Extraction.Verification
import ReplayVector.Proofs.Fixture.Contents

/-!
# Executions on masked states

A state and the one that masking cuts out of it are held together, and a message is applied to each.
If the message touches nothing that was left out, both executions come to the same. If something is
missing that makes a difference, the receipt tells: with the same receipt, the actors that are left
have fared as in the full state.

* `Transfer.FaresAlike`: the actors of a masked state after a message.
* `Transfer.engine_masked_agrees`: masks that leave out nothing the message touches.
* `Transfer.engine_masked_sound`: any masks, and the comparison of receipts.
-/

namespace ReplayVector.Transfer

variable {neat neat' : Prop} {L M : Ledger} {retain : List Address} {blocks : Blocks}
  {e : Execution} {root : Cid}

/-- The blocks involved when a message is applied to a state and to a masked one: those that are
held, those of the masked state, and those of the states after the message. -/
def maskInvolved (m : Memory) (retain : List Address) (e : Execution) (masked : Cid) :
    List Block :=
  let m' := (m.exec (StateTree.mask e.preroot retain)).2
  m.blocks ++ m.writes (StateTree.mask e.preroot retain) ++ m'.writes (apply e) ++
    m'.writes (apply { e with preroot := masked })

/-- The actors of a masked state have fared as they did in the full one. After the message the
masked state holds an actor under an ID if it did so before, and that actor is the one that the full
state holds then. -/
def FaresAlike (m : Memory) (e : Execution) (masked : Cid) (full part : Outcome) : Prop :=
  ∀ id, ∃ before after after',
    (StateTree.actorAt masked id).Gives m.get? before ∧
    (StateTree.actorAt full.postroot id).Gives (m.exec (apply e)).2.get? after ∧
    (StateTree.actorAt part.postroot id).Gives
      (m.exec (apply { e with preroot := masked })).2.get? after' ∧
    after'.isSome = before.isSome ∧ ∀ b, after' = some b → ∃ a, after = some a ∧ b.Copies id a

/-- A state and a masked one, both held in memory. -/
structure Masked (m : Memory) (blocks : Blocks) (retain : List Address) (root masked : Cid)
    (base base' : StateTree.Base) (L M : Ledger) : Prop where
  within : m.Within blocks
  full : StateTree.Stores False m.get? base L root
  masks : L.Masks retain M
  part : StateTree.Stores True m.get? base' M masked

/-- After a state was masked, it is held together with the masked one. -/
theorem exists_masked {m m' : Memory} {masked : Cid} (hreadable : StateTree.Readable m.get? e.preroot)
    (hregistry : .id .registry ∈ retain)
    (hmask : m.exec (StateTree.mask e.preroot retain) = (.ok masked, m'))
    (hfree : CollisionFree fun b => b ∈ maskInvolved m retain e masked) :
    ∃ base base' L M, Masked m' (fun b => b ∈ maskInvolved m retain e masked) retain e.preroot
      masked base base' L M := by
  obtain ⟨base, L, hL⟩ := hreadable.stores
  rcases StateTree.exec_mask hL hregistry with ⟨masked', m'', hexec, hmasked⟩ | ⟨⟨f, m'', hexec⟩, -⟩
  · rw [hmask] at hexec
    cases hexec
    have hto := hmasked (fun b => b ∈ maskInvolved m retain e masked) hfree
      (fun b hb => by simp [maskInvolved, hb]) (fun b hb => by simp [maskInvolved, hb])
    obtain ⟨base', M, hmasks, hM⟩ := hto.stores
    exact ⟨base, base', L, M, hto.within, ⟨hL.actors.mono hto.keeps, hL.registered.mono hto.keeps⟩,
      hmasks, hM⟩
  · rw [hmask] at hexec
    cases hexec

variable {m : Memory} {masked : Cid} {base base' : StateTree.Base}

/-- Messages that end with the same exit code and the same gas do the same to the actors. -/
theorem Masked.faresAlike (h : Masked m blocks retain e.preroot masked base base' L M)
    (hfree : CollisionFree blocks) (hws : ∀ b ∈ m.writes (apply e), blocks b)
    (hws' : ∀ b ∈ m.writes (apply { e with preroot := masked }), blocks b) {full part : Outcome}
    (hfull : (m.exec (apply e)).1 = .ok full)
    (hpart : (m.exec (apply { e with preroot := masked })).1 = .ok part)
    (hcode : part.receipt.exitCode = full.receipt.exitCode)
    (hgas : part.receipt.gasUsed = full.receipt.gasUsed) : FaresAlike m e masked full part := by
  obtain ⟨s, base₁, hsettle, hreceipt, hafter⟩ := of_exec_apply h.full hfree h.within hws hfull
  obtain ⟨s', base₁', hsettle', hreceipt', hafter'⟩ :=
    of_exec_apply (e := { e with preroot := masked }) h.part hfree h.within hws' hpart
  rw [hreceipt, hreceipt'] at hcode hgas
  have hpartOf : (s'.after M).PartOf (s.after L) :=
    h.masks.partOf.settle hsettle hsettle' hcode hgas
  obtain ⟨touched, hm⟩ := Ledger.exists_touching e.message
  have hamends := Ledger.settle_amends (e := { e with preroot := masked }) hm hsettle'
  intro id
  refine ⟨_, _, _, h.part.actors.gives_actorAt id, hafter.actors.gives_actorAt id,
    hafter'.actors.gives_actorAt id, ?_, hpartOf.actors id⟩
  rw [Bool.eq_iff_iff, Option.isSome_iff_ne_none, Option.isSome_iff_ne_none]
  exact hamends.actors_ne_none

/-- Masking a readable state gives a root, unless too many of the keys involved have the same path. -/
theorem mask_isOk {m : Memory} {root : Cid} (hreadable : StateTree.Readable m.get? root)
    (hregistry : .id .registry ∈ retain) :
    (∃ masked m', m.exec (StateTree.mask root retain) = (.ok masked, m')) ∨
      Hamt.Crowded (MaskKey retain) := by
  obtain ⟨base, L, hL⟩ := hreadable.stores
  rcases StateTree.exec_mask hL hregistry with ⟨masked, m', hexec, -⟩ | ⟨-, hcrowded, -⟩
  · exact Or.inl ⟨masked, m', hexec⟩
  · exact Or.inr hcrowded

theorem mem_maskInvolved {m m' : Memory} {masked : Cid}
    (hmask : m.exec (StateTree.mask e.preroot retain) = (.ok masked, m')) {b : Block} :
    b ∈ maskInvolved m retain e masked ↔ b ∈ m.blocks ∨
      b ∈ m.writes (StateTree.mask e.preroot retain) ∨ b ∈ m'.writes (apply e) ∨
      b ∈ m'.writes (apply { e with preroot := masked }) := by
  simp [maskInvolved, hmask]

-- ---------------------------------------------------------------------------
-- A small state
-- ---------------------------------------------------------------------------

/-- A message from the reward actor to the only account of a small state. -/
def smallPayment (root : Cid) (value : TokenAmount) : Execution :=
  Fixture.execution root
    { Fixture.Payment.send ⟨.reward, .id .reward⟩ ⟨.firstFree, .id .firstFree⟩ 0 0 with value }

/-- The addresses of the message. -/
def smallParties : List Address := [.id .reward, .id .firstFree]

/-- The state is masked and the message applied to both; no two blocks share an identifier, and the
receipts are the same. -/
private def smallRun (held : Memory) (retain : List Address) (e : Execution) : Bool :=
  match held.exec (StateTree.mask e.preroot retain) with
  | (.ok masked, held') =>
    match (apply e).on held'.get?, (apply { e with preroot := masked }).on held'.get? with
    | (.ok full, ws), (.ok part, ws') =>
      Block.areDistinct (held.blocks ++ held.writes (StateTree.mask e.preroot retain) ++ ws ++ ws') &&
        (full.receipt.mismatches part.receipt).isEmpty
    | _, _ => false
  | _ => false

private theorem of_smallRun {held : Memory} {e : Execution} (h : smallRun held retain e = true) :
    ∃ masked held' full part, held.exec (StateTree.mask e.preroot retain) = (.ok masked, held') ∧
      (CollisionFree fun b => b ∈ maskInvolved held retain e masked) ∧
      (held'.exec (engine e)).1 = .ok full ∧
      (held'.exec (engine { e with preroot := masked })).1 = .ok part ∧
      Receipt.check (some full.receipt) part.receipt = .ok .matched := by
  unfold smallRun at h
  split at h
  · next masked held' hmask =>
    split at h
    · next full ws part ws' hfull hpart =>
      rw [Bool.and_eq_true] at h
      have hinvolved : maskInvolved held retain e masked =
          held.blocks ++ held.writes (StateTree.mask e.preroot retain) ++ ws ++ ws' := by
        rw [maskInvolved, hmask, (orderly_apply e).writes_eq, hfull,
          (orderly_apply { e with preroot := masked }).writes_eq, hpart]
      refine ⟨masked, held', full, part, hmask, ?_, ?_, ?_,
        Receipt.check_matched (List.isEmpty_iff.mp h.2)⟩
      · rw [hinvolved]
        exact .of_areDistinct h.1
      · rw [exec_engine, (orderly_apply e).exec, hfull]
      · rw [exec_engine, (orderly_apply { e with preroot := masked }).exec, hpart]
    · cases h
  · cases h

set_option maxRecDepth 20000 in
/-- A payment that leaves out no party, and one of more than the sender has that leaves out the
receiver. -/
private theorem small_runs :
    (match Memory.empty.exec (Fixture.newState 1) with
      | (.ok s, held) =>
        Block.areDistinct (Memory.empty.writes (Fixture.newState 1)) &&
          smallRun held (retainList smallParties) (smallPayment s.root 5) &&
          smallRun held protocolActors (smallPayment s.root (.ofWhole 2000))
      | _ => false) = true := by
  decide +kernel

/-- The small state. -/
private theorem exists_small : ∃ s held, Memory.empty.exec (Fixture.newState 1) = (.ok s, held) ∧
    StateTree.Readable held.get? s.root ∧
    smallRun held (retainList smallParties) (smallPayment s.root 5) = true ∧
    smallRun held protocolActors (smallPayment s.root (.ofWhole 2000)) = true := by
  have hruns := small_runs
  split at hruns
  · next s held hstate =>
    rw [Bool.and_eq_true, Bool.and_eq_true] at hruns
    obtain ⟨⟨hdistinct, hpayment⟩, hoverdraft⟩ := hruns
    obtain ⟨base, L, hstores⟩ := Fixture.stores_newState (.of_areDistinct hdistinct)
      (Memory.within_empty _) hstate fun b hb => hb
    exact ⟨s, held, hstate, hstores.readable, hpayment, hoverdraft⟩
  · cases hruns

-- ---------------------------------------------------------------------------
-- Complete and incomplete masks
-- ---------------------------------------------------------------------------

/-- If everything that a message touches is retained, the message ends on the masked state as it does
on the full one: it can be applied to both or to neither, with the same receipt and the same effect
on the actors that the masked state holds. Readable states can be masked, unless too many keys have
the same path. -/
theorem engine_masked_agrees {m : Memory} {e : Execution} {accessed : List Address}
    (hreadable : StateTree.Readable m.get? e.preroot)
    (hsender : e.message.sender ∈ accessed) (hreceiver : e.message.receiver ∈ accessed)
    (hbeneficiary : e.message.method = forwardMethod → ∀ a,
      beneficiaryOf? e.message.params.val = some a → a ∈ accessed) :
    ((∃ masked m', m.exec (StateTree.mask e.preroot (retainList accessed)) = (.ok masked, m')) ∨
      Hamt.Crowded (MaskKey (retainList accessed))) ∧
    ∀ masked m', m.exec (StateTree.mask e.preroot (retainList accessed)) = (.ok masked, m') →
      (CollisionFree fun b => b ∈ maskInvolved m (retainList accessed) e masked) →
      (m'.exec (engine { e with preroot := masked })).1.isOk = (m'.exec (engine e)).1.isOk ∧
      ∀ full part, (m'.exec (engine e)).1 = .ok full →
        (m'.exec (engine { e with preroot := masked })).1 = .ok part →
        part.receipt = full.receipt ∧ FaresAlike m' e masked full part := by
  have hregistry := registry_mem_retainList accessed
  have hm : Ledger.Touching (retainList accessed) e.message :=
    Ledger.touching_retainList hsender hreceiver hbeneficiary
  refine ⟨mask_isOk hreadable hregistry, ?_⟩
  intro masked m' hmask hfree
  obtain ⟨base, base', L, M, h⟩ := exists_masked hreadable hregistry hmask hfree
  have hws : ∀ b ∈ m'.writes (apply e), b ∈ maskInvolved m (retainList accessed) e masked :=
    fun b hb => (mem_maskInvolved hmask).mpr (Or.inr (Or.inr (Or.inl hb)))
  have hws' : ∀ b ∈ m'.writes (apply { e with preroot := masked }),
      b ∈ maskInvolved m (retainList accessed) e masked :=
    fun b hb => (mem_maskInvolved hmask).mpr (Or.inr (Or.inr (Or.inr hb)))
  -- the states agree on what is touched, either way
  have hforth {full : Outcome} (hfull : (m'.exec (apply e)).1 = .ok full) :=
    exec_apply_agrees h.full h.part h.masks.agree hm hfree h.within hws hfull
  have hback {part : Outcome} (hpart : (m'.exec (apply { e with preroot := masked })).1 = .ok part) :=
    exec_apply_agrees (e := { e with preroot := masked }) h.part h.full h.masks.agree.symm hm hfree
      h.within hws' hpart
  simp only [exec_engine]
  constructor
  · cases hfull : (m'.exec (apply e)).1 with
    | ok full =>
      obtain ⟨part, hpart, -⟩ := hforth hfull
      rw [hpart]
      rfl
    | error f =>
      cases hpart : (m'.exec (apply { e with preroot := masked })).1 with
      | error f' => rfl
      | ok part =>
        obtain ⟨full, hfull', -⟩ := hback hpart
        rw [hfull] at hfull'
        cases hfull'
  · intro full part hfull hpart
    obtain ⟨part', hpart', hreceipt⟩ := hforth hfull
    obtain rfl : part = part' := Except.ok.inj (hpart.symm.trans hpart')
    refine ⟨hreceipt, h.faresAlike hfree hws hws' hfull hpart ?_ ?_⟩
    · rw [hreceipt]
    · rw [hreceipt]

/-- The payment on the small state and on what its parties are masked to. -/
theorem engine_masked_agrees_payment :
    ∃ s held masked held' full part, Memory.empty.exec (Fixture.newState 1) = (.ok s, held) ∧
      held.exec (StateTree.mask s.root (retainList smallParties)) = (.ok masked, held') ∧
      (held'.exec (engine (smallPayment s.root 5))).1 = .ok full ∧
      (held'.exec (engine (smallPayment masked 5))).1 = .ok part ∧
      part.receipt = full.receipt ∧ FaresAlike held' (smallPayment s.root 5) masked full part := by
  obtain ⟨s, held, hstate, hreadable, hrun, -⟩ := exists_small
  obtain ⟨masked, held', full, part, hmask, hfree, hfull, hpart, -⟩ := of_smallRun hrun
  -- the payment is a plain one
  have hplain : (0 : UInt64) ≠ forwardMethod := by decide
  have hagrees := (engine_masked_agrees (e := smallPayment s.root 5) hreadable
    (List.mem_cons_self ..) (List.mem_cons_of_mem _ (List.mem_cons_self ..))
    (fun hmethod => absurd hmethod hplain)).2 masked held' hmask hfree
  exact ⟨s, held, masked, held', full, part, hstate, hmask, hfull, hpart,
    hagrees.2 full part hfull hpart⟩

/-- Whatever is left out of a masked state, a message that ends there with the receipt that it has on
the full state has the same effect on the actors that the masked state holds. -/
theorem engine_masked_sound {m m' : Memory} {e : Execution} {masked : Cid}
    (hreadable : StateTree.Readable m.get? e.preroot)
    (hretain : ∀ a ∈ protocolActors, a ∈ retain)
    (hmask : m.exec (StateTree.mask e.preroot retain) = (.ok masked, m'))
    (hfree : CollisionFree fun b => b ∈ maskInvolved m retain e masked) {full part : Outcome}
    (hfull : (m'.exec (engine e)).1 = .ok full)
    (hpart : (m'.exec (engine { e with preroot := masked })).1 = .ok part)
    (hsame : Receipt.check (some full.receipt) part.receipt = .ok .matched) :
    FaresAlike m' e masked full part := by
  have hregistry : .id .registry ∈ retain := hretain _ (by simp [protocolActors])
  obtain ⟨base, base', L, M, h⟩ := exists_masked hreadable hregistry hmask hfree
  have hnone : full.receipt.mismatches part.receipt = [] :=
    ((Receipt.check_eq_ok hsame).2 _ rfl).2
  obtain ⟨hcode, -, hgas⟩ := (Receipt.mismatches_eq_nil _ _).mp hnone
  rw [exec_engine] at hfull hpart
  refine h.faresAlike hfree ?_ ?_ hfull hpart hcode.symm hgas.symm
  · exact fun b hb => (mem_maskInvolved hmask).mpr (Or.inr (Or.inr (Or.inl hb)))
  · exact fun b hb => (mem_maskInvolved hmask).mpr (Or.inr (Or.inr (Or.inr hb)))

/-- The payment of too much, on the small state and on the protocol's actors alone. -/
theorem engine_masked_sound_overdraft :
    ∃ s held masked held' full part, Memory.empty.exec (Fixture.newState 1) = (.ok s, held) ∧
      held.exec (StateTree.mask s.root protocolActors) = (.ok masked, held') ∧
      (held'.exec (engine (smallPayment s.root (.ofWhole 2000)))).1 = .ok full ∧
      (held'.exec (engine (smallPayment masked (.ofWhole 2000)))).1 = .ok part ∧
      FaresAlike held' (smallPayment s.root (.ofWhole 2000)) masked full part := by
  obtain ⟨s, held, hstate, hreadable, -, hrun⟩ := exists_small
  obtain ⟨masked, held', full, part, hmask, hfree, hfull, hpart, hsame⟩ := of_smallRun hrun
  exact ⟨s, held, masked, held', full, part, hstate, hmask, hfull, hpart,
    engine_masked_sound hreadable (fun _ ha => ha) hmask hfree hfull hpart hsame⟩

end ReplayVector.Transfer
