import ReplayVector.Execution.Transfer
import ReplayVector.Proofs.State.Trees
import ReplayVector.Proofs.Store.Held

/-!
# What transfers read and write

The engine for transfers reads its whole way from the root of the state over links that have come
up, and writes last. So among blocks that link to none but each other, nothing that it reads is
missing, and what it writes may join them.

* `staged_apply`: a transfer reads before it writes.
* `exists_course`: where an execution goes.
-/

namespace ReplayVector.Transfer

open BlockM TreeM

variable {known : Known}

theorem looks_beneficiary (m : Message) (receiver : ActorId) :
    (beneficiary m receiver).Looks (fun _ _ => True) known := by
  rw [beneficiary]
  split
  · exact looks_pure fun _ _ => trivial
  · have hfound : Looks (fun _ _ => True) known
        (BlockM.ofOption .unworded (beneficiaryOf? m.params.val) : TreeM Address) :=
      looks_lift fun known' _ => finds_ofOption _ fun _ _ => trivial
    exact hfound.bind fun known' a _ _ => looks_resolve a

theorem looks_credit (id : ActorId) (missing : Cause) (amount : TokenAmount) :
    (credit id missing amount).Looks (fun _ _ => True) known := by
  refine (looks_getActor id).bind fun known' r _ hr => ?_
  cases r with
  | none => exact looks_fail _ known' _
  | some a => exact looks_setActor id (hr a rfl)

theorem looks_moveValue (m : Message) (senderId : ActorId) {sender : Actor}
    (hsender : Hamt.Grounds known sender) :
    (moveValue m senderId sender).Looks (fun _ _ => True) known := by
  refine (looks_resolve m.receiver).bind fun known₁ r hsub₁ _ => ?_
  cases r with
  | none => exact looks_pure fun _ _ => trivial
  | some receiver =>
    dsimp only
    split
    · exact looks_pure fun _ _ => trivial
    · refine (looks_beneficiary m receiver).bind fun known₂ r hsub₂ _ => ?_
      cases r with
      | none => exact looks_pure fun _ _ => trivial
      | some id =>
        have hpaid : Hamt.Grounds known₂ { sender with balance := sender.balance - m.value } :=
          (hsender.mono hsub₁).mono hsub₂
        refine (looks_setActor senderId hpaid).bind fun known₃ _ _ _ => ?_
        refine (looks_credit id _ m.value).bind fun known₄ _ _ _ => ?_
        exact looks_pure fun _ _ => trivial

theorem looks_payProtocol (a : Address) (amount : TokenAmount) :
    (payProtocol a amount).Looks (fun _ _ => True) known := by
  refine (looks_resolve a).bind fun known₁ r _ _ => ?_
  cases r with
  | none => exact looks_fail _ known₁ _
  | some id => exact looks_credit id _ amount

/-- The root after a transaction is the one before it or has been written. -/
theorem stages_transact (e : Execution) (hroot : known.Stores e.preroot) :
    (transact e).Stages (fun known outcome => known.Stores outcome.postroot) known := by
  refine (looks_resolve e.message.sender).stages_bind fun known₁ r hsub₁ _ => ?_
  have hrejected (code : ExitCode) (known' : Known) (hsub : known₁.Below known') :
      known'.Stores ({ receipt := .plain code 0, postroot := e.preroot } : Outcome).postroot :=
    (hroot.mono hsub₁).mono hsub
  cases r with
  | none => exact Looks.stages (looks_pure (hrejected .senderInvalid))
  | some senderId =>
    refine (looks_getActor senderId).stages_bind fun known₂ r hsub₂ hr => ?_
    cases r with
    | none =>
      refine Looks.stages (looks_pure fun known' hsub => hrejected .senderInvalid known' ?_)
      exact fun c hc => hsub c (hsub₂ c hc)
    | some sender =>
      dsimp only
      split
      · refine Looks.stages (looks_pure fun known' hsub => hrejected .senderStateInvalid known' ?_)
        exact fun c hc => hsub c (hsub₂ c hc)
      · split
        · exact (looks_fail _ known₂ _).stages
        · split
          · exact (looks_fail _ known₂ _).stages
          · have hsender : Hamt.Grounds known₂ { sender with
                sequence := sender.sequence + 1
                balance := sender.balance -
                  (e.baseFee.scale gas.toNat + e.message.gasPremium.scale gas.toNat) } :=
              hr sender rfl
            refine (looks_setActor senderId hsender).stages_bind fun known₃ _ hsub₃ _ => ?_
            refine (looks_moveValue e.message senderId (hsender.mono hsub₃)).stages_bind
              fun known₄ code _ _ => ?_
            refine (looks_payProtocol _ _).stages_bind fun known₅ _ _ _ => ?_
            refine (looks_payProtocol _ _).stages_bind fun known₆ _ _ _ => ?_
            exact stages_write.map fun known' root hroot => hroot

/-- Applying a message reads before it writes. -/
theorem staged_apply (e : Execution) (hroot : known.Stores e.preroot) :
    (apply e).Staged Failed (onValue fun known outcome => known.Stores outcome.postroot) known := by
  refine (StateTree.finds_load hroot.1).staged_bind fun known₁ t hsub ht => ?_
  exact (stages_transact e (hroot.mono hsub)).run' ht

/-! ## Runs -/

/-- Applying a message begins with a read of the root. -/
theorem apply_eq_get {e : Execution} (hroot : e.preroot.codec = Cid.dagCbor) :
    ∃ next, apply e = .get e.preroot next := by
  have hcodec : ¬e.preroot.codec ≠ Cid.dagCbor := fun h => h hroot
  rw [apply, StateTree.load, StateTree.ofRoot, readAs, readCbor?, if_neg hcodec]
  exact ⟨_, rfl⟩

/-- What is left of the writes of an execution. -/
def kept (mode : WriteMode) (ws : List Block) : List Block :=
  match mode with
  | .writeThrough => ws
  | .buffered => []

theorem mem_of_mem_kept {mode : WriteMode} {ws : List Block} {b : Block} (h : b ∈ kept mode ws) :
    b ∈ ws := by
  cases mode with
  | writeThrough => exact h
  | buffered => cases h

/-- An engine that keeps or discards what it writes reads the same, and ends in the same way. -/
theorem engine_path {e : Execution} {rs ws : List Block} {r : Except Failure Outcome}
    (h : BlockM.Path Failed (apply e) rs ws r) (mode : WriteMode) :
    BlockM.Path Failed (engine { e with mode }) rs (kept mode ws) r := by
  cases mode with
  | writeThrough => exact h
  | buffered => exact h.buffered

/-- Where an execution goes among blocks that link to none but each other: it reads the root and
more of these blocks, and what it computes may join them. -/
structure Course (blocks : Blocks) (e : Execution) (rs ws : List Block)
    (r : Except Failure Outcome) : Prop where
  apply : BlockM.Path Failed (Transfer.apply e) rs ws r
  engine : BlockM.Path Failed (engine e) rs (kept e.mode ws) r
  mem : ∀ b ∈ rs, blocks b
  chained : Chained (fun c => c = e.preroot) rs
  extends_ : Extends blocks ws fun known =>
    onValue (fun known outcome => known.Stores outcome.postroot) known r
  root : ∃ b ∈ rs, b.cid = e.preroot

/-- Among blocks that link to none but each other, an execution finds all that it reads. -/
theorem exists_course {blocks : Blocks} (hblocks : blocks.Closed) (e : Execution)
    (hroot : blocks.names e.preroot) : ∃ rs ws r, Course blocks e rs ws r := by
  obtain ⟨b, hb, hcid⟩ := hroot
  have hcodec : e.preroot.codec = Cid.dagCbor := by
    obtain ⟨v, hv, -⟩ := hblocks b hb
    exact hcid ▸ hv.codec
  have hwithin : Known.Within (fun c => c = e.preroot) blocks := by
    rintro c rfl -
    exact ⟨b, hb, hcid⟩
  have hstores : Known.Stores (fun c => c = e.preroot) e.preroot := ⟨rfl, hcodec⟩
  obtain ⟨rs, ws, r, hpath, hrs, hchained, hextends⟩ :=
    (staged_apply e hstores).path hblocks hwithin
  refine ⟨rs, ws, r, hpath, ?_, hrs, hchained, hextends, ?_⟩
  · exact engine_path hpath e.mode
  · obtain ⟨next, hnext⟩ := apply_eq_get hcodec
    rw [hnext] at hpath
    cases hpath with
    | get _ _ => exact ⟨_, List.mem_cons_self .., rfl⟩

/-- The root after an execution is among the blocks that there are then. -/
theorem Course.postroot {blocks : Blocks} {e : Execution} {rs ws : List Block} {outcome : Outcome}
    (h : Course blocks e rs ws (.ok outcome)) : (blocks.also ws).names outcome.postroot := by
  obtain ⟨known, hwithin, hpost⟩ := h.extends_.reached
  have hstores := hpost outcome rfl
  exact hwithin _ hstores.1 hstores.2

/-- All blocks around an execution are those of tidy values. -/
theorem Course.carries {blocks : Blocks} {e : Execution} {rs ws : List Block}
    {r : Except Failure Outcome} (h : Course blocks e rs ws r) {b : Block}
    (hb : blocks.also ws b) : ∃ v, b.Carries v := by
  obtain ⟨v, hv, -⟩ := h.extends_.closed b hb
  exact ⟨v, hv⟩

/-- None of them stands in its identifier. -/
theorem Course.stored {blocks : Blocks} {e : Execution} {rs ws : List Block}
    {r : Except Failure Outcome} (h : Course blocks e rs ws r) {b : Block}
    (hb : blocks.also ws b) : b.cid.isIdentity = false := by
  obtain ⟨v, hv⟩ := h.carries hb
  exact hv.stored

end ReplayVector.Transfer
