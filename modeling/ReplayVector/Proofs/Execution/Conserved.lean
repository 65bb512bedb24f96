import ReplayVector.Fixture.Transfers
import ReplayVector.Proofs.Execution.Balances
import ReplayVector.Proofs.Execution.Observed

/-!
# Transfers conserve value

A transfer moves tokens between actors and touches nothing else. This holds of every state whose
actors can be read, whether or not addresses other than IDs can be resolved there: of all states
that come of setting actors and writing trees, and of the states after transfers.

* `StateTree.Built`: states that come of setting actors and of transfers.
* `StateTree.Built.readable`: the actors of these can be read.
* `Transfer.Settles`: what a transfer may change.
* `Transfer.engine_conserves`: all balances together stay as they are.
-/

namespace ReplayVector

open BlockM

-- ---------------------------------------------------------------------------
-- States that were built
-- ---------------------------------------------------------------------------

namespace StateTree

mutual

/-- Trees in memory, with actors that were set in an empty tree or in one that was loaded. -/
inductive Setting (blocks : Blocks) : Memory → StateTree → Prop
  | created {m m' : Memory} {t : StateTree} (hm : m.Within blocks)
      (hexec : m.exec (create version) = (.ok t, m'))
      (hws : ∀ b ∈ m.writes (create version), blocks b) : Setting blocks m' t
  | loaded {m m' : Memory} {root : Cid} {t : StateTree} (hroot : Built blocks m root)
      (hexec : m.exec (load root) = (.ok t, m')) : Setting blocks m' t
  | set {m : Memory} {t : StateTree} (ht : Setting blocks m t) (id : ActorId) (a : Actor) :
      Setting blocks m (t.setActor id a)

/-- Roots of such trees, and those after transfers. Memory may come to hold other blocks besides. -/
inductive Built (blocks : Blocks) : Memory → Cid → Prop
  | written {m m' : Memory} {t : StateTree} {root : Cid} (ht : Setting blocks m t)
      (hexec : m.exec t.write = (.ok root, m')) (hws : ∀ b ∈ m.writes t.write, blocks b) :
      Built blocks m' root
  | executed {m m' : Memory} {e : Execution} {outcome : Outcome} (hroot : Built blocks m e.preroot)
      (hexec : m.exec (Transfer.apply e) = (.ok outcome, m'))
      (hws : ∀ b ∈ m.writes (Transfer.apply e), blocks b) : Built blocks m' outcome.postroot
  | kept {m m' : Memory} {root : Cid} (hroot : Built blocks m root)
      (hkeeps : Hamt.Within m.get? m'.get?) (hm' : m'.Within blocks) : Built blocks m' root

end

variable {blocks : Blocks}

mutual

/-- A tree that was set up has actors, by induction on how it was set up. -/
theorem Setting.hasActors (hfree : CollisionFree blocks) {m : Memory} {t : StateTree} :
    Setting blocks m t →
      m.Within blocks ∧ ∃ base actors, t.HasActors True m.get? base actors
  | .created hm hexec hws => by
    have hgrows := Memory.grows_exec hfree hm hexec hws
    cases hexec
    exact ⟨hgrows.within, _, _, hasActors_empty True _ _⟩
  | .loaded hroot hexec => by
    obtain ⟨hm, base, actors, hstores⟩ := hroot.storesActors hfree
    obtain ⟨t, hload, ht, -⟩ := hstores.gives_load
    rw [hload.exec (quiet_load _)] at hexec
    cases hexec
    exact ⟨hm, base, actors, ht⟩
  | .set ht id a => by
    obtain ⟨hm, base, actors, hactors⟩ := ht.hasActors hfree
    exact ⟨hm, base, _, hactors.setActor (Or.inl trivial) a⟩

/-- So does a root that was built, by the same induction. -/
theorem Built.storesActors (hfree : CollisionFree blocks) {m : Memory} {root : Cid} :
    Built blocks m root →
      m.Within blocks ∧ ∃ base actors, StoresActors True m.get? base actors root
  | .written ht hexec hws => by
    obtain ⟨hm, base, actors, hactors⟩ := ht.hasActors hfree
    have hgrows := Memory.grows_exec hfree hm hexec hws
    have hon := (orderly_write _).on_of_exec hexec
    exact ⟨hgrows.within, _, actors, hactors.of_write hgrows.keeps hon hgrows.holds⟩
  | .executed hroot hexec hws => by
    obtain ⟨hm, base, actors, hstores⟩ := hroot.storesActors hfree
    have hgrows := Memory.grows_exec hfree hm hexec hws
    have hon := (Transfer.orderly_apply _).on_of_exec hexec
    obtain ⟨s, base', -, -, -, hafter⟩ :=
      Transfer.of_apply_observed hstores hon hgrows.keeps hgrows.holds
    exact ⟨hgrows.within, base', _, hafter⟩
  | .kept hroot hkeeps hm' => by
    obtain ⟨-, base, actors, hstores⟩ := hroot.storesActors hfree
    exact ⟨hm', base, actors, hstores.mono hkeeps⟩

end

/-- The actors of states that were built can be read. -/
theorem Built.readable (hfree : CollisionFree blocks) {m : Memory} {root : Cid}
    (h : Built blocks m root) : ActorsReadable m.get? root := by
  obtain ⟨-, base, actors, hstores⟩ := h.storesActors hfree
  exact hstores.readable

end StateTree

-- ---------------------------------------------------------------------------
-- What a transfer changes
-- ---------------------------------------------------------------------------

namespace Transfer

/-- The sequence number of the sender goes up by one, the balances of some actors may change, and
everything else stays as it is. -/
structure Settles (sender : ActorId) (parties : ActorId → Prop) (before after : Actors) : Prop where
  sends : before sender ≠ none
  present : ∀ id, after id = none ↔ before id = none
  kept : ∀ id a a', before id = some a → after id = some a' → a'.code = a.code ∧ a'.head = a.head ∧
    a'.delegatedAddress = a.delegatedAddress ∧
    a'.sequence.toNat = a.sequence.toNat + (if id = sender then 1 else 0)
  balance : ∀ id a a', before id = some a → after id = some a' → a'.balance ≠ a.balance →
    parties id

end Transfer

namespace Ledger

variable {L L' : Ledger} {id : ActorId} {sender : Actor} {cost : TokenAmount}
  {parties : ActorId → Prop}

private theorem toNat_succ {n : UInt64} (h : n + 1 ≠ 0) : (n + 1).toNat = n.toNat + 1 := by
  have hlt := n.toNat_lt
  have hne : (n + 1).toNat ≠ 0 := fun heq => h (UInt64.toNat_inj.mp heq)
  rw [UInt64.toNat_add, UInt64.toNat_one] at hne ⊢
  omega

/-- A charge, and then changes of balances, settle a message. -/
theorem settles_of_rebalances (hsender : L.actors id = some sender) (hparty : parties id)
    (hnext : sender.sequence + 1 ≠ 0)
    (h : (L.setActor id (charged sender cost)).Rebalances parties L') :
    Transfer.Settles id parties L.actors L'.actors where
  sends := by
    rw [hsender]
    nofun
  present := by
    intro j
    have hrest := h.rest j
    rw [actors_setActor] at hrest
    split at hrest
    · next heq =>
      rw [heq, hsender]
      rw [heq, Option.map_some, Option.map_eq_some_iff] at hrest
      obtain ⟨a', ha', -⟩ := hrest
      rw [ha']
      exact ⟨nofun, nofun⟩
    · rw [← Option.map_eq_none_iff (f := Actor.bare), hrest, Option.map_eq_none_iff]
  kept := by
    intro j a a' ha ha'
    have hrest := h.rest j
    rw [actors_setActor, ha', ha] at hrest
    split at hrest
    · next heq =>
      obtain rfl : a = sender := Option.some.inj (ha.symm.trans (heq ▸ hsender))
      obtain ⟨hcode, hhead, hsequence, -, hdelegated⟩ := Actor.mk.inj (Option.some.inj hrest)
      refine ⟨hcode, hhead, hdelegated, ?_⟩
      rw [if_pos heq, hsequence]
      exact toNat_succ hnext
    · next hne =>
      obtain ⟨hcode, hhead, hsequence, -, hdelegated⟩ := Actor.mk.inj (Option.some.inj hrest)
      exact ⟨hcode, hhead, hdelegated, by rw [if_neg hne, hsequence]; rfl⟩
  balance := by
    intro j a a' ha ha' hne
    refine Classical.byContradiction fun hj => hne ?_
    have hframe := h.frame j hj
    rw [actors_setActor, if_neg fun heq : j = id => hj (heq ▸ hparty), ha, ha'] at hframe
    rw [Option.some.inj hframe]

end Ledger

-- ---------------------------------------------------------------------------
-- Whole transfers
-- ---------------------------------------------------------------------------

namespace Transfer

/-- On every state whose actors can be read, a transfer that ends well leaves as many tokens as
there were. If it is rejected, with one of two exit codes, it leaves the state alone and costs no
gas. Else it costs its gas, and the sequence number of the sender goes up by one; and apart from
that no more than some balances change: those of the sender, of the actors that gas is paid to, and,
if the exit code says that value has moved, of the one that it went to. No balance becomes negative,
unless one is, or an amount that the message is about. -/
theorem engine_conserves {m : Memory} {e : Execution} {outcome : Outcome}
    (hreadable : StateTree.ActorsReadable m.get? e.preroot)
    (hfree : CollisionFree fun b => b ∈ m.blocks ++ m.writes (apply e))
    (hok : (m.exec (engine e)).1 = .ok outcome) :
    let written := (m.exec (engine { e with mode := .writeThrough })).2
    StateTree.ActorsReadable written.get? outcome.postroot ∧
    ∃ before after : Actors,
      (∀ id, (StateTree.actorAt e.preroot id).Gives m.get? (before id)) ∧
      (∀ id, (StateTree.actorAt outcome.postroot id).Gives written.get? (after id)) ∧
      after.total = before.total ∧
      (before.Solvent → 0 ≤ e.message.value → 0 ≤ e.baseFee → 0 ≤ e.message.gasPremium →
        after.Solvent) ∧
      (outcome.receipt.exitCode = .senderInvalid ∨ outcome.receipt.exitCode = .senderStateInvalid →
        outcome.postroot = e.preroot ∧ outcome.receipt.gasUsed = 0) ∧
      (outcome.receipt.exitCode ≠ .senderInvalid → outcome.receipt.exitCode ≠ .senderStateInvalid →
        outcome.receipt.gasUsed = gas ∧
        ∃ sender, (StateTree.idAt e.preroot e.message.sender).Gives m.get? (some sender) ∧
          Settles sender (fun id => id = sender ∨ id = .burnt ∨ id = .reward ∨
            (outcome.receipt.exitCode = .ok ∧ ∃ a, beneficiaryAddress? e.message = some a ∧
              (StateTree.idAt e.preroot a).Gives m.get? (some id))) before after) := by
  intro written
  obtain ⟨base, actors, hstores⟩ := hreadable.stores
  rw [exec_engine] at hok
  have hexec : m.exec (apply e) = (.ok outcome, written) := Prod.ext hok rfl
  have hgrows := Memory.grows_exec hfree (fun b hb => List.mem_append_left _ hb) hexec
    fun b hb => List.mem_append_right _ hb
  obtain ⟨s, base', hsettle, hreceipt, hroot, hafter⟩ :=
    of_apply_observed hstores ((orderly_apply e).on_of_exec hexec) hgrows.keeps hgrows.holds
  refine ⟨hafter.readable, actors, _, hstores.gives_actorAt, hafter.gives_actorAt,
    Ledger.total_settle hsettle,
    fun hsolvent hvalue hfee hpremium =>
      Ledger.solvent_settle hsolvent hvalue hfee hpremium hsettle, ?_⟩
  match s, Ledger.settle_cases hsettle with
  | .rejected code, hcases =>
    obtain ⟨_, heq, hcode⟩ | ⟨_, _, _, _, _, _, heq, -⟩ := hcases
    · cases heq
      refine ⟨fun _ => ⟨hroot code rfl, by rw [hreceipt]; rfl⟩, fun hinvalid hstate => ?_⟩
      rw [hreceipt] at hinvalid hstate
      exact (hcode.elim hinvalid hstate).elim
    · cases heq
  | .settled code L', _ =>
    obtain ⟨hinvalid, hstate, id, sender, cost, hid, hsender, hnext, hrebalances⟩ :=
      Ledger.settle_rebalances hsettle
    have hcode : outcome.receipt.exitCode = code := by
      rw [hreceipt]
      rfl
    rw [hcode]
    refine ⟨fun h => (h.elim hinvalid hstate).elim, fun _ _ => ⟨by rw [hreceipt]; rfl, id,
      hstores.gives_idAt hid, ?_⟩⟩
    have hsettles := Ledger.settles_of_rebalances hsender (Or.inl hid) hnext hrebalances
    refine { hsettles with balance := fun j a a' ha ha' hne => ?_ }
    -- the parties are the actors that their addresses stand for
    refine (hsettles.balance j a a' ha ha' hne).imp (fun hj => ?_) (Or.imp_right (Or.imp_right ?_))
    · exact Option.some.inj (hj.symm.trans hid)
    · exact fun ⟨hok, b, hb, hj⟩ => ⟨hok, b, hb, hstores.gives_idAt hj⟩

-- ---------------------------------------------------------------------------
-- A payment to those who burn
-- ---------------------------------------------------------------------------

/-- An actor with some tokens. -/
def sampleActor : Actor where
  code := Fixture.actorCode "account"
  head := Fixture.actorCode "account"
  sequence := 0
  balance := Fixture.accountBalance
  delegatedAddress := none

/-- A state of an account and of the actors that gas is paid to. There is no registry. -/
def sample : BlockM Cid := do
  let t ← StateTree.create StateTree.version
  (((t.setActor .firstFree sampleActor).setActor .reward sampleActor).setActor .burnt
    sampleActor).write

/-- The account pays the actor that holds what was burnt. -/
def samplePayment (root : Cid) : Execution :=
  Fixture.execution root
    (Fixture.Payment.send ⟨.firstFree, .id .firstFree⟩ ⟨.burnt, .id .burnt⟩ 0 5)

set_option maxRecDepth 20000 in
private theorem sample_facts :
    (match Memory.empty.exec sample with
      | (.ok root, held) =>
        Block.areDistinct (Memory.empty.writes sample) &&
          Block.areDistinct (held.blocks ++ held.writes (apply (samplePayment root))) &&
          match (held.exec (engine (samplePayment root))).1 with
          | .ok outcome => outcome.receipt.exitCode == .ok
          | .error _ => false
      | _ => false) = true := by
  decide +kernel

theorem engine_conserves_sample :
    ∃ root held outcome before after, Memory.empty.exec sample = (.ok root, held) ∧
      (held.exec (engine (samplePayment root))).1 = .ok outcome ∧
      outcome.receipt.exitCode = .ok ∧ outcome.receipt.gasUsed = gas ∧
      (∀ id, (StateTree.actorAt root id).Gives held.get? (before id)) ∧
      (∀ id, (StateTree.actorAt outcome.postroot id).Gives
        (held.exec (engine (samplePayment root))).2.get? (after id)) ∧
      Actors.total after = Actors.total before := by
  have hfacts := sample_facts
  split at hfacts
  · next root held hsample =>
    rw [Bool.and_eq_true, Bool.and_eq_true] at hfacts
    obtain ⟨⟨hdistinct, hinvolved⟩, hrun⟩ := hfacts
    have hfree := CollisionFree.of_areDistinct hdistinct
    -- the state was built by setting three actors
    have hbuilt : StateTree.Built (fun b => b ∈ Memory.empty.writes sample) held root := by
      obtain ⟨t, m, hcreate, hgrows, hwrite, hws⟩ :=
        Memory.grows_bind hfree (Memory.within_empty _) hsample fun b hb => hb
      have hcreated := StateTree.Setting.created (Memory.within_empty _) hcreate hgrows.mem
      exact .written (((hcreated.set _ _).set _ _).set _ _) hwrite hws
    split at hrun
    · next outcome hok =>
      have hcode : outcome.receipt.exitCode = .ok := by simpa using hrun
      obtain ⟨-, before, after, hbefore, hafter, htotal, -, -, heffect⟩ :=
        engine_conserves (hbuilt.readable hfree) (.of_areDistinct hinvolved) hok
      obtain ⟨hgas, -⟩ := heffect (by rw [hcode]; decide) (by rw [hcode]; decide)
      exact ⟨root, held, outcome, before, after, hsample, hok, hcode, hgas, hbefore, hafter, htotal⟩
    · cases hrun
  · cases hfacts

end Transfer

end ReplayVector
