import Mathlib.Algebra.BigOperators.Group.Finset.Piecewise
import Mathlib.Data.FinEnum
import ReplayVector.Proofs.Execution.Settlement

/-!
# What a message does to balances

A message is settled in steps: its sender is charged, value moves from the sender to the
beneficiary, and gas is paid for to the protocol's actors. Each step changes the balance of one
actor by an amount, and the actor is looked up anew in the ledger that the step before has left. So
it makes no difference whether some of these actors are the same: the amounts add up to nothing.

* `Actors.total`, `Actors.Solvent`: all balances together, and none of them negative.
* `Ledger.Rebalances`: no more than the balances of some actors differ.
* `Ledger.total_settle`, `Ledger.solvent_settle`, `Ledger.settle_rebalances`: a whole message.
-/

namespace ReplayVector

-- ---------------------------------------------------------------------------
-- Balances
-- ---------------------------------------------------------------------------

namespace Actors

/-- The attos that an actor has, none if it does not exist. -/
def balance (actors : Actors) (id : ActorId) : Int := (actors id).elim 0 fun a => a.balance.atto

/-- The attos that all actors have together. -/
def total (actors : Actors) : Int := ∑ id, actors.balance id

/-- No balance is negative. -/
def Solvent (actors : Actors) : Prop := ∀ id a, actors id = some a → 0 ≤ a.balance

/-- Another record of an actor changes the total by the difference of the balances. -/
theorem total_update {actors : Actors} {id : ActorId} {old : Actor} (hold : actors id = some old)
    (a : Actor) :
    total (Function.update actors id (some a)) =
      actors.total + (a.balance.atto - old.balance.atto) := by
  have hbalance : balance (Function.update actors id (some a)) =
      Function.update actors.balance id a.balance.atto := by
    funext j
    rw [balance, Function.update_apply, Function.update_apply]
    split
    · rfl
    · rfl
  have hbefore : actors.total =
      old.balance.atto + ∑ j ∈ Finset.univ.erase id, actors.balance j := by
    rw [total, ← Finset.add_sum_erase _ _ (Finset.mem_univ id), balance, hold]
    rfl
  rw [total, hbalance, Finset.sum_update_of_mem (Finset.mem_univ id), hbefore,
    Finset.sdiff_singleton_eq_erase]
  omega

/-- Solvent actors stay so if one of them gets a balance that is not negative. -/
theorem Solvent.update {actors : Actors} (h : actors.Solvent) (id : ActorId) {a : Actor}
    (ha : 0 ≤ a.balance) : Solvent (Function.update actors id (some a)) := by
  intro j b hb
  rw [Function.update_apply] at hb
  split at hb
  · cases hb
    exact ha
  · exact h j b hb

end Actors

/-- All of an actor but its balance. -/
def Actor.bare (a : Actor) : Actor := { a with balance := 0 }

/-- The address that the value of a message goes to. -/
def Transfer.beneficiaryAddress? (m : Message) : Option Address :=
  if m.method ≠ forwardMethod then some m.receiver else beneficiaryOf? m.params.val

namespace Ledger

variable {L L' : Ledger} {m : Message} {e : Execution} {id senderId : ActorId} {sender : Actor}
  {code : ExitCode} {amount : TokenAmount}

theorem actor_setActor (L : Ledger) (id : ActorId) (a : Actor) :
    (L.setActor id a).actors id = some a := by
  rw [actors_setActor, if_pos rfl]

-- ---------------------------------------------------------------------------
-- The total
-- ---------------------------------------------------------------------------

/-- A credit adds its amount to the total. -/
theorem total_credit (h : L.credit id amount = some L') :
    L'.actors.total = L.actors.total + amount.atto := by
  obtain ⟨a, ha, rfl⟩ := Option.map_eq_some_iff.mp h
  refine (Actors.total_update ha _).trans ?_
  show _ + (a.balance.atto + amount.atto - a.balance.atto) = _
  omega

/-- So does a payment. -/
theorem total_payProtocol {a : Address} (h : L.payProtocol a amount = some L') :
    L'.actors.total = L.actors.total + amount.atto := by
  obtain ⟨id, -, h⟩ := Option.bind_eq_some_iff.mp h
  exact total_credit h

/-- What the sender pays, the beneficiary gets, even if it is the same actor. -/
theorem total_moveValue (hsender : L.actors senderId = some sender)
    (h : L.moveValue m senderId sender = some (code, L')) : L'.actors.total = L.actors.total := by
  rcases moveValue_cases h with ⟨-, -, -, rfl⟩ | ⟨receiver, id, -, -, -, -, hcredit⟩
  · rfl
  · rw [total_credit hcredit, setActor, Actors.total_update hsender]
    show _ + (sender.balance.atto - m.value.atto - sender.balance.atto) + _ = _
    omega

/-- A message leaves as much as there was. -/
theorem total_settle {s : Settlement} (h : L.settle e = some s) :
    (s.after L).actors.total = L.actors.total := by
  rcases settle_cases h with ⟨code, rfl, -⟩ |
    ⟨senderId, sender, code, L₁, L₂, L₃, rfl, -, hsender, -, -, hmove, hburn, htip⟩
  · rfl
  · show L₃.actors.total = L.actors.total
    rw [total_payProtocol htip, total_payProtocol hburn,
      total_moveValue (actor_setActor ..) hmove, setActor, Actors.total_update hsender]
    -- the sender is charged what the protocol is paid
    show _ + (sender.balance.atto - ((e.baseFee.scale Transfer.gas.toNat).atto +
      (e.message.gasPremium.scale Transfer.gas.toNat).atto) - sender.balance.atto) + _ + _ = _
    omega

-- ---------------------------------------------------------------------------
-- No debts
-- ---------------------------------------------------------------------------

/-- A credit that is not negative leaves no debts. -/
theorem solvent_credit (hsolvent : L.actors.Solvent) (hamount : 0 ≤ amount)
    (h : L.credit id amount = some L') : L'.actors.Solvent := by
  obtain ⟨a, ha, rfl⟩ := Option.map_eq_some_iff.mp h
  exact hsolvent.update id (Int.add_nonneg (hsolvent id a ha) hamount)

theorem solvent_payProtocol {a : Address} (hsolvent : L.actors.Solvent) (hamount : 0 ≤ amount)
    (h : L.payProtocol a amount = some L') : L'.actors.Solvent := by
  obtain ⟨id, -, h⟩ := Option.bind_eq_some_iff.mp h
  exact solvent_credit hsolvent hamount h

private theorem sub_nonneg {a b : TokenAmount} (h : ¬a < b) : 0 ≤ a - b :=
  Int.sub_nonneg_of_le (Int.not_lt.mp h)

/-- A transfer of value leaves none, for the sender has to have it. -/
theorem solvent_moveValue (hsolvent : L.actors.Solvent) (hvalue : 0 ≤ m.value)
    (h : L.moveValue m senderId sender = some (code, L')) : L'.actors.Solvent := by
  rcases moveValue_cases h with ⟨-, -, -, rfl⟩ | ⟨receiver, id, -, -, hcovered, -, hcredit⟩
  · exact hsolvent
  · exact solvent_credit (hsolvent.update senderId (sub_nonneg hcovered)) hvalue hcredit

/-- If nothing that a message pays is negative, it makes no debts. -/
theorem solvent_settle {s : Settlement} (hsolvent : L.actors.Solvent) (hvalue : 0 ≤ e.message.value)
    (hfee : 0 ≤ e.baseFee) (hpremium : 0 ≤ e.message.gasPremium) (h : L.settle e = some s) :
    (s.after L).actors.Solvent := by
  have hscale {a : TokenAmount} (ha : 0 ≤ a) : 0 ≤ a.scale Transfer.gas.toNat :=
    Int.mul_nonneg ha (Int.natCast_nonneg _)
  rcases settle_cases h with ⟨code, rfl, -⟩ |
    ⟨senderId, sender, code, L₁, L₂, L₃, rfl, -, -, -, hcovered, hmove, hburn, htip⟩
  · exact hsolvent
  · have hcharged := hsolvent.update senderId (a := charged sender _) (sub_nonneg hcovered)
    have hmoved : L₁.actors.Solvent := solvent_moveValue hcharged hvalue hmove
    have hburned : L₂.actors.Solvent := solvent_payProtocol hmoved (hscale hfee) hburn
    exact solvent_payProtocol hburned (hscale hpremium) htip

-- ---------------------------------------------------------------------------
-- Everything else
-- ---------------------------------------------------------------------------

/-- Some actors may have other balances, and everything else is as before. -/
structure Rebalances (parties : ActorId → Prop) (L L' : Ledger) : Prop where
  ids : L'.ids = L.ids
  rest : ∀ id, (L'.actors id).map Actor.bare = (L.actors id).map Actor.bare
  frame : ∀ id, ¬parties id → L'.actors id = L.actors id

variable {parties : ActorId → Prop}

theorem Rebalances.refl (parties : ActorId → Prop) (L : Ledger) : L.Rebalances parties L :=
  ⟨rfl, fun _ => rfl, fun _ _ => rfl⟩

/-- One change of balances after the other. -/
theorem Rebalances.trans {L'' : Ledger} (h : L.Rebalances parties L')
    (h' : L'.Rebalances parties L'') : L.Rebalances parties L'' where
  ids := h'.ids.trans h.ids
  rest := fun id => (h'.rest id).trans (h.rest id)
  frame := fun id hid => (h'.frame id hid).trans (h.frame id hid)

/-- A new balance of a party changes nothing else. -/
theorem rebalances_setActor {old : Actor} (hid : parties id) (hold : L.actors id = some old)
    (balance : TokenAmount) : L.Rebalances parties (L.setActor id { old with balance }) where
  ids := rfl
  rest := by
    intro j
    rw [actors_setActor]
    split
    · next heq =>
      rw [heq, hold]
      rfl
    · rfl
  frame := by
    intro j hj
    rw [actors_setActor, if_neg fun heq : j = id => hj (heq ▸ hid)]

theorem credit_rebalances (hid : parties id) (h : L.credit id amount = some L') :
    L.Rebalances parties L' := by
  obtain ⟨a, ha, rfl⟩ := Option.map_eq_some_iff.mp h
  exact rebalances_setActor hid ha _

theorem payProtocol_rebalances (hid : parties id) (h : L.payProtocol (.id id) amount = some L') :
    L.Rebalances parties L' := credit_rebalances hid h

/-- A transfer of value changes the balances of its sender and of whom it pays. -/
theorem moveValue_rebalances (hsender : L.actors senderId = some sender) (hparty : parties senderId)
    (hbeneficiary : ∀ receiver id, code = .ok → L.resolve m.receiver = some receiver →
      L.beneficiary m receiver = some (some id) → parties id)
    (h : L.moveValue m senderId sender = some (code, L')) : L.Rebalances parties L' := by
  rcases moveValue_cases h with ⟨-, -, -, rfl⟩ | ⟨receiver, id, hok, hreceiver, -, hid, hcredit⟩
  · exact .refl parties _
  · exact (rebalances_setActor hparty hsender _).trans
      (credit_rebalances (hbeneficiary receiver id hok hreceiver hid) hcredit)

/-- Whom a message pays is the actor of an address that it names. -/
theorem resolve_beneficiary {receiver : ActorId} (hreceiver : L.resolve m.receiver = some receiver)
    (h : L.beneficiary m receiver = some (some id)) :
    ∃ a, Transfer.beneficiaryAddress? m = some a ∧ L.resolve a = some id := by
  rw [beneficiary] at h
  split at h
  · next hmethod =>
    cases h
    exact ⟨m.receiver, by rw [Transfer.beneficiaryAddress?, if_pos hmethod], hreceiver⟩
  · next hmethod =>
    obtain ⟨a, ha, hid⟩ := Option.map_eq_some_iff.mp h
    exact ⟨a, by rw [Transfer.beneficiaryAddress?, if_neg hmethod, ha], hid⟩

/-- Whose balances a message may change, once it is settled. -/
def Party (L : Ledger) (m : Message) (code : ExitCode) (id : ActorId) : Prop :=
  L.resolve m.sender = some id ∨ id = .burnt ∨ id = .reward ∨
    (code = .ok ∧ ∃ a, Transfer.beneficiaryAddress? m = some a ∧ L.resolve a = some id)

/-- Once a message is settled, its sender is charged, and from then on no more than the balances of
the parties change. -/
theorem settle_rebalances (h : L.settle e = some (.settled code L')) :
    code ≠ .senderInvalid ∧ code ≠ .senderStateInvalid ∧
    ∃ id sender cost, L.resolve e.message.sender = some id ∧ L.actors id = some sender ∧
      sender.sequence + 1 ≠ 0 ∧
      (L.setActor id (charged sender cost)).Rebalances (L.Party e.message code) L' := by
  rcases settle_cases h with ⟨code, heq, -⟩ |
    ⟨id, sender, code, L₁, L₂, L₃, heq, hid, hsender, hnext, -, hmove, hburn, htip⟩
  · cases heq
  · cases heq
    have hcode : code ≠ .senderInvalid ∧ code ≠ .senderStateInvalid := by
      rcases moveValue_cases hmove with ⟨-, hinvalid, hstate, -⟩ | ⟨receiver, id, rfl, -⟩
      · exact ⟨hinvalid, hstate⟩
      · exact ⟨by decide, by decide⟩
    have hmoved : Ledger.Rebalances (L.Party e.message code) _ L₁ :=
      moveValue_rebalances (actor_setActor ..) (Or.inl hid) (fun receiver id' hok hreceiver hid' =>
        Or.inr (Or.inr (Or.inr ⟨hok, resolve_beneficiary (L := L) hreceiver hid'⟩))) hmove
    have hburned : L₁.Rebalances (L.Party e.message code) L₂ :=
      payProtocol_rebalances (Or.inr (Or.inl rfl)) hburn
    have htipped : L₂.Rebalances (L.Party e.message code) L' :=
      payProtocol_rebalances (Or.inr (Or.inr (Or.inl rfl))) htip
    have hpaid := hburned.trans htipped
    exact ⟨hcode.1, hcode.2, id, sender, _, hid, hsender, hnext, hmoved.trans hpaid⟩

end Ledger

end ReplayVector
