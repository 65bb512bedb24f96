import ReplayVector.Proofs.Execution.Runs
import ReplayVector.Proofs.Execution.Touched
import ReplayVector.Proofs.State.Masked

/-!
# Messages on masked states

A masked state is part of the full one: an address that it resolves stands for the same actor, and
an actor that it holds has the same record. A message that ends in the same way on both, as far as
receipts tell, leaves a part of the full state after it. If nothing is left out that the message
touches, it does end in the same way.

* `Ledger.PartOf`: one ledger has only what another one has.
* `Ledger.PartOf.settle`: a message with the same receipt leaves a part of the ledger.
-/

namespace ReplayVector

variable {L L' M M' : Ledger} {retain : List Address}

/-- The registry is retained. -/
theorem registry_mem_retainList (accessed : List Address) :
    .id .registry ∈ retainList accessed := mem_retainList.mpr (Or.inr (by simp [protocolActors]))

/-- If the parties of a message are retained, all that it touches is. -/
theorem Ledger.touching_retainList {message : Message} {accessed : List Address}
    (hsender : message.sender ∈ accessed) (hreceiver : message.receiver ∈ accessed)
    (hbeneficiary : message.method = Transfer.forwardMethod → ∀ a,
      Transfer.beneficiaryOf? message.params.val = some a → a ∈ accessed) :
    Touching (retainList accessed) message where
  sender := mem_retainList.mpr (Or.inl hsender)
  receiver := mem_retainList.mpr (Or.inl hreceiver)
  beneficiary := fun hmethod a ha => mem_retainList.mpr (Or.inl (hbeneficiary hmethod a ha))
  burnt := mem_retainList.mpr (Or.inr (by simp [protocolActors]))
  reward := mem_retainList.mpr (Or.inr (by simp [protocolActors]))

/-- The record of an actor is as given; the registry may have another state. -/
def Actor.Copies (id : ActorId) (b a : Actor) : Prop :=
  b = if id = .registry then { a with head := b.head } else a

namespace Ledger

/-- A ledger has only what another one has. -/
structure PartOf (M L : Ledger) : Prop where
  resolve : ∀ a id, M.resolve a = some id → L.resolve a = some id
  actors : ∀ id b, M.actors id = some b → ∃ a, L.actors id = some a ∧ b.Copies id a

/-- In a masked ledger the retained addresses resolve, and those that are numbers. -/
theorem Masks.resolve (h : L.Masks retain M) (a : Address) :
    M.resolve a = if a ∈ retain ∨ a.id?.isSome then L.resolve a else none := by
  rw [Ledger.resolve, Ledger.resolve]
  cases ha : a.id? with
  | some id => simp
  | none =>
    rw [h.ids a ha]
    simp

/-- A masked ledger is part of the full one. -/
theorem Masks.partOf (h : L.Masks retain M) : M.PartOf L where
  resolve := by
    intro a id ha
    rw [h.resolve] at ha
    split at ha
    · exact ha
    · cases ha
  actors := by
    intro id b hb
    by_cases hid : L.Touches retain id
    · by_cases hregistry : id = .registry
      · obtain ⟨head, hhead⟩ := h.registry
        rw [← hregistry] at hhead
        rw [hhead] at hb
        obtain ⟨a, ha, rfl⟩ := Option.map_eq_some_iff.mp hb
        exact ⟨a, ha, (if_pos hregistry).symm⟩
      · rw [h.actors id hid hregistry] at hb
        exact ⟨b, hb, (if_neg hregistry).symm⟩
    · rw [h.absent id hid] at hb
      cases hb

end Ledger

-- ---------------------------------------------------------------------------
-- Records
-- ---------------------------------------------------------------------------

namespace Actor.Copies

variable {id : ActorId} {a b : Actor}

/-- A copy has the balance of its original. -/
theorem balance_eq (h : b.Copies id a) : b.balance = a.balance := by
  rw [h]
  split <;> rfl

theorem withBalance (h : b.Copies id a) (balance : TokenAmount) :
    ({ b with balance } : Actor).Copies id { a with balance } := by
  unfold Actor.Copies at h ⊢
  split at h
  · next hid => rw [if_pos hid, h]
  · next hid => rw [if_neg hid, h]

/-- Charging both keeps it a copy. -/
theorem charged (h : b.Copies id a) (cost : TokenAmount) :
    (Ledger.charged b cost).Copies id (Ledger.charged a cost) := by
  unfold Actor.Copies at h ⊢
  split at h
  · next hid =>
    rw [if_pos hid, h]
    rfl
  · next hid => rw [if_neg hid, h]

end Actor.Copies

-- ---------------------------------------------------------------------------
-- Settling on a part
-- ---------------------------------------------------------------------------

namespace Ledger.PartOf

/-- Setting an actor, and a copy of it in the part. -/
theorem setActor (h : M.PartOf L) {id : ActorId} {a b : Actor} (hab : b.Copies id a) :
    (M.setActor id b).PartOf (L.setActor id a) where
  resolve := h.resolve
  actors := by
    intro j c hc
    rw [actors_setActor] at hc ⊢
    split
    · next hj =>
      rw [if_pos hj] at hc
      obtain rfl := Option.some.inj hc
      exact ⟨a, rfl, hj ▸ hab⟩
    · next hj =>
      rw [if_neg hj] at hc
      exact h.actors j c hc

/-- A credit on both sides keeps the one a part of the other. -/
theorem credit (h : M.PartOf L) {id : ActorId} {amount : TokenAmount}
    (hL : L.credit id amount = some L') (hM : M.credit id amount = some M') : M'.PartOf L' := by
  obtain ⟨a, ha, rfl⟩ := Option.map_eq_some_iff.mp hL
  obtain ⟨b, hb, rfl⟩ := Option.map_eq_some_iff.mp hM
  obtain ⟨a', ha', hab⟩ := h.actors id b hb
  obtain rfl : a = a' := Option.some.inj (ha.symm.trans ha')
  rw [hab.balance_eq]
  exact h.setActor (hab.withBalance _)

/-- So does a payment. -/
theorem payProtocol (h : M.PartOf L) {a : Address} {amount : TokenAmount}
    (hL : L.payProtocol a amount = some L') (hM : M.payProtocol a amount = some M') :
    M'.PartOf L' := by
  obtain ⟨id, hid, hL⟩ := Option.bind_eq_some_iff.mp hL
  obtain ⟨id', hid', hM⟩ := Option.bind_eq_some_iff.mp hM
  obtain rfl : id = id' := Option.some.inj (hid.symm.trans (h.resolve a id' hid'))
  exact h.credit hL hM

/-- If both know whom a message pays, they agree on it. -/
theorem beneficiary (h : M.PartOf L) {m : Message} {receiver id id' : ActorId}
    (hL : L.beneficiary m receiver = some (some id))
    (hM : M.beneficiary m receiver = some (some id')) : id = id' := by
  unfold Ledger.beneficiary at hL hM
  split at hL
  · next hmethod =>
    rw [if_pos hmethod] at hM
    cases hL
    cases hM
    rfl
  · next hmethod =>
    rw [if_neg hmethod] at hM
    obtain ⟨a, ha, hid⟩ := Option.map_eq_some_iff.mp hL
    obtain ⟨a', ha', hid'⟩ := Option.map_eq_some_iff.mp hM
    obtain rfl : a = a' := Option.some.inj (ha.symm.trans ha')
    exact Option.some.inj (hid.symm.trans (h.resolve a id' hid'))

/-- The exit code tells where value went. -/
theorem moveValue (h : M.PartOf L) {m : Message} {senderId : ActorId} {a b : Actor}
    (hab : b.Copies senderId a) {code : ExitCode}
    (hL : L.moveValue m senderId a = some (code, L'))
    (hM : M.moveValue m senderId b = some (code, M')) : M'.PartOf L' := by
  rcases moveValue_cases hL with
    ⟨hstays, -, -, rfl⟩ | ⟨receiver, id, rfl, hreceiver, -, hid, hcredit⟩
  · rcases moveValue_cases hM with ⟨-, -, -, rfl⟩ | ⟨-, -, hmoves, -⟩
    · exact h
    · exact absurd hmoves hstays
  · rcases moveValue_cases hM with ⟨hstays, -⟩ | ⟨receiver', id', -, hreceiver', -, hid', hcredit'⟩
    · exact absurd rfl hstays
    · obtain rfl : receiver = receiver' :=
        Option.some.inj (hreceiver.symm.trans (h.resolve _ _ hreceiver'))
      obtain rfl := h.beneficiary hid hid'
      rw [hab.balance_eq] at hcredit'
      exact (h.setActor (hab.withBalance _)).credit hcredit hcredit'

/-- A message with the same exit code and the same gas leaves a part of the ledger. -/
theorem settle (h : M.PartOf L) {e : Execution} {s s' : Settlement} (hL : L.settle e = some s)
    (hM : M.settle e = some s') (hcode : s'.receipt.exitCode = s.receipt.exitCode)
    (hgas : s'.receipt.gasUsed = s.receipt.gasUsed) : (s'.after M).PartOf (s.after L) := by
  have hcosts : Transfer.gas ≠ 0 := by decide
  rcases settle_cases hL with
    ⟨c, rfl, -⟩ | ⟨senderId, a, c, L₁, L₂, L₃, rfl, hid, ha, -, -, hmove, hburn, htip⟩
  · rcases settle_cases hM with ⟨c', rfl, -⟩ | ⟨_, _, _, _, _, _, rfl, _⟩
    · exact h
    · exact absurd hgas hcosts
  · rcases settle_cases hM with
      ⟨c', rfl, -⟩ | ⟨senderId', b, c', M₁, M₂, M₃, rfl, hid', hb, -, -, hmove', hburn', htip'⟩
    · exact absurd hgas.symm hcosts
    · obtain rfl : senderId = senderId' := Option.some.inj (hid.symm.trans (h.resolve _ _ hid'))
      obtain ⟨a', ha', hab⟩ := h.actors senderId b hb
      obtain rfl : a = a' := Option.some.inj (ha.symm.trans ha')
      obtain rfl : c' = c := hcode
      have hcharged := hab.charged
      have h₁ := (h.setActor (hcharged _)).moveValue (hcharged _) hmove hmove'
      exact (h₁.payProtocol hburn hburn').payProtocol htip htip'

end Ledger.PartOf

-- ---------------------------------------------------------------------------
-- Masks that leave out nothing the message touches
-- ---------------------------------------------------------------------------

/-- A masked ledger agrees with the full one on what was retained. -/
theorem Ledger.Masks.agree (h : L.Masks retain M) : L.Agree retain M where
  resolve := by
    intro a ha
    rw [h.resolve, if_pos (Or.inl ha)]
  actors := by
    intro id hid
    by_cases hregistry : id = .registry
    · obtain ⟨head, hhead⟩ := h.registry
      rw [hregistry, hhead, Option.map_map]
      rfl
    · rw [h.actors id hid hregistry]

namespace Transfer

variable {neat neat' : Prop} {base base' : StateTree.Base} {touched : List Address} {m : Memory}
  {blocks : Blocks} {e : Execution} {root : Cid}

/-- A message that can be applied to one state can be applied to another one that agrees on what it
touches, with the same receipt. -/
theorem exec_apply_agrees (hL : StateTree.Stores neat m.get? base L e.preroot)
    (hM : StateTree.Stores neat' m.get? base' M root) (hagree : L.Agree touched M)
    (hm : Ledger.Touching touched e.message) (hfree : CollisionFree blocks) (hwithin : m.Within blocks)
    (hws : ∀ b ∈ m.writes (apply e), blocks b) {outcome : Outcome}
    (hok : (m.exec (apply e)).1 = .ok outcome) :
    ∃ outcome', (m.exec (apply { e with preroot := root })).1 = .ok outcome' ∧
      outcome'.receipt = outcome.receipt := by
  obtain ⟨s, base'', hsettle, hreceipt, hafter⟩ := of_exec_apply hL hfree hwithin hws hok
  have hrel := Ledger.settle_agrees hagree hm
  rw [hsettle] at hrel
  cases hsettle' : M.settle e with
  | none =>
    rw [hsettle'] at hrel
    cases hrel
  | some s' =>
    rw [hsettle'] at hrel
    -- both settle, and in the same way
    obtain ⟨hsame, hagree'⟩ : s'.receipt = s.receipt ∧ (s.after L).Agree touched (s'.after M) := by
      cases hrel with
      | some h => exact h
    have hamends := Ledger.settle_amends hm hsettle
    have hamends' := Ledger.settle_amends hm hsettle'
    -- what is settled on the other ledger can be written too
    have hwritable : ∀ id b, (s'.after M).actors id = some b → ∃ v, b.toCbor? = some v := by
      intro id b hb
      by_cases hid : M.Touches touched id
      · -- the record has the balance of one that has been written
        have htouches := hamends.touches.mpr (hagree.touches.mp hid)
        have hcore := hagree'.actors id htouches
        rw [hb, Option.map_some] at hcore
        obtain ⟨a, ha, heq⟩ := Option.map_eq_some_iff.mp hcore.symm
        have hbalance : a.balance = b.balance := congrArg Prod.snd heq
        have hsome := Option.isSome_iff_exists.mpr (hafter.writable ha)
        rw [Actor.toCbor?_isSome, hbalance, ← Actor.toCbor?_isSome] at hsome
        exact Option.isSome_iff_exists.mp hsome
      · rw [hamends'.frame id hid] at hb
        exact hM.writable hb
    obtain ⟨outcome', hok', hreceipt'⟩ := exec_apply_isOk (e := { e with preroot := root }) hM
      hsettle' (fun id hid => hamends'.actors_ne_none.mp hid) hwritable
    exact ⟨outcome', hok', by rw [hreceipt', hsame, hreceipt]⟩

end Transfer

end ReplayVector
