import ReplayVector.Proofs.Execution.Course
import ReplayVector.Proofs.State.Ledger

/-!
# What transfers do to ledgers

Applying a message is a function of the ledger that the state shows: the message is rejected, or it
is settled and leaves another ledger. The state before the message shows the one, the state after
it the other.

* `Ledger.settle`: what a message does to a ledger.
* `Transfer.on_apply`: applying a message does that.
-/

namespace ReplayVector

open BlockM

/-- How a message ends. -/
inductive Settlement where
  /-- The state is left alone, and nothing is paid for. -/
  | rejected (code : ExitCode)
  /-- Gas is paid for, and value may have moved. -/
  | settled (code : ExitCode) (after : Ledger)

/-- The receipt of a message. -/
def Settlement.receipt : Settlement → Receipt
  | rejected code => .plain code 0
  | settled code _ => .plain code Transfer.gas

/-- The ledger after a message. -/
def Settlement.after (L : Ledger) : Settlement → Ledger
  | rejected _ => L
  | settled _ after => after

namespace Ledger

/-- The balance of an actor grows. -/
def credit (L : Ledger) (id : ActorId) (amount : TokenAmount) : Option Ledger :=
  (L.actors id).map fun a => L.setActor id { a with balance := a.balance + amount }

/-- An actor of the protocol is paid. -/
def payProtocol (L : Ledger) (a : Address) (amount : TokenAmount) : Option Ledger :=
  (L.resolve a).bind fun id => L.credit id amount

/-- The actor that the value of a message goes to, if its address resolves. -/
def beneficiary (L : Ledger) (m : Message) (receiver : ActorId) : Option (Option ActorId) :=
  if m.method ≠ Transfer.forwardMethod then some (some receiver)
  else (Transfer.beneficiaryOf? m.params.val).map L.resolve

/-- The value of a message moves from its sender, who has paid for gas already. -/
def moveValue (L : Ledger) (m : Message) (senderId : ActorId) (sender : Actor) :
    Option (ExitCode × Ledger) :=
  match L.resolve m.receiver with
  | none => some (.invalidReceiver, L)
  | some receiver =>
    if sender.balance < m.value then some (.insufficientFunds, L)
    else
      match L.beneficiary m receiver with
      | none => none
      | some none => some (.notFound, L)
      | some (some id) =>
        ((L.setActor senderId { sender with balance := sender.balance - m.value }).credit id
          m.value).map (.ok, ·)

/-- The sender has paid for gas. -/
def charged (sender : Actor) (cost : TokenAmount) : Actor :=
  { sender with sequence := sender.sequence + 1, balance := sender.balance - cost }

/-- What a message does to a ledger; `none` if it cannot be applied. -/
def settle (L : Ledger) (e : Execution) : Option Settlement :=
  match L.resolve e.message.sender with
  | none => some (.rejected .senderInvalid)
  | some senderId =>
    match L.actors senderId with
    | none => some (.rejected .senderInvalid)
    | some sender =>
      if sender.sequence ≠ e.message.sequence then some (.rejected .senderStateInvalid)
      else
        let burn := e.baseFee.scale Transfer.gas.toNat
        let tip := e.message.gasPremium.scale Transfer.gas.toNat
        if sender.balance < burn + tip then none
        else if sender.sequence + 1 = 0 then none
        else
          let sender := charged sender (burn + tip)
          ((L.setActor senderId sender).moveValue e.message senderId sender).bind fun (code, L) =>
            (L.payProtocol (.id .burnt) burn).bind fun L =>
              (L.payProtocol (.id .reward) tip).map (.settled code)

/-- Value moves or stays where it is, and the exit code tells which. -/
theorem moveValue_cases {L L' : Ledger} {m : Message} {senderId : ActorId} {sender : Actor}
    {code : ExitCode} (h : L.moveValue m senderId sender = some (code, L')) :
    (code ≠ .ok ∧ code ≠ .senderInvalid ∧ code ≠ .senderStateInvalid ∧ L' = L) ∨
      ∃ receiver id, code = .ok ∧ L.resolve m.receiver = some receiver ∧
        ¬sender.balance < m.value ∧ L.beneficiary m receiver = some (some id) ∧
        (L.setActor senderId { sender with balance := sender.balance - m.value }).credit
          id m.value = some L' := by
  unfold moveValue at h
  split at h
  · cases h
    exact Or.inl ⟨by decide, by decide, by decide, rfl⟩
  · next receiver hreceiver =>
    split at h
    · cases h
      exact Or.inl ⟨by decide, by decide, by decide, rfl⟩
    · next hcovered =>
      split at h
      · cases h
      · cases h
        exact Or.inl ⟨by decide, by decide, by decide, rfl⟩
      · next id hbeneficiary =>
        obtain ⟨L'', hcredit, heq⟩ := Option.map_eq_some_iff.mp h
        cases heq
        exact Or.inr ⟨receiver, id, rfl, hreceiver, hcovered, hbeneficiary, hcredit⟩

/-- A message is rejected, or its sender is charged, value moves, and the protocol is paid. -/
theorem settle_cases {L : Ledger} {e : Execution} {s : Settlement} (h : L.settle e = some s) :
    (∃ code, s = .rejected code ∧ (code = .senderInvalid ∨ code = .senderStateInvalid)) ∨
    ∃ senderId sender code L₁ L₂ L₃, s = .settled code L₃ ∧
      L.resolve e.message.sender = some senderId ∧ L.actors senderId = some sender ∧
      sender.sequence + 1 ≠ 0 ∧
      let burn := e.baseFee.scale Transfer.gas.toNat
      let tip := e.message.gasPremium.scale Transfer.gas.toNat
      ¬sender.balance < burn + tip ∧
        (L.setActor senderId (charged sender (burn + tip))).moveValue e.message senderId
          (charged sender (burn + tip)) = some (code, L₁) ∧
        L₁.payProtocol (.id .burnt) burn = some L₂ ∧
        L₂.payProtocol (.id .reward) tip = some L₃ := by
  unfold settle at h
  split at h
  · cases h
    exact Or.inl ⟨_, rfl, Or.inl rfl⟩
  · next senderId hid =>
    split at h
    · cases h
      exact Or.inl ⟨_, rfl, Or.inl rfl⟩
    · next sender hsender =>
      split at h
      · cases h
        exact Or.inl ⟨_, rfl, Or.inr rfl⟩
      · dsimp only at h
        split at h
        · cases h
        · next hcovered =>
          split at h
          · cases h
          · next hnext =>
            obtain ⟨⟨code, L₁⟩, hmove, h⟩ := Option.bind_eq_some_iff.mp h
            obtain ⟨L₂, hburn, h⟩ := Option.bind_eq_some_iff.mp h
            obtain ⟨L₃, htip, rfl⟩ := Option.map_eq_some_iff.mp h
            exact Or.inr ⟨senderId, sender, code, L₁, L₂, L₃, rfl, hid, hsender, hnext, hcovered,
              hmove, hburn, htip⟩

end Ledger

/-! ## The course of a message -/

/-- A way to say what computations on trees do to ledgers, which goes along their structure. A
computation ends with a value and another ledger, or with neither. -/
structure TreeM.Tracks (J : {α : Type} → TreeM α → Ledger → Option (α × Ledger) → Prop) : Prop where
  pure : ∀ {α : Type} (a : α) (L : Ledger), J (pure a : TreeM α) L (some (a, L))
  fail : ∀ {α : Type} (f : Failure) (L : Ledger), J (BlockM.fail f : TreeM α) L none
  bind : ∀ {α β : Type} {x : TreeM α} {f : α → TreeM β} {L L' : Ledger} {a : α}
    {r : Option (β × Ledger)}, J x L (some (a, L')) → J (f a) L' r → J (x >>= f) L r
  bind_none : ∀ {α β : Type} {x : TreeM α} {f : α → TreeM β} {L : Ledger},
    J x L none → J (x >>= f) L none
  resolve : ∀ (a : Address) (L : Ledger), J (TreeM.resolve a) L (some (L.resolve a, L))
  getActor : ∀ (id : ActorId) (L : Ledger), J (TreeM.getActor id) L (some (L.actors id, L))
  setActor : ∀ {id : ActorId} {old a : Actor} {L : Ledger}, L.actors id = some old →
    a.head = old.head → J (TreeM.setActor id a) L (some ((), L.setActor id a))

theorem TreeM.tracks_runs (neat : Prop) (view : View) (base : StateTree.Base) :
    Tracks fun {_} => TreeM.Runs neat view base where
  pure := fun a _ => runs_pure a
  fail := fun f _ => runs_fail f
  bind := Runs.bind
  bind_none := Runs.bind_none
  resolve := fun a _ => runs_resolve a
  getActor := fun id _ => runs_getActor id
  setActor := runs_setActor

def Settlement.ending : Settlement → Ending
  | rejected code => .rejected code
  | settled code _ => .settled code

namespace Transfer

variable {J : {α : Type} → TreeM α → Ledger → Option (α × Ledger) → Prop} {L : Ledger}

section

variable (h : TreeM.Tracks J)

include h

theorem tracks_beneficiary (m : Message) (receiver : ActorId) :
    J (beneficiary m receiver) L ((L.beneficiary m receiver).map (·, L)) := by
  rw [beneficiary, Ledger.beneficiary]
  split
  · exact h.pure _ L
  · cases beneficiaryOf? m.params.val with
    | none => exact h.bind_none (h.fail .unworded L)
    | some a => exact h.bind (h.pure a L) (h.resolve a L)

theorem tracks_credit (id : ActorId) (missing : Cause) (amount : TokenAmount) :
    J (credit id missing amount) L ((L.credit id amount).map ((), ·)) := by
  have hget := h.getActor id L
  rw [credit, Ledger.credit]
  cases ha : L.actors id with
  | none =>
    rw [ha] at hget
    exact h.bind hget (h.fail _ L)
  | some a =>
    rw [ha] at hget
    exact h.bind hget (h.setActor ha rfl)

theorem tracks_payProtocol (a : Address) (amount : TokenAmount) :
    J (payProtocol a amount) L ((L.payProtocol a amount).map ((), ·)) := by
  have hresolve := h.resolve a L
  rw [payProtocol, Ledger.payProtocol]
  cases hid : L.resolve a with
  | none =>
    rw [hid] at hresolve
    exact h.bind hresolve (h.fail _ L)
  | some id =>
    rw [hid] at hresolve
    exact h.bind hresolve (tracks_credit h id _ amount)

theorem tracks_moveValue {m : Message} {senderId : ActorId} {sender : Actor}
    (hsender : L.actors senderId = some sender) :
    J (moveValue m senderId sender) L (L.moveValue m senderId sender) := by
  have hresolve := h.resolve m.receiver L
  rw [moveValue, Ledger.moveValue]
  cases hreceiver : L.resolve m.receiver with
  | none =>
    rw [hreceiver] at hresolve
    exact h.bind hresolve (h.pure _ L)
  | some receiver =>
    rw [hreceiver] at hresolve
    refine h.bind hresolve ?_
    dsimp only
    split
    · exact h.pure _ L
    · have hbeneficiary := tracks_beneficiary h m receiver (L := L)
      cases hid : L.beneficiary m receiver with
      | none =>
        rw [hid] at hbeneficiary
        exact h.bind_none hbeneficiary
      | some found =>
        rw [hid] at hbeneficiary
        refine h.bind hbeneficiary ?_
        cases found with
        | none => exact h.pure _ L
        | some id =>
          -- the sender pays first, so that payments to oneself are credited to what is left
          let paid : Actor := { sender with balance := sender.balance - m.value }
          have hset : J (TreeM.setActor senderId paid) L (some ((), L.setActor senderId paid)) :=
            h.setActor hsender rfl
          refine h.bind hset ?_
          have hcredit := tracks_credit h id .missingBeneficiary m.value
            (L := L.setActor senderId paid)
          show J _ _ (((L.setActor senderId paid).credit id m.value).map (ExitCode.ok, ·))
          cases hafter : (L.setActor senderId paid).credit id m.value with
          | none =>
            rw [hafter] at hcredit
            exact h.bind_none hcredit
          | some L' =>
            rw [hafter] at hcredit
            exact h.bind hcredit (h.pure _ L')

/-- Once the sender is charged, value moves and the protocol is paid. -/
private theorem tracks_charged (e : Execution) {senderId : ActorId} {sender : Actor}
    (hsender : L.actors senderId = some sender) (burn tip : TokenAmount) :
    let sender := Ledger.charged sender (burn + tip)
    J (do
        TreeM.setActor senderId sender
        let code ← moveValue e.message senderId sender
        payProtocol (.id .burnt) burn
        payProtocol (.id .reward) tip
        return Ending.settled code) L
      ((((L.setActor senderId sender).moveValue e.message senderId sender).bind fun (code, L) =>
        (L.payProtocol (.id .burnt) burn).bind fun L =>
          (L.payProtocol (.id .reward) tip).map (Settlement.settled code)).map
        fun s => (s.ending, s.after L)) := by
  intro charged
  refine h.bind (h.setActor hsender rfl) ?_
  have hcharged : (L.setActor senderId charged).actors senderId = some charged := by
    rw [Ledger.actors_setActor, if_pos rfl]
  have hmove := tracks_moveValue h (m := e.message) hcharged
  -- each step either fails, and so does the whole, or goes on with the ledger after it
  cases hmoved : (L.setActor senderId charged).moveValue e.message senderId charged with
  | none =>
    rw [hmoved] at hmove
    exact h.bind_none hmove
  | some moved =>
    obtain ⟨code, L₁⟩ := moved
    rw [hmoved] at hmove
    refine h.bind hmove ?_
    have hburn := tracks_payProtocol h (.id .burnt) burn (L := L₁)
    rw [Option.bind_some]
    dsimp only
    cases hburnt : L₁.payProtocol (.id .burnt) burn with
    | none =>
      rw [hburnt] at hburn
      exact h.bind_none hburn
    | some L₂ =>
      rw [hburnt] at hburn
      refine h.bind hburn ?_
      have htip := tracks_payProtocol h (.id .reward) tip (L := L₂)
      rw [Option.bind_some]
      cases htipped : L₂.payProtocol (.id .reward) tip with
      | none =>
        rw [htipped] at htip
        exact h.bind_none htip
      | some L₃ =>
        rw [htipped] at htip
        exact h.bind htip (h.pure _ L₃)

/-- A message takes the course that it is settled by. -/
theorem tracks_course (e : Execution) :
    J (course e) L ((L.settle e).map fun s => (s.ending, s.after L)) := by
  have hresolve := h.resolve e.message.sender L
  rw [course, Ledger.settle]
  cases hid : L.resolve e.message.sender with
  | none =>
    rw [hid] at hresolve
    exact h.bind hresolve (h.pure _ L)
  | some senderId =>
    rw [hid] at hresolve
    refine h.bind hresolve ?_
    have hget := h.getActor senderId L
    dsimp only
    cases hsender : L.actors senderId with
    | none =>
      rw [hsender] at hget
      exact h.bind hget (h.pure _ L)
    | some sender =>
      rw [hsender] at hget
      refine h.bind hget ?_
      dsimp only
      split
      · exact h.pure _ L
      · split
        · exact h.fail _ L
        · split
          · exact h.fail _ L
          · exact tracks_charged h e hsender _ _

end

/-! ## A whole message -/

variable {neat : Prop} {view : View} {base : StateTree.Base} {L' : Ledger}

/-- Applying a message ends as the message is settled, with what the tree is written as. -/
private theorem on_apply {e : Execution} (h : StateTree.Stores neat view base L e.preroot) :
    match L.settle e with
    | none => (apply e).Fails view
    | some (.rejected code) =>
      (apply e).Gives view { receipt := .plain code 0, postroot := e.preroot }
    | some (.settled code L') => ∃ t : StateTree, t.Shows neat view base L' ∧
      (apply e).on view = ((t.write.on view).1.map fun root =>
        { receipt := .plain code gas, postroot := root }, (t.write.on view).2) := by
  obtain ⟨t, hload, ht⟩ := h.gives_load
  have hcourse := tracks_course (TreeM.tracks_runs neat view base) e (L := L)
  rw [apply_eq]
  match hsettle : L.settle e with
  | none =>
    rw [hsettle] at hcourse
    exact hload.fails_bind ((hcourse t ht).bind _)
  | some (.rejected code) =>
    rw [hsettle] at hcourse
    obtain ⟨t', hgives, -⟩ := hcourse t ht
    exact hload.bind (hgives.bind (gives_pure view _))
  | some (.settled code L') =>
    rw [hsettle] at hcourse
    obtain ⟨t', hgives, ht'⟩ := hcourse t ht
    refine ⟨t', ht', ?_⟩
    rw [hload.on_bind, hgives.on_bind]
    exact on_map view _ t'.write

/-- If a message can be applied, the state after it shows what it does to the ledger. -/
theorem of_apply_ok {e : Execution} (h : StateTree.Stores neat view base L e.preroot)
    {outcome : Outcome} {ws : List Block} (happly : (apply e).on view = (.ok outcome, ws)) {view' : View}
    (hsub : Hamt.Within view view') (hws : ∀ b ∈ ws, view' b.cid = some b.data) :
    ∃ s base', L.settle e = some s ∧ outcome.receipt = s.receipt ∧
      StateTree.Stores neat view' base' (s.after L) outcome.postroot := by
  have hon := on_apply h
  match hsettle : L.settle e, hon with
  | none, ⟨f, ws', hfails⟩ =>
    rw [hfails] at happly
    cases happly
  | some (.rejected code), hgives =>
    have hgives' : (apply e).on view = (.ok _, []) := hgives
    rw [hgives'] at happly
    cases happly
    exact ⟨_, base, rfl, rfl, h.actors.mono hsub, h.registered.mono hsub⟩
  | some (.settled code L'), ⟨t, ht, hwritten⟩ =>
    rw [hwritten] at happly
    rcases hwrite : t.write.on view with ⟨f | root, ws'⟩
    · rw [hwrite] at happly
      cases happly
    · rw [hwrite] at happly
      cases happly
      exact ⟨_, _, rfl, rfl, ht.actors.of_write hsub hwrite hws, ht.registered.mono hsub⟩

/-- If a message can be applied, it is settled with the same receipt, whatever becomes of its
writes. -/
theorem settle_of_apply_ok {e : Execution} (h : StateTree.Stores neat view base L e.preroot)
    {outcome : Outcome} (happly : ((apply e).on view).1 = .ok outcome) :
    ∃ s, L.settle e = some s ∧ outcome.receipt = s.receipt := by
  have hon := on_apply h
  match hsettle : L.settle e, hon with
  | none, ⟨f, ws, hfails⟩ =>
    rw [hfails] at happly
    cases happly
  | some (.rejected code), hgives =>
    have hgives' : (apply e).on view = (.ok _, []) := hgives
    rw [hgives'] at happly
    cases happly
    exact ⟨_, rfl, rfl⟩
  | some (.settled code L'), ⟨t, ht, hwritten⟩ =>
    rw [hwritten] at happly
    rcases hwrite : t.write.on view with ⟨f | root, ws⟩
    · rw [hwrite] at happly
      cases happly
    · rw [hwrite] at happly
      cases happly
      exact ⟨_, rfl, rfl⟩

/-- A message that is settled can be applied, if no actor comes up and all records can be
written. -/
theorem apply_isOk {e : Execution} (h : StateTree.Stores neat view base L e.preroot)
    {s : Settlement} (hsettle : L.settle e = some s)
    (hactors : ∀ id, (s.after L).actors id ≠ none → L.actors id ≠ none)
    (hwritable : ∀ id a, (s.after L).actors id = some a → ∃ v, a.toCbor? = some v) :
    ∃ outcome ws, (apply e).on view = (.ok outcome, ws) ∧ outcome.receipt = s.receipt := by
  have hon := on_apply h
  rw [hsettle] at hon
  match s, hon with
  | .rejected code, hgives => exact ⟨_, [], hgives, rfl⟩
  | .settled code L', ⟨t, ht, hwritten⟩ =>
    obtain ⟨r, -, -, hstores, hbase⟩ := h.actors
    have hroom : ¬StateTree.Overfull base t.known := by
      refine ht.actors.not_overfull fun id hid => ?_
      rw [hbase]
      exact hactors id hid
    have hflushed : Hamt.Writable Actor.packing (StateTree.flushed base t) := by
      intro key a ha
      rcases ht.actors.flushed_eq key with heq | ⟨id, rfl⟩
      · exact hstores.writable Actor.packing_lawful key a (heq ▸ ha)
      · rw [ht.actors.flushed_key] at ha
        exact hwritable id a ha
    rcases ht.actors.write_ok_or with ⟨root, ws, hwrite⟩ | ⟨-, hfull | hnot⟩
    · rw [hwrite] at hwritten
      exact ⟨_, ws, hwritten, rfl⟩
    · exact (hroom hfull).elim
    · exact (hnot hflushed).elim

end Transfer

end ReplayVector
