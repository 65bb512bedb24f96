import ReplayVector.Proofs.Execution.Touched

/-!
# Sequence numbers

A message that gets past the checks of its sender raises the sequence number of that one actor, and
no other message does. What the checks depend on, besides the message, is which address stands for
which ID and the sender's sequence number. So two ledgers that agree on these for one sender stay in
agreement when they apply the same messages of that sender, whatever the messages of others do to
their balances.

* `Ledger.settle_admission`: what a message does to sequence numbers, and its exit code.
* `Ledger.Parallel`: ledgers that agree on one sender.
* `Ledger.Parallel.receipts`: how a message of that sender ends on both.
-/

namespace ReplayVector.Ledger

variable {L L' M M' : Ledger} {m : Message} {e e' : Execution} {a : Address}

-- ---------------------------------------------------------------------------
-- Sequence numbers
-- ---------------------------------------------------------------------------

/-- The sequence number of an actor, if it is there. -/
def sequence (L : Ledger) (id : ActorId) : Option UInt64 := (L.actors id).map (·.sequence)

theorem sequence_eq {id : ActorId} {actor : Actor} (h : L.actors id = some actor) :
    L.sequence id = some actor.sequence := by
  rw [sequence, h]
  rfl

theorem sequence_setActor (L : Ledger) (id : ActorId) (actor : Actor) :
    (L.setActor id actor).sequence = Function.update L.sequence id (some actor.sequence) := by
  funext j
  rw [sequence, actors_setActor, Function.update_apply]
  split
  · rfl
  · rfl

/-- A record with the sequence number of the one before changes no sequence number. -/
theorem sequence_setActor_same {id : ActorId} {actor : Actor}
    (h : L.sequence id = some actor.sequence) : (L.setActor id actor).sequence = L.sequence := by
  rw [sequence_setActor, ← h]
  exact Function.update_eq_self id L.sequence

theorem sequence_credit {id : ActorId} {amount : TokenAmount} (h : L.credit id amount = some L') :
    L'.sequence = L.sequence := by
  obtain ⟨actor, hactor, rfl⟩ := Option.map_eq_some_iff.mp h
  have hsame : L.sequence id = some actor.sequence := sequence_eq hactor
  exact sequence_setActor_same hsame

theorem sequence_payProtocol {amount : TokenAmount} (h : L.payProtocol a amount = some L') :
    L'.sequence = L.sequence := by
  obtain ⟨id, -, h⟩ := Option.bind_eq_some_iff.mp h
  exact sequence_credit h

/-- Value moves without sequence numbers. -/
theorem sequence_moveValue {senderId : ActorId} {sender : Actor} {code : ExitCode}
    (hsender : L.sequence senderId = some sender.sequence)
    (h : L.moveValue m senderId sender = some (code, L')) : L'.sequence = L.sequence := by
  rcases moveValue_cases h with ⟨-, -, -, rfl⟩ | ⟨receiver, id, -, -, -, -, hcredit⟩
  · rfl
  · rw [sequence_credit hcredit]
    exact sequence_setActor_same hsender

-- ---------------------------------------------------------------------------
-- What a message does
-- ---------------------------------------------------------------------------

/-- The actor that a message is accepted from, or the exit code that rejects it. -/
def admission (L : Ledger) (m : Message) : Except ExitCode ActorId :=
  match L.resolve m.sender with
  | none => .error .senderInvalid
  | some id =>
    match L.sequence id with
    | none => .error .senderInvalid
    | some n => if n ≠ m.sequence then .error .senderStateInvalid else .ok id

/-- How a message ends whose value its sender has: its addresses decide. -/
def route (L : Ledger) (m : Message) : ExitCode :=
  match L.resolve m.receiver with
  | none => .invalidReceiver
  | some receiver =>
    match L.beneficiary m receiver with
    | some (some _) => .ok
    | _ => .notFound

theorem resolve_congr (h : M.ids = L.ids) (b : Address) : M.resolve b = L.resolve b := by
  rw [resolve, resolve, h]

theorem route_congr (h : M.ids = L.ids) (m : Message) : M.route m = L.route m := by
  have hbeneficiary (receiver : ActorId) : M.beneficiary m receiver = L.beneficiary m receiver := by
    rw [beneficiary, beneficiary, funext (resolve_congr h)]
  rw [route, route, resolve_congr h]
  simp only [hbeneficiary]

/-- If a message does not end as its addresses decide, its value is what its sender lacks. -/
theorem moveValue_code {senderId : ActorId} {sender : Actor} {code : ExitCode}
    (h : L.moveValue m senderId sender = some (code, L')) :
    code = .insufficientFunds ∨ code = L.route m := by
  unfold moveValue at h
  split at h
  · next hreceiver =>
    cases h
    exact Or.inr (by rw [route, hreceiver])
  · next receiver hreceiver =>
    split at h
    · cases h
      exact Or.inl rfl
    · split at h
      · cases h
      · next hid =>
        cases h
        exact Or.inr (by simp only [route, hreceiver, hid])
      · next id hid =>
        obtain ⟨L'', -, heq⟩ := Option.map_eq_some_iff.mp h
        cases heq
        exact Or.inr (by simp only [route, hreceiver, hid])

/-- The addresses of a message stand for what they stood for. -/
theorem ids_settle {s : Settlement} (h : L.settle e = some s) : (s.after L).ids = L.ids := by
  obtain ⟨touched, hm⟩ := exists_touching e.message
  exact (settle_amends hm h).ids

theorem admission_eq_ok {senderId : ActorId} {sender : Actor} (hid : L.resolve m.sender = some senderId)
    (hsender : L.actors senderId = some sender) :
    L.admission m =
      if sender.sequence ≠ m.sequence then .error .senderStateInvalid else .ok senderId := by
  rw [admission, hid]
  dsimp only
  rw [sequence_eq hsender]

/-- A message is rejected with the exit code of its checks, or the sequence number of its sender goes
up by one and all others stay. -/
theorem settle_admission {s : Settlement} (h : L.settle e = some s) :
    (∃ code, L.admission e.message = .error code ∧ s = .rejected code) ∨
    ∃ id code L', L.admission e.message = .ok id ∧ s = .settled code L' ∧
      L'.sequence = Function.update L.sequence id (some (e.message.sequence + 1)) ∧
      (code = .insufficientFunds ∨ code = L.route e.message) := by
  unfold settle at h
  split at h
  · next hid =>
    cases h
    exact Or.inl ⟨_, by rw [admission, hid], rfl⟩
  · next senderId hid =>
    split at h
    · next hsender =>
      cases h
      exact Or.inl ⟨_, by simp only [admission, hid, sequence, hsender, Option.map_none], rfl⟩
    · next sender hsender =>
      have hadmission := admission_eq_ok hid hsender
      split at h
      · next hne =>
        cases h
        exact Or.inl ⟨_, by rw [hadmission, if_pos hne], rfl⟩
      · next heq =>
        rw [if_neg heq] at hadmission
        dsimp only at h
        split at h
        · cases h
        · split at h
          · cases h
          · obtain ⟨⟨code, L₁⟩, hmove, h⟩ := Option.bind_eq_some_iff.mp h
            obtain ⟨L₂, hburn, h⟩ := Option.bind_eq_some_iff.mp h
            obtain ⟨L₃, htip, rfl⟩ := Option.map_eq_some_iff.mp h
            -- the sender is charged first; nothing after that changes a sequence number
            have hcharged : L₁.sequence =
                Function.update L.sequence senderId (some (sender.sequence + 1)) := by
              refine (sequence_moveValue ?_ hmove).trans (sequence_setActor L senderId _)
              rw [sequence_setActor, Function.update_self]
            have hroute : code = .insufficientFunds ∨ code = L.route e.message :=
              (moveValue_code hmove).imp_right fun h => h.trans (route_congr rfl e.message)
            refine Or.inr ⟨senderId, code, L₃, hadmission, rfl, ?_, hroute⟩
            rw [sequence_payProtocol htip, sequence_payProtocol hburn, hcharged, not_ne_iff.mp heq]

-- ---------------------------------------------------------------------------
-- Two ledgers
-- ---------------------------------------------------------------------------

/-- The ledgers agree on what addresses stand for, and on the sequence number of one actor. -/
structure Parallel (a : Address) (L M : Ledger) : Prop where
  ids : M.ids = L.ids
  sequence : ∀ id, L.resolve a = some id → M.sequence id = L.sequence id

theorem Parallel.refl (a : Address) (L : Ledger) : L.Parallel a L := ⟨rfl, fun _ _ => rfl⟩

/-- The checks of the sender come to the same on both. -/
theorem Parallel.admission (h : L.Parallel m.sender M) : M.admission m = L.admission m := by
  rw [Ledger.admission, Ledger.admission, resolve_congr h.ids]
  cases hid : L.resolve m.sender with
  | none => rfl
  | some id =>
    dsimp only
    rw [h.sequence id hid]

/-- A message is only accepted from the actor that its sender stands for. -/
theorem resolve_of_admission {id : ActorId} (h : L.admission m = .ok id) :
    L.resolve m.sender = some id := by
  unfold Ledger.admission at h
  split at h
  · cases h
  · next id' hid =>
    split at h
    · cases h
    · split at h
      · cases h
      · cases h
        exact hid

/-- A message of the sender is applied to both. -/
theorem Parallel.settle_both (h : L.Parallel m.sender M) (he : e.message = m) (he' : e'.message = m)
    {s s' : Settlement} (hL : L.settle e = some s) (hM : M.settle e' = some s') :
    (s.after L).Parallel m.sender (s'.after M) where
  ids := by rw [ids_settle hL, ids_settle hM, h.ids]
  sequence := by
    intro id hid
    rw [resolve_congr (ids_settle hL)] at hid
    have hadmission := h.admission
    rcases settle_admission hL with ⟨c, hc, rfl⟩ | ⟨i, c, L', hi, rfl, hL', -⟩
    · rcases settle_admission hM with ⟨c', -, rfl⟩ | ⟨i', c', M', hi', -⟩
      · exact h.sequence id hid
      · rw [he, ← hadmission, ← he', hi'] at hc
        cases hc
    · rcases settle_admission hM with ⟨c', hc', -⟩ | ⟨i', c', M', hi', rfl, hM', -⟩
      · rw [he, ← hadmission, ← he', hc'] at hi
        cases hi
      · rw [he', hadmission, ← he, hi] at hi'
        obtain rfl : i = i' := Except.ok.inj hi'
        show M'.sequence id = L'.sequence id
        rw [hL', hM', he, he', Function.update_apply, Function.update_apply, h.sequence id hid]

/-- A message of another actor is applied to one of them. -/
theorem Parallel.settle_left (h : L.Parallel a M)
    (hother : ∀ id, L.resolve e.message.sender = some id → L.resolve a ≠ some id)
    {s : Settlement} (hL : L.settle e = some s) : (s.after L).Parallel a M where
  ids := by rw [ids_settle hL, h.ids]
  sequence := by
    intro id hid
    rw [resolve_congr (ids_settle hL)] at hid
    rw [h.sequence id hid]
    rcases settle_admission hL with ⟨c, -, rfl⟩ | ⟨i, c, L', hi, rfl, hL', -⟩
    · rfl
    · have hne : id ≠ i := fun heq => hother i (resolve_of_admission hi) (heq ▸ hid)
      show L.sequence id = L'.sequence id
      rw [hL', Function.update_of_ne hne]

/-- A message of the sender ends on both with the same gas, and with the same exit code unless its
value is lacking on just one of them. -/
theorem Parallel.receipts (h : L.Parallel m.sender M) (he : e.message = m) (he' : e'.message = m)
    {s s' : Settlement} (hL : L.settle e = some s) (hM : M.settle e' = some s') :
    s'.receipt.gasUsed = s.receipt.gasUsed ∧
      (s.receipt.exitCode = s'.receipt.exitCode ∨
        Xor (s.receipt.exitCode = .insufficientFunds) (s'.receipt.exitCode = .insufficientFunds)) := by
  have hadmission := h.admission
  rcases settle_admission hL with ⟨c, hc, rfl⟩ | ⟨i, c, L', hi, rfl, -, hcode⟩
  · rcases settle_admission hM with ⟨c', hc', rfl⟩ | ⟨i', c', M', hi', -⟩
    · rw [he', hadmission, ← he, hc] at hc'
      cases hc'
      exact ⟨rfl, Or.inl rfl⟩
    · rw [he, ← hadmission, ← he', hi'] at hc
      cases hc
  · rcases settle_admission hM with ⟨c', hc', -⟩ | ⟨i', c', M', hi', rfl, -, hcode'⟩
    · rw [he, ← hadmission, ← he', hc'] at hi
      cases hi
    · refine ⟨rfl, ?_⟩
      show c = c' ∨ Xor (c = .insufficientFunds) (c' = .insufficientFunds)
      -- the addresses decide alike on both, unless funds are lacking
      rw [he', route_congr h.ids] at hcode'
      rw [he] at hcode
      by_cases hlack : c = .insufficientFunds
      · by_cases hlack' : c' = .insufficientFunds
        · exact Or.inl (hlack.trans hlack'.symm)
        · exact Or.inr (Or.inl ⟨hlack, hlack'⟩)
      · by_cases hlack' : c' = .insufficientFunds
        · exact Or.inr (Or.inr ⟨hlack', hlack⟩)
        · exact Or.inl ((hcode.resolve_left hlack).trans (hcode'.resolve_left hlack').symm)

end ReplayVector.Ledger
