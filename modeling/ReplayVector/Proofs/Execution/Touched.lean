import ReplayVector.Proofs.Execution.Settlement

/-!
# What a message touches

What a message does to a ledger is up to the addresses that it touches: those of its parties and of
the protocol's actors. On ledgers that agree on these, the message ends in the same way, and all
other actors stay as they are.

* `Ledger.settle_amends`: no other actors change.
* `Ledger.settle_agrees`: on ledgers that agree, a message ends in the same way.
-/

namespace ReplayVector.Ledger

/-- A message touches its parties and the actors that are paid for gas. -/
structure Touching (touched : List Address) (m : Message) : Prop where
  sender : m.sender ∈ touched
  receiver : m.receiver ∈ touched
  beneficiary : m.method = Transfer.forwardMethod → ∀ a,
    Transfer.beneficiaryOf? m.params.val = some a → a ∈ touched
  burnt : .id .burnt ∈ touched
  reward : .id .reward ∈ touched

/-- Every message touches some addresses. -/
theorem exists_touching (m : Message) : ∃ touched, Touching touched m := by
  refine ⟨[m.sender, m.receiver, .id .burnt, .id .reward] ++
    (Transfer.beneficiaryOf? m.params.val).toList, ?_, ?_, ?_, ?_, ?_⟩
  · simp
  · simp
  · intro _ a ha
    simp [ha]
  · simp
  · simp

variable {touched : List Address} {L L' M : Ledger}

/-! ## Other actors -/

/-- Some actors have other balances and sequence numbers, and everything else is as before. -/
structure Amends (touched : List Address) (L L' : Ledger) : Prop where
  ids : L'.ids = L.ids
  links : ∀ id, (L'.actors id).map (fun a => (a.code, a.head)) =
    (L.actors id).map fun a => (a.code, a.head)
  frame : ∀ id, ¬L.Touches touched id → L'.actors id = L.actors id

theorem Amends.refl (touched : List Address) (L : Ledger) : L.Amends touched L :=
  ⟨rfl, fun _ => rfl, fun _ _ => rfl⟩

/-- Changes to actors leave the numbers of addresses alone. -/
theorem Amends.resolve (h : L.Amends touched L') (a : Address) : L'.resolve a = L.resolve a := by
  rw [Ledger.resolve, Ledger.resolve, h.ids]

/-- So the same actors are touched. -/
theorem Amends.touches (h : L.Amends touched L') {id : ActorId} :
    L'.Touches touched id ↔ L.Touches touched id := by
  simp only [Touches, h.resolve]

/-- One change after the other. -/
theorem Amends.trans {L'' : Ledger} (h : L.Amends touched L') (h' : L'.Amends touched L'') :
    L.Amends touched L'' where
  ids := h'.ids.trans h.ids
  links := fun id => (h'.links id).trans (h.links id)
  frame := fun id hid =>
    (h'.frame id fun hid' => hid (h.touches.mp hid')).trans (h.frame id hid)

/-- Setting an actor that is touched, its code and state kept, is such a change. -/
theorem amends_setActor {id : ActorId} {old a : Actor} (hid : L.Touches touched id)
    (hold : L.actors id = some old) (hcode : a.code = old.code) (hhead : a.head = old.head) :
    L.Amends touched (L.setActor id a) where
  ids := rfl
  links := by
    intro j
    rw [actors_setActor]
    split
    · next hj => rw [hj, hold, Option.map_some, Option.map_some, hcode, hhead]
    · rfl
  frame := by
    intro j hj
    rw [actors_setActor, if_neg fun heq : j = id => hj (heq ▸ hid)]

/-- A credit to an actor that is touched is one. -/
theorem credit_amends {id : ActorId} (hid : L.Touches touched id) {amount : TokenAmount}
    (h : L.credit id amount = some L') : L.Amends touched L' := by
  obtain ⟨a, ha, rfl⟩ := Option.map_eq_some_iff.mp h
  exact amends_setActor hid ha rfl rfl

/-- So is a payment to an address that is. -/
theorem payProtocol_amends {a : Address} (ha : a ∈ touched) {amount : TokenAmount}
    (h : L.payProtocol a amount = some L') : L.Amends touched L' := by
  obtain ⟨id, hid, h⟩ := Option.bind_eq_some_iff.mp h
  exact credit_amends ⟨a, ha, hid⟩ h

/-- The actor that value goes to is touched. -/
theorem Touching.of_beneficiary {m : Message} (hm : Touching touched m) {receiver id : ActorId}
    (hreceiver : L.resolve m.receiver = some receiver)
    (h : L.beneficiary m receiver = some (some id)) : L.Touches touched id := by
  rw [Ledger.beneficiary] at h
  split at h
  · cases h
    exact ⟨_, hm.receiver, hreceiver⟩
  · next hmethod =>
    obtain ⟨a, ha, hid⟩ := Option.map_eq_some_iff.mp h
    exact ⟨a, hm.beneficiary (by simpa using hmethod) a ha, hid⟩

/-- A transfer of value changes its sender and whom it pays, both of them touched. -/
theorem moveValue_amends {m : Message} (hm : Touching touched m) {senderId : ActorId}
    (hid : L.Touches touched senderId) {sender : Actor} (hsender : L.actors senderId = some sender)
    {code : ExitCode} (h : L.moveValue m senderId sender = some (code, L')) :
    L.Amends touched L' := by
  rcases moveValue_cases h with
    ⟨-, -, -, rfl⟩ | ⟨receiver, id, -, hreceiver, -, hbeneficiary, hcredit⟩
  · exact .refl touched _
  · refine (amends_setActor hid hsender ?_ ?_).trans (credit_amends ?_ hcredit)
    · rfl
    · rfl
    · exact hm.of_beneficiary hreceiver hbeneficiary

/-- A message changes no actors but those it touches, and no states of actors. -/
theorem settle_amends {e : Execution} (hm : Touching touched e.message) {s : Settlement}
    (h : L.settle e = some s) : L.Amends touched (s.after L) := by
  rcases settle_cases h with ⟨code, rfl, -⟩ |
    ⟨senderId, sender, code, L₁, L₂, L₃, rfl, hid, hsender, -, -, hmove, hburn, htip⟩
  · exact .refl touched L
  · have htouches : L.Touches touched senderId := ⟨_, hm.sender, hid⟩
    have hcharge (cost : TokenAmount) :
        L.Amends touched (L.setActor senderId (charged sender cost)) :=
      amends_setActor htouches hsender rfl rfl
    refine (hcharge _).trans ((moveValue_amends hm ?_ ?_ hmove).trans
      ((payProtocol_amends hm.burnt hburn).trans (payProtocol_amends hm.reward htip)))
    · exact (hcharge _).touches.mpr htouches
    · rw [actors_setActor, if_pos rfl]

/-- No actor appears and none is lost. -/
theorem Amends.actors_ne_none (h : L.Amends touched L') {id : ActorId} :
    L'.actors id ≠ none ↔ L.actors id ≠ none := by
  have hlinks := h.links id
  cases hL : L.actors id <;> cases hL' : L'.actors id <;> simp_all

/-! ## The same end -/

/-- Related values have related images. -/
private theorem rel_map {α β γ δ : Type} {r : α → β → Prop} {s : γ → δ → Prop} {f : α → γ}
    {g : β → δ} {x : Option α} {y : Option β} (h : Option.Rel r x y)
    (hfg : ∀ a b, r a b → s (f a) (g b)) : Option.Rel s (x.map f) (y.map g) := by
  cases h with
  | none => exact .none
  | some hr => exact .some (hfg _ _ hr)

/-- Related values may be gone on with in related ways. -/
private theorem rel_bind {α β γ δ : Type} {r : α → β → Prop} {s : γ → δ → Prop}
    {f : α → Option γ} {g : β → Option δ} {x : Option α} {y : Option β} (h : Option.Rel r x y)
    (hfg : ∀ a b, r a b → Option.Rel s (f a) (g b)) : Option.Rel s (x.bind f) (y.bind g) := by
  cases h with
  | none => exact .none
  | some hr => exact hfg _ _ hr

/-- What the course of a message depends on. -/
def core (a : Actor) : UInt64 × TokenAmount := (a.sequence, a.balance)

/-- The ledgers agree on what is touched. -/
structure Agree (touched : List Address) (L M : Ledger) : Prop where
  resolve : ∀ a ∈ touched, M.resolve a = L.resolve a
  actors : ∀ id, L.Touches touched id → (M.actors id).map core = (L.actors id).map core

/-- Ledgers that agree on some addresses have the same actors for them. -/
theorem Agree.touches (h : L.Agree touched M) {id : ActorId} :
    M.Touches touched id ↔ L.Touches touched id := by
  constructor
  · rintro ⟨a, ha, hid⟩
    exact ⟨a, ha, (h.resolve a ha).symm.trans hid⟩
  · rintro ⟨a, ha, hid⟩
    exact ⟨a, ha, (h.resolve a ha).trans hid⟩

theorem Agree.symm (h : L.Agree touched M) : M.Agree touched L where
  resolve := fun a ha => (h.resolve a ha).symm
  actors := fun id hid => (h.actors id (h.touches.mp hid)).symm

/-- They agree after the same change on both sides. -/
theorem Agree.setActor (h : L.Agree touched M) (id : ActorId) {a b : Actor}
    (hcore : core b = core a) : (L.setActor id a).Agree touched (M.setActor id b) where
  resolve := h.resolve
  actors := by
    intro j hj
    rw [actors_setActor, actors_setActor]
    split
    · rw [Option.map_some, Option.map_some, hcore]
    · exact h.actors j hj

/-- Touched actors are there in both ledgers or in none. -/
theorem Agree.actor (h : L.Agree touched M) {id : ActorId} (hid : L.Touches touched id) :
    Option.Rel (fun a b => core b = core a) (L.actors id) (M.actors id) := by
  have hcore := h.actors id hid
  cases ha : L.actors id with
  | none =>
    rw [ha, Option.map_none, Option.map_eq_none_iff] at hcore
    rw [hcore]
    exact .none
  | some a =>
    rw [ha, Option.map_some, Option.map_eq_some_iff] at hcore
    obtain ⟨b, hb, heq⟩ := hcore
    rw [hb]
    exact .some heq

/-- A credit to an actor that is touched comes out alike. -/
theorem Agree.credit (h : L.Agree touched M) {id : ActorId} (hid : L.Touches touched id)
    (amount : TokenAmount) :
    Option.Rel (Agree touched) (L.credit id amount) (M.credit id amount) := by
  refine rel_map (h.actor hid) fun a b hcore => h.setActor id ?_
  simp only [core, Prod.mk.injEq] at hcore ⊢
  rw [hcore.1, hcore.2]
  exact ⟨rfl, rfl⟩

/-- So does a payment. -/
theorem Agree.payProtocol (h : L.Agree touched M) {a : Address} (ha : a ∈ touched)
    (amount : TokenAmount) :
    Option.Rel (Agree touched) (L.payProtocol a amount) (M.payProtocol a amount) := by
  rw [Ledger.payProtocol, Ledger.payProtocol, h.resolve a ha]
  cases hid : L.resolve a with
  | none => exact .none
  | some id => exact h.credit ⟨a, ha, hid⟩ amount

/-- A message pays the same actor on both sides. -/
theorem Agree.beneficiary (h : L.Agree touched M) {m : Message} (hm : Touching touched m)
    (receiver : ActorId) : M.beneficiary m receiver = L.beneficiary m receiver := by
  rw [Ledger.beneficiary, Ledger.beneficiary]
  split
  · rfl
  · next hmethod =>
    cases ha : Transfer.beneficiaryOf? m.params.val with
    | none => rfl
    | some a =>
      rw [Option.map_some, Option.map_some,
        h.resolve a (hm.beneficiary (by simpa using hmethod) a ha)]

/-- A transfer of value ends alike, and the ledgers agree afterwards. -/
theorem Agree.moveValue (h : L.Agree touched M) {m : Message} (hm : Touching touched m)
    (senderId : ActorId) {sender sender' : Actor} (hcore : core sender' = core sender) :
    Option.Rel (fun r r' => r'.1 = r.1 ∧ r.2.Agree touched r'.2)
      (L.moveValue m senderId sender) (M.moveValue m senderId sender') := by
  have hbalance : sender'.balance = sender.balance := congrArg Prod.snd hcore
  have hsequence : sender'.sequence = sender.sequence := congrArg Prod.fst hcore
  rw [Ledger.moveValue, Ledger.moveValue, h.resolve _ hm.receiver]
  cases hreceiver : L.resolve m.receiver with
  | none => exact .some ⟨rfl, h⟩
  | some receiver =>
    dsimp only
    rw [hbalance, h.beneficiary hm]
    split
    · exact .some ⟨rfl, h⟩
    · cases hid : L.beneficiary m receiver with
      | none => exact .none
      | some found =>
        cases found with
        | none => exact .some ⟨rfl, h⟩
        | some id =>
          have hpaid : (L.setActor senderId { sender with balance := sender.balance - m.value }).Agree
              touched (M.setActor senderId
                { sender' with balance := sender.balance - m.value }) :=
            h.setActor senderId (by rw [core, core, hsequence])
          exact rel_map (hpaid.credit (hm.of_beneficiary hreceiver hid) m.value)
            fun L' M' hafter => ⟨rfl, hafter⟩

/-- On ledgers that agree on what a message touches, it ends in the same way, and the ledgers after
it agree too. -/
theorem settle_agrees (h : L.Agree touched M) {e : Execution} (hm : Touching touched e.message) :
    Option.Rel (fun s s' => s'.receipt = s.receipt ∧ (s.after L).Agree touched (s'.after M))
      (L.settle e) (M.settle e) := by
  rw [settle, settle, h.resolve _ hm.sender]
  cases hid : L.resolve e.message.sender with
  | none => exact .some ⟨rfl, h⟩
  | some senderId =>
    dsimp only
    have hactor := h.actor ⟨_, hm.sender, hid⟩
    cases hsender : L.actors senderId with
    | none =>
      rw [hsender] at hactor
      cases hsender' : M.actors senderId with
      | none => exact .some ⟨rfl, h⟩
      | some sender' =>
        rw [hsender'] at hactor
        cases hactor
    | some sender =>
      rw [hsender] at hactor
      cases hsender' : M.actors senderId with
      | none =>
        rw [hsender'] at hactor
        cases hactor
      | some sender' =>
        rw [hsender'] at hactor
        obtain ⟨hcore⟩ := hactor
        -- the sender has the same sequence and balance, so the same checks pass
        have hsequence : sender'.sequence = sender.sequence := congrArg Prod.fst hcore
        have hbalance : sender'.balance = sender.balance := congrArg Prod.snd hcore
        dsimp only
        rw [hsequence, hbalance]
        split
        · exact .some ⟨rfl, h⟩
        · split
          · exact .none
          · split
            · exact .none
            · -- the steps from here on keep the agreement, one after the other
              have hcharged (cost : TokenAmount) :
                  core (charged sender' cost) = core (charged sender cost) := by
                rw [core, core, charged, charged, hsequence, hbalance]
              refine rel_bind ((h.setActor senderId (hcharged _)).moveValue hm senderId
                (hcharged _)) fun r r' hr => ?_
              refine rel_bind (hr.2.payProtocol hm.burnt _) fun L₂ M₂ h₂ => ?_
              refine rel_map (h₂.payProtocol hm.reward _) fun L₃ M₃ h₃ => ?_
              exact ⟨by rw [hr.1]; rfl, h₃⟩

end ReplayVector.Ledger
