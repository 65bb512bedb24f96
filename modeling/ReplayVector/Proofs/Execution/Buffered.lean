import ReplayVector.Proofs.Execution.Insists
import ReplayVector.Proofs.State.Recalled
import ReplayVector.Proofs.Store.Surveys

/-!
# Transfers whose writes are kept aside

An engine that buffers does what an engine that writes through does, but for the writing, whatever
the store holds. What it keeps aside is what the other one writes, and the state after the message
can be loaded as soon as that is in the store.

The last point needs a look at what transfers change. The store may hold anything, so all that is
known of the tree in memory is what was read into it. But a transfer only changes actors that it has
found, so no node of their map gets another branch; and it gives its sender another sequence number,
so the root of the map is always written anew.

* `Transfer.ensures_course`: what the course of a message makes of a tree.
* `Transfer.gives_load_of_apply`: the state after a message.
* `Transfer.engine_buffered`: the two modes.
-/

namespace ReplayVector

open BlockM

/-- What one step ensures may be used for the next. -/
theorem TreeM.ensures_bind {α β : Type} {x : TreeM α} {f : α → TreeM β} {t : StateTree}
    {P : α × StateTree → Prop} {Q : β × StateTree → Prop} (hx : (x t).Ensures P)
    (hf : ∀ a t', P (a, t') → (f a t').Ensures Q) : ((x >>= f) t).Ensures Q :=
  Ensures.bind hx fun r hr => hf r.1 r.2 hr

namespace Transfer

open StateTree (Kept)

variable {charged : Option (ActorId × UInt64)} {s : ActorId} {n : UInt64} {t : StateTree}

-- ---------------------------------------------------------------------------
-- What is kept
-- ---------------------------------------------------------------------------

/-- Resolving an address keeps what is charged. -/
theorem ensures_resolve (h : t.Kept charged) (a : Address) :
    (TreeM.resolve a t).Ensures fun r => r.2.Kept charged := (h.ensures_findId a).summarize _

/-- So does getting an actor, which is remembered then. -/
theorem ensures_getActor (h : t.Kept charged) (id : ActorId) :
    (TreeM.getActor id t).Ensures fun r =>
      r.2.Kept charged ∧ ∀ a, r.1 = some a → r.2.Holds id a :=
  (h.ensures_findActor id).summarize _

/-- Whom a message pays is found by resolving. -/
theorem ensures_beneficiary (h : t.Kept charged) (m : Message) (receiver : ActorId) :
    (beneficiary m receiver t).Ensures fun r => r.2.Kept charged := by
  unfold beneficiary
  split
  · exact ensures_pure h
  · cases beneficiaryOf? m.params.val with
    | none => exact ensures_fail _
    | some a => exact ensures_resolve h a

/-- A credit changes a balance and no sequence number. -/
theorem ensures_credit (h : t.Kept (some (s, n))) (id : ActorId) (missing : Cause)
    (amount : TokenAmount) :
    (credit id missing amount t).Ensures fun r => r.2.Kept (some (s, n)) := by
  refine TreeM.ensures_bind (ensures_getActor h id) fun a t' ht' => ?_
  cases a with
  | none => exact ensures_fail _
  | some a => exact ensures_pure (ht'.1.setActor (ht'.2 a rfl) rfl)

/-- So does a payment. -/
theorem ensures_payProtocol (h : t.Kept (some (s, n))) (a : Address) (amount : TokenAmount) :
    (payProtocol a amount t).Ensures fun r => r.2.Kept (some (s, n)) := by
  refine TreeM.ensures_bind (ensures_resolve h a) fun id t' ht' => ?_
  cases id with
  | none => exact ensures_fail _
  | some id => exact ensures_credit ht' id _ amount

/-- In a transfer of value the sender keeps its next sequence number. -/
theorem ensures_moveValue {m : Message} {sender : Actor} (h : t.Kept (some (s, sender.sequence))) :
    (moveValue m s sender t).Ensures fun r => r.2.Kept (some (s, sender.sequence)) := by
  refine TreeM.ensures_bind (ensures_resolve h m.receiver) fun receiver t₁ h₁ => ?_
  cases receiver with
  | none => exact ensures_pure h₁
  | some receiver =>
    dsimp only
    split
    · exact ensures_pure h₁
    · refine TreeM.ensures_bind (ensures_beneficiary h₁ m receiver) fun id t₂ h₂ => ?_
      cases id with
      | none => exact ensures_pure h₂
      | some id =>
        obtain ⟨k, a, -, hk, -, ha, hsequence, -⟩ := h₂.touched s _ rfl
        have hpaid : (t₂.setActor s { sender with balance := sender.balance - m.value }).Kept _ :=
          h₂.setActor ⟨k, hk, ha⟩ hsequence.symm
        refine TreeM.ensures_bind (P := fun r => r.2.Kept _) (ensures_pure hpaid) fun _ t₃ h₃ => ?_
        refine TreeM.ensures_bind (ensures_credit h₃ id _ m.value) fun _ t₄ h₄ => ?_
        exact ensures_pure h₄

/-- Once a message is settled, its sender has another sequence number than in the map. -/
theorem ensures_course (e : Execution) (h : t.Kept none) :
    (course e t).Ensures fun r => ∀ code, r.1 = .settled code → ∃ s, r.2.Kept (some s) := by
  refine TreeM.ensures_bind (ensures_resolve h e.message.sender) fun senderId t₁ h₁ => ?_
  cases senderId with
  | none => exact ensures_pure nofun
  | some senderId =>
    refine TreeM.ensures_bind (ensures_getActor h₁ senderId) fun sender t₂ ⟨h₂, hsender⟩ => ?_
    cases sender with
    | none => exact ensures_pure nofun
    | some sender =>
      dsimp only
      split
      · exact ensures_pure nofun
      · split
        · exact ensures_fail _
        · split
          · exact ensures_fail _
          · have hnext : sender.sequence + 1 ≠ sender.sequence := by grind
            have hcharged : (t₂.setActor senderId { sender with
              sequence := sender.sequence + 1
              balance := sender.balance -
                (e.baseFee.scale gas.toNat + e.message.gasPremium.scale gas.toNat) }).Kept _ :=
              h₂.charge (hsender sender rfl) hnext
            refine TreeM.ensures_bind (P := fun r => r.2.Kept _) (ensures_pure hcharged)
              fun _ t₃ h₃ => ?_
            refine TreeM.ensures_bind (ensures_moveValue h₃) fun code t₄ h₄ => ?_
            refine TreeM.ensures_bind (ensures_payProtocol h₄ _ _) fun _ t₅ h₅ => ?_
            refine TreeM.ensures_bind (ensures_payProtocol h₅ _ _) fun _ t₆ h₆ => ?_
            exact ensures_pure fun _ _ => ⟨_, h₆⟩

-- ---------------------------------------------------------------------------
-- The state after a message
-- ---------------------------------------------------------------------------

/-- The state after a message can be loaded once what was written is there. -/
theorem gives_load_of_apply {e : Execution} {outcome : Outcome} {m : Memory} {ws : List Block}
    (happly : (apply e).on m.get? = (.ok outcome, ws)) (hfree : CollisionFree fun b => b ∈ ws) :
    ∃ t, (StateTree.load outcome.postroot).Gives (m.putAll ws).get? t := by
  rw [apply_eq] at happly
  obtain ⟨t, ws₁, ws', hload, hrest, rfl⟩ := of_on_bind_ok happly
  obtain ⟨⟨ending, t'⟩, ws₂, ws₃, hcourse, hconclude, rfl⟩ := of_on_bind_ok hrest
  have hloaded := (StateTree.quiet_load e.preroot).on_snd m.get?
  have hcoursed := quiet_course e t |>.on_snd m.get?
  rw [hload] at hloaded
  rw [hcourse] at hcoursed
  obtain rfl : ws₁ = [] := hloaded
  obtain rfl : ws₂ = [] := hcoursed
  cases ending with
  | rejected code =>
    -- nothing has changed
    cases hconclude
    exact ⟨t, hload⟩
  | settled code =>
    have hkept := (StateTree.ensures_load e.preroot).on (congrArg Prod.fst hload)
    obtain ⟨s, ht'⟩ := (ensures_course e hkept).on (congrArg Prod.fst hcourse) code rfl
    obtain ⟨root, ws₄, ws₅, hwrite, hdone, rfl⟩ := of_on_bind_ok hconclude
    cases hdone
    refine ht'.gives_load hwrite fun b hb => ?_
    exact Memory.get?_putAll_of_free hfree (by simpa using hb)

-- ---------------------------------------------------------------------------
-- The two modes
-- ---------------------------------------------------------------------------

/-- Both modes are one survey of the blocks that are there; the engine that writes through goes on
to write what the survey found, and if a store does not take all of that, the tree could not be
flushed. So over any contents of a memory, consistent or not, the one that buffers ends as the other
one does and leaves memory alone, and what it keeps aside is what the other one puts over the old
contents. Among blocks that do not collide, the state after the message is loaded from there. -/
theorem engine_buffered (e : Execution) :
    let through := engine { e with mode := .writeThrough }
    let buffering := engine { e with mode := .buffered }
    (∃ survey : BlockM (Except Failure Outcome × List Block), survey.Quiet ∧
      through = (survey >>= fun found =>
        (writeAll found.2).summarize .flushingTree >>= fun _ => ofExcept found.1) ∧
      buffering = survey >>= fun found => ofExcept found.1) ∧
    ∀ held : Memory,
      held.exec buffering = ((held.exec through).1, held) ∧
      ∀ outcome held', held.exec through = (.ok outcome, held') →
        ∃ kept : Memory, held.exec (through.aside .empty) = (.ok (outcome, kept), held) ∧
          (∀ c, held'.get? c = (kept.get? c).or (held.get? c)) ∧
          (CollisionFree (fun b => b ∈ held.writes through) →
            ∃ t, (StateTree.load outcome.postroot).Gives held'.get? t) := by
  intro through buffering
  have horderly : through.Orderly := orderly_apply _
  have hinsists : through.Insists Failed := insists_apply _
  have hbuffering : buffering = through.buffered := rfl
  have hwhole := horderly.eq_survey (refuses_apply { e with mode := .writeThrough })
  refine ⟨⟨through.survey, horderly.quiet_survey, hwhole, ?_⟩, fun held => ⟨?_, ?_⟩⟩
  · rw [hbuffering, horderly.buffered_eq hinsists]
  · rw [hbuffering, horderly.exec_buffered]
  · intro outcome held' hexec
    have hon := horderly.on_of_exec hexec
    obtain rfl : held.putAll (held.writes through) = held' := by
      rw [← Memory.exec_snd, hexec]
    refine ⟨Memory.empty.putAll (held.writes through), ?_, fun c => Memory.get?_putAll held _ c,
      gives_load_of_apply hon⟩
    rw [horderly.exec_aside hinsists, hon]
    rfl

end Transfer

end ReplayVector
