import ReplayVector.Proofs.Execution.Masking
import ReplayVector.Proofs.Fixture.Contents

/-!
# What masking retains

The tree that masking makes holds the actors that the retained addresses stand for, as they were,
and nothing else. Its registry knows the retained addresses only. This is said of every actor and
every address, as they are looked up in the two trees.

* `StateTree.Retains`: a tree that was cut out of another one.
* `StateTree.mask_retains`: what masking gives.
-/

namespace ReplayVector

open BlockM

variable {L M : Ledger} {retain : List Address}

/-- Of the actors, those are left that the retained addresses stand for. -/
theorem Ledger.Masks.isSome_iff (h : L.Masks retain M) (id : ActorId) :
    (M.actors id).isSome ↔ L.Touches retain id ∧ (L.actors id).isSome := by
  by_cases hid : L.Touches retain id
  · by_cases hregistry : id = .registry
    · subst hregistry
      obtain ⟨head, hhead⟩ := h.registry
      simp [hhead, hid]
    · simp [h.actors id hid hregistry, hid]
  · simp [h.absent id hid, hid]

namespace StateTree

variable {neat : Prop} {base : Base} {view : View} {root masked : Cid} {m m' : Memory}

/-- A tree holds just what some addresses stand for in another one. -/
structure Retains (retain : List Address) (view : View) (root : Cid) (view' : View) (masked : Cid) :
    Prop where
  /-- There is an actor if one of the addresses stands for it and it was there, and then it is as it
  was, but for the state of the registry. -/
  actors : ∀ id, ∃ before after,
    (actorAt root id).Gives view before ∧ (actorAt masked id).Gives view' after ∧
    (after.isSome ↔ (∃ a ∈ retain, (idAt root a).Gives view (some id)) ∧ before.isSome) ∧
    ∀ b, after = some b → ∃ a, before = some a ∧ b.Copies id a
  /-- The registry has another map, and is else as it was. -/
  registry : ∃ a head r addressMap,
    (actorAt root .registry).Gives view (some a) ∧
    (readAs Registry.ofCbor? a.head).Gives view r ∧
    (actorAt masked .registry).Gives view' (some { a with head }) ∧
    (readAs Registry.ofCbor? head).Gives view' { r with addressMap }
  /-- An address that is no ID stands for what it did if it is one of the addresses, and for nothing
  if it is not. -/
  ids : ∀ a, a.id? = none → ∃ before after,
    (idAt root a).Gives view before ∧ (idAt masked a).Gives view' after ∧
    ∀ id, after = some id ↔ a ∈ retain ∧ before = some id
  version : ∃ r r', (StateRoot.load root).Gives view r ∧ (StateRoot.load masked).Gives view' r' ∧
    r'.version = r.version
  /-- Every block is there that was. -/
  keeps : ∀ c data, view c = some data → view' c = some data

/-- A tree that says something has the one version that trees have. -/
theorem Stores.gives_version (h : Stores neat view base L root) :
    ∃ r, (StateRoot.load root).Gives view r ∧ r.version = version := by
  obtain ⟨r, hread, hversion, -, -⟩ := h.actors
  exact ⟨r, StateRoot.gives_load hread, hversion⟩

/-- Addresses stand for an actor in a tree as they do in its ledger. -/
theorem Stores.touches_iff (h : Stores neat view base L root) (retain : List Address)
    (id : ActorId) :
    L.Touches retain id ↔ ∃ a ∈ retain, (idAt root a).Gives view (some id) := by
  refine exists_congr fun a => and_congr_right fun _ => ?_
  constructor
  · intro hid
    rw [← hid]
    exact h.gives_idAt a
  · intro hid
    exact (h.gives_idAt a).unique hid

/-- What is left of a ledger is looked up in the tree that stores it. -/
theorem MaskedTo.retains {blocks : Blocks} (h : MaskedTo blocks L retain m m' masked)
    (hL : Stores neat m.get? base L root) : Retains retain m.get? root m'.get? masked := by
  obtain ⟨base', M, hmasks, hM⟩ := h.stores
  refine ⟨fun id => ?_, ?_, fun a ha => ?_, ?_, h.keeps⟩
  · refine ⟨_, _, hL.actors.gives_actorAt id, hM.actors.gives_actorAt id, ?_,
      hmasks.partOf.actors id⟩
    rw [hmasks.isSome_iff, hL.touches_iff]
  · obtain ⟨a, r, ha, hread, -⟩ := hL.registered
    obtain ⟨head, addressMap, hactor, hread'⟩ := h.registry a r ha hread
    exact ⟨a, head, r, addressMap, ha ▸ hL.actors.gives_actorAt .registry, hread, hactor, hread'⟩
  · refine ⟨_, _, hL.gives_idAt a, hM.gives_idAt a, fun id => ?_⟩
    rw [hmasks.resolve, ha]
    by_cases hmem : a ∈ retain
    · simp [hmem]
    · simp [hmem]
  · obtain ⟨r, hr, hversion⟩ := hL.gives_version
    obtain ⟨r', hr', hversion'⟩ := hM.gives_version
    exact ⟨r, r', hr, hr', hversion'.trans hversion.symm⟩

/-- Masking a readable tree gives one that holds just what the retained addresses stand for, the
registry among them. -/
theorem mask_retains (hreadable : Readable m.get? root) (hretain : .id .registry ∈ retain)
    (hmask : m.exec (mask root retain) = (.ok masked, m'))
    (hfree : CollisionFree fun b => b ∈ m.blocks ++ m.writes (mask root retain)) :
    Retains retain m.get? root m'.get? masked := by
  obtain ⟨base, L, hL⟩ := hreadable.stores
  rcases exec_mask hL hretain with ⟨masked', m'', hexec, hmasked⟩ | ⟨⟨e, m'', hexec⟩, -⟩
  · rw [hmask] at hexec
    cases hexec
    have hto := hmasked _ hfree (fun b hb => List.mem_append_left _ hb)
      (fun b hb => List.mem_append_right _ hb)
    exact hto.retains hL
  · rw [hmask] at hexec
    cases hexec

-- ---------------------------------------------------------------------------
-- A state with one account
-- ---------------------------------------------------------------------------

/-- What is retained of a state that was made up: its accounts, by their addresses. -/
def smallRetained (s : Fixture.State) : List Address := retainList (s.accounts.map (·.robust))

set_option maxRecDepth 20000 in
/-- The state can be masked, and no two blocks share an identifier. -/
private theorem smallRetained_facts :
    (match Memory.empty.exec (Fixture.newState 1) with
      | (.ok s, held) =>
        Block.areDistinct (Memory.empty.writes (Fixture.newState 1)) &&
          (held.exec (mask s.root (smallRetained s))).1.isOk &&
          Block.areDistinct (held.blocks ++ held.writes (mask s.root (smallRetained s)))
      | _ => false) = true := by
  decide +kernel

/-- There is a state of one account that is readable and can be masked. -/
theorem exists_maskedAccount :
    ∃ s held masked held', Memory.empty.exec (Fixture.newState 1) = (.ok s, held) ∧
      Readable held.get? s.root ∧
      held.exec (mask s.root (smallRetained s)) = (.ok masked, held') ∧
      CollisionFree fun b => b ∈ held.blocks ++ held.writes (mask s.root (smallRetained s)) := by
  have hfacts := smallRetained_facts
  split at hfacts
  · next s held hstate =>
    rw [Bool.and_eq_true, Bool.and_eq_true] at hfacts
    obtain ⟨⟨hdistinct, hok⟩, hinvolved⟩ := hfacts
    obtain ⟨base, L, hstores⟩ := Fixture.stores_newState (.of_areDistinct hdistinct)
      (Memory.within_empty _) hstate fun b hb => hb
    rcases hmask : held.exec (mask s.root (smallRetained s)) with ⟨result, held'⟩
    rw [hmask] at hok
    cases result with
    | error e => cases hok
    | ok masked =>
      exact ⟨s, held, masked, held', hstate, hstores.readable, hmask, .of_areDistinct hinvolved⟩
  · cases hfacts

/-- The state of one account is masked. -/
theorem mask_retains_account :
    ∃ s held masked held', Memory.empty.exec (Fixture.newState 1) = (.ok s, held) ∧
      held.exec (mask s.root (smallRetained s)) = (.ok masked, held') ∧
      Retains (smallRetained s) held.get? s.root held'.get? masked := by
  obtain ⟨s, held, masked, held', hstate, hreadable, hmask, hfree⟩ := exists_maskedAccount
  exact ⟨s, held, masked, held', hstate, hmask,
    mask_retains hreadable (registry_mem_retainList _) hmask hfree⟩

end StateTree

end ReplayVector
