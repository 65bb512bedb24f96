import ReplayVector.Fixture.State
import ReplayVector.Proofs.State.Allocation

/-!
# What new states say

While a new state is put together, the registry is written again for each account and the tree is
kept in memory. The root that comes of it stores a ledger.

* `Fixture.Building`: what a state has while it is put together.
* `Fixture.stores_newState`: a new state stores a ledger.
-/

namespace ReplayVector

open BlockM

namespace Fixture

variable {blocks : Blocks} {m m' : Memory} {registry registry' : Registry}
  {tree tree' : StateTree} {ids : Address → Option ActorId} {actors : Actors}

/-- What a state that is put together has so far. -/
structure Building (m : Memory) (ids : Address → Option ActorId) (actors : Actors)
    (registry : Registry) (tree : StateTree) : Prop where
  has : registry.Has True m.get? ids
  name : registry.networkName = networkName
  tree : tree.HasActors True m.get? (fun _ => none) actors

theorem Building.grow (h : Building m ids actors registry tree) {bs : List Block}
    (hgrows : Memory.Grows blocks m m' bs) : Building m' ids actors registry tree where
  has := by
    obtain ⟨base, hstores, hids⟩ := h.has
    exact ⟨base, hstores.mono hgrows.keeps, hids⟩
  name := h.name
  tree := h.tree.mono hgrows.keeps

theorem Building.setActor (h : Building m ids actors registry tree) (id : ActorId) (a : Actor) :
    Building m ids (Function.update actors id (some a)) registry (tree.setActor id a) := by
  refine ⟨h.has, h.name, ?_⟩
  exact h.tree.setActor (Or.inl trivial) a

theorem exec_newActor (m : Memory) (code : String) (state : Cbor) (balance : TokenAmount) :
    m.exec (newActor code state balance) =
      (.ok ⟨actorCode code, .ofDagCbor state.encode, 0, balance, none⟩,
        m.putAll [.ofDagCbor state.encode]) := rfl

theorem of_addAccounts (hfree : CollisionFree blocks) {indices : List Nat}
    {accounts accounts' : List Account} (h : Building m ids actors registry tree)
    (hm : m.Within blocks)
    (hexec : m.exec (addAccounts indices registry tree accounts) =
      (.ok (registry', tree', accounts'), m'))
    (hws : ∀ b ∈ m.writes (addAccounts indices registry tree accounts), blocks b) :
    ∃ ids' actors', Building m' ids' actors' registry' tree' := by
  induction indices generalizing m ids actors registry tree accounts with
  | nil =>
    cases hexec
    exact ⟨ids, actors, h⟩
  | cons i rest ih =>
    obtain ⟨robust, m₁, -, hgrows₁, hexec₁, hws₁⟩ := Memory.grows_bind hfree hm hexec hws
    obtain ⟨⟨x, registry₂⟩, m₂, hassign, hgrows₂, hexec₂, hws₂⟩ :=
      Memory.grows_bind hfree hgrows₁.within hexec₁ hws₁
    obtain ⟨id, m₃, hid, hgrows₃, hexec₃, hws₃⟩ :=
      Memory.grows_bind hfree hgrows₂.within hexec₂ hws₂
    obtain ⟨actor, m₄, -, hgrows₄, hexec₄, hws₄⟩ :=
      Memory.grows_bind hfree hgrows₃.within hexec₃ hws₃
    obtain rfl : x = .ok id := congrArg Prod.fst hid
    have hon := (registry.orderly_assign robust).on_of_exec hassign
    have hassigned := (h.grow hgrows₁).has.of_assign hon hgrows₂.keeps hgrows₂.holds
    have h₂ : Building m₂ (Function.update ids robust (some id)) actors registry₂ tree :=
      ⟨hassigned.1, hassigned.2.trans h.name, ((h.grow hgrows₁).grow hgrows₂).tree⟩
    exact ih (((h₂.grow hgrows₃).grow hgrows₄).setActor id actor) hgrows₄.within hexec₄ hws₄

/-- The root of a new state stores a ledger. -/
theorem stores_newState (hfree : CollisionFree blocks) {accounts : Nat} {s : State}
    (hm : m.Within blocks) (hexec : m.exec (newState accounts) = (.ok s, m'))
    (hws : ∀ b ∈ m.writes (newState accounts), blocks b) :
    ∃ base L, StateTree.Stores True m'.get? base L s.root := by
  obtain ⟨registry, m₁, hcreate, hgrows₁, hexec₁, hws₁⟩ := Memory.grows_bind hfree hm hexec hws
  obtain ⟨tree, m₂, htree, hgrows₂, hexec₂, hws₂⟩ :=
    Memory.grows_bind hfree hgrows₁.within hexec₁ hws₁
  obtain ⟨system, m₃, -, hgrows₃, hexec₃, hws₃⟩ :=
    Memory.grows_bind hfree hgrows₂.within hexec₂ hws₂
  obtain ⟨reward, m₄, -, hgrows₄, hexec₄, hws₄⟩ :=
    Memory.grows_bind hfree hgrows₃.within hexec₃ hws₃
  obtain ⟨burnt, m₅, -, hgrows₅, hexec₅, hws₅⟩ :=
    Memory.grows_bind hfree hgrows₄.within hexec₄ hws₄
  obtain ⟨⟨registry', tree', accounts'⟩, m₆, hadd, hgrows₆, hexec₆, hws₆⟩ :=
    Memory.grows_bind hfree hgrows₅.within hexec₅ hws₅
  obtain ⟨init, m₇, hinit, hgrows₇, hexec₇, hws₇⟩ :=
    Memory.grows_bind hfree hgrows₆.within hexec₆ hws₆
  obtain ⟨root, m₈, hwrite, hgrows₈, hexec₈, -⟩ :=
    Memory.grows_bind hfree hgrows₇.within hexec₇ hws₇
  obtain ⟨hs, rfl⟩ := Prod.mk.inj hexec₈
  obtain rfl := Except.ok.inj hs
  -- the tree is empty, and the registry has no addresses
  have hcreated := (Registry.orderly_create networkName).on_of_exec hcreate
  obtain ⟨hhas, hname⟩ := Registry.has_of_create hcreated hgrows₁.keeps hgrows₁.holds
  rw [StateTree.exec_create] at htree
  obtain rfl : _ = tree := Except.ok.inj (congrArg Prod.fst htree)
  have h₁ : Building m₁ (fun _ => none) (fun _ => none) registry
      ⟨.empty, .ofDagCbor (Cbor.encode (.list [])), [], []⟩ :=
    ⟨hhas, hname, StateTree.hasActors_empty True m₁.get? _⟩
  have h₅ := ((((h₁.grow hgrows₂).grow hgrows₃).grow hgrows₄).grow hgrows₅).setActor .system system
  obtain ⟨ids, actors, h₆⟩ := of_addAccounts hfree
    ((h₅.setActor .reward reward).setActor .burnt burnt) hgrows₅.within hadd hgrows₆.mem
  -- the registry's actor comes last, with the registry as it is then
  have hhead : init.head = .ofDagCbor registry'.toCbor.encode := by
    rw [exec_newActor] at hinit
    exact congrArg Actor.head (Except.ok.inj (congrArg Prod.fst hinit)).symm
  have h₇ := (h₆.grow hgrows₇).setActor .registry init
  have hwritten := (StateTree.orderly_write _).on_of_exec hwrite
  have hread : (readAs Registry.ofCbor? init.head).Gives m₈.get? registry' := by
    have hfits : registry'.toCbor.Fits Cbor.nesting :=
      Registry.fits_toCbor (by rw [h₆.name]; decide)
    rw [hhead]
    refine gives_readAs rfl (hgrows₈.keeps _ _ ?_) (Cbor.decode?_encode hfits)
      (Registry.ofCbor?_toCbor registry')
    exact hgrows₇.holds _ (List.mem_singleton_self _)
  refine ⟨_, ⟨Function.update actors .registry (some init), ids⟩,
    h₇.tree.of_write hgrows₈.keeps hwritten hgrows₈.holds, init, registry', ?_, hread,
    (h₇.grow hgrows₈).has⟩
  show Function.update actors .registry (some init) .registry = some init
  rw [Function.update_self]

end Fixture

end ReplayVector
