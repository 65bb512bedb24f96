import ReplayVector.Proofs.State.Actors

/-!
# Ledgers

What a state says, without its blocks: the record of each actor, and the ID that the registry has
for each address. A computation on state trees does to a tree in memory what it does to the ledger
that the tree shows.

* `Ledger`: what a state says.
* `StateTree.Shows`, `StateTree.Stores`: trees and roots that say so.
* `TreeM.Runs`: what a computation on trees does to ledgers.
-/

namespace ReplayVector

open BlockM

/-- What a state says. -/
structure Ledger where
  actors : Actors
  /-- The IDs that the registry has for addresses that are no IDs. -/
  ids : Address → Option ActorId

namespace Ledger

/-- The ID that an address stands for. -/
def resolve (L : Ledger) (a : Address) : Option ActorId :=
  match a.id? with
  | some id => some id
  | none => L.ids a

/-- Another record for an actor. -/
def setActor (L : Ledger) (id : ActorId) (a : Actor) : Ledger :=
  { L with actors := Function.update L.actors id (some a) }

/-- One of the addresses stands for the actor. -/
def Touches (L : Ledger) (touched : List Address) (id : ActorId) : Prop :=
  ∃ a ∈ touched, L.resolve a = some id

/-- The actor that was set is found, and the others are as before. -/
theorem actors_setActor (L : Ledger) (id j : ActorId) (a : Actor) :
    (L.setActor id a).actors j = if j = id then some a else L.actors j :=
  Function.update_apply ..

end Ledger

/-! ## Registries -/

variable {neat : Prop} {view view' : View}

/-- The registry has the IDs. -/
def Registry.Has (neat : Prop) (view : View) (ids : Address → Option ActorId) (r : Registry) : Prop :=
  ∃ base, Hamt.Stores neat view packing base r.addressMap ∧ ∀ a, a.id? = none → base a.toBytes = ids a

/-- The number of an address is looked up in the registry. -/
theorem Registry.Has.gives_lookup {ids : Address → Option ActorId} {r : Registry}
    (h : r.Has neat view ids) {a : Address} (ha : a.id? = none) : (r.lookup a).Gives view (ids a) := by
  obtain ⟨base, hstores, hids⟩ := h
  obtain ⟨m, hload, hm⟩ := hstores.gives_load
  obtain ⟨m', hget, -⟩ := hm.gives_get? a.toBytes
  rw [← hids a ha]
  exact hload.bind (hget.bind (gives_pure view _))

/-- The actor that is the registry has the IDs of a ledger in its state. -/
def Ledger.Registered (neat : Prop) (view : View) (L : Ledger) : Prop :=
  ∃ a r, L.actors .registry = some a ∧ (readAs Registry.ofCbor? a.head).Gives view r ∧
    r.Has neat view L.ids

/-- A registry lasts among more blocks. -/
theorem Ledger.Registered.mono {L : Ledger} (h : L.Registered neat view)
    (hsub : Hamt.Within view view') : L.Registered neat view' := by
  obtain ⟨a, r, ha, hread, base, hstores, hids⟩ := h
  exact ⟨a, r, ha, hread.mono_readAs hsub, base, hstores.mono hsub, hids⟩

/-- A change that leaves states alone leaves the registry alone. -/
theorem Ledger.Registered.setActor {L : Ledger} (h : L.Registered neat view) {id : ActorId}
    {old a : Actor} (hold : L.actors id = some old) (hhead : a.head = old.head) :
    (L.setActor id a).Registered neat view := by
  obtain ⟨a', r, ha', hread, hr⟩ := h
  by_cases hid : ActorId.registry = id
  · refine ⟨a, r, by rw [actors_setActor, if_pos hid], ?_, hr⟩
    have heq : old = a' := by
      rw [← hid, ha'] at hold
      exact (Option.some.inj hold).symm
    rw [hhead, heq]
    exact hread
  · exact ⟨a', r, by rw [actors_setActor, if_neg hid]; exact ha', hread, hr⟩

/-! ## Trees -/

namespace StateTree

variable {base : Base} {L : Ledger} {t : StateTree}

/-- The tree in memory shows a ledger. -/
structure Shows (neat : Prop) (view : View) (base : Base) (L : Ledger) (t : StateTree) : Prop where
  actors : t.HasActors neat view base L.actors
  registered : L.Registered neat view
  resolved : ∀ a id, (a, id) ∈ t.resolved → L.ids a = some id

/-- The ledger is stored under a root. -/
structure Stores (neat : Prop) (view : View) (base : Base) (L : Ledger) (root : Cid) : Prop where
  actors : StoresActors neat view base L.actors root
  registered : L.Registered neat view

/-- A tree is loaded from its root. -/
theorem Stores.gives_load {root : Cid} (h : Stores neat view base L root) :
    ∃ t, (load root).Gives view t ∧ t.Shows neat view base L := by
  obtain ⟨t, hload, ht, hresolved⟩ := h.actors.gives_load
  exact ⟨t, hload, ht, h.registered, fun a id hmem => by rw [hresolved] at hmem; cases hmem⟩

/-- Records that are stored can be written. -/
theorem Stores.writable {root : Cid} (h : Stores neat view base L root) {id : ActorId} {a : Actor}
    (ha : L.actors id = some a) : ∃ v, a.toCbor? = some v := by
  obtain ⟨r, -, -, hstores, hbase⟩ := h.actors
  exact hstores.writable Actor.packing_lawful (key id) a ((hbase id).trans ha)

/-- It shows the actors of the ledger. -/
theorem Shows.gives_findActor (h : t.Shows neat view base L) (id : ActorId) :
    ∃ t', (t.findActor id).Gives view (L.actors id, t') ∧ t'.Shows neat view base L := by
  obtain ⟨t', hfind, ht', hresolved⟩ := h.actors.gives_findActor id
  exact ⟨t', hfind, ht', h.registered, hresolved.symm ▸ h.resolved⟩

/-- Its registry knows the numbers of the ledger. -/
private theorem Shows.gives_askRegistry (h : t.Shows neat view base L)
    {a : Address} (ha : a.id? = none) :
    ∃ t', (t.askRegistry a).Gives view (L.ids a, t') ∧ t'.Shows neat view base L := by
  obtain ⟨t', hfind, ht'⟩ := h.gives_findActor .registry
  obtain ⟨init, r, hinit, hread, hr⟩ := ht'.registered
  rw [hinit] at hfind
  have hlookup := hr.gives_lookup ha
  cases hid : L.ids a with
  | none =>
    rw [hid] at hlookup
    refine ⟨t', ?_, ht'⟩
    exact hfind.bind ((gives_pure view init).bind (hread.bind (hlookup.bind (gives_pure view _))))
  | some id =>
    rw [hid] at hlookup
    refine ⟨{ t' with resolved := (a, id) :: t'.resolved }, ?_, ?_⟩
    · exact hfind.bind ((gives_pure view init).bind (hread.bind (hlookup.bind (gives_pure view _))))
    · have hactors := ht'.actors
      refine ⟨⟨hactors.represents, hactors.nodup, hactors.actor, hactors.same, hactors.present,
        hactors.fresh⟩, ht'.registered, ?_⟩
      intro a' id' hmem
      rcases List.mem_cons.mp hmem with heq | hmem
      · cases heq
        exact hid
      · exact ht'.resolved a' id' hmem

/-- So every address resolves as in the ledger. -/
theorem Shows.gives_findId (h : t.Shows neat view base L) (a : Address) :
    ∃ t', (t.findId a).Gives view (L.resolve a, t') ∧ t'.Shows neat view base L := by
  rw [findId, Ledger.resolve]
  cases ha : a.id? with
  | some id => exact ⟨t, gives_pure view _, h⟩
  | none =>
    dsimp only
    cases hknown : t.resolved.lookup a with
    | some id =>
      refine ⟨t, ?_, h⟩
      rw [h.resolved a id (Hamt.mem_of_lookup hknown)]
      exact gives_pure view _
    | none => exact h.gives_askRegistry ha

/-- Setting an actor in the tree is setting it in the ledger. -/
theorem Shows.setActor (h : t.Shows neat view base L) {id : ActorId} {old a : Actor}
    (hold : L.actors id = some old) (hhead : a.head = old.head) :
    (t.setActor id a).Shows neat view base (L.setActor id a) where
  actors := h.actors.setActor (Or.inr (by rw [hold]; simp)) a
  registered := h.registered.setActor hold hhead
  resolved := h.resolved

end StateTree

/-! ## Computations on trees -/

namespace TreeM

variable {base : StateTree.Base} {L L' : Ledger} {α β : Type}

/-- On trees that show a ledger, a computation ends with a value and a tree that shows another
ledger, or fails if there is none. -/
def Runs (neat : Prop) (view : View) (base : StateTree.Base) (x : TreeM α) (L : Ledger) :
    Option (α × Ledger) → Prop
  | some (a, L') => ∀ t : StateTree, t.Shows neat view base L →
    ∃ t', (x t).Gives view (a, t') ∧ t'.Shows neat view base L'
  | none => ∀ t : StateTree, t.Shows neat view base L → (x t).Fails view

theorem runs_pure (a : α) : (pure a : TreeM α).Runs neat view base L (some (a, L)) := by
  intro t ht
  exact ⟨t, gives_pure view _, ht⟩

theorem runs_fail (f : Failure) : Runs neat view base (BlockM.fail f : TreeM α) L none :=
  fun _ _ => ⟨f, [], rfl⟩

/-- Two steps on a tree are two steps on its ledger. -/
theorem Runs.bind {x : TreeM α} {f : α → TreeM β} {a : α} {r : Option (β × Ledger)}
    (hx : x.Runs neat view base L (some (a, L'))) (hf : (f a).Runs neat view base L' r) :
    (x >>= f).Runs neat view base L r := by
  match r, hf with
  | some (b, L''), hf =>
    intro t ht
    obtain ⟨t', hgives, ht'⟩ := hx t ht
    obtain ⟨t'', hgives', ht''⟩ := hf t' ht'
    exact ⟨t'', hgives.bind hgives', ht''⟩
  | none, hf =>
    intro t ht
    obtain ⟨t', hgives, ht'⟩ := hx t ht
    exact hgives.fails_bind (hf t' ht')

/-- A step that fails on the ledger fails on the tree, and so does the whole. -/
theorem Runs.bind_none {x : TreeM α} {f : α → TreeM β} (hx : x.Runs neat view base L none) :
    (x >>= f).Runs neat view base L none :=
  fun t ht => (hx t ht).bind _

theorem runs_getActor (id : ActorId) :
    (getActor id).Runs neat view base L (some (L.actors id, L)) := by
  intro t ht
  obtain ⟨t', hgives, ht'⟩ := ht.gives_findActor id
  exact ⟨t', hgives.summarize _, ht'⟩

theorem runs_resolve (a : Address) :
    (resolve a).Runs neat view base L (some (L.resolve a, L)) := by
  intro t ht
  obtain ⟨t', hgives, ht'⟩ := ht.gives_findId a
  exact ⟨t', hgives.summarize _, ht'⟩

theorem runs_setActor {id : ActorId} {old a : Actor} (hold : L.actors id = some old)
    (hhead : a.head = old.head) :
    (setActor id a).Runs neat view base L (some ((), L.setActor id a)) := by
  intro t ht
  exact ⟨t.setActor id a, rfl, ht.setActor hold hhead⟩

end TreeM

end ReplayVector
