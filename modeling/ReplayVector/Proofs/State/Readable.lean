import ReplayVector.Proofs.Cbor.Fits
import ReplayVector.Proofs.State.Ledger

/-!
# Readable states

A state is readable if all of its blocks are there: the root, every node of the trie of actors, and
the registry with every node of its address map. Nothing is said of the order or the number of the
entries in buckets, nor of branches that no path leads to. Still a readable state says what its
actors are and what its addresses stand for.

* `Hamt.Readable`, `StateTree.Readable`: all blocks of a trie, and of a state, can be read.
* `Hamt.Readable.stores`: what a readable trie stands for.
* `StateTree.Readable.stores`: the ledger of a readable state.
-/

namespace ReplayVector

open BlockM

variable {view : View}

-- ---------------------------------------------------------------------------
-- Tries
-- ---------------------------------------------------------------------------

namespace Hamt

variable {β : Type} {p : Packing β} {height : Nat} {pre : List UInt8} {c : Cid}

/-- All nodes of the trie can be read, and no way down leads over more than `height` of them. -/
def Readable (view : View) (p : Packing β) : Nat → Cid → Prop
  | 0, _ => False
  | height + 1, c => ∃ slots, (loadNode p c).Gives view slots ∧
      ∀ i c', (i, .link c') ∈ slots → Readable view p height c'

/-- A node that was read has links, and buckets of short entries whose values can be written. -/
theorem branch_of_nodeOf? [Linking β] (hp : p.Lawful) {data : Bytes} {v : Cbor} {slots : Slots β}
    (hv : Cbor.decode? data = some v) (hslots : nodeOf? p v = some slots) {i : UInt8} {b : Branch β}
    (hb : (i, b) ∈ slots) :
    (∃ c', b = .link c') ∨ ∃ entries, b = .bucket entries ∧ Short entries ∧
      ∀ e ∈ entries, Writes p e.2 := by
  have hfits := Cbor.fits_of_decode? hv
  obtain ⟨field, items, bs, rfl, hbs, -, rfl⟩ := nodeOf?_eq_some hslots
  obtain ⟨item, hitem, hread⟩ := (mem_of_mapM hbs).2 b (List.of_mem_zip hb).2
  have hitems : (Cbor.list items).Fits 127 := hfits.2 _ (by simp)
  have hitem' : item.Fits 126 := hitems.2 item hitem
  unfold branchOf? at hread
  split at hread
  · exact Or.inl ⟨_, (Option.some.inj hread).symm⟩
  · next entries =>
    obtain ⟨es, hes, rfl⟩ := Option.map_eq_some_iff.mp hread
    obtain ⟨hlen, hmem⟩ := mem_of_mapM hes
    have hentry : ∀ e ∈ es, e.1.length < 2 ^ 64 ∧ Writes p e.2 := by
      intro e he
      obtain ⟨w, hw, he'⟩ := hmem e he
      unfold entryOf? at he'
      split at he'
      · obtain ⟨value, hvalue, rfl⟩ := Option.map_eq_some_iff.mp he'
        exact ⟨(hitem'.2 _ hw).2 _ (List.mem_cons_self ..), hp.write hvalue⟩
      · cases he'
    refine Or.inr ⟨es, rfl, ⟨?_, fun e he => (hentry e he).1⟩, fun e he => (hentry e he).2⟩
    rw [hlen]
    exact hitem'.1
  · cases hread

/-- A node that was read can be written again. -/
theorem plain_of_nodeOf? [Linking β] (hp : p.Lawful) {data : Bytes} {v : Cbor} {slots : Slots β}
    (hv : Cbor.decode? data = some v) (hslots : nodeOf? p v = some slots) : Plain slots where
  sorted := (sorted_of_nodeOf? hslots).1
  length_le := (sorted_of_nodeOf? hslots).2
  short := by
    intro i entries hb
    rcases branch_of_nodeOf? hp hv hslots hb with ⟨c', heq⟩ | ⟨es, heq, hshort, -⟩
    · cases heq
    · cases heq
      exact hshort

/-- A readable trie stands for a function. Each branch gives it for the keys below it. -/
theorem Readable.storedAt [Linking β] (hp : p.Lawful) (h : Readable view p height c)
    (pre : List UInt8) : ∃ f, StoredAt view p c (Holds False view p f height pre) := by
  induction height generalizing c pre with
  | zero => exact h.elim
  | succ height ih =>
    obtain ⟨slots, hload, hlinks⟩ := h
    obtain ⟨-, data, v, -, hv, hslots⟩ := of_gives_readAs hload
    have hbranch (i : UInt8) : ∃ g : Entries β, BranchHolds False view p g (pre ++ [i])
        (Holds False view p g height (pre ++ [i])) (find? i slots) := by
      cases hb : find? i slots with
      | none => exact ⟨fun _ => none, fun _ _ => rfl⟩
      | some b =>
        rcases branch_of_nodeOf? hp hv hslots (mem_of_find? hb) with
          ⟨c', rfl⟩ | ⟨entries, rfl, hshort, hwrites⟩
        · exact ih (hlinks i c' (mem_of_find? hb)) (pre ++ [i])
        · refine ⟨fun key => entries.lookup key, fun _ _ => rfl, hshort, ?_, ?_, False.elim⟩
          · exact fun e he => Or.inr (hwrites e he)
          · exact List.pairwise_of_forall_mem_list fun e _ e' he' _ => hwrites e' he'
    obtain ⟨g, hg⟩ := Classical.skolem.mp hbranch
    -- the number below `pre` tells which branch a key belongs to
    let f : Entries β := fun key => (path key)[pre.length]?.bind fun i => g i key
    have hf (i : UInt8) (key : Bytes) (hkey : Under (pre ++ [i]) key) : g i key = f key := by
      obtain ⟨rest, hrest⟩ := hkey
      show _ = (path key)[pre.length]?.bind _
      rw [← hrest]
      simp
    obtain ⟨hsorted, hlength⟩ := sorted_of_nodeOf? hslots
    refine ⟨f, slots, hload, ⟨hsorted, hlength, False.elim⟩, fun i => ?_⟩
    exact (hg i).imp (.refl view) (hf i) fun slots' hslots' => hslots'.congr (hf i)

/-- A readable trie stands for a map. -/
theorem Readable.stores [Linking β] (hp : p.Lawful) (h : Readable view p levels c) :
    ∃ f, Stores False view p f c := h.storedAt hp []

/-- All nodes of a trie that stands for a map can be read. -/
theorem readable_of_storedAt {neat : Prop} {f : Entries β}
    (h : StoredAt view p c (Holds neat view p f height pre)) : Readable view p height c := by
  induction height generalizing c pre with
  | zero =>
    obtain ⟨slots, -, hslots⟩ := h
    exact hslots.elim
  | succ height ih =>
    obtain ⟨slots, hload, hslots⟩ := h
    exact ⟨slots, hload, fun i c' hlink => ih (hslots.slotsHold (i, .link c') hlink)⟩

end Hamt

-- ---------------------------------------------------------------------------
-- States
-- ---------------------------------------------------------------------------

/-- What a computation gives is determined. -/
theorem BlockM.Gives.unique {α : Type} {x : BlockM α} {a b : α} (ha : x.Gives view a)
    (hb : x.Gives view b) : a = b := by
  have ha' : x.on view = (.ok a, []) := ha
  have hb' : x.on view = (.ok b, []) := hb
  rw [ha'] at hb'
  exact Except.ok.inj (congrArg Prod.fst hb')

theorem StateRoot.gives_load {root : Cid} {r : StateRoot}
    (h : (readAs ofCbor? root).Gives view r) : (load root).Gives view r := by
  obtain ⟨hcodec, data, v, hdata, hv, hr⟩ := of_gives_readAs h
  refine (gives_readCbor? hcodec hdata hv).bind ?_
  dsimp only
  rw [hr]
  exact gives_pure view r

namespace StateTree

variable {neat : Prop} {base : Base} {L : Ledger} {root : Cid}

/-- The actor with an ID in the state under a root. -/
def actorAt (root : Cid) (id : ActorId) : BlockM (Option Actor) := do
  let (actor, _) ← (← load root).getActor id
  return actor

/-- The ID that an address stands for in the state under a root. -/
def idAt (root : Cid) (a : Address) : BlockM (Option ActorId) := do
  let (id, _) ← (← load root).resolve a
  return id

/-- All of the state under a root can be read, and the registry is one of its actors. -/
structure Readable (view : View) (root : Cid) : Prop where
  actors : ∃ r : StateRoot, (readAs StateRoot.ofCbor? root).Gives view r ∧ r.version = version ∧
    Hamt.Readable view Actor.packing Hamt.levels r.actors
  registry : ∃ a r, (actorAt root .registry).Gives view (some a) ∧
    (readAs Registry.ofCbor? a.head).Gives view r ∧
    Hamt.Readable view Registry.packing Hamt.levels r.addressMap

theorem StoresActors.gives_actorAt {actors : Actors}
    (h : StoresActors neat view base actors root) (id : ActorId) :
    (actorAt root id).Gives view (actors id) := by
  obtain ⟨t, hload, ht, -⟩ := h.gives_load
  obtain ⟨t', hfind, -, -⟩ := ht.gives_findActor id
  exact hload.bind ((hfind.summarize _).bind (gives_pure view _))

theorem Stores.gives_idAt (h : Stores neat view base L root) (a : Address) :
    (idAt root a).Gives view (L.resolve a) := by
  obtain ⟨t, hload, ht⟩ := h.gives_load
  obtain ⟨t', hfind, -⟩ := ht.gives_findId a
  exact hload.bind ((hfind.summarize _).bind (gives_pure view _))

/-- A readable state says something. -/
theorem Readable.stores (h : Readable view root) : ∃ base L, Stores False view base L root := by
  obtain ⟨r, hroot, hversion, htrie⟩ := h.actors
  obtain ⟨base, hbase⟩ := htrie.stores Actor.packing_lawful
  obtain ⟨a, names, ha, hnames, hmap⟩ := h.registry
  obtain ⟨ids, hids⟩ := hmap.stores Registry.packing_lawful
  let L : Ledger := { actors := fun id => base (key id), ids := fun a => ids a.toBytes }
  have hactors : StoresActors False view base L.actors root :=
    ⟨r, hroot, hversion, hbase, fun _ => rfl⟩
  have ha' : L.actors .registry = some a := (hactors.gives_actorAt .registry).unique ha
  exact ⟨base, L, hactors, a, names, ha', hnames, ids, hids, fun _ _ => rfl⟩

/-- Where a state says something, all of it can be read. -/
theorem Stores.readable (h : Stores neat view base L root) : Readable view root := by
  obtain ⟨r, hroot, hversion, hstores, -⟩ := h.actors
  obtain ⟨a, names, ha, hnames, ids, hids, -⟩ := h.registered
  refine ⟨⟨r, hroot, hversion, Hamt.readable_of_storedAt hstores⟩, a, names, ?_, hnames,
    Hamt.readable_of_storedAt hids⟩
  rw [← ha]
  exact h.actors.gives_actorAt .registry

end StateTree

end ReplayVector
