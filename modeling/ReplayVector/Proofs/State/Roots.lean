import ReplayVector.Proofs.Execution.Insists
import ReplayVector.Proofs.State.Regular
import ReplayVector.Proofs.Store.Answers

/-!
# One root for the same actors

A tree is created, actors are set in it, and it may be flushed or read again from a root of its own in
between. What it holds then is the actors that were set last, and nothing else about its past can be
told from the root that it is flushed under: the actors set over, the order of the calls, and the
moments at which nodes were written or read.

* `StateTree.Composed`, `StateTree.Written`: trees and roots with a past.
* `StateTree.RegularTree`: what all such trees have in common.
* `Composed.regular`: each step keeps it.
* `StateTree.roots_of_written`: a root holds what was set last, and is the only one that does.
-/

namespace ReplayVector

open BlockM
open StoreAnswer (blocks Withheld)

namespace StateTree

-- ---------------------------------------------------------------------------
-- Regular trees
-- ---------------------------------------------------------------------------

section View

variable {view : View} {base : Base} {actors : Actors} {t t' : StateTree} {root root' : Cid}
  {ws : List Block}

/-- What the second link of every root leads to. -/
def emptyInfo : Cid := .ofDagCbor (Cbor.encode (.list []))

/-- The tree has the actors, its map came of setting their keys, and the rest of it is as it was
created. -/
structure RegularTree (view : View) (base : Base) (actors : Actors) (t : StateTree) : Prop where
  has : t.HasActors True view base actors
  shaped : Hamt.ShapedMap view Actor.packing base t.map
  keys : ∀ key', base key' ≠ none → ∃ id, key' = key id
  info : t.info = emptyInfo

/-- Such a tree was written under the root. -/
structure RegularRoot (view : View) (base : Base) (actors : Actors) (c root : Cid) : Prop where
  map : Hamt.RegularAt view Actor.packing base c
  keys : ∀ key', base key' ≠ none → ∃ id, key' = key id
  actor : ∀ id, base (key id) = actors id
  root_eq : root = .ofDagCbor (StateRoot.mk version c emptyInfo).toCbor.encode
  written : view root = some (StateRoot.mk version c emptyInfo).toCbor.encode

theorem regularTree_of_create (h : (create version).on view = (.ok t, ws)) :
    RegularTree view (fun _ => none) (fun _ => none) t := by
  have hcreate : (create version).on view = (.ok ⟨.empty, emptyInfo, [], []⟩,
      [.ofDagCbor (Cbor.encode (.list []))]) := by
    rw [create, if_pos rfl]
    rfl
  rw [hcreate] at h
  cases h
  exact ⟨hasActors_empty True view _, Hamt.shapedMap_empty view _ _,
    fun key' hkey => absurd rfl hkey, rfl⟩

theorem RegularTree.setActor (h : RegularTree view base actors t) (id : ActorId) (a : Actor) :
    RegularTree view base (Function.update actors id (some a)) (t.setActor id a) := by
  refine ⟨?_, h.shaped, h.keys, h.info⟩
  exact h.has.setActor (Or.inl trivial) a

/-- What is known of actors has no order. -/
theorem RegularTree.reorder (h : RegularTree view base actors t)
    {known : List (ActorId × KnownActor)} (hperm : known.Perm t.known) :
    RegularTree view base actors { t with known } := by
  have hnodup : (known.map (·.1)).Nodup := (hperm.map _).nodup_iff.mpr h.has.nodup
  have hlookup (id : ActorId) : known.lookup id = t.known.lookup id := by
    cases hfound : t.known.lookup id with
    | some k => exact Hamt.lookup_of_mem hnodup (hperm.mem_iff.mpr (Hamt.mem_of_lookup hfound))
    | none =>
      rw [Hamt.lookup_eq_none] at hfound ⊢
      rwa [(hperm.map _).mem_iff]
  refine ⟨⟨h.has.represents, hnodup, fun id => ?_, fun id k hk => ?_, fun id k hk => ?_,
    fun id k hk => ?_⟩, h.shaped, h.keys, h.info⟩
  · rw [← h.has.actor id]
    exact congrArg (fun o => Option.elim o (base (key id)) KnownActor.actor) (hlookup id)
  · exact h.has.same id k (hperm.mem_iff.mp hk)
  · exact h.has.present id k (hperm.mem_iff.mp hk)
  · exact h.has.fresh id k (hperm.mem_iff.mp hk)

/-- Finding an actor leaves a tree with a map that was read further at most. -/
private theorem shapedMap_of_findActor (h : Hamt.ShapedMap view Actor.packing base t.map)
    {id : ActorId} {found : Option Actor}
    (hfind : (t.findActor id).on view = (.ok (found, t'), ws)) :
    Hamt.ShapedMap view Actor.packing base t'.map ∧ t'.info = t.info := by
  rw [findActor] at hfind
  split at hfind
  · cases hfind
    exact ⟨h, rfl⟩
  · obtain ⟨r, ws₁, ws₂, hget, hdone, -⟩ := of_on_bind_ok hfind
    cases hdone
    exact ⟨h.of_get? hget, rfl⟩

/-- Finding an actor. -/
theorem RegularTree.gives_getActor (h : RegularTree view base actors t) (id : ActorId) :
    ∃ t', (t.getActor id).Gives view (actors id, t') ∧ RegularTree view base actors t' := by
  obtain ⟨t', hfind, ht', -⟩ := h.has.gives_findActor id
  obtain ⟨hshaped, hinfo⟩ := shapedMap_of_findActor h.shaped hfind
  exact ⟨t', hfind.summarize _, ht', hshaped, h.keys, hinfo.trans h.info⟩

/-- The map of a regular tree learns of all changes, unless too many of its keys have the same
path. -/
private theorem RegularTree.gives_moveChanged (h : RegularTree view base actors t) :
    (∃ map, (moveChanged t.known t.map).Gives view
        (.ok (), t.known.map (fun e => (e.1, moved e.2)), map) ∧
      RegularTree view (flushed base t) actors
        { t with known := t.known.map fun e => (e.1, moved e.2), map }) ∨
    (∃ e rest map, (moveChanged t.known t.map).Gives view (.error e, rest, map)) ∧
      Hamt.Crowded fun key' => ∃ id, actors id ≠ none ∧ key' = key id := by
  have hkeys : ∀ key', flushed base t key' ≠ none → ∃ id, key' = key id := by
    intro key' hkey
    rcases h.has.flushed_eq key' with heq | hid
    · exact h.keys key' (heq ▸ hkey)
    · exact hid
  obtain ⟨r, rest, map, hmoved, ⟨rfl, hmap⟩ | ⟨⟨e, rfl⟩, hfull⟩⟩ :=
    StateTree.gives_moveChanged h.has.fresh h.has.represents
  · obtain rfl := known_of_moveChanged hmoved
    have hgrown : Hamt.ShapedMap view Actor.packing (flushed base t) t.map :=
      h.shaped.mono fun key' hkey => Hamt.setAll_ne_none hkey
    have hshaped : Hamt.ShapedMap view Actor.packing (flushed base t) map :=
      kept_of_moveChanged (fun e he _ _ _ hgrown hset =>
        Hamt.ShapedMap.of_set hgrown (h.has.flushed_ne_none he) hset) hgrown hmoved
    exact Or.inl ⟨map, hmoved, h.has.of_moved hmap, hshaped, hkeys, h.info⟩
  · refine Or.inr ⟨⟨e, rest, map, hmoved⟩, (Hamt.crowded_of_not_spread hfull.2).mono ?_⟩
    intro key' hkey
    obtain ⟨id, rfl⟩ := hkeys key' hkey
    refine ⟨id, ?_, rfl⟩
    rw [← h.has.flushed_key id]
    exact hkey

/-- A flush that ends well leaves the tree regular, and under its root. -/
theorem RegularTree.of_flush (h : RegularTree view base actors t)
    (hflush : t.flush.on view = (.ok (.ok root, t'), ws))
    (hws : ∀ b ∈ ws, view b.cid = some b.data) :
    RegularTree view (flushed base t) actors t' ∧
      ∃ c, RegularRoot view (flushed base t) actors c root := by
  rcases h.gives_moveChanged with ⟨map, hmoved, ht⟩ | ⟨⟨e, rest, map, hmoved⟩, -⟩
  · rw [on_flush_of_moved hmoved] at hflush
    rcases hmap : (map.flush Actor.packing).on view with ⟨e | ⟨c, map'⟩, ws₁⟩
    · rw [hmap] at hflush
      cases hflush
    · rw [hmap] at hflush
      cases hflush
      have hregular : Hamt.Regular view Actor.packing (flushed base t) map :=
        ⟨ht.has.represents, ht.shaped⟩
      obtain ⟨hmap', hc⟩ := hregular.of_flush Actor.packing_lawful hmap
        fun b hb => hws b (List.mem_append_left _ hb)
      refine ⟨⟨{ ht.has with represents := hmap'.represents }, hmap'.shaped, ht.keys, ht.info⟩, c, hc,
        ht.keys, h.has.flushed_key, ?_, ?_⟩
      · rw [h.info]
      · rw [h.info]
        rw [h.info] at hws
        exact hws _ (List.mem_append_right _ (List.mem_singleton_self _))
  · rw [flush, hmoved.on_bind] at hflush
    cases hflush

/-- The tree under such a root is regular. -/
theorem RegularRoot.gives_load {c : Cid} (h : RegularRoot view base actors c root) :
    ∃ t, (load root).Gives view t ∧ RegularTree view base actors t := by
  obtain ⟨hmap, hkeys, hactor, rfl, hwritten⟩ := h
  obtain ⟨map, hload, hregular⟩ := hmap.gives_load
  refine ⟨_, gives_loadRoot (gives_readAs_root c emptyInfo hwritten) rfl hload,
    ⟨hregular.represents, .nil, hactor, ?_, ?_, ?_⟩, hregular.shaped, hkeys, rfl⟩ <;>
    exact fun id k hk => (by cases hk)

/-- The same actors have the same root, and no others have it. -/
theorem RegularRoot.eq_iff {base' : Base} {actors' : Actors} {c c' : Cid}
    (h : RegularRoot view base actors c root) (h' : RegularRoot view base' actors' c' root') :
    root = root' ↔ actors = actors' := by
  constructor
  · rintro rfl
    obtain ⟨t, hload, ht⟩ := h.gives_load
    obtain ⟨t', hload', ht'⟩ := h'.gives_load
    obtain rfl := hload.unique hload'
    funext id
    obtain ⟨_, hget, -⟩ := ht.gives_getActor id
    obtain ⟨_, hget', -⟩ := ht'.gives_getActor id
    exact congrArg Prod.fst (hget.unique hget')
  · rintro rfl
    have hbase : base = base' := by
      have hkey (id : ActorId) : base (key id) = base' (key id) :=
        (h.actor id).trans (h'.actor id).symm
      funext key'
      by_cases hkey' : ∃ id, key' = key id
      · obtain ⟨id, rfl⟩ := hkey'
        exact hkey id
      · have hnone {f : Base} (hf : ∀ key', f key' ≠ none → ∃ id, key' = key id) : f key' = none :=
          Classical.byContradiction fun hne => hkey' (hf key' hne)
        rw [hnone h.keys, hnone h'.keys]
    subst hbase
    obtain rfl := h.map.unique Actor.packing_lawful h'.map
    rw [h.root_eq, h'.root_eq]

end View

-- ---------------------------------------------------------------------------
-- Trees with a past
-- ---------------------------------------------------------------------------

/-- The actor that was set last. -/
def lastSet (sets : List (ActorId × Actor)) (id : ActorId) : Option Actor := sets.reverse.lookup id

theorem lastSet_append (sets : List (ActorId × Actor)) (id : ActorId) (a : Actor) :
    lastSet (sets ++ [(id, a)]) = Function.update (lastSet sets) id (some a) := by
  funext j
  rw [lastSet, List.reverse_append, Function.update_apply]
  exact Hamt.lookup_cons_eq j id a _

variable {σ : Type}

/-- A tree that was created over the store, the actors that were set in it, and a log of all calls of
the store that it comes from. The store may be in any state when a call begins. -/
inductive Composed (s : BlockStore (StateM σ)) :
    List (ActorId × Actor) → StateTree → List StoreAnswer → Prop
  | created {t : StateTree} {log : List StoreAnswer} (h : Ran s (create version) (.ok t) log) :
      Composed s [] t log
  | set {sets : List (ActorId × Actor)} {t : StateTree} {log : List StoreAnswer}
      (h : Composed s sets t log) (id : ActorId) (a : Actor) :
      Composed s (sets ++ [(id, a)]) (t.setActor id a) log
  | found {sets : List (ActorId × Actor)} {t t' : StateTree} {log more : List StoreAnswer}
      {id : ActorId} {actor : Option Actor} (h : Composed s sets t log)
      (hget : Ran s (t.getActor id) (.ok (actor, t')) more) : Composed s sets t' (log ++ more)
  /-- What is known of actors has no order: it may be gone through in another one. -/
  | reordered {sets : List (ActorId × Actor)} {t : StateTree} {log : List StoreAnswer}
      {known : List (ActorId × KnownActor)} (h : Composed s sets t log)
      (hperm : known.Perm t.known) : Composed s sets { t with known } log
  | flushed {sets : List (ActorId × Actor)} {t t' : StateTree} {log more : List StoreAnswer}
      {root : Cid} (h : Composed s sets t log) (hflush : Ran s t.flush (.ok (.ok root, t')) more) :
      Composed s sets t' (log ++ more)
  /-- A flush that fails has lost nothing, whichever block the store did not take, if the store gave
  out all nodes that were asked for and not too many keys have the same path. -/
  | refused {sets : List (ActorId × Actor)} {t t' : StateTree} {log more : List StoreAnswer}
      {e : Failure} (h : Composed s sets t log) (hflush : Ran s t.flush (.ok (.error e, t')) more)
      (hstore : ∀ c, ¬Withheld more c)
      (hroom : ¬Hamt.Crowded fun key' => ∃ id, lastSet sets id ≠ none ∧ key' = key id) :
      Composed s sets t' (log ++ more)
  /-- The tree under a root of its own; whatever happened to it since is forgotten. -/
  | reloaded {sets : List (ActorId × Actor)} {t t' t'' : StateTree}
      {log more again : List StoreAnswer} {root : Cid} (h : Composed s sets t log)
      (hflush : Ran s t.flush (.ok (.ok root, t')) more) (hload : Ran s (load root) (.ok t'') again) :
      Composed s sets t'' (log ++ more ++ again)

/-- A root that such a tree was flushed under. -/
def Written (s : BlockStore (StateM σ)) (sets : List (ActorId × Actor)) (root : Cid)
    (log : List StoreAnswer) : Prop :=
  ∃ t t' before more, Composed s sets t before ∧ Ran s t.flush (.ok (.ok root, t')) more ∧
    log = before ++ more

variable {s : BlockStore (StateM σ)} {sets : List (ActorId × Actor)} {t t' : StateTree} {root : Cid}
  {log more : List StoreAnswer} {view : View} {base : Base} {actors : Actors}

private theorem RegularTree.of_ran_flush (h : RegularTree view base actors t)
    (hflush : Ran s t.flush (.ok (.ok root, t')) more)
    (hview : ∀ b ∈ blocks more, view b.cid = some b.data) :
    RegularTree view (flushed base t) actors t' ∧
      ∃ c, RegularRoot view (flushed base t) actors c root := by
  rcases t.insists_flush.of_ran hflush hview with ⟨ws, hon, hws⟩ | ⟨⟨e, t'', hmiss⟩, -⟩
  · exact h.of_flush hon fun b hb => hview b (hws b hb)
  · cases hmiss

/-- A flush that fails leaves the tree regular, whether a node cannot be written or the store does not
take a block, unless too many of its keys have the same path. -/
private theorem RegularTree.of_ran_flush_error (h : RegularTree view base actors t) {e : Failure}
    (hroom : ¬Hamt.Crowded fun key' => ∃ id, actors id ≠ none ∧ key' = key id)
    (hflush : Ran s t.flush (.ok (.error e, t')) more) (hstore : ∀ c, ¬Withheld more c)
    (hview : ∀ b ∈ blocks more, view b.cid = some b.data) :
    RegularTree view (flushed base t) actors t' := by
  rcases h.gives_moveChanged with ⟨map, hmoved, ht⟩ | ⟨-, hcrowded⟩
  case inr => exact (hroom hcrowded).elim
  obtain ⟨⟨moved, known, map'⟩, log₁, log₂, hmove, hrest, rfl⟩ := hflush.of_bind_ok
  rw [StoreAnswer.blocks_append] at hview
  -- all nodes were given out, so the map has learned of all changes
  have hmoved' : (moveChanged t.known t.map).on view = (.ok (moved, known, map'), []) := by
    rcases (insists_moveChanged t.known t.map).of_ran hmove
      fun b hb => hview b (List.mem_append_left _ hb) with
      ⟨ws, hon, -⟩ | ⟨-, ⟨c, a, ha, hnot⟩ | hrefused⟩
    · have hquiet := (quiet_moveChanged t.known t.map).on_snd view
      rw [hon] at hquiet ⊢
      rw [show ws = [] from hquiet]
    · exact (hstore c ⟨a, List.mem_append_left _ ha, hnot⟩).elim
    · exact ((quiet_moveChanged t.known t.map).of_ran hmove hrefused).elim
  cases hmoved'.symm.trans hmoved
  obtain ⟨r, log₃, log₄, hattempt, hend, rfl⟩ := hrest.of_bind_ok
  rw [StoreAnswer.blocks_append] at hview
  have hran := hattempt.of_attempt
  rcases r with f | ⟨c, map'⟩
  · cases hend.eq_of_done.1
    exact ht
  · -- the nodes were written, so it is the root block that was not taken
    have hflushed : ∃ ws, (map.flush Actor.packing).on view = (.ok (c, map'), ws) ∧
        ∀ b ∈ ws, b ∈ blocks log₃ := by
      rcases (writing_insists.flush Actor.packing map).of_ran hran
        fun b hb => hview b (by simp [hb]) with hon | ⟨⟨f, hmiss⟩, -⟩
      · exact hon
      · cases hmiss
    obtain ⟨ws, hon, hws⟩ := hflushed
    obtain ⟨written, log₅, log₆, -, hdone, -⟩ := hend.of_bind_ok
    obtain ⟨-, rfl⟩ := Prod.mk.inj (Except.ok.inj hdone.eq_of_done.1)
    have hregular : Hamt.Regular view Actor.packing (flushed base t) map :=
      ⟨ht.has.represents, ht.shaped⟩
    obtain ⟨hmap', -⟩ := hregular.of_flush Actor.packing_lawful hon
      fun b hb => hview b (by simp [hws b hb])
    exact ⟨{ ht.has with represents := hmap'.represents }, hmap'.shaped, ht.keys, ht.info⟩

/-- Whatever was done to a tree, it is regular and has the actors that were set last. -/
theorem Composed.regular (h : Composed s sets t log)
    (hview : ∀ b ∈ blocks log, view b.cid = some b.data) :
    ∃ base, RegularTree view base (lastSet sets) t := by
  induction h with
  | created h =>
    have hinsists : (create version).Insists Failed := by
      rw [create, if_pos rfl]
      exact ((insists_writeCbor _).bind fun _ => insists_pure _).summarize _
    rcases hinsists.of_ran h hview with ⟨ws, hon, -⟩ | ⟨⟨e, hmiss⟩, -⟩
    · exact ⟨_, regularTree_of_create hon⟩
    · cases hmiss
  | set h id a ih =>
    obtain ⟨base, ht⟩ := ih hview
    rw [lastSet_append]
    exact ⟨base, ht.setActor id a⟩
  | found h hget ih =>
    rw [StoreAnswer.blocks_append] at hview
    obtain ⟨base, ht⟩ := ih fun b hb => hview b (List.mem_append_left _ hb)
    rcases (reading_insists.getActor _ _).of_ran hget
      fun b hb => hview b (List.mem_append_right _ hb) with ⟨ws, hon, -⟩ | ⟨⟨e, hmiss⟩, -⟩
    · obtain ⟨t', hgives, ht'⟩ := ht.gives_getActor _
      rw [hgives] at hon
      cases hon
      exact ⟨base, ht'⟩
    · cases hmiss
  | reordered h hperm ih =>
    obtain ⟨base, ht⟩ := ih hview
    exact ⟨base, ht.reorder hperm⟩
  | flushed h hflush ih =>
    rw [StoreAnswer.blocks_append] at hview
    obtain ⟨base, ht⟩ := ih fun b hb => hview b (List.mem_append_left _ hb)
    exact ⟨_, (ht.of_ran_flush hflush fun b hb => hview b (List.mem_append_right _ hb)).1⟩
  | refused h hflush hstore hroom ih =>
    rw [StoreAnswer.blocks_append] at hview
    obtain ⟨base, ht⟩ := ih fun b hb => hview b (List.mem_append_left _ hb)
    exact ⟨_, ht.of_ran_flush_error hroom hflush hstore
      fun b hb => hview b (List.mem_append_right _ hb)⟩
  | reloaded h hflush hload ih =>
    rw [StoreAnswer.blocks_append, StoreAnswer.blocks_append] at hview
    obtain ⟨base, ht⟩ := ih fun b hb => hview b (by simp [hb])
    obtain ⟨-, c, hroot⟩ := ht.of_ran_flush hflush fun b hb => hview b (by simp [hb])
    rcases (reading_insists.loadTree _).of_ran hload fun b hb => hview b (by simp [hb]) with
      ⟨ws, hon, -⟩ | ⟨⟨e, hmiss⟩, -⟩
    · obtain ⟨t', hgives, ht'⟩ := hroot.gives_load
      rw [hgives] at hon
      cases hon
      exact ⟨_, ht'⟩
    · cases hmiss

theorem Written.regular (h : Written s sets root log)
    (hview : ∀ b ∈ blocks log, view b.cid = some b.data) :
    ∃ base c, RegularRoot view base (lastSet sets) c root := by
  obtain ⟨t, t', before, more, hcomposed, hflush, rfl⟩ := h
  rw [StoreAnswer.blocks_append] at hview
  obtain ⟨base, ht⟩ := hcomposed.regular fun b hb => hview b (List.mem_append_left _ hb)
  exact ⟨_, (ht.of_ran_flush hflush fun b hb => hview b (List.mem_append_right _ hb)).2⟩

/-- Every actor that is asked for is found as given, unless the store withholds a block that it has
given out or taken before. -/
def Finds (s : BlockStore (StateM σ)) (actors : Actors) (t : StateTree) (log : List StoreAnswer) :
    Prop :=
  ∀ id x more, Ran s (t.getActor id) x more → CollisionFree (fun b => b ∈ blocks (log ++ more)) →
    (∃ t', x = .ok (actors id, t')) ∨ Failed x ∧ ∃ b ∈ blocks log, Withheld more b.cid

theorem Composed.finds (h : Composed s sets t log) : Finds s (lastSet sets) t log := by
  intro id x more hran hfree
  obtain ⟨base, ht⟩ := h.regular fun _ hb =>
    StoreAnswer.view_of_mem (StoreAnswer.collisionFree_left hfree) hb
  obtain ⟨t', hgives, -⟩ := ht.gives_getActor id
  exact ((reading_insists.getActor t id).of_ran_known hgives (by simp [Failed]) hran hfree).imp_left
    fun hx => ⟨t', hx⟩

/-- As long as no two blocks involved share an identifier, a root that a tree was flushed under leads
to a tree with the actors that were set last, and two such roots are the same just if those actors
are. -/
theorem roots_of_written (h : Written s sets root log) {σ' : Type} {s' : BlockStore (StateM σ')}
    {sets' : List (ActorId × Actor)} {root' : Cid} {log' : List StoreAnswer}
    (h' : Written s' sets' root' log') (hfree : CollisionFree fun b => b ∈ blocks (log ++ log')) :
    (∀ x more, Ran s (load root) x more → CollisionFree (fun b => b ∈ blocks (log ++ more)) →
      (∃ t, x = .ok t ∧ Finds s (lastSet sets) t (log ++ more)) ∨
      Failed x ∧ ∃ b ∈ blocks log, Withheld more b.cid) ∧
    (root = root' ↔ ∀ id, lastSet sets id = lastSet sets' id) := by
  constructor
  · intro x more hran hfree'
    obtain ⟨base, c, hroot⟩ := h.regular fun _ hb =>
      StoreAnswer.view_of_mem (StoreAnswer.collisionFree_left hfree') hb
    obtain ⟨t, hgives, -⟩ := hroot.gives_load
    refine ((reading_insists.loadTree root).of_ran_known hgives (by simp [Failed]) hran
      hfree').imp_left ?_
    rintro rfl
    -- the tree that was read goes on from the one that was flushed
    obtain ⟨u, u', before, after, hcomposed, hflush, rfl⟩ := h
    exact ⟨t, rfl, (hcomposed.reloaded hflush hran).finds⟩
  · have hview := fun b hb => StoreAnswer.view_of_mem hfree (b := b) hb
    rw [StoreAnswer.blocks_append] at hview
    obtain ⟨base, c, hroot⟩ := h.regular fun b hb => hview b (List.mem_append_left _ hb)
    obtain ⟨base', c', hroot'⟩ := h'.regular fun b hb => hview b (List.mem_append_right _ hb)
    rw [hroot.eq_iff hroot', funext_iff]

-- ---------------------------------------------------------------------------
-- Two actors
-- ---------------------------------------------------------------------------

/-- An actor with the given number of messages. -/
def sampleActor (sequence : UInt64) : Actor := ⟨emptyInfo, emptyInfo, sequence, 0, none⟩

set_option maxRecDepth 20000 in
/-- Two actors are set at once, or one after the other with another one in between, and flushes and a
reload on the way. -/
private theorem sampleRoots_facts :
    (match Memory.empty.execLogged (create version) with
      | ((.ok t₀, log₀), m₀) =>
        match m₀.execLogged ((t₀.setActor 100 (sampleActor 1)).setActor 101 (sampleActor 2)).flush with
        | ((.ok (.ok _, _), log₁), m₁) =>
          match m₁.execLogged ((t₀.setActor 101 (sampleActor 2)).setActor 100 (sampleActor 3)).flush with
          | ((.ok (.ok between, _), log₂), m₂) =>
            match m₂.execLogged (load between) with
            | ((.ok t₃, log₃), m₃) =>
              match m₃.execLogged (t₃.setActor 100 (sampleActor 1)).flush with
              | ((.ok (.ok _, _), log₄), _) =>
                Block.areDistinct (blocks ((log₀ ++ log₁) ++ (log₀ ++ log₂ ++ log₃ ++ log₄)))
              | _ => false
            | _ => false
          | _ => false
        | _ => false
      | _ => false) = true := by
  decide +kernel

/-- The two actors have one root. -/
theorem roots_of_two_actors : ∃ root log log',
    Written Memory.store [(100, sampleActor 1), (101, sampleActor 2)] root log ∧
      Written Memory.store [(101, sampleActor 2), (100, sampleActor 3), (100, sampleActor 1)] root
        log' ∧
      ∀ x more, Ran Memory.store (load root) x more →
        CollisionFree (fun b => b ∈ blocks (log ++ more)) →
          (∃ t, x = .ok t ∧ Finds Memory.store
            (lastSet [(100, sampleActor 1), (101, sampleActor 2)]) t (log ++ more)) ∨
          Failed x ∧ ∃ b ∈ blocks log, Withheld more b.cid := by
  have hfacts := sampleRoots_facts
  split at hfacts
  · next t₀ log₀ m₀ hcreate =>
    split at hfacts
    · next root t₁ log₁ m₁ hflush =>
      split at hfacts
      · next between t₂ log₂ m₂ hbetween =>
        split at hfacts
        · next t₃ log₃ m₃ hload =>
          split at hfacts
          · next root' t₄ log₄ m₄ hflush' =>
            have hcreated := Composed.created (Memory.ran_of_execLogged hcreate)
            have hwritten : Written Memory.store [(100, sampleActor 1), (101, sampleActor 2)] root
                (log₀ ++ log₁) :=
              ⟨_, _, _, _, (hcreated.set 100 _).set 101 _, Memory.ran_of_execLogged hflush, rfl⟩
            have hreloaded := ((hcreated.set 101 (sampleActor 2)).set 100 (sampleActor 3)).reloaded
              (Memory.ran_of_execLogged hbetween) (Memory.ran_of_execLogged hload)
            have hwritten' : Written Memory.store
                [(101, sampleActor 2), (100, sampleActor 3), (100, sampleActor 1)] root'
                (log₀ ++ log₂ ++ log₃ ++ log₄) :=
              ⟨_, _, _, _, hreloaded.set 100 _, Memory.ran_of_execLogged hflush', rfl⟩
            obtain ⟨hfinds, hsame⟩ :=
              roots_of_written hwritten hwritten' (.of_areDistinct hfacts)
            obtain rfl := hsame.mpr fun id => by
              simp only [lastSet, List.reverse_cons, List.reverse_nil, List.nil_append,
                List.cons_append, Hamt.lookup_cons_eq, List.lookup_nil]
              by_cases h₁ : id = 100 <;> by_cases h₂ : id = 101 <;> simp_all
            exact ⟨root, _, _, hwritten, hwritten', hfinds⟩
          · cases hfacts
        · cases hfacts
      · cases hfacts
    · cases hfacts
  · cases hfacts

end StateTree

end ReplayVector
