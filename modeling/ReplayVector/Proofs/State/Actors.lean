import ReplayVector.Proofs.State.Maps
import ReplayVector.Proofs.State.Order
import ReplayVector.Proofs.State.Trees

/-!
# The actors of a state tree

A tree that is built up in memory, and one that is stored, stands for a map from IDs to actors.
What was changed in memory counts before what is stored, and is stored once the tree is written.

* `StateTree.HasActors`: the actors of a tree in memory.
* `StateTree.StoresActors`: the actors under a root.
* `HasActors.of_write`, `HasActors.write_ok_or`: writing a tree.
-/

namespace ReplayVector

open BlockM

variable {neat : Prop} {view view' : View}

/-- The state of each actor. -/
abbrev Actors := ActorId → Option Actor

namespace StateTree

/-- The map of a tree is about the keys of actors. -/
abbrev Base := Hamt.Entries Actor

/-! ## What is known of actors -/

/-- What was remembered last of an actor is found. -/
theorem lookup_setKnown (id j : ActorId) (k : KnownActor) (l : List (ActorId × KnownActor)) :
    (setKnown id k l).lookup j = if j = id then some k else l.lookup j := by
  induction l with
  | nil => exact Hamt.lookup_cons_eq j id k []
  | cons e l ih =>
    obtain ⟨i, k'⟩ := e
    rw [setKnown]
    split
    · next heq =>
      rw [Hamt.lookup_cons_eq, Hamt.lookup_cons_eq, heq]
      split <;> rfl
    · next hne =>
      rw [Hamt.lookup_cons_eq, Hamt.lookup_cons_eq, ih]
      by_cases hj : j = i
      · rw [if_pos hj, if_pos hj, if_neg (hj ▸ hne)]
      · rw [if_neg hj, if_neg hj]

/-- An actor is remembered once. -/
theorem nodup_setKnown {id : ActorId} {k : KnownActor} {l : List (ActorId × KnownActor)}
    (h : (l.map (·.1)).Nodup) : ((setKnown id k l).map (·.1)).Nodup := by
  induction l with
  | nil => simp [setKnown]
  | cons e l ih =>
    obtain ⟨i, k'⟩ := e
    obtain ⟨hnotin, hnodup⟩ := List.nodup_cons.mp h
    rw [setKnown]
    split
    · next heq => exact heq ▸ h
    · next hne =>
      refine List.nodup_cons.mpr ⟨fun hmem => ?_, ih hnodup⟩
      obtain ⟨e, he, heq⟩ := List.mem_map.mp hmem
      rcases mem_setKnown he with rfl | he
      · exact hne heq.symm
      · exact hnotin (List.mem_map.mpr ⟨e, he, heq⟩)

/-- The tree in memory has the actors, given what its map stands for. Actors that the map does not
have were set only if the map is neat. -/
structure HasActors (neat : Prop) (view : View) (base : Base) (actors : Actors) (t : StateTree) :
    Prop where
  represents : Hamt.Represents neat view Actor.packing base t.map
  nodup : (t.known.map (·.1)).Nodup
  actor : ∀ id, ((t.known.lookup id).elim (base (key id)) KnownActor.actor) = actors id
  same : ∀ id k, (id, k) ∈ t.known → k.changed = false → k.actor = base (key id)
  present : ∀ id k, (id, k) ∈ t.known → k.changed = true → k.actor ≠ none
  fresh : ∀ id k, (id, k) ∈ t.known → k.changed = true → neat ∨ base (key id) ≠ none

variable {base : Base} {actors : Actors} {t : StateTree}

/-- A tree has its actors among more blocks, too. -/
theorem HasActors.mono (h : t.HasActors neat view base actors) (hsub : Hamt.Within view view') :
    t.HasActors neat view' base actors := { h with represents := h.represents.mono hsub }

/-- An empty tree has no actors. -/
theorem hasActors_empty (neat : Prop) (view : View) (info : Cid) :
    HasActors neat view (fun _ => none) (fun _ => none) ⟨.empty, info, [], []⟩ := by
  refine ⟨Hamt.represents_empty neat view Actor.packing, .nil, fun _ => rfl, ?_, ?_, ?_⟩ <;>
    exact fun id k hk => (by cases hk)

private theorem length_key_lt (id : ActorId) : (key id).length < 2 ^ 64 := by
  have := (Address.id id).length_toBytes_le
  unfold key
  omega

/-- An actor of a tree is in its map, unless the map is neat. -/
theorem HasActors.base_ne_none (h : t.HasActors neat view base actors) {id : ActorId}
    (hid : actors id ≠ none) : neat ∨ base (key id) ≠ none := by
  rw [← h.actor id] at hid
  cases hk : t.known.lookup id with
  | none =>
    rw [hk] at hid
    exact Or.inr hid
  | some k =>
    have hmem := Hamt.mem_of_lookup hk
    rw [hk] at hid
    cases hchanged : k.changed with
    | true => exact h.fresh id k hmem hchanged
    | false =>
      rw [← h.same id k hmem hchanged]
      exact Or.inr hid

/-- The actors of a tree are found in memory or in its map. -/
theorem HasActors.gives_findActor (h : t.HasActors neat view base actors) (id : ActorId) :
    ∃ t', (t.findActor id).Gives view (actors id, t') ∧ t'.HasActors neat view base actors ∧
      t'.resolved = t.resolved := by
  have hactor := h.actor id
  rw [findActor]
  cases hk : t.known.lookup id with
  | some k =>
    rw [hk] at hactor
    dsimp only
    exact ⟨t, by rw [← hactor]; exact gives_pure view _, h, rfl⟩
  | none =>
    rw [hk] at hactor
    have hbase : base (key id) = actors id := hactor
    obtain ⟨m, hget, hm⟩ := h.represents.gives_get? (key id)
    -- it is known from now on, unchanged, so nothing is to be written
    refine ⟨{ t with map := m, known := setKnown id ⟨base (key id), false⟩ t.known }, ?_,
      ⟨hm, nodup_setKnown h.nodup, ?_, ?_, ?_, ?_⟩, rfl⟩
    · rw [← hbase]
      exact hget.bind (gives_pure view _)
    · intro j
      dsimp only
      rw [lookup_setKnown]
      split
      · next heq => rw [heq]; exact hactor
      · exact h.actor j
    · intro j k' hk' hchanged
      rcases mem_setKnown hk' with heq | hk'
      · cases heq
        rfl
      · exact h.same j k' hk' hchanged
    · intro j k' hk' hchanged
      rcases mem_setKnown hk' with heq | hk'
      · cases heq
        cases hchanged
      · exact h.present j k' hk' hchanged
    · intro j k' hk' hchanged
      rcases mem_setKnown hk' with heq | hk'
      · cases heq
        cases hchanged
      · exact h.fresh j k' hk' hchanged

/-- Setting an actor. -/
theorem HasActors.setActor (h : t.HasActors neat view base actors) {id : ActorId}
    (hid : neat ∨ actors id ≠ none) (a : Actor) :
    (t.setActor id a).HasActors neat view base (Function.update actors id (some a)) where
  represents := h.represents
  nodup := nodup_setKnown h.nodup
  actor := by
    intro j
    rw [StateTree.setActor, lookup_setKnown, Function.update_apply]
    split
    · rfl
    · exact h.actor j
  same := by
    intro j k hk hchanged
    rcases mem_setKnown hk with heq | hk
    · cases heq
      cases hchanged
    · exact h.same j k hk hchanged
  present := by
    intro j k hk hchanged
    rcases mem_setKnown hk with heq | hk
    · cases heq
      simp
    · exact h.present j k hk hchanged
  fresh := by
    intro j k hk hchanged
    rcases mem_setKnown hk with heq | hk
    · cases heq
      exact hid.elim Or.inl h.base_ne_none
    · exact h.fresh j k hk hchanged

/-- Setting several actors, each once, in a neat tree. -/
theorem HasActors.setAll (h : t.HasActors neat view base actors) (hneat : neat)
    {l : List (ActorId × Actor)} (hnodup : (l.map (·.1)).Nodup) :
    (l.foldl (fun t (id, a) => t.setActor id a) t).HasActors neat view base
      (fun id => (l.lookup id).or (actors id)) := by
  induction l generalizing t actors with
  | nil => exact h
  | cons e l ih =>
    obtain ⟨id, a⟩ := e
    obtain ⟨hnotin, hnodup⟩ := List.nodup_cons.mp hnodup
    have hset : (t.setActor id a).HasActors neat view base (Function.update actors id (some a)) :=
      h.setActor (Or.inl hneat) a
    have hrest := ih hset hnodup
    have heq : (fun j => (l.lookup j).or (Function.update actors id (some a) j)) =
        fun j => (((id, a) :: l).lookup j).or (actors j) := by
      funext j
      rw [Hamt.lookup_cons_eq, Function.update_apply]
      by_cases hj : j = id
      · have hnone : l.lookup j = none := by
          cases hfound : l.lookup j with
          | none => rfl
          | some b => exact absurd (List.mem_map.mpr ⟨_, Hamt.mem_of_lookup hfound, hj⟩) hnotin
        simp [hj, hj ▸ hnone]
      · simp [hj]
    rw [List.foldl_cons]
    exact heq ▸ hrest

/-! ## Writing -/

/-- Different actors have different keys. -/
theorem key_inj {id id' : ActorId} (h : key id = key id') : id = id' := by
  cases Address.toBytes_injective h
  rfl

/-- The entries that the map has yet to learn of. -/
def changedEntries (l : List (ActorId × KnownActor)) : List (Bytes × Actor) :=
  l.filterMap fun e => if e.2.changed then e.2.actor.map (key e.1, ·) else none

theorem changedEntries_cons {id : ActorId} {k : KnownActor} {a : Actor}
    (hchanged : k.changed = true) (hactor : k.actor = some a) (l : List (ActorId × KnownActor)) :
    changedEntries ((id, k) :: l) = (key id, a) :: changedEntries l := by
  simp [changedEntries, hchanged, hactor]

theorem changedEntries_cons_of_not {id : ActorId} {k : KnownActor}
    (h : ∀ a, k.changed = true → k.actor = some a → False) (l : List (ActorId × KnownActor)) :
    changedEntries ((id, k) :: l) = changedEntries l := by
  rw [changedEntries, List.filterMap_cons]
  cases hchanged : k.changed with
  | false => rfl
  | true =>
    cases hactor : k.actor with
    | none => rfl
    | some a => exact (h a hchanged hactor).elim

/-- The entries that have changed are those of changed actors. -/
private theorem mem_changedEntries {l : List (ActorId × KnownActor)} {e : Bytes × Actor}
    (h : e ∈ changedEntries l) : ∃ id k, (id, k) ∈ l ∧ e.1 = key id ∧ k.changed = true ∧
      k.actor = some e.2 := by
  obtain ⟨⟨id, k⟩, hk, he⟩ := List.mem_filterMap.mp h
  split at he
  · next hchanged =>
    obtain ⟨a, ha, rfl⟩ := Option.map_eq_some_iff.mp he
    exact ⟨id, k, hk, rfl, hchanged, ha⟩
  · cases he

/-- They have different keys. -/
theorem nodup_changedEntries {l : List (ActorId × KnownActor)}
    (h : (l.map (·.1)).Nodup) : ((changedEntries l).map (·.1)).Nodup := by
  induction l with
  | nil => simp [changedEntries]
  | cons e l ih =>
    obtain ⟨hnotin, hnodup⟩ := List.nodup_cons.mp h
    rw [changedEntries, List.filterMap_cons]
    split
    · exact ih hnodup
    · next b hb =>
      have hb' : b.1 = key e.1 := by
        split at hb
        · obtain ⟨a, -, rfl⟩ := Option.map_eq_some_iff.mp hb
          rfl
        · cases hb
      refine List.nodup_cons.mpr ⟨fun hmem => ?_, ih hnodup⟩
      obtain ⟨e', he', heq⟩ := List.mem_map.mp hmem
      obtain ⟨id, k, hk, hkey, -⟩ := mem_changedEntries he'
      have hid : id = e.1 := key_inj ((hkey.symm.trans heq).trans hb')
      exact hnotin (List.mem_map.mpr ⟨(id, k), hk, hid⟩)

/-- What the map of a tree stands for after it has learned of all changes. -/
def flushed (base : Base) (t : StateTree) : Base := Hamt.setAll base (changedEntries t.known)

/-- All actors of a tree are in its map then. -/
theorem HasActors.flushed_key (h : t.HasActors neat view base actors) (id : ActorId) :
    flushed base t (key id) = actors id := by
  have hnodup := nodup_changedEntries h.nodup
  rw [flushed, Hamt.setAll_apply base hnodup, ← h.actor id]
  -- is the actor among what was changed?
  cases hfound : (changedEntries t.known).lookup (key id) with
  | some a =>
    obtain ⟨id', k, hk, hkey, -, hactor⟩ := mem_changedEntries (Hamt.mem_of_lookup hfound)
    obtain rfl := key_inj hkey
    rw [Hamt.lookup_of_mem h.nodup hk, Option.elim_some, hactor]
    rfl
  | none =>
    rw [Option.none_or]
    cases hk : t.known.lookup id with
    | none => rfl
    | some k =>
      have hmem := Hamt.mem_of_lookup hk
      rw [Option.elim_some]
      cases hchanged : k.changed with
      | false => exact (h.same id k hmem hchanged).symm
      | true =>
        obtain ⟨a, ha⟩ := Option.ne_none_iff_exists'.mp (h.present id k hmem hchanged)
        have hentry : (key id, a) ∈ changedEntries t.known := by
          refine List.mem_filterMap.mpr ⟨(id, k), hmem, ?_⟩
          rw [hchanged, ha]
          rfl
        rw [Hamt.lookup_of_mem hnodup hentry] at hfound
        cases hfound

/-- What was changed is in the map of a tree then. -/
theorem HasActors.flushed_ne_none (h : t.HasActors neat view base actors) {e : Bytes × Actor}
    (he : e ∈ changedEntries t.known) : flushed base t e.1 ≠ none := by
  have hnodup := nodup_changedEntries h.nodup
  rw [flushed, Hamt.setAll_apply _ hnodup, Hamt.lookup_of_mem hnodup he]
  simp

/-- There is no room for all changes: one of them concerns a new actor, and too many keys have the
same path then. -/
def Overfull (base : Base) (l : List (ActorId × KnownActor)) : Prop :=
  (∃ id k, (id, k) ∈ l ∧ k.changed = true ∧ base (key id) = none) ∧
    ¬Hamt.Spread (Hamt.setAll base (changedEntries l))

/-- The map either learns of all changes or refuses one, because there is no room for it. -/
theorem gives_moveChanged {l : List (ActorId × KnownActor)}
    (hfresh : ∀ id k, (id, k) ∈ l → k.changed = true → neat ∨ base (key id) ≠ none)
    {map : Hamt Actor} (hmap : Hamt.Represents neat view Actor.packing base map) :
    ∃ r rest map', (moveChanged l map).Gives view (r, rest, map') ∧
      ((r = .ok () ∧
        Hamt.Represents neat view Actor.packing (Hamt.setAll base (changedEntries l)) map') ∨
      ((∃ e, r = .error e) ∧ Overfull base l)) := by
  -- by induction on the actors; those that have changed are set in the map
  induction l generalizing base map with
  | nil => exact ⟨.ok (), [], map, gives_pure view _, Or.inl ⟨rfl, hmap⟩⟩
  | cons e l ih =>
    obtain ⟨id, k⟩ := e
    have hrest := fun id k hk => hfresh id k (List.mem_cons_of_mem _ hk)
    rw [moveChanged]
    split
    · next a hchanged hactor =>
      have hnew := hfresh id k (List.mem_cons_self ..) hchanged
      unfold Overfull
      rw [changedEntries_cons hchanged hactor, Hamt.setAll_cons]
      have hkeeps (id' : ActorId) (hne : base (key id') ≠ none) :
          Function.update base (key id) (some a) (key id') ≠ none := by
        rw [Function.update_apply]
        split
        · simp
        · exact hne
      rcases hmap.set (length_key_lt id) hnew a with ⟨map', hset, hmap'⟩ | ⟨hfails, hnone, hspread⟩
      · obtain ⟨r, rest, map'', hgives, hr⟩ :=
          ih (fun id' k' hk' hch => (hrest id' k' hk' hch).imp_right (hkeeps id')) hmap'
        refine ⟨r, _, map'', hset.attempt.bind (hgives.bind (gives_pure view _)), ?_⟩
        refine hr.imp_right ?_
        rintro ⟨he, ⟨id', k', hk', hch, hnone⟩, hspread⟩
        refine ⟨he, ⟨id', k', List.mem_cons_of_mem _ hk', hch, ?_⟩, hspread⟩
        exact Classical.byContradiction fun hne => hkeeps id' hne hnone
      · -- the map refuses the key: it was not there, and the keys with it are crowded
        obtain ⟨e, he⟩ := (Hamt.quiet_set Actor.packing map (key id) a).on_of_fails hfails
        have hattempt : BlockM.Gives view (map.set Actor.packing (key id) a).attempt (.error e) := by
          rw [Gives, on_attempt, he]
        refine ⟨.error e, _, map, hattempt.bind (gives_pure view _), Or.inr ⟨⟨e, rfl⟩, ?_, ?_⟩⟩
        · exact ⟨id, k, List.mem_cons_self .., hchanged, hnone⟩
        · exact fun h => hspread (h.of_keys fun key hkey => Hamt.setAll_ne_none hkey)
    · next hnot =>
      unfold Overfull
      rw [changedEntries_cons_of_not hnot]
      obtain ⟨r, rest, map', hgives, hr⟩ := ih hrest hmap
      refine ⟨r, _, map', hgives.bind (gives_pure view _), ?_⟩
      refine hr.imp_right ?_
      rintro ⟨he, ⟨id', k', hk', hch, hnone⟩, hspread⟩
      exact ⟨he, ⟨id', k', List.mem_cons_of_mem _ hk', hch, hnone⟩, hspread⟩

/-- What is kept when a changed actor is set is kept when the map learns of all changes. -/
theorem kept_of_moveChanged {Q : Hamt Actor → Prop} {l : List (ActorId × KnownActor)}
    (hset : ∀ e ∈ changedEntries l, ∀ map map' ws, Q map →
      (map.set Actor.packing e.1 e.2).on view = (.ok map', ws) → Q map')
    {map map' : Hamt Actor} (hmap : Q map) {r : Except Failure Unit}
    {rest : List (ActorId × KnownActor)} {ws : List Block}
    (hmoved : (moveChanged l map).on view = (.ok (r, rest, map'), ws)) : Q map' := by
  induction l generalizing map r rest ws with
  | nil =>
    cases hmoved
    exact hmap
  | cons e l ih =>
    obtain ⟨id, k⟩ := e
    rw [moveChanged] at hmoved
    split at hmoved
    · next a hchanged hactor =>
      rw [changedEntries_cons hchanged hactor] at hset
      obtain ⟨set, ws₁, ws₂, htried, hnext, -⟩ := of_on_bind_ok hmoved
      rw [on_attempt] at htried
      rcases hon : (map.set Actor.packing (key id) a).on view with ⟨e | map₁, ws₀⟩
      · -- the map refuses the key, and stays as it is
        rw [hon] at htried
        cases htried
        cases hnext
        exact hmap
      · rw [hon] at htried
        cases htried
        obtain ⟨⟨r', rest', map₂⟩, ws₃, ws₄, hrest, hdone, -⟩ := of_on_bind_ok hnext
        cases hdone
        have hmap₁ := hset _ (List.mem_cons_self ..) map map₁ ws₀ hmap hon
        exact ih (fun e he => hset e (List.mem_cons_of_mem _ he)) hmap₁ hrest
    · next hnot =>
      rw [changedEntries_cons_of_not hnot] at hset
      obtain ⟨⟨r', rest', map₂⟩, ws₃, ws₄, hrest, hdone, -⟩ := of_on_bind_ok hmoved
      cases hdone
      exact ih hset hmap hrest

/-- What is known of an actor once the map has learned of it. -/
def moved (k : KnownActor) : KnownActor := { k with changed := k.changed && k.actor.isNone }

/-- Nothing is left to be learned of any actor once the map has learned of all changes. -/
theorem known_of_moveChanged {l : List (ActorId × KnownActor)} {map map' : Hamt Actor}
    {rest : List (ActorId × KnownActor)} {ws : List Block}
    (hmoved : (moveChanged l map).on view = (.ok (.ok (), rest, map'), ws)) :
    rest = l.map fun e => (e.1, moved e.2) := by
  induction l generalizing map rest ws with
  | nil =>
    cases hmoved
    rfl
  | cons e l ih =>
    obtain ⟨id, k⟩ := e
    rw [moveChanged] at hmoved
    split at hmoved
    · next a hchanged hactor =>
      obtain ⟨set, ws₁, ws₂, htried, hnext, -⟩ := of_on_bind_ok hmoved
      cases set with
      | error e => cases hnext
      | ok map₁ =>
        obtain ⟨⟨r', rest', map₂⟩, ws₃, ws₄, hrest, hdone, -⟩ := of_on_bind_ok hnext
        cases hdone
        rw [ih hrest, List.map_cons, moved, hactor, Option.isNone_some, Bool.and_false]
    · next hnot =>
      obtain ⟨⟨r', rest', map₂⟩, ws₃, ws₄, hrest, hdone, -⟩ := of_on_bind_ok hmoved
      cases hdone
      have hsame : moved k = k := by
        obtain ⟨actor, changed⟩ := k
        cases changed with
        | false => rfl
        | true =>
          cases actor with
          | none => rfl
          | some a => exact (hnot a rfl rfl).elim
      rw [ih hrest, List.map_cons, hsame]

/-- After the changes were moved into the map, the same actors are remembered. -/
private theorem lookup_moved (l : List (ActorId × KnownActor)) (id : ActorId) :
    (l.map fun e => (e.1, moved e.2)).lookup id = (l.lookup id).map moved := by
  induction l with
  | nil => rfl
  | cons e l ih =>
    rw [List.map_cons, Hamt.lookup_cons_eq, Hamt.lookup_cons_eq, ih]
    split <;> rfl

/-- Once its map has learned of all changes, a tree has the same actors. -/
theorem HasActors.of_moved (h : t.HasActors neat view base actors) {map : Hamt Actor}
    (hmap : Hamt.Represents neat view Actor.packing (flushed base t) map) :
    HasActors neat view (flushed base t) actors
      { t with known := t.known.map fun e => (e.1, moved e.2), map } := by
  have hchanged : ∀ id k, (id, k) ∈ t.known.map (fun e => (e.1, moved e.2)) →
      k.changed = false ∧ k.actor = actors id := by
    intro id k hk
    obtain ⟨⟨id', k'⟩, hk', heq⟩ := List.mem_map.mp hk
    obtain ⟨rfl, rfl⟩ := Prod.mk.inj heq
    constructor
    · cases hch : k'.changed with
      | false => simp [moved, hch]
      | true => simpa [moved, hch, Option.ne_none_iff_isSome] using h.present id' k' hk' hch
    · rw [← h.actor id', Hamt.lookup_of_mem h.nodup hk']
      rfl
  refine ⟨hmap, ?_, fun id => ?_, fun id k hk _ => ?_, fun id k hk hch => ?_, fun id k hk hch => ?_⟩
  · rw [List.map_map]
    exact h.nodup
  · dsimp only
    rw [lookup_moved, h.flushed_key, ← h.actor id]
    cases t.known.lookup id <;> rfl
  · rw [h.flushed_key]
    exact (hchanged id k hk).2
  · rw [(hchanged id k hk).1] at hch
    cases hch
  · rw [(hchanged id k hk).1] at hch
    cases hch

/-- The actors are stored under a root. -/
def StoresActors (neat : Prop) (view : View) (base : Base) (actors : Actors) (root : Cid) : Prop :=
  ∃ r : StateRoot, (readAs StateRoot.ofCbor? root).Gives view r ∧ r.version = version ∧
    Hamt.Stores neat view Actor.packing base r.actors ∧ ∀ id, base (key id) = actors id

/-- A root stands for the same actors among more blocks. -/
theorem StoresActors.mono {root : Cid} (h : StoresActors neat view base actors root)
    (hsub : Hamt.Within view view') : StoresActors neat view' base actors root := by
  obtain ⟨r, hread, hversion, hstores, hactors⟩ := h
  exact ⟨r, hread.mono_readAs hsub, hversion, hstores.mono hsub, hactors⟩

/-- A root is read as it was written. -/
private theorem ofCbor?_toCbor {r : StateRoot} (h : r.version = version) :
    StateRoot.ofCbor? r.toCbor = some r := by
  obtain ⟨v, actors, info⟩ := r
  obtain rfl : v = version := h
  rw [StateRoot.toCbor, StateRoot.ofCbor?, Cbor.toUInt64?_ofUInt64]
  rfl

private theorem fits_toCbor (r : StateRoot) : r.toCbor.Fits Cbor.nesting := by
  have hfits : r.toCbor.Fits 2 := by
    refine ⟨by simp, ?_⟩
    simp only [List.mem_cons, List.not_mem_nil, or_false, forall_eq_or_imp, forall_eq]
    exact ⟨Cbor.fits_ofUInt64 0 r.version, trivial, trivial⟩
  exact hfits.mono (by decide)

/-- The root block of a tree that was written is read as it was written. -/
theorem gives_readAs_root (actors info : Cid)
    (hroot : view (Cid.ofDagCbor (StateRoot.mk version actors info).toCbor.encode) =
      some (StateRoot.mk version actors info).toCbor.encode) :
    (readAs StateRoot.ofCbor? (Cid.ofDagCbor (StateRoot.mk version actors info).toCbor.encode)).Gives
      view ⟨version, actors, info⟩ := by
  have hdecode := Cbor.decode?_encode (fits_toCbor ⟨version, actors, info⟩)
  exact gives_readAs rfl hroot hdecode (ofCbor?_toCbor rfl)

/-- A tree is loaded from its root block and the root of its map. -/
theorem gives_loadRoot {root : Cid} {r : StateRoot} {map : Hamt Actor}
    (hread : (readAs StateRoot.ofCbor? root).Gives view r) (hversion : r.version = version)
    (hload : (Hamt.load Actor.packing r.actors).Gives view map) :
    (load root).Gives view { map, info := r.info, known := [], resolved := [] } := by
  refine Gives.summarize (Gives.bind (hread.summarize _) ?_) _
  rw [if_neg (fun hne => hne hversion)]
  exact hload.bind (gives_pure view _)

/-- A tree cannot be written if its map refuses a change. -/
theorem on_write_of_refused {e : Failure} {rest : List (ActorId × KnownActor)} {map : Hamt Actor}
    (hmoved : (moveChanged t.known t.map).Gives view (.error e, rest, map)) :
    t.write.on view = (.error (e.summarize .flushingTree), []) := by
  rw [write, flush, on_bind, hmoved.on_bind]
  rfl

/-- Once its map has learned of all changes, flushing a tree writes the map and then the root
block. -/
theorem on_flush_of_moved {rest : List (ActorId × KnownActor)} {map : Hamt Actor}
    (hmoved : (moveChanged t.known t.map).Gives view (.ok (), rest, map)) :
    t.flush.on view = match (map.flush Actor.packing).on view with
      | (.ok (c, map'), ws) => (.ok (.ok (Cid.ofDagCbor (StateRoot.mk version c t.info).toCbor.encode),
          { t with known := rest, map := map' }),
          ws ++ [Block.ofDagCbor (StateRoot.mk version c t.info).toCbor.encode])
      | (.error e, ws) => (.ok (.error (e.summarize .flushingTree), { t with known := rest, map }),
          ws) := by
  rw [flush, hmoved.on_bind]
  dsimp only
  rw [on_bind, on_attempt]
  rcases (map.flush Actor.packing).on view with ⟨e | ⟨c, map'⟩, ws⟩
  · simp
  · simp [on_map, on_attempt, on_writeCbor, Except.map, Except.mapError]

/-- Once the changes are in the map, writing the tree is flushing the map and writing the root. -/
theorem on_write_of_moved {rest : List (ActorId × KnownActor)} {map : Hamt Actor}
    (hmoved : (moveChanged t.known t.map).Gives view (.ok (), rest, map)) :
    t.write.on view = match (map.flush Actor.packing).on view with
      | (.ok (c, _), ws) => (.ok (Cid.ofDagCbor (StateRoot.mk version c t.info).toCbor.encode),
          ws ++ [Block.ofDagCbor (StateRoot.mk version c t.info).toCbor.encode])
      | (.error e, ws) => (.error (e.summarize .flushingTree), ws) := by
  rw [write, on_bind, on_flush_of_moved hmoved]
  rcases (map.flush Actor.packing).on view with ⟨e | ⟨c, map'⟩, ws⟩
  · simp
  · simp

/-- Writing a tree: its map learns of all changes and is written, then the root block. Or there is
no room for a change, or a value cannot be written. -/
private theorem on_write (h : t.HasActors neat view base actors) :
    (∃ map c map' ws, Hamt.Represents neat view Actor.packing (flushed base t) map ∧
      (map.flush Actor.packing).on view = (.ok (c, map'), ws) ∧
      t.write.on view = (.ok (Cid.ofDagCbor (StateRoot.mk version c t.info).toCbor.encode),
        ws ++ [Block.ofDagCbor (StateRoot.mk version c t.info).toCbor.encode])) ∨
    t.write.Fails view ∧
      (Overfull base t.known ∨ ¬Hamt.Writable Actor.packing (flushed base t)) := by
  obtain ⟨r, rest, map, hmoved, ⟨rfl, hmap⟩ | ⟨⟨e, rfl⟩, hfull⟩⟩ := gives_moveChanged h.fresh h.represents
  · have hwrite := on_write_of_moved hmoved
    rcases hflush : (map.flush Actor.packing).on view with ⟨e | ⟨c, map'⟩, ws⟩
    · rw [hflush] at hwrite
      refine Or.inr ⟨⟨_, _, hwrite⟩, Or.inr fun hgood => ?_⟩
      obtain ⟨c, map', ws', hok⟩ := hmap.flush_isOk hgood
      rw [hok] at hflush
      cases hflush
    · rw [hflush] at hwrite
      exact Or.inl ⟨map, c, map', ws, hmap, hflush, hwrite⟩
  · exact Or.inr ⟨⟨_, _, on_write_of_refused hmoved⟩, Or.inl hfull⟩

/-- There is room for changes of actors that the map has. -/
theorem HasActors.not_overfull (h : t.HasActors neat view base actors)
    (hpresent : ∀ id, actors id ≠ none → base (key id) ≠ none) : ¬Overfull base t.known := by
  rintro ⟨⟨id, k, hk, hchanged, hnone⟩, -⟩
  refine hpresent id ?_ hnone
  rw [← h.actor id, Hamt.lookup_of_mem h.nodup hk]
  exact h.present id k hk hchanged

/-- The actors are stored under the root that writing a tree gives. -/
theorem HasActors.of_write (h : t.HasActors neat view base actors) (hsub : Hamt.Within view view')
    {root : Cid} {ws : List Block} (hwrite : t.write.on view = (.ok root, ws))
    (hws : ∀ b ∈ ws, view' b.cid = some b.data) :
    StoresActors neat view' (flushed base t) actors root := by
  rcases on_write h with ⟨map, c, map', ws', hmap, hflush, hdone⟩ | ⟨⟨e, ws', he⟩, -⟩
  · rw [hdone] at hwrite
    obtain ⟨hroot, rfl⟩ := Prod.mk.inj hwrite
    obtain rfl := Except.ok.inj hroot
    have hstores := hmap.of_flush Actor.packing_lawful hsub hflush
      fun b hb => hws b (List.mem_append_left _ hb)
    refine ⟨⟨version, c, t.info⟩, ?_, rfl, hstores, h.flushed_key⟩
    exact gives_readAs_root c t.info (hws _ (List.mem_append_right _ (List.mem_singleton_self _)))
  · rw [he] at hwrite
    cases hwrite

/-- A tree can be written, unless there is no room for what was changed or a value cannot be
written. -/
theorem HasActors.write_ok_or (h : t.HasActors neat view base actors) :
    (∃ root ws, t.write.on view = (.ok root, ws)) ∨ t.write.Fails view ∧
      (Overfull base t.known ∨ ¬Hamt.Writable Actor.packing (flushed base t)) := by
  refine (on_write h).imp_left ?_
  rintro ⟨_, _, _, _, _, _, hdone⟩
  exact ⟨_, _, hdone⟩

/-- A key of what a tree is written as is one of its base or of one of its actors. -/
theorem HasActors.flushed_eq (h : t.HasActors neat view base actors) (key' : Bytes) :
    flushed base t key' = base key' ∨ ∃ id, key' = key id := by
  rw [flushed, Hamt.setAll_apply base (nodup_changedEntries h.nodup)]
  cases hfound : (changedEntries t.known).lookup key' with
  | none => exact Or.inl (Option.none_or ..)
  | some a =>
    obtain ⟨id, k, -, hkey, -⟩ := mem_changedEntries (Hamt.mem_of_lookup hfound)
    exact Or.inr ⟨id, hkey⟩

/-- The tree under a root has the actors that are stored there. -/
theorem StoresActors.gives_load {root : Cid} (h : StoresActors neat view base actors root) :
    ∃ t, (load root).Gives view t ∧ t.HasActors neat view base actors ∧ t.resolved = [] := by
  obtain ⟨r, hread, hversion, hstores, hactors⟩ := h
  obtain ⟨map, hload, hmap⟩ := hstores.gives_load
  refine ⟨_, gives_loadRoot hread hversion hload, ⟨hmap, .nil, hactors, ?_, ?_, ?_⟩, rfl⟩ <;>
    exact fun id k hk => (by cases hk)

end StateTree

end ReplayVector
