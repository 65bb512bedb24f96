import ReplayVector.Proofs.Extraction.Retained

/-!
# Masking as a projection

The root that masking gives depends on nothing but what the retained addresses stand for: not on
their order, not on the shape of the tries that the state was read from, and not on what else the
state holds. So masking in two steps gives what masking at once to the smaller set does.

* `Alike`: results that are both failures, or values that belong together.
* `Registry.alike_restrict`: registries that have the same to restrict.
* `StateTree.alike_write`: trees of the same actors that were put together from nothing.
* `StateTree.mask_projects`: masking is a projection.
-/

namespace ReplayVector

open BlockM

-- ---------------------------------------------------------------------------
-- Results that belong together
-- ---------------------------------------------------------------------------

/-- Both results are failures, or values that belong together. -/
inductive Alike {α β : Type} (R : α → β → Prop) : Except Failure α → Except Failure β → Prop
  | ok {a : α} {b : β} (h : R a b) : Alike R (.ok a) (.ok b)
  | error (e e' : Failure) : Alike R (.error e) (.error e')

section

variable {α β γ δ : Type} {R : α → β → Prop} {S : γ → δ → Prop} {view view' : View}

theorem Alike.map {f : α → γ} {g : β → δ} {r : Except Failure α} {s : Except Failure β}
    (h : Alike R r s) (hfg : ∀ a b, R a b → S (f a) (g b)) : Alike S (r.map f) (s.map g) := by
  cases h with
  | ok h => exact .ok (hfg _ _ h)
  | error e e' => exact .error e e'

theorem Alike.ok_iff {r s : Except Failure α} (h : Alike Eq r s) (a : α) :
    r = .ok a ↔ s = .ok a := by
  cases h with
  | ok h => rw [h]
  | error e e' => simp

/-- What comes after results that belong together. -/
theorem alike_on_bind {p : BlockM α} {q : BlockM β} {f : α → BlockM γ} {g : β → BlockM δ}
    (h : Alike R (p.on view).1 (q.on view').1)
    (hnext : ∀ a b, R a b → Alike S ((f a).on view).1 ((g b).on view').1) :
    Alike S ((p >>= f).on view).1 ((q >>= g).on view').1 := by
  rw [on_bind, on_bind]
  rcases hp : p.on view with ⟨r, ws⟩
  rcases hq : q.on view' with ⟨s, ws'⟩
  rw [hp, hq] at h
  cases h with
  | ok h => exact hnext _ _ h
  | error e e' => exact .error e e'

theorem alike_exec_bind {m m' : Memory} {p : BlockM α} {q : BlockM β} {f : α → BlockM γ}
    {g : β → BlockM δ} (h : Alike R (m.exec p).1 (m'.exec q).1)
    (hnext : ∀ a b (m₁ m₁' : Memory), R a b → Alike S (m₁.exec (f a)).1 (m₁'.exec (g b)).1) :
    Alike S (m.exec (p >>= f)).1 (m'.exec (q >>= g)).1 := by
  rw [Memory.exec_bind, Memory.exec_bind]
  rcases hp : m.exec p with ⟨r, m₁⟩
  rcases hq : m'.exec q with ⟨s, m₁'⟩
  rw [hp, hq] at h
  cases h with
  | ok h => exact hnext _ _ m₁ m₁' h
  | error e e' => exact .error e e'

/-- What asks for nothing ends in the same way whatever blocks there are. -/
theorem BlockM.Blind.alike {p : BlockM α} (h : p.Blind) :
    Alike Eq (p.on view).1 (p.on view').1 := by
  rw [h.on_eq view view']
  cases (p.on view').1 with
  | ok a => exact .ok rfl
  | error e => exact .error e e

end

variable {neat neat' : Prop} {view view' : View} {L M : Ledger} {retain retain' : List Address}

-- ---------------------------------------------------------------------------
-- Registries
-- ---------------------------------------------------------------------------

namespace Registry

variable {ids ids' : Address → Option ActorId} {r r' : Registry}

/-- What is copied depends on nothing but the IDs of the addresses. -/
theorem Copied.unique {f f' : Hamt.Entries ActorId} (h : Copied ids retain f)
    (h' : Copied ids' retain' f')
    (hids : ∀ a, a.id? = none →
      (if a ∈ retain then ids a else none) = if a ∈ retain' then ids' a else none) :
    f = f' := by
  have happly (a : Address) (ha : a.id? = none) : f a.toBytes = f' a.toBytes := by
    rw [h.apply a ha, h'.apply a ha, hids a ha]
  funext key
  by_cases hkey : f key = none
  · by_cases hkey' : f' key = none
    · rw [hkey, hkey']
    · obtain ⟨a, -, ha, rfl⟩ := h'.listed key hkey'
      exact happly a ha
  · obtain ⟨a, -, ha, rfl⟩ := h.listed key hkey
    exact happly a ha

/-- Registries that have the same IDs for what is retained, and differ in their maps at most, are
the same once they are restricted. -/
theorem alike_restrict (h : r.Has neat view ids) (h' : r'.Has neat' view' ids')
    (hr : ∀ addressMap, { r with addressMap } = { r' with addressMap })
    (hids : ∀ a, a.id? = none →
      (if a ∈ retain then ids a else none) = if a ∈ retain' then ids' a else none) :
    Alike Eq ((r.restrict retain).on view).1 ((r'.restrict retain').on view').1 := by
  obtain ⟨base, hstores, hbase⟩ := h
  obtain ⟨base', hstores', hbase'⟩ := h'
  obtain ⟨map, hload, hmap⟩ := hstores.gives_load
  obtain ⟨map', hload', hmap'⟩ := hstores'.gives_load
  have hload₁ : r.loadMap.Gives view map := hload.context _
  have hload₁' : r'.loadMap.Gives view' map' := hload'.context _
  obtain ⟨f, hf, hcopy⟩ := gives_copyEntries hbase hmap (Hamt.canonical_empty view packing)
    (copied_nil ids) retain
  obtain ⟨f', hf', hcopy'⟩ := gives_copyEntries hbase' hmap' (Hamt.canonical_empty view' packing)
    (copied_nil ids') retain'
  obtain rfl : f = f' := hf.unique hf' hids
  rw [restrict, restrict, hload₁.on_bind, hload₁'.on_bind]
  -- the smaller maps are the same tries, or there is no room for them
  have hpruned : Alike Eq ((copyEntries retain map .empty).on view).1
      ((copyEntries retain' map' .empty).on view').1 := by
    rcases hcopy with ⟨pruned, hgives, hcanonical⟩ | ⟨⟨e, ws, hfails⟩, hspread⟩
    · rcases hcopy' with ⟨pruned', hgives', hcanonical'⟩ | ⟨-, hspread⟩
      · have hon : (copyEntries retain map .empty).on view = (.ok pruned, []) := hgives
        have hon' : (copyEntries retain' map' .empty).on view' = (.ok pruned', []) := hgives'
        rw [hon, hon']
        exact .ok (hcanonical.unique hcanonical')
      · exact absurd hcanonical.spread hspread
    · rcases hcopy' with ⟨pruned', -, hcanonical'⟩ | ⟨⟨e', ws', hfails'⟩, -⟩
      · exact absurd hcanonical'.spread hspread
      · rw [hfails, hfails']
        exact .error e e'
  refine alike_on_bind hpruned ?_
  rintro pruned _ rfl
  refine alike_on_bind ((Hamt.blind_flush packing pruned).context _).alike ?_
  rintro ⟨c, _⟩ _ rfl
  exact .ok (hr c)

end Registry

-- ---------------------------------------------------------------------------
-- Trees
-- ---------------------------------------------------------------------------

namespace StateTree

variable {base base' : Base} {actors : Actors} {t t' : StateTree} {root : Cid}

/-- A tree that was put together from nothing gives its map to be written, unless there is no room
for all of its keys. -/
private theorem HasActors.canonical_moved
    (h : t.HasActors True view (fun _ => none) actors) (hmap : t.map = .empty) :
    ∃ r rest map, (moveChanged t.known t.map).Gives view (r, rest, map) ∧
      ((r = .ok () ∧ Hamt.Canonical view Actor.packing (flushed (fun _ => none) t) map) ∨
      ((∃ e, r = .error e) ∧ ¬Hamt.Spread (flushed (fun _ => none) t))) := by
  obtain ⟨r, rest, map, hmoved, hr⟩ := gives_moveChanged h.fresh h.represents
  refine ⟨r, rest, map, hmoved, hr.imp ?_ ?_⟩
  · rintro ⟨hok, hrepresents⟩
    have hempty : Hamt.GrownMap (flushed (fun _ => none) t) t.map :=
      hmap ▸ Hamt.grownMap_empty _
    exact ⟨hok, hrepresents, kept_of_moveChanged
      (fun e he _ _ _ hgrown hset => Hamt.GrownMap.of_set hgrown (h.flushed_ne_none he) hset) hempty
      hmoved⟩
  · exact And.imp_right fun hfull => hfull.2

/-- Trees that were put together from nothing come to the same map if their actors are the same. -/
private theorem HasActors.flushed_unique (h : t.HasActors True view (fun _ => none) actors)
    (h' : t'.HasActors True view' (fun _ => none) actors) :
    flushed (fun _ => none) t = flushed (fun _ => none) t' := by
  have hkey (id : ActorId) :
      flushed (fun _ => none) t (key id) = flushed (fun _ => none) t' (key id) :=
    (h.flushed_key id).trans (h'.flushed_key id).symm
  funext k
  rcases h.flushed_eq k with hnone | ⟨id, rfl⟩
  · rcases h'.flushed_eq k with hnone' | ⟨id, rfl⟩
    · rw [hnone, hnone']
    · exact hkey id
  · exact hkey id

/-- Trees of the same actors that were put together from nothing are written under the same root,
whatever the order in which the actors were set. -/
theorem alike_write (h : t.HasActors True view (fun _ => none) actors)
    (h' : t'.HasActors True view' (fun _ => none) actors) (hmap : t.map = .empty)
    (hmap' : t'.map = .empty) (hinfo : t.info = t'.info) :
    Alike Eq (t.write.on view).1 (t'.write.on view').1 := by
  obtain ⟨r, rest, map, hmoved, hr⟩ := h.canonical_moved hmap
  obtain ⟨r', rest', map', hmoved', hr'⟩ := h'.canonical_moved hmap'
  rw [← h.flushed_unique h'] at hr'
  rcases hr with ⟨rfl, hcanonical⟩ | ⟨⟨e, rfl⟩, hspread⟩
  · rcases hr' with ⟨rfl, hcanonical'⟩ | ⟨-, hspread⟩
    · -- the maps are the same tries, so they are written in the same way
      obtain rfl := hcanonical.unique hcanonical'
      rw [on_write_of_moved hmoved, on_write_of_moved hmoved',
        (Hamt.blind_flush Actor.packing map).on_eq view' view, hinfo]
      rcases (map.flush Actor.packing).on view with ⟨e | ⟨c, written⟩, ws⟩
      · exact .error _ _
      · exact .ok rfl
    · exact absurd hcanonical.spread hspread
  · rcases hr' with ⟨-, hcanonical'⟩ | ⟨⟨e', rfl⟩, -⟩
    · exact absurd hcanonical'.spread hspread
    · rw [on_write_of_refused hmoved, on_write_of_refused hmoved']
      exact .error _ _

-- ---------------------------------------------------------------------------
-- Masking
-- ---------------------------------------------------------------------------

/-- Registries that have the same to restrict, as they are read under the identifiers of their
states. -/
theorem alike_restrictHead {ids ids' : Address → Option ActorId} {r r' : Registry}
    {head head' : Cid} (h : RegistryAt neat view ids r head)
    (h' : RegistryAt neat' view' ids' r' head')
    (hr : ∀ addressMap, { r with addressMap } = { r' with addressMap })
    (hids : ∀ a, a.id? = none →
      (if a ∈ retain then ids a else none) = if a ∈ retain' then ids' a else none) :
    Alike Eq ((restrictHead retain head).on view).1 ((restrictHead retain' head').on view').1 := by
  rw [h.restrictHead_eq, h'.restrictHead_eq]
  refine alike_on_bind (Registry.alike_restrict h.2 h'.2 hr hids) ?_
  rintro smaller _ rfl
  exact (blind_writeCbor smaller.toCbor).alike

/-- Selected actors are the same but for the state of the registry. -/
def Resembles (found found' : List (ActorId × Actor)) : Prop :=
  ∀ head id, (reheadRegistry found head).lookup id = (reheadRegistry found' head).lookup id

/-- Either the registry is among both of them, or among none. -/
theorem Resembles.registry {found found' : List (ActorId × Actor)} (h : Resembles found found') :
    (found.lookup .registry).isSome = (found'.lookup .registry).isSome := by
  have hsome := congrArg Option.isSome (h default .registry)
  rwa [lookup_reheadRegistry, lookup_reheadRegistry, Option.isSome_map, Option.isSome_map] at hsome

/-- The same actors are restricted to the same actors. -/
private theorem alike_restrictAmong {found found' : List (ActorId × Actor)} {m m' : Memory}
    (hnodup : (found.map (·.1)).Nodup) (hnodup' : (found'.map (·.1)).Nodup)
    (hfound : Resembles found found')
    (hregistry : ∀ a a', found.lookup .registry = some a → found'.lookup .registry = some a' →
      Alike Eq ((restrictHead retain a.head).on m.get?).1
        ((restrictHead retain' a'.head).on m'.get?).1) :
    Alike (fun actors actors' => ∃ head, actors = reheadRegistry found head ∧
        actors' = reheadRegistry found' head)
      (m.exec (restrictAmong retain found)).1 (m'.exec (restrictAmong retain' found')).1 := by
  rw [(orderly_restrictAmong retain found).exec, (orderly_restrictAmong retain' found').exec]
  have hsome := hfound.registry
  cases ha : found.lookup .registry with
  | none =>
    rw [ha, Option.isSome_none, eq_comm, Option.isSome_eq_false_iff,
      Option.isNone_iff_eq_none] at hsome
    rw [restrictAmong_of_lookup ha, restrictAmong_of_lookup hsome]
    exact .ok ⟨default, (reheadRegistry_of_lookup ha _).symm,
      (reheadRegistry_of_lookup hsome _).symm⟩
  | some a =>
    rw [ha, Option.isSome_some, eq_comm, Option.isSome_iff_exists] at hsome
    obtain ⟨a', ha'⟩ := hsome
    rw [restrictAmong_eq ha hnodup, restrictAmong_eq ha' hnodup', on_map, on_map]
    refine (hregistry a a' ha ha').map ?_
    rintro head _ rfl
    exact ⟨head, rfl, rfl⟩

/-- Setting actors in a tree changes neither its map nor the other block under its root. -/
private theorem foldl_setActor (l : List (ActorId × Actor)) (t : StateTree) :
    (l.foldl (fun t (id, a) => t.setActor id a) t).map = t.map ∧
      (l.foldl (fun t (id, a) => t.setActor id a) t).info = t.info := by
  induction l generalizing t with
  | nil => exact ⟨rfl, rfl⟩
  | cons e l ih => exact ih (t.setActor e.1 e.2)

private theorem maskedTree_map (found : List (ActorId × Actor)) :
    (maskedTree found).map = .empty ∧
      (maskedTree found).info = .ofDagCbor (Cbor.encode (.list [])) := foldl_setActor found _

/-- Masked states are written under the same root if they are put together from the same actors. -/
private theorem alike_writeMasked {found found' : List (ActorId × Actor)} {m m' : Memory}
    (hnodup : (found.map (·.1)).Nodup) (hnodup' : (found'.map (·.1)).Nodup)
    (hfound : Resembles found found')
    (hregistry : ∀ a a', found.lookup .registry = some a → found'.lookup .registry = some a' →
      Alike Eq ((restrictHead retain a.head).on m.get?).1
        ((restrictHead retain' a'.head).on m'.get?).1) :
    Alike Eq (m.exec (writeMasked version retain found)).1
      (m'.exec (writeMasked version retain' found')).1 := by
  refine alike_exec_bind (alike_restrictAmong hnodup hnodup' hfound hregistry) ?_
  rintro _ _ m₁ m₁' ⟨head, rfl, rfl⟩
  rw [Memory.exec_bind, Memory.exec_bind, exec_create, exec_create]
  dsimp only
  have htree := hasActors_maskedTree (nodup_reheadRegistry hnodup head)
  have htree' := hasActors_maskedTree (nodup_reheadRegistry hnodup' head)
  rw [← funext (hfound head)] at htree'
  rw [(orderly_write _).exec, (orderly_write _).exec]
  exact alike_write (htree _) (htree' _) (maskedTree_map _).1 (maskedTree_map _).1
    ((maskedTree_map _).2.trans (maskedTree_map _).2.symm)

end StateTree

/-- What some addresses stand for in one ledger is what others stand for in another one, but for the
state of the registry. -/
structure Ledger.SameRetained (retain : List Address) (L : Ledger) (retain' : List Address)
    (M : Ledger) : Prop where
  touches : ∀ id, L.Touches retain id ↔ M.Touches retain' id
  actors : ∀ id, L.Touches retain id → id ≠ .registry → L.actors id = M.actors id
  registry : ∀ head, (L.actors .registry).map (fun a => { a with head }) =
    (M.actors .registry).map fun a => { a with head }
  ids : ∀ a, a.id? = none →
    (if a ∈ retain then L.ids a else none) = if a ∈ retain' then M.ids a else none

/-- The order of the retained addresses does not matter. -/
theorem Ledger.sameRetained_of_mem_iff (hretain : ∀ a, a ∈ retain ↔ a ∈ retain') (L : Ledger) :
    L.SameRetained retain retain' L where
  touches := fun id => exists_congr fun a => and_congr_left' (hretain a)
  actors := fun _ _ _ => rfl
  registry := fun _ => rfl
  ids := by
    intro a _
    simp only [hretain a]

/-- What is left of a ledger has all that some of the retained addresses stand for. -/
theorem Ledger.Masks.sameRetained (h : L.Masks retain M) (hsub : ∀ a ∈ retain', a ∈ retain) :
    L.SameRetained retain' retain' M where
  touches := by
    intro id
    refine exists_congr fun a => and_congr_right fun ha => ?_
    rw [h.resolve, if_pos (Or.inl (hsub a ha))]
  actors := by
    rintro id ⟨a, ha, hid⟩ hne
    exact (h.actors id ⟨a, hsub a ha, hid⟩ hne).symm
  registry := by
    intro head
    obtain ⟨head', hhead⟩ := h.registry
    rw [hhead, Option.map_map]
    rfl
  ids := by
    intro a ha
    rw [h.ids a ha]
    split
    · next hmem => rw [if_pos (hsub a hmem)]
    · rfl

namespace StateTree

variable {base base' : Base} {root root' masked : Cid} {m m' : Memory}

/-- The same actors are selected. -/
theorem Selected.resembles {found found' : List (ActorId × Actor)}
    (h : Selected L retain found) (h' : Selected M retain' found')
    (hsame : L.SameRetained retain retain' M) : Resembles found found' := by
  intro head id
  rw [lookup_reheadRegistry, lookup_reheadRegistry]
  by_cases hid : L.Touches retain id
  · rw [h.lookup hid, h'.lookup ((hsame.touches id).mp hid)]
    by_cases hregistry : id = .registry
    · simp only [if_pos hregistry]
      exact hregistry ▸ hsame.registry head
    · rw [hsame.actors id hid hregistry]
  · rw [h.lookup_eq_none hid, h'.lookup_eq_none fun hid' => hid ((hsame.touches id).mpr hid')]

/-- States that say the same of what is retained are masked to the same state. -/
theorem alike_mask (h : Stores neat m.get? base L root) (h' : Stores neat' m'.get? base' M root')
    (hsame : L.SameRetained retain retain' M)
    (hregistry : ∀ a a' r r', L.actors .registry = some a → M.actors .registry = some a' →
      (readAs Registry.ofCbor? a.head).Gives m.get? r →
      (readAs Registry.ofCbor? a'.head).Gives m'.get? r' →
      ∀ addressMap, { r with addressMap } = { r' with addressMap }) :
    Alike Eq (m.exec (mask root retain)).1 (m'.exec (mask root' retain')).1 := by
  obtain ⟨found, hselected, hexec, -⟩ := exec_mask_eq h retain
  obtain ⟨found', hselected', hexec', -⟩ := exec_mask_eq h' retain'
  rw [hexec, hexec']
  have hresembles := hselected.resembles hselected' hsame
  refine alike_writeMasked hselected.nodup hselected'.nodup hresembles ?_
  intro a a' ha ha'
  have hactor := ((hselected.mem _ _).mp (Hamt.mem_of_lookup ha)).2
  have hactor' := ((hselected'.mem _ _).mp (Hamt.mem_of_lookup ha')).2
  obtain ⟨b, r, hb, hread, hr⟩ := h.registered
  obtain ⟨b', r', hb', hread', hr'⟩ := h'.registered
  obtain rfl : a = b := Option.some.inj (hactor.symm.trans hb)
  obtain rfl : a' = b' := Option.some.inj (hactor'.symm.trans hb')
  exact alike_restrictHead ⟨hread, hr⟩ ⟨hread', hr'⟩
    (hregistry a a' r r' hactor hactor' hread hread') hsame.ids

/-- What was masked is masked to the same state as the state that it comes from. -/
theorem MaskedTo.alike_mask {blocks : Blocks} (h : MaskedTo blocks L retain m m' masked)
    (hL : Stores neat m.get? base L root) (hsub : ∀ a ∈ retain', a ∈ retain) {base' : Base}
    (hmasks : L.Masks retain M) (hM : Stores True m'.get? base' M masked) :
    Alike Eq (m.exec (mask root retain')).1 (m'.exec (mask masked retain')).1 := by
  refine StateTree.alike_mask hL hM (hmasks.sameRetained hsub) ?_
  intro a a' r r' ha ha' hread hread'
  obtain ⟨head, addressMap, hactor, hregistry⟩ := h.registry a r ha hread
  have heq := (hM.actors.gives_actorAt .registry).unique hactor
  obtain rfl : a' = { a with head } := Option.some.inj (ha'.symm.trans heq)
  obtain rfl := hregistry.unique hread'
  exact fun _ => rfl

/-- Masking a readable tree is a projection. It ends well unless too many of the keys involved have
the same path. The order of the retained addresses does not matter. And masking what was masked, to
some of the retained addresses, gives what masking the tree to these does; to all of them, it
changes nothing. -/
theorem mask_projects (hreadable : Readable m.get? root) :
    (∀ retain, (∃ masked, (m.exec (mask root retain)).1 = .ok masked) ∨
      Hamt.Crowded (MaskKey retain)) ∧
    (∀ retain retain' : List Address, (∀ a, a ∈ retain ↔ a ∈ retain') → ∀ masked,
      (m.exec (mask root retain)).1 = .ok masked ↔ (m.exec (mask root retain')).1 = .ok masked) ∧
    ∀ retain retain' masked m', .id .registry ∈ retain' → (∀ a ∈ retain', a ∈ retain) →
      m.exec (mask root retain) = (.ok masked, m') →
      (CollisionFree fun b => b ∈ m.blocks ++ m.writes (mask root retain)) →
      ∃ smaller, (m.exec (mask root retain')).1 = .ok smaller ∧
        (m'.exec (mask masked retain')).1 = .ok smaller ∧
        ((∀ a ∈ retain, a ∈ retain') → smaller = masked) := by
  obtain ⟨base, L, hL⟩ := hreadable.stores
  have horder {retain retain' : List Address} (hretain : ∀ a, a ∈ retain ↔ a ∈ retain') :
      Alike Eq (m.exec (mask root retain)).1 (m.exec (mask root retain')).1 := by
    refine alike_mask hL hL (Ledger.sameRetained_of_mem_iff hretain L) ?_
    intro a a' r r' ha ha' hread hread'
    obtain rfl : a = a' := Option.some.inj (ha.symm.trans ha')
    obtain rfl := hread.unique hread'
    exact fun _ => rfl
  refine ⟨fun retain => ?_, fun retain retain' hretain => (horder hretain).ok_iff, ?_⟩
  · refine (exec_mask_ok_or hL retain).imp_left ?_
    rintro ⟨masked, m', hexec⟩
    exact ⟨masked, by rw [hexec]⟩
  · intro retain retain' masked m' hregistry hsub hmask hfree
    rcases exec_mask hL (hsub _ hregistry) with ⟨_, _, hexec, hto⟩ | ⟨⟨e, _, hexec⟩, -⟩
    · rw [hmask] at hexec
      cases hexec
      have hmasked := hto _ hfree (fun b hb => List.mem_append_left _ hb)
        fun b hb => List.mem_append_right _ hb
      obtain ⟨base', M, hmasks, hM⟩ := hmasked.stores
      have halike := hmasked.alike_mask hL hsub hmasks hM
      -- a masked tree is neat, so there is room for what is left of it
      rcases exec_mask hM hregistry with ⟨smaller, _, hsmaller, -⟩ | ⟨-, -, hneat⟩
      · rw [hsmaller] at halike
        have hdirect := (halike.ok_iff smaller).mpr rfl
        refine ⟨smaller, hdirect, by rw [hsmaller], fun hall => ?_⟩
        have hsame := (horder fun a => ⟨hall a, hsub a⟩).ok_iff masked
        rw [hmask, hdirect] at hsame
        exact Except.ok.inj (hsame.mp rfl)
      · exact absurd trivial hneat
    · rw [hmask] at hexec
      cases hexec

/-- The state of one account is masked, to the same addresses in another order, and further to the
protocol's actors. -/
theorem mask_projects_account :
    ∃ s held masked held' smaller, Memory.empty.exec (Fixture.newState 1) = (.ok s, held) ∧
      held.exec (mask s.root (smallRetained s)) = (.ok masked, held') ∧
      (held.exec (mask s.root (smallRetained s).reverse)).1 = .ok masked ∧
      (held.exec (mask s.root protocolActors)).1 = .ok smaller ∧
      (held'.exec (mask masked protocolActors)).1 = .ok smaller := by
  obtain ⟨s, held, masked, held', hstate, hreadable, hmask, hfree⟩ := exists_maskedAccount
  obtain ⟨-, horder, hproject⟩ := mask_projects hreadable
  have hprotocol : ∀ a ∈ protocolActors, a ∈ smallRetained s :=
    fun a ha => mem_retainList.mpr (Or.inr ha)
  obtain ⟨smaller, hdirect, hsteps, -⟩ := hproject _ protocolActors masked held'
    (by simp [protocolActors]) hprotocol hmask hfree
  refine ⟨s, held, masked, held', smaller, hstate, hmask, ?_, hdirect, hsteps⟩
  exact (horder _ _ (fun a => List.mem_reverse.symm) masked).mp (by rw [hmask])

end StateTree

end ReplayVector
