import ReplayVector.Proofs.State.Tries
import ReplayVector.State.Tree

/-!
# What state trees read and write

Finding actors and resolving addresses reads blocks over links that have come up; writing the tree
first looks up what has changed, then only writes. `TreeM.Looks` and `TreeM.Stages` say the same of
computations on trees.

* `StateTree.finds_load`, `finds_getActor`, `finds_resolve`: what is read.
* `StateTree.staged_write`: what is written.
-/

namespace ReplayVector

open BlockM

variable {known : Known}

/-! ## Registries and roots -/

namespace Registry

/-- A registry links to its map. -/
theorem link_of_ofCbor? {v : Cbor} {r : Registry} (h : ofCbor? v = some r) :
    r.addressMap ∈ v.links := by
  unfold ofCbor? at h
  split at h
  · simp only [Option.bind_eq_bind, Option.bind_eq_some_iff] at h
    obtain ⟨n, -, h⟩ := h
    obtain rfl := Option.some.inj h
    simp [Cbor.links, Cbor.linksOfItems]
  · cases h

/-- A registry is looked up over its link. -/
theorem finds_lookup {r : Registry} (hr : known.Allows r.addressMap) (a : Address) :
    (r.lookup a).Finds (fun _ _ => True) known := by
  refine (Hamt.finds_load packing_lawful hr).bind fun known₁ map _ hmap => ?_
  exact (Hamt.finds_get? packing_lawful hmap _).bind fun _ _ _ _ => finds_pure trivial

end Registry

namespace StateRoot

/-- A root links to the actors and to the information about them. -/
theorem links_of_ofCbor? {v : Cbor} {r : StateRoot} (h : ofCbor? v = some r) :
    r.actors ∈ v.links ∧ r.info ∈ v.links := by
  unfold ofCbor? at h
  split at h
  · simp only [Option.bind_eq_bind, Option.bind_eq_some_iff] at h
    obtain ⟨n, -, h⟩ := h
    split at h
    · obtain rfl := Option.some.inj h
      simp [Cbor.links, Cbor.linksOfItems]
    · cases h
  · cases h

/-- The root block of a tree whose map and further block may be linked to. -/
theorem carries {r : StateRoot} (hactors : r.actors.Tame) (hinfo : r.info.Tame) :
    (Block.ofDagCbor r.toCbor.encode).Carries r.toCbor := by
  have hlinks : ∀ c ∈ r.toCbor.links, c.Tame := by
    intro c hc
    simp only [toCbor, Cbor.ofUInt64, Cbor.links, Cbor.linksOfItems, List.mem_append,
      List.mem_singleton, List.not_mem_nil, or_false, false_or] at hc
    rcases hc with rfl | rfl
    · exact hactors
    · exact hinfo
  refine ⟨rfl, ?_, ⟨hlinks, ?_, ?_⟩, ?_⟩
  · have hfits : r.toCbor.Fits 2 := by
      refine ⟨by simp, ?_⟩
      simp only [List.mem_cons, List.not_mem_nil, or_false, forall_eq_or_imp, forall_eq]
      exact ⟨Cbor.fits_ofUInt64 0 r.version, trivial, trivial⟩
    exact hfits.mono (by decide)
  · intro field branches heq
    cases heq
  · intro addressMap next name heq
    cases heq
  · have hversion := Cbor.length_encode_int_le r.version.toNat
    have hactors := Cbor.length_encode_link_le r.actors
    have hinfo := Cbor.length_encode_link_le r.info
    have hitems := Cbor.length_encode_list_le
      [.ofUInt64 r.version, .link r.actors, .link r.info] 3 114 (by simp) (by
        simp only [List.mem_cons, List.not_mem_nil, or_false, forall_eq_or_imp, forall_eq,
          Cbor.ofUInt64]
        omega)
    have : Block.maxLength = 1048576 := rfl
    rw [toCbor]
    omega

end StateRoot

/-! ## Trees -/

namespace StateTree

/-- The nodes and actors in memory link to nothing but what has come up. -/
structure Sound (known : Known) (t : StateTree) : Prop where
  map : Hamt.SoundMap known t.map
  info : known.Allows t.info
  actors : ∀ e ∈ t.known, ∀ a, e.2.actor = some a → Hamt.Grounds known a

/-- A sound tree stays sound when more is known. -/
theorem Sound.mono {known known' : Known} {t : StateTree} (h : t.Sound known)
    (hsub : known.Below known') : t.Sound known' := by
  refine ⟨h.map.mono hsub, h.info.mono hsub, fun e he a ha => ?_⟩
  exact (h.actors e he a ha).mono hsub

/-- What is remembered after a change is new or was remembered before. -/
theorem mem_setKnown {id : ActorId} {k : KnownActor} {l : List (ActorId × KnownActor)}
    {e : ActorId × KnownActor} (h : e ∈ setKnown id k l) : e = (id, k) ∨ e ∈ l := by
  induction l with
  | nil => exact Or.inl (List.mem_singleton.mp h)
  | cons e' l ih =>
    rw [setKnown] at h
    split at h
    · rcases List.mem_cons.mp h with h | h
      · exact Or.inl h
      · exact Or.inr (List.mem_cons_of_mem _ h)
    · rcases List.mem_cons.mp h with rfl | h
      · exact Or.inr (List.mem_cons_self ..)
      · exact (ih h).imp_right (List.mem_cons_of_mem _)

/-- An actor may be remembered if its links have come up. -/
theorem Sound.setKnown {t : StateTree} (h : t.Sound known) {id : ActorId} {k : KnownActor}
    (hk : ∀ a, k.actor = some a → Hamt.Grounds known a) :
    ({ t with known := StateTree.setKnown id k t.known } : StateTree).Sound known := by
  refine ⟨h.map, h.info, fun e he a ha => ?_⟩
  rcases mem_setKnown he with rfl | he
  · exact hk a ha
  · exact h.actors e he a ha

/-- So may one that is set. -/
theorem Sound.setActor {t : StateTree} (h : t.Sound known) (id : ActorId) {a : Actor}
    (ha : Hamt.Grounds known a) : (t.setActor id a).Sound known := by
  refine h.setKnown fun a' ha' => ?_
  obtain rfl := Option.some.inj ha'
  exact ha

theorem finds_ofRoot {root : Cid} (hroot : known root) :
    (ofRoot root).Finds (fun known t => t.Sound known) known := by
  have hread : ((readAs StateRoot.ofCbor? root).summarize .unworded).Finds
      (fun known r => known.Allows r.actors ∧ known.Allows r.info) known :=
    (finds_readAs (fun _ => hroot) fun v r hv hr =>
      have hlinks := StateRoot.links_of_ofCbor? hr
      ⟨known.allows_add hv hlinks.1, known.allows_add hv hlinks.2⟩).mapFailure _
  refine hread.bind fun known₁ r _ hr => ?_
  split
  · exact finds_fail _ known₁ _
  · refine (Hamt.finds_load Actor.packing_lawful hr.1).bind fun known₂ map hsub hmap => ?_
    exact finds_pure ⟨hmap, hr.2.mono hsub, fun e he => (by cases he)⟩

/-- A tree is loaded in one of two forms, and either way it is sound. -/
theorem finds_load {root : Cid} (hroot : known root) :
    (load root).Finds (fun known t => t.Sound known) known := (finds_ofRoot hroot).mapFailure _

/-- An actor that is found links to what has come up. -/
theorem finds_findActor {t : StateTree} (ht : t.Sound known) (id : ActorId) :
    (t.findActor id).Finds (fun known r =>
      (∀ a, r.1 = some a → Hamt.Grounds known a) ∧ r.2.Sound known) known := by
  rw [findActor]
  split
  · next k hk => exact finds_pure ⟨fun a ha => ht.actors _ (Hamt.mem_of_lookup hk) a ha, ht⟩
  · refine (Hamt.finds_get? Actor.packing_lawful ht.map _).bind fun known₁ r hsub hr => ?_
    have ht' := ht.mono hsub
    exact finds_pure ⟨hr.1, Sound.setKnown (t := { t with map := r.2 })
      ⟨hr.2, ht'.info, ht'.actors⟩ hr.1⟩

/-- So does one that is remembered. -/
theorem finds_getActor {t : StateTree} (ht : t.Sound known) (id : ActorId) :
    (t.getActor id).Finds (fun known r =>
      (∀ a, r.1 = some a → Hamt.Grounds known a) ∧ r.2.Sound known) known :=
  (finds_findActor ht id).mapFailure _

/-- The registry is read over the head of its actor. -/
theorem finds_askRegistry {t : StateTree} (ht : t.Sound known) (a : Address) :
    (t.askRegistry a).Finds (fun known r => r.2.Sound known) known := by
  refine (finds_findActor ht .registry).bind fun known₁ r _ hr => ?_
  have hactor : (ofOption .unworded r.1).Finds Hamt.Grounds known₁ :=
    finds_ofOption _ fun a ha => hr.1 a ha
  refine hactor.bind fun known₂ actor hsub₂ hactor => ?_
  have hhead : known₂.Allows actor.head := hactor _ (by simp [Linking.links])
  have hread : (readAs Registry.ofCbor? actor.head).Finds
      (fun known r => known.Allows r.addressMap) known₂ :=
    finds_readAs hhead.2 fun v r hv hr => known₂.allows_add hv (Registry.link_of_ofCbor? hr)
  refine hread.bind fun known₃ registry hsub₃ hregistry => ?_
  refine (Registry.finds_lookup hregistry a).bind fun known₄ found hsub₄ _ => ?_
  have ht₄ : r.2.Sound known₄ := ((hr.2.mono hsub₂).mono hsub₃).mono hsub₄
  split
  · exact finds_pure ht₄
  · exact finds_pure ⟨ht₄.map, ht₄.info, ht₄.actors⟩

/-- Whether the number of an address is known or asked for, the tree stays sound. -/
theorem finds_findId {t : StateTree} (ht : t.Sound known) (a : Address) :
    (t.findId a).Finds (fun known r => r.2.Sound known) known := by
  rw [findId]
  split
  · exact finds_pure ht
  · split
    · exact finds_pure ht
    · exact finds_askRegistry ht a

theorem finds_resolve {t : StateTree} (ht : t.Sound known) (a : Address) :
    (t.resolve a).Finds (fun known r => r.2.Sound known) known :=
  (finds_findId ht a).mapFailure _

/-- The number of an actor is a short key. -/
theorem length_key_le (id : ActorId) : (key id).length ≤ Cbor.maxKey := by
  have := (Address.id id).length_toBytes_le
  have : Cbor.maxKey = 128 := rfl
  rw [key]
  omega

/-! ## Writing -/

/-- The map refused an actor. -/
private def Refused (r : Except Failure (Except Failure Unit × List (ActorId × KnownActor) × Hamt Actor)) :
    Prop := ∃ e known map, r = .ok (.error e, known, map)

/-- What the actors were moved into is sound. -/
private def Moved (known : Known)
    (r : Except Failure (Except Failure Unit × List (ActorId × KnownActor) × Hamt Actor)) : Prop :=
  ∃ moved rest map, r = .ok (moved, rest, map) ∧ Hamt.SoundMap known map

/-- Moving what was changed into the map only reads. Without an answer, the map refuses. -/
private theorem explores_moveChanged {l : List (ActorId × KnownActor)} {map : Hamt Actor}
    (hl : ∀ e ∈ l, ∀ a, e.2.actor = some a → Hamt.Grounds known a)
    (hmap : Hamt.SoundMap known map) :
    (moveChanged l map).Explores Refused Moved known := by
  induction l generalizing map known with
  | nil => exact ⟨.ok (), [], map, rfl, hmap⟩
  | cons e l ih =>
    obtain ⟨id, k⟩ := e
    have hrest := fun e he => hl e (List.mem_cons_of_mem _ he)
    rw [moveChanged]
    split
    · next a hchanged hactor =>
      have hset := Hamt.finds_set Actor.packing_lawful hmap (length_key_le id)
        (hl _ (List.mem_cons_self ..) a hactor)
      -- trying turns a failure into an outcome
      have htry : (map.set Actor.packing (key id) a).attempt.Explores
          (fun r => ∃ e, r = .ok (.error e))
          (fun known' r => known.Below known' ∧ ∃ o, r = .ok o ∧
            ∀ map, o = .ok map → Hamt.SoundMap known' map) known := by
        refine hset.grows.andThen ?_ ?_
        · rintro known' r ⟨hsub, hr⟩
          exact ⟨hsub, r, rfl, fun map hmap => hr map hmap⟩
        · rintro _ ⟨e, rfl⟩
          exact ⟨_, rfl, e, rfl⟩
      refine htry.andThen ?_ ?_
      · rintro known' _ ⟨hsub, o, rfl, hmap'⟩
        cases o with
        | error e => exact ⟨.error e, _, map, rfl, hmap.mono hsub⟩
        | ok map' =>
          have hl' := fun e he a ha => (hrest e he a ha).mono hsub
          refine (ih hl' (hmap' map' rfl)).andThen ?_ ?_
          · rintro known'' _ ⟨moved, rest, map'', rfl, hmap''⟩
            exact ⟨moved, _, map'', rfl, hmap''⟩
          · rintro _ ⟨e, rest, map'', rfl⟩
            exact ⟨_, rfl, e, _, map'', rfl⟩
      · rintro _ ⟨e, rfl⟩
        exact ⟨_, rfl, e, _, map, rfl⟩
    · refine (ih hrest hmap).andThen ?_ ?_
      · rintro known' _ ⟨moved, rest, map', rfl, hmap'⟩
        exact ⟨moved, _, map', rfl, hmap'⟩
      · rintro _ ⟨e, rest, map', rfl⟩
        exact ⟨_, rfl, e, _, map', rfl⟩

/-- Flushing gives no root. -/
private def Rootless (r : Except Failure (Except Failure Cid × StateTree)) : Prop :=
  ∃ e t, r = .ok (.error e, t)

/-- A root that flushing gives has been written. -/
private def Rooted (known : Known) (r : Except Failure (Except Failure Cid × StateTree)) : Prop :=
  ∀ root t, r = .ok (.ok root, t) → known.Stores root

/-- Flushing looks up what has changed, and then writes the map. -/
private theorem staged_flush {t : StateTree} (ht : t.Sound known) :
    t.flush.Staged Rootless Rooted known := by
  refine (explores_moveChanged ht.actors ht.map).grows.staged_andThen ?_ ?_
  · rintro known' _ ⟨hsub, moved, rest, map, rfl, hmap⟩
    cases moved with
    | error e => exact fun root t h => (by cases h)
    | ok _ =>
      refine Writes.staged ?_
      have hflush : (map.flush Actor.packing).attempt.Writes (fun known'' r =>
          known'.Below known'' ∧ ∃ o, r = .ok o ∧ ∀ x, o = .ok x → known''.Allows x.1) known' := by
        refine (Hamt.writes_flush Actor.packing_lawful hmap).grows.andThen ?_
        rintro known'' r ⟨hsub', hr⟩
        exact ⟨hsub', r, rfl, fun x hx => (hr x hx).1⟩
      refine hflush.andThen ?_
      · rintro known'' _ ⟨hsub', o, rfl, ho⟩
        cases o with
        | error e => exact fun root t h => (by cases h)
        | ok x =>
          have hactors : known''.Allows x.1 := ho x rfl
          have hinfo : known''.Allows t.info := (ht.info.mono hsub).mono hsub'
          have hroot := StateRoot.carries (r := { version, actors := x.1, info := t.info })
            hactors.1 hinfo.1
          refine ⟨⟨_, hroot, ?_⟩, ?_, ?_⟩
          · intro c hc
            simp only [StateRoot.toCbor, Cbor.ofUInt64, Cbor.links, Cbor.linksOfItems,
              List.mem_append, List.mem_singleton, List.not_mem_nil, or_false, false_or] at hc
            rcases hc with rfl | rfl
            · exact hactors
            · exact hinfo
          · -- a root block that is not taken is no root
            intro e root t' h
            cases h
          · intro root t' h
            cases h
            exact known''.stores_insert _
  · rintro _ ⟨e, rest, map, rfl⟩
    exact ⟨_, rfl, e.summarize .flushingTree, _, rfl⟩

/-- Writing a tree reads what it has to change, and then only writes. -/
theorem staged_write {t : StateTree} (ht : t.Sound known) :
    t.write.Staged Failed (onValue fun known root => known.Stores root) known := by
  refine (staged_flush ht).andThen ?_ ?_
  · intro known' r hr
    match r with
    | .error e => exact onValue_error known' e
    | .ok (.error e, t) => exact onValue_error known' e
    | .ok (.ok root, t) => exact onValue_ok (hr root t rfl)
  · rintro _ ⟨e, t, rfl⟩
    exact endsIn_failed e

end StateTree

/-! ## Computations on trees -/

namespace TreeM

variable {α β : Type}

/-- On a sound tree, the computation only reads, and leaves a sound tree. -/
def Looks (post : Known → α → Prop) (known : Known) (x : TreeM α) : Prop :=
  ∀ known', known.Below known' → ∀ t, t.Sound known' →
    (x t).Finds (fun known r => post known r.1 ∧ r.2.Sound known) known'

/-- On a sound tree, the computation reads, and then only writes. -/
def Stages (post : Known → α → Prop) (known : Known) (x : TreeM α) : Prop :=
  ∀ known', known.Below known' → ∀ t, t.Sound known' →
    (x t).Staged Failed (onValue fun known r => post known r.1) known'

/-- A value at hand is found on any tree. -/
theorem looks_pure {post : Known → α → Prop} {a : α}
    (h : ∀ known', known.Below known' → post known' a) :
    (pure a : TreeM α).Looks post known := by
  intro known' hsub _ ht
  exact finds_pure ⟨h known' hsub, ht⟩

theorem looks_fail (post : Known → α → Prop) (known : Known) (f : Failure) :
    Looks post known (BlockM.fail f : TreeM α) := by
  intro known' _ _ _
  exact finds_fail _ known' f

/-- A computation over blocks that only reads does so beside a tree. -/
theorem looks_lift {post : Known → α → Prop} {p : BlockM α}
    (h : ∀ known', known.Below known' → p.Finds post known') :
    Looks post known (liftM p : TreeM α) := by
  intro known' hsub t ht
  refine (h known' hsub).bind fun known'' a hsub' ha => ?_
  exact finds_pure ⟨ha, ht.mono hsub'⟩

/-- Two computations that only read, one after the other. -/
theorem Looks.bind {post : Known → α → Prop} {post' : Known → β → Prop} {x : TreeM α}
    {f : α → TreeM β} (hx : x.Looks post known)
    (hf : ∀ known' a, known.Below known' → post known' a → (f a).Looks post' known') :
    (x >>= f).Looks post' known := by
  intro known' hsub t ht
  refine (hx known' hsub t ht).bind fun known'' r hsub' hr => ?_
  exact hf known'' r.1 (fun c hc => hsub' c (hsub c hc)) hr.1 known'' (.refl known'') r.2 hr.2

/-- One that only reads, and one that writes at the end. -/
theorem Looks.stages_bind {post : Known → α → Prop} {post' : Known → β → Prop} {x : TreeM α}
    {f : α → TreeM β} (hx : x.Looks post known)
    (hf : ∀ known' a, known.Below known' → post known' a → (f a).Stages post' known') :
    (x >>= f).Stages post' known := by
  intro known' hsub t ht
  refine (hx known' hsub t ht).staged_bind fun known'' r hsub' hr => ?_
  exact hf known'' r.1 (fun c hc => hsub' c (hsub c hc)) hr.1 known'' (.refl known'') r.2 hr.2

/-- A computation that only reads may be the whole. -/
theorem Looks.stages {post : Known → α → Prop} {x : TreeM α} (hx : x.Looks post known) :
    x.Stages post known := by
  intro known' hsub t ht
  refine Explores.staged ((hx known' hsub t ht).imp fun known'' r hr a ha => ?_)
  exact (hr a ha).1

/-- What is made of the value of a whole. -/
theorem Stages.map {post : Known → α → Prop} {post' : Known → β → Prop} {x : TreeM α}
    (hx : x.Stages post known) {g : α → β} (hg : ∀ known' a, post known' a → post' known' (g a)) :
    (x >>= fun a => pure (g a)).Stages post' known := by
  intro known' hsub t ht
  refine (hx known' hsub t ht).andThen ?_ ?_
  · intro known'' r hr
    cases r with
    | ok a => exact onValue_ok (hg known'' _ (hr a rfl))
    | error e => exact onValue_error known'' e
  · rintro _ ⟨e, rfl⟩
    exact endsIn_failed e

/-- A whole that begins with a given tree. -/
theorem Stages.run' {post : Known → α → Prop} {x : TreeM α} (hx : x.Stages post known)
    {t : StateTree} (ht : t.Sound known) :
    (StateT.run' x t).Staged Failed (onValue post) known := by
  refine (hx known (.refl known) t ht).andThen ?_ ?_
  · intro known' r hr
    cases r with
    | ok a => exact onValue_ok (hr a rfl)
    | error e => exact onValue_error known' e
  · rintro _ ⟨e, rfl⟩
    exact endsIn_failed e

/-- Resolving an address only reads. -/
theorem looks_resolve (a : Address) : (resolve a).Looks (fun _ _ => True) known := by
  intro _ _ _ ht
  exact (StateTree.finds_resolve ht a).imp fun _ _ hr x hx => ⟨trivial, hr x hx⟩

/-- Getting an actor only reads, and what it links to has come up. -/
theorem looks_getActor (id : ActorId) :
    (getActor id).Looks (fun known r => ∀ a, r = some a → Hamt.Grounds known a) known := by
  intro _ _ _ ht
  exact StateTree.finds_getActor ht id

/-- Setting an actor reads nothing. -/
theorem looks_setActor (id : ActorId) {a : Actor} (ha : Hamt.Grounds known a) :
    (setActor id a).Looks (fun _ _ => True) known := by
  intro _ hsub _ ht
  exact finds_pure ⟨trivial, ht.setActor id (ha.mono hsub)⟩

/-- Writing a tree looks first. -/
theorem stages_write : write.Stages (fun known root => known.Stores root) known := by
  intro known' _ t ht
  refine (StateTree.staged_write ht).andThen ?_ ?_
  · intro known'' r hr
    cases r with
    | ok root => exact onValue_ok (hr root rfl)
    | error e => exact onValue_error known'' e
  · rintro _ ⟨e, rfl⟩
    exact endsIn_failed e

end TreeM

end ReplayVector
