import ReplayVector.Proofs.State.Canonical
import ReplayVector.Proofs.State.Readable
import ReplayVector.Proofs.State.Registries

/-!
# What masked states hold

Masking a state copies the retained actors, writes a registry that knows the retained addresses
only, and writes a new tree. The ledger of the masked state is that of the state without all that
the retained addresses do not stand for. Masking goes wrong in one case only: if more of the keys
involved than fill a bucket have the same path.

* `Ledger.Masks`: one ledger is what is left of another one.
* `Registry.Has.on_restrict`: restricting a registry.
* `StateTree.exec_mask`: masking a state in memory.
-/

namespace ReplayVector

open BlockM

variable {neat : Prop} {view view' : View} {L M : Ledger} {retain : List Address}

/-- A ledger with only what the retained addresses stand for. The registry's actor has another
state. -/
structure Ledger.Masks (retain : List Address) (L M : Ledger) : Prop where
  ids : ∀ a, a.id? = none → M.ids a = if a ∈ retain then L.ids a else none
  actors : ∀ id, L.Touches retain id → id ≠ .registry → M.actors id = L.actors id
  registry : ∃ head, M.actors .registry = (L.actors .registry).map fun a => { a with head }
  absent : ∀ id, ¬L.Touches retain id → M.actors id = none

/-- What was accessed is retained, and so are the protocol's actors. -/
theorem mem_retainList {accessed : List Address} {a : Address} :
    a ∈ retainList accessed ↔ a ∈ accessed ∨ a ∈ protocolActors := mem_foldl_insertNew

/-- The keys that masking sets: those of retained addresses and of IDs. -/
def MaskKey (retain : List Address) (key : Bytes) : Prop :=
  ∃ a : Address, key = a.toBytes ∧ (a ∈ retain ∨ a.id?.isSome)

-- ---------------------------------------------------------------------------
-- Registries
-- ---------------------------------------------------------------------------

namespace Registry

variable {ids : Address → Option ActorId} {r : Registry}

/-- The entries of the addresses have been copied, and no others. -/
structure Copied (ids : Address → Option ActorId) (copied : List Address)
    (f : Hamt.Entries ActorId) : Prop where
  apply : ∀ a, a.id? = none → f a.toBytes = if a ∈ copied then ids a else none
  listed : ∀ key, f key ≠ none → ∃ a ∈ copied, a.id? = none ∧ key = a.toBytes

theorem copied_nil (ids : Address → Option ActorId) : Copied ids [] fun _ => none :=
  ⟨fun _ _ => rfl, fun _ h => absurd rfl h⟩

/-- There is nothing to copy for an address. -/
theorem Copied.skip {copied : List Address} {f : Hamt.Entries ActorId} (h : Copied ids copied f)
    {a : Address} (ha : a.id? = none → ids a = none) : Copied ids (copied ++ [a]) f where
  apply := by
    intro b hb
    rw [h.apply b hb]
    by_cases hba : b = a
    · subst hba
      simp [ha hb]
    · simp [hba]
  listed := by
    intro key hkey
    obtain ⟨b, hb, hid, heq⟩ := h.listed key hkey
    exact ⟨b, List.mem_append_left _ hb, hid, heq⟩

/-- The entry of an address is copied. -/
theorem Copied.set {copied : List Address} {f : Hamt.Entries ActorId} (h : Copied ids copied f)
    {a : Address} {id : ActorId} (hid : a.id? = none) (ha : ids a = some id) :
    Copied ids (copied ++ [a]) (Function.update f a.toBytes (some id)) where
  apply := by
    intro b hb
    rw [Function.update_apply, h.apply b hb]
    by_cases hba : b = a
    · simp [hba, ha]
    · have hne : b.toBytes ≠ a.toBytes := fun heq => hba (Address.toBytes_injective heq)
      simp [hba, hne]
  listed := by
    intro key hkey
    rw [Function.update_apply] at hkey
    split at hkey
    · next heq => exact ⟨a, by simp, hid, heq⟩
    · obtain ⟨b, hb, hid, heq⟩ := h.listed key hkey
      exact ⟨b, List.mem_append_left _ hb, hid, heq⟩

/-- Entries that were copied have been there before. -/
theorem Copied.base_ne_none {base : Hamt.Entries ActorId}
    (hids : ∀ a, a.id? = none → base a.toBytes = ids a) {copied : List Address}
    {f : Hamt.Entries ActorId} (h : Copied ids copied f) {key : Bytes} (hkey : f key ≠ none) :
    base key ≠ none := by
  obtain ⟨a, ha, hid, rfl⟩ := h.listed key hkey
  rw [h.apply a hid, if_pos ha] at hkey
  rwa [hids a hid]

/-- What is copied for further addresses comes on top. -/
theorem Copied.ne_none_of_append {copied more : List Address} {f f' : Hamt.Entries ActorId}
    (h : Copied ids copied f) (h' : Copied ids (copied ++ more) f') {key : Bytes}
    (hkey : f key ≠ none) : f' key ≠ none := by
  obtain ⟨a, ha, hid, rfl⟩ := h.listed key hkey
  rw [h.apply a hid, if_pos ha] at hkey
  rwa [h'.apply a hid, if_pos (List.mem_append_left _ ha)]

/-- The entries of any addresses may be copied on top. -/
theorem Copied.exists_append {copied : List Address} {f : Hamt.Entries ActorId}
    (h : Copied ids copied f) (retain : List Address) : ∃ f', Copied ids (copied ++ retain) f' := by
  induction retain generalizing copied f with
  | nil =>
    rw [List.append_nil]
    exact ⟨f, h⟩
  | cons a retain ih =>
    rw [List.append_cons]
    cases hid : a.id? with
    | some id => exact ih (h.skip fun hnone => by rw [hid] at hnone; cases hnone)
    | none =>
      cases hfound : ids a with
      | none => exact ih (h.skip fun _ => hfound)
      | some id => exact ih (h.set hid hfound)

private theorem length_key_lt (a : Address) : a.toBytes.length < 2 ^ 64 := by
  have := a.length_toBytes_le
  omega

/-- Copying the entries of addresses to a map that was empty, unless too many of them have the same
path. -/
theorem gives_copyEntries {base : Hamt.Entries ActorId}
    (hids : ∀ a, a.id? = none → base a.toBytes = ids a) {copied : List Address}
    {f : Hamt.Entries ActorId} {map pruned : Hamt ActorId}
    (hmap : Hamt.Represents neat view packing base map)
    (hpruned : Hamt.Canonical view packing f pruned) (hcopied : Copied ids copied f)
    (retain : List Address) :
    ∃ f', Copied ids (copied ++ retain) f' ∧
      ((∃ pruned', (copyEntries retain map pruned).Gives view pruned' ∧
        Hamt.Canonical view packing f' pruned') ∨
      (copyEntries retain map pruned).Fails view ∧ ¬Hamt.Spread f') := by
  -- by induction on the addresses, from what has been copied of those before
  induction retain generalizing copied f map pruned with
  | nil =>
    rw [List.append_nil]
    exact ⟨f, hcopied, Or.inl ⟨pruned, gives_pure view _, hpruned⟩⟩
  | cons a retain ih =>
    rw [copyEntries, List.append_cons]
    split
    · next hid =>
      -- addresses with an ID of their own have no entry
      have hskip : Copied ids (copied ++ [a]) f :=
        hcopied.skip fun hnone => (by rw [hnone] at hid; cases hid)
      exact ih hmap hpruned hskip
    · next hid =>
      have ha : a.id? = none := by simpa using hid
      obtain ⟨map', hget, hmap'⟩ := hmap.gives_get? a.toBytes
      rw [hids a ha] at hget
      have hget' := hget.context .readingAddressMap
      cases hfound : ids a with
      | none =>
        rw [hfound] at hget'
        obtain ⟨f', hf', hcopy⟩ := ih hmap' hpruned (hcopied.skip fun _ => hfound)
        refine ⟨f', hf', ?_⟩
        rcases hcopy with ⟨pruned', hgives, hpruned'⟩ | ⟨hfails, hspread⟩
        · exact Or.inl ⟨pruned', hget'.bind hgives, hpruned'⟩
        · exact Or.inr ⟨hget'.fails_bind hfails, hspread⟩
      | some id =>
        rw [hfound] at hget'
        have hcopied' := hcopied.set ha hfound
        rcases hpruned.set (length_key_lt a) id with ⟨pruned₁, hset, hpruned₁⟩ | ⟨hfails, hspread⟩
        · obtain ⟨f', hf', hcopy⟩ := ih hmap' hpruned₁ hcopied'
          refine ⟨f', hf', ?_⟩
          rcases hcopy with ⟨pruned', hgives, hpruned'⟩ | ⟨hfails, hspread⟩
          · exact Or.inl ⟨pruned', hget'.bind ((hset.context _).bind hgives), hpruned'⟩
          · exact Or.inr ⟨hget'.fails_bind ((hset.context _).fails_bind hfails), hspread⟩
        · -- the keys that are too many are among those of all addresses
          obtain ⟨f', hf'⟩ := hcopied'.exists_append retain
          refine ⟨f', hf', Or.inr ⟨hget'.fails_bind ((hfails.context _).bind _), ?_⟩⟩
          exact fun hgood => hspread (hgood.of_keys fun _ => hcopied'.ne_none_of_append hf')

/-- Restricting a registry to some addresses: a map with their entries is written, unless it would be
too crowded. -/
theorem on_restrict {base : Hamt.Entries ActorId}
    (hstores : Hamt.Stores neat view packing base r.addressMap)
    (hids : ∀ a, a.id? = none → base a.toBytes = ids a) (retain : List Address) :
    (∃ f addressMap ws, Copied ids retain f ∧
      (r.restrict retain).on view = (.ok { r with addressMap }, ws) ∧
      ∀ view', Hamt.Within view view' → (∀ b ∈ ws, view' b.cid = some b.data) →
        Hamt.Stores True view' packing f addressMap) ∨
    (r.restrict retain).Fails view ∧ (Hamt.Crowded fun key => ∃ a ∈ retain, key = a.toBytes) ∧
      ¬neat := by
  obtain ⟨map, hload, hmap⟩ := hstores.gives_load
  have hload' : r.loadMap.Gives view map := hload.context _
  have hempty := Hamt.canonical_empty view packing
  obtain ⟨f, hcopied, hcopy⟩ := gives_copyEntries hids hmap hempty (copied_nil ids) retain
  rw [List.nil_append] at hcopied
  rcases hcopy with ⟨pruned, hcopy, hpruned⟩ | ⟨hfails, hspread⟩
  · obtain ⟨c, pruned', ws, hflush⟩ := hpruned.represents.flush_isOk fun _ _ _ => ⟨_, rfl⟩
    refine Or.inl ⟨f, c, ws, hcopied, ?_, fun view' hsub hws => ?_⟩
    · rw [restrict, hload'.on_bind, hcopy.on_bind, on_bind, on_context, hflush]
      simp [Except.mapError]
    · exact hpruned.represents.of_flush packing_lawful hsub hflush hws
  · refine Or.inr ⟨hload'.fails_bind (hfails.bind _), ?_, fun hneat => hspread ?_⟩
    · refine (Hamt.crowded_of_not_spread hspread).mono fun key hkey => ?_
      obtain ⟨b, hb, -, heq⟩ := hcopied.listed key hkey
      exact ⟨b, hb, heq⟩
    · -- a neat map does not have too many keys with the same path itself
      exact (hmap.root.spread hneat).of_keys fun key hkey => hcopied.base_ne_none hids hkey

/-- A restricted registry has the IDs of the addresses, unless its map would be too crowded. -/
theorem Has.on_restrict (h : r.Has neat view ids) (retain : List Address) :
    (∃ addressMap ws, (r.restrict retain).on view = (.ok { r with addressMap }, ws) ∧
      ∀ view', Hamt.Within view view' → (∀ b ∈ ws, view' b.cid = some b.data) →
        Has True view' (fun a => if a ∈ retain then ids a else none) { r with addressMap }) ∨
    (r.restrict retain).Fails view ∧ (Hamt.Crowded fun key => ∃ a ∈ retain, key = a.toBytes) ∧
      ¬neat := by
  obtain ⟨base, hstores, hids⟩ := h
  refine (Registry.on_restrict hstores hids retain).imp_left ?_
  rintro ⟨f, addressMap, ws, hcopied, hon, hstored⟩
  exact ⟨addressMap, ws, hon, fun view' hsub hws => ⟨f, hstored view' hsub hws, hcopied.apply⟩⟩

/-- A name that was read can be written. -/
private theorem name_lt_of_gives {c : Cid} (h : (readAs ofCbor? c).Gives view r) :
    r.networkName.utf8ByteSize < 2 ^ 64 := by
  obtain ⟨-, data, v, -, hv, hr⟩ := of_gives_readAs h
  have hfits := Cbor.fits_of_decode? hv
  unfold ofCbor? at hr
  split at hr
  · next link next name =>
    simp only [Option.bind_eq_bind, Option.bind_eq_some_iff] at hr
    obtain ⟨n, -, hr⟩ := hr
    obtain rfl := Option.some.inj hr
    have hname : (Cbor.text name).Fits 127 := hfits.2 _ (by simp)
    exact hname
  · cases hr

end Registry

-- ---------------------------------------------------------------------------
-- The actors of a masked state
-- ---------------------------------------------------------------------------

/-- One more address touches at most one more actor. -/
theorem Ledger.touches_append_singleton {a : Address} {id : ActorId} :
    L.Touches (retain ++ [a]) id ↔ L.Touches retain id ∨ L.resolve a = some id := by
  simp [Touches, or_and_right, exists_or]

namespace StateTree

variable {base : Base} {root : Cid}

/-- The actors that the addresses stand for have been selected, each once. -/
structure Selected (L : Ledger) (retain : List Address) (found : List (ActorId × Actor)) :
    Prop where
  nodup : (found.map (·.1)).Nodup
  mem : ∀ id a, (id, a) ∈ found ↔ L.Touches retain id ∧ L.actors id = some a

theorem selected_nil (L : Ledger) : Selected L [] [] := ⟨.nil, by simp [Ledger.Touches]⟩

/-- There is nothing to select for an address. -/
theorem Selected.skip {found : List (ActorId × Actor)} (h : Selected L retain found) {a : Address}
    (ha : ∀ id actor, L.resolve a = some id → L.actors id = some actor → (id, actor) ∈ found) :
    Selected L (retain ++ [a]) found where
  nodup := h.nodup
  mem := by
    intro id actor
    rw [h.mem, Ledger.touches_append_singleton]
    constructor
    · exact fun ⟨hid, hactor⟩ => ⟨Or.inl hid, hactor⟩
    · rintro ⟨hid | hid, hactor⟩
      · exact ⟨hid, hactor⟩
      · exact (h.mem id actor).mp (ha id actor hid hactor)

/-- The actor that an address stands for is selected. -/
theorem Selected.add {found : List (ActorId × Actor)} (h : Selected L retain found) {a : Address}
    {id : ActorId} {actor : Actor} (ha : L.resolve a = some id) (hactor : L.actors id = some actor)
    (hnew : found.lookup id = none) : Selected L (retain ++ [a]) (found ++ [(id, actor)]) where
  nodup := by
    have hnotin : ∀ e ∈ found, e.1 ≠ id := by
      intro e he heq
      have hlookup := List.lookup_eq_none_iff.mp hnew e he
      simp [heq] at hlookup
    rw [List.map_append, List.nodup_append]
    refine ⟨h.nodup, by simp, ?_⟩
    intro i hi j hj heq
    obtain ⟨e, he, rfl⟩ := List.mem_map.mp hi
    exact hnotin e he (heq.trans (by simpa using hj))
  mem := by
    intro j b
    rw [List.mem_append, List.mem_singleton, h.mem, Ledger.touches_append_singleton]
    constructor
    · rintro (⟨hj, hb⟩ | heq)
      · exact ⟨Or.inl hj, hb⟩
      · cases heq
        exact ⟨Or.inr ha, hactor⟩
    · rintro ⟨hj | hj, hb⟩
      · exact Or.inl ⟨hj, hb⟩
      · obtain rfl : id = j := Option.some.inj (ha.symm.trans hj)
        rw [hactor] at hb
        exact Or.inr (by rw [Option.some.inj hb])

/-- Selecting actors finds those that the addresses stand for. -/
theorem runs_select {selected : List Address} {found : List (ActorId × Actor)}
    (h : Selected L selected found) (retain : List Address) :
    ∃ found', TreeM.Runs neat view base (select retain found) L (some (found', L)) ∧
      Selected L (selected ++ retain) found' := by
  -- by induction on the addresses, from what has been selected of those before
  induction retain generalizing selected found with
  | nil =>
    rw [List.append_nil]
    exact ⟨found, TreeM.runs_pure found, h⟩
  | cons a retain ih =>
    have hnext {found₁ : List (ActorId × Actor)} (h₁ : Selected L (selected ++ [a]) found₁) :
        ∃ found', TreeM.Runs neat view base (select retain found₁) L (some (found', L)) ∧
          Selected L (selected ++ a :: retain) found' := by
      obtain ⟨found', hruns, hfound'⟩ := ih h₁
      rw [List.append_assoc] at hfound'
      exact ⟨found', hruns, hfound'⟩
    have hresolve : (TreeM.resolve a).Runs neat view base L (some (L.resolve a, L)) :=
      TreeM.runs_resolve a
    unfold select
    cases hid : L.resolve a with
    | none =>
      rw [hid] at hresolve
      obtain ⟨found', hruns, hfound'⟩ := hnext (h.skip fun id _ hsome => by simp [hid] at hsome)
      exact ⟨found', hresolve.bind hruns, hfound'⟩
    | some id =>
      rw [hid] at hresolve
      have hget : (TreeM.getActor id).Runs neat view base L (some (L.actors id, L)) :=
        TreeM.runs_getActor id
      cases hactor : L.actors id with
      | none =>
        rw [hactor] at hget
        obtain ⟨found', hruns, hfound'⟩ := hnext <| h.skip fun j b hj hb => by
          obtain rfl : id = j := Option.some.inj (hid.symm.trans hj)
          rw [hactor] at hb
          cases hb
        exact ⟨found', hresolve.bind (hget.bind hruns), hfound'⟩
      | some actor =>
        rw [hactor] at hget
        cases hlookup : found.lookup id with
        | some b =>
          -- an actor that has been selected under another address
          have hmem := Hamt.mem_of_lookup hlookup
          obtain ⟨found', hruns, hfound'⟩ := hnext <| h.skip fun j c hj hc => by
            obtain rfl : id = j := Option.some.inj (hid.symm.trans hj)
            rwa [← Option.some.inj (hc.symm.trans ((h.mem id b).mp hmem).2)] at hmem
          refine ⟨found', hresolve.bind (hget.bind ?_), hfound'⟩
          simpa [hlookup] using hruns
        | none =>
          obtain ⟨found', hruns, hfound'⟩ := hnext (h.add hid hactor hlookup)
          refine ⟨found', hresolve.bind (hget.bind ?_), hfound'⟩
          simpa [hlookup] using hruns

-- ---------------------------------------------------------------------------
-- The registry of a masked state
-- ---------------------------------------------------------------------------

/-- The state of an actor is the registry, and it has the IDs. -/
def RegistryAt (neat : Prop) (view : View) (ids : Address → Option ActorId) (r : Registry)
    (head : Cid) : Prop :=
  (readAs Registry.ofCbor? head).Gives view r ∧ r.Has neat view ids

/-- What restricting the registry leaves, or why it fails. All but its map stays as it is. -/
def Restricts (neat : Prop) (view : View) (ids : Address → Option ActorId) (r : Registry)
    (retain : List Address) {α : Type} (x : BlockM α) (result : Cid → α) : Prop :=
  (∃ head addressMap ws, x.on view = (.ok (result head), ws) ∧
    ∀ view', Hamt.Within view view' → (∀ b ∈ ws, view' b.cid = some b.data) →
      RegistryAt True view' (fun a => if a ∈ retain then ids a else none) { r with addressMap }
        head) ∨
  x.Fails view ∧ (Hamt.Crowded fun key => ∃ a ∈ retain, key = a.toBytes) ∧ ¬neat

/-- Restricts the registry under an identifier, and gives the identifier of what is left. -/
def restrictHead (retain : List Address) (head : Cid) : BlockM Cid := do
  match ← readCbor? head with
  | none => fail (.of .missingRegistry)
  | some v =>
    let registry ← ofOption .unworded (Registry.ofCbor? v)
    writeCbor (← registry.restrict retain).toCbor

/-- Of the registry's actor, only its state changes. -/
theorem restrictRegistry_eq (retain : List Address) (a : Actor) :
    restrictRegistry retain a = (fun head => { a with head }) <$> restrictHead retain a.head := by
  rw [restrictRegistry, restrictHead, map_bind]
  refine bind_congr fun v => ?_
  cases v with
  | none => rfl
  | some v => simp only [map_bind, bind_pure_comp]

/-- What comes after restricting the registry. -/
theorem Restricts.map {ids : Address → Option ActorId} {r : Registry} {α : Type} {x : BlockM Cid}
    (h : Restricts neat view ids r retain x id) (g : Cid → α) :
    Restricts neat view ids r retain (g <$> x) g := by
  rcases h with ⟨head, addressMap, ws, hon, hstored⟩ | ⟨⟨e, ws, hfails⟩, hcrowded⟩
  · exact Or.inl ⟨head, addressMap, ws, by rw [on_map, hon]; rfl, hstored⟩
  · exact Or.inr ⟨⟨e, ws, by rw [on_map, hfails]; rfl⟩, hcrowded⟩

/-- What is read to restrict a registry that is there. -/
theorem RegistryAt.restrictHead_eq {ids : Address → Option ActorId} {r : Registry} {head : Cid}
    (h : RegistryAt neat view ids r head) (retain : List Address) :
    (restrictHead retain head).on view =
      (r.restrict retain >>= fun smaller => writeCbor smaller.toCbor).on view := by
  obtain ⟨hcodec, data, v, hdata, hv, hofCbor⟩ := of_gives_readAs h.1
  have hregistry : (ofOption .unworded (Registry.ofCbor? v)).Gives view r := by
    rw [hofCbor]
    exact gives_pure view r
  rw [restrictHead, (gives_readCbor? hcodec hdata hv).on_bind]
  dsimp only
  rw [hregistry.on_bind]

theorem restricts_restrictHead {ids : Address → Option ActorId} {r : Registry} {head : Cid}
    (h : RegistryAt neat view ids r head) (retain : List Address) :
    Restricts neat view ids r retain (restrictHead retain head) id := by
  have heq := h.restrictHead_eq retain
  rcases h.2.on_restrict retain with ⟨addressMap, ws, hon, hstored⟩ | ⟨⟨e, ws, hfails⟩, hcrowded⟩
  · let smaller : Registry := { r with addressMap }
    refine Or.inl ⟨.ofDagCbor smaller.toCbor.encode, addressMap,
      ws ++ [.ofDagCbor smaller.toCbor.encode], ?_, ?_⟩
    · rw [heq, on_bind, hon]
      rfl
    · intro view' hsub hws
      have hname : r.networkName.utf8ByteSize < 2 ^ 64 := Registry.name_lt_of_gives h.1
      have hfits : smaller.toCbor.Fits Cbor.nesting := Registry.fits_toCbor hname
      refine ⟨?_, hstored view' hsub fun b hb => hws b (List.mem_append_left _ hb)⟩
      exact gives_readAs rfl (hws _ (List.mem_append_right _ (List.mem_singleton_self _)))
        (Cbor.decode?_encode hfits) (Registry.ofCbor?_toCbor _)
  · exact Or.inr ⟨⟨e, ws, by rw [heq, on_bind, hfails]⟩, hcrowded⟩

/-- Another state for the registry among some actors. -/
def reheadRegistry (found : List (ActorId × Actor)) (head : Cid) : List (ActorId × Actor) :=
  found.map fun e => if e.1 = .registry then (e.1, { e.2 with head }) else e

/-- Where the registry is not among them, the actors stay as they are. -/
theorem reheadRegistry_of_lookup {found : List (ActorId × Actor)}
    (h : found.lookup .registry = none) (head : Cid) : reheadRegistry found head = found := by
  refine (List.map_congr_left fun e he => ?_).trans (List.map_id found)
  rw [if_neg fun heq => Hamt.lookup_eq_none.mp h (List.mem_map.mpr ⟨e, he, heq⟩)]
  rfl

/-- Without a registry among the actors there is nothing to cut down. -/
theorem restrictAmong_of_lookup {found : List (ActorId × Actor)}
    (h : found.lookup .registry = none) : restrictAmong retain found = pure found := by
  induction found with
  | nil => rfl
  | cons e found ih =>
    obtain ⟨id, a⟩ := e
    rw [Hamt.lookup_cons_eq] at h
    by_cases hid : ActorId.registry = id
    · rw [if_pos hid] at h
      cases h
    · rw [if_neg hid] at h
      rw [restrictAmong, if_neg fun heq => hid heq.symm, ih h]
      rfl

/-- Where the registry is among some actors, its state is restricted. -/
theorem restrictAmong_eq {found : List (ActorId × Actor)} {a : Actor}
    (ha : found.lookup .registry = some a) (hnodup : (found.map (·.1)).Nodup) :
    restrictAmong retain found = reheadRegistry found <$> restrictHead retain a.head := by
  induction found with
  | nil => cases ha
  | cons e found ih =>
    obtain ⟨id, b⟩ := e
    obtain ⟨hnotin, hnodup⟩ := List.nodup_cons.mp hnodup
    rw [Hamt.lookup_cons_eq] at ha
    rw [restrictAmong]
    by_cases hid : ActorId.registry = id
    · subst hid
      rw [if_pos rfl] at ha
      obtain rfl := Option.some.inj ha
      -- the registry does not come up again
      have hall (head : Cid) : reheadRegistry ((.registry, b) :: found) head =
          (.registry, { b with head }) :: found :=
        congrArg _ (reheadRegistry_of_lookup (Hamt.lookup_eq_none.mpr hnotin) head)
      rw [if_pos rfl, restrictRegistry_eq, bind_pure_comp, Functor.map_map, funext hall]
    · rw [if_neg hid] at ha
      have hall (head : Cid) : reheadRegistry ((id, b) :: found) head =
          (id, b) :: reheadRegistry found head := by
        rw [reheadRegistry, List.map_cons, if_neg fun heq => hid heq.symm]
        rfl
      rw [if_neg fun heq => hid heq.symm, ih ha hnodup, bind_pure_comp, Functor.map_map,
        funext hall]

/-- The registry among the actors is cut down, and no other one. -/
theorem restricts_restrictAmong {ids : Address → Option ActorId} {r : Registry}
    {found : List (ActorId × Actor)} (hnodup : (found.map (·.1)).Nodup) {a : Actor}
    (ha : found.lookup .registry = some a) (h : RegistryAt neat view ids r a.head)
    (retain : List Address) :
    Restricts neat view ids r retain (restrictAmong retain found) (reheadRegistry found) := by
  rw [restrictAmong_eq ha hnodup]
  exact (restricts_restrictHead h retain).map _

-- ---------------------------------------------------------------------------
-- Masking
-- ---------------------------------------------------------------------------

/-- An actor that is touched was selected. -/
theorem Selected.lookup {found : List (ActorId × Actor)} (h : Selected L retain found)
    {id : ActorId} (hid : L.Touches retain id) : found.lookup id = L.actors id := by
  cases ha : L.actors id with
  | some a => exact Hamt.lookup_of_mem h.nodup ((h.mem id a).mpr ⟨hid, ha⟩)
  | none =>
    cases hfound : found.lookup id with
    | none => rfl
    | some a =>
      rw [((h.mem id a).mp (Hamt.mem_of_lookup hfound)).2] at ha
      cases ha

/-- No other one was. -/
theorem Selected.lookup_eq_none {found : List (ActorId × Actor)} (h : Selected L retain found)
    {id : ActorId} (hid : ¬L.Touches retain id) : found.lookup id = none := by
  cases hfound : found.lookup id with
  | none => rfl
  | some a => exact absurd ((h.mem id a).mp (Hamt.mem_of_lookup hfound)).1 hid

/-- The registry gets a new state, and the others keep theirs. -/
theorem lookup_reheadRegistry (found : List (ActorId × Actor)) (head : Cid) (id : ActorId) :
    (reheadRegistry found head).lookup id =
      (found.lookup id).map fun a => if id = .registry then { a with head } else a := by
  induction found with
  | nil => rfl
  | cons e found ih =>
    obtain ⟨j, a⟩ := e
    rw [reheadRegistry, List.map_cons]
    split
    all_goals
      rw [Hamt.lookup_cons_eq, Hamt.lookup_cons_eq]
      by_cases hj : id = j
      · simp_all
      · rw [if_neg hj, if_neg hj]
        exact ih

theorem map_fst_reheadRegistry (found : List (ActorId × Actor)) (head : Cid) :
    (reheadRegistry found head).map (·.1) = found.map (·.1) := by
  rw [reheadRegistry, List.map_map]
  refine List.map_congr_left fun e _ => ?_
  rw [Function.comp]
  split <;> rfl

theorem nodup_reheadRegistry {found : List (ActorId × Actor)} (h : (found.map (·.1)).Nodup)
    (head : Cid) : ((reheadRegistry found head).map (·.1)).Nodup := by
  rw [map_fst_reheadRegistry]
  exact h

/-- The ledger of a masked state. -/
def maskedLedger (L : Ledger) (retain : List Address) (found : List (ActorId × Actor))
    (head : Cid) : Ledger where
  actors := fun id => (reheadRegistry found head).lookup id
  ids := fun a => if a ∈ retain then L.ids a else none

/-- The actors that were selected, with the smaller registry, make up the masked ledger. -/
theorem Selected.masks {found : List (ActorId × Actor)} (h : Selected L retain found)
    (hretain : .id .registry ∈ retain) (head : Cid) :
    L.Masks retain (maskedLedger L retain found head) where
  ids := fun _ _ => rfl
  actors := by
    intro id hid hne
    show (reheadRegistry found head).lookup id = _
    rw [lookup_reheadRegistry, h.lookup hid]
    simp [hne]
  registry := by
    refine ⟨head, ?_⟩
    show (reheadRegistry found head).lookup .registry = _
    rw [lookup_reheadRegistry, h.lookup ⟨_, hretain, rfl⟩]
    simp
  absent := by
    intro id hid
    show (reheadRegistry found head).lookup id = _
    rw [lookup_reheadRegistry, h.lookup_eq_none hid]
    rfl

/-- A new tree in memory has one block, that of no information. -/
theorem exec_create (m : Memory) :
    m.exec (create version) = (.ok ⟨.empty, .ofDagCbor (Cbor.encode (.list [])), [], []⟩,
      m.putAll [.ofDagCbor (Cbor.encode (.list []))]) := by
  rw [create, if_pos rfl]
  rfl

/-- What is left of masking once the actors have been selected. -/
def writeMasked (v : UInt64) (retain : List Address) (found : List (ActorId × Actor)) :
    BlockM Cid := do
  let actors ← restrictAmong retain found
  let masked ← create v
  (actors.foldl (fun t (id, a) => t.setActor id a) masked).write

/-- Masking begins with looking things up. -/
theorem exec_mask_eq {m : Memory} (h : Stores neat m.get? base L root)
    (retain : List Address) : ∃ found, Selected L retain found ∧
      m.exec (mask root retain) = m.exec (writeMasked version retain found) ∧
      m.writes (mask root retain) = m.writes (writeMasked version retain found) := by
  obtain ⟨r, hread, hversion, -, -⟩ := h.actors
  have hroot := StateRoot.gives_load hread
  obtain ⟨t, hload, ht⟩ := h.gives_load
  obtain ⟨found, hruns, hselected⟩ := runs_select (selected_nil L) retain
  obtain ⟨t', hselect, -⟩ := hruns t ht
  have h₁ (next : StateRoot → BlockM Cid) := hroot.exec_bind (StateRoot.quiet_load root) next
  have h₂ (next : StateTree → BlockM Cid) := hload.exec_bind (quiet_load root) next
  have h₃ (next : List (ActorId × Actor) × StateTree → BlockM Cid) :=
    hselect.exec_bind (quiet_select retain [] t) next
  rw [← hversion]
  refine ⟨found, hselected, ?_, ?_⟩
  · exact (h₁ _).1.trans ((h₂ _).1.trans (h₃ _).1)
  · exact (h₁ _).2.trans ((h₂ _).2.trans (h₃ _).2)

/-- The tree that a masked state is written from. -/
def maskedTree (found : List (ActorId × Actor)) : StateTree :=
  found.foldl (fun t (id, a) => t.setActor id a)
    ⟨.empty, .ofDagCbor (Cbor.encode (.list [])), [], []⟩

/-- The tree that is written has the actors that were selected. -/
theorem hasActors_maskedTree {found : List (ActorId × Actor)}
    (hnodup : (found.map (·.1)).Nodup) (view : View) :
    (maskedTree found).HasActors True view (fun _ => none) (fun id => found.lookup id) := by
  have hempty := hasActors_empty True view (.ofDagCbor (Cbor.encode (.list [])))
  have hall := hempty.setAll trivial hnodup
  simp only [Option.or_none] at hall
  exact hall

/-- The keys of a masked tree are those of IDs. -/
private theorem maskKey_of_flushed {found : List (ActorId × Actor)}
    (hnodup : (found.map (·.1)).Nodup) {key : Bytes}
    (h : flushed (fun _ => none) (maskedTree found) key ≠ none) : MaskKey retain key := by
  rcases (hasActors_maskedTree hnodup fun _ => none).flushed_eq key with heq | ⟨id, rfl⟩
  · exact absurd heq h
  · exact ⟨.id id, rfl, Or.inr rfl⟩

/-- The keys of a masked tree are among those of the tree. -/
private theorem base_ne_none_of_flushed (h : Stores neat view base L root)
    {found : List (ActorId × Actor)} (hselected : Selected L retain found) {head : Cid} {key : Bytes}
    (hkey : flushed (fun _ => none) (maskedTree (reheadRegistry found head)) key ≠ none) :
    base key ≠ none := by
  have hnodup := nodup_reheadRegistry hselected.nodup head
  have hactors := hasActors_maskedTree hnodup view
  rcases hactors.flushed_eq key with heq | ⟨id, rfl⟩
  · exact absurd heq hkey
  · rw [hactors.flushed_key, lookup_reheadRegistry] at hkey
    obtain ⟨b, hb⟩ := Option.ne_none_iff_exists'.mp hkey
    obtain ⟨a, ha, -⟩ := Option.map_eq_some_iff.mp hb
    have hactor := ((hselected.mem id a).mp (Hamt.mem_of_lookup ha)).2
    obtain ⟨-, -, -, -, hbase⟩ := h.actors
    rw [hbase id, hactor]
    simp

/-- The records of a masked tree can be written. -/
private theorem writable_maskedTree (h : Stores neat view base L root)
    {found : List (ActorId × Actor)} (hselected : Selected L retain found) (head : Cid) :
    Hamt.Writable Actor.packing
      (flushed (fun _ => none) (maskedTree (reheadRegistry found head))) := by
  have hnodup := nodup_reheadRegistry hselected.nodup head
  have hactors := hasActors_maskedTree hnodup view
  intro key a ha
  rcases hactors.flushed_eq key with heq | ⟨id, rfl⟩
  · rw [heq] at ha
    cases ha
  · rw [hactors.flushed_key, lookup_reheadRegistry] at ha
    obtain ⟨b, hb, rfl⟩ := Option.map_eq_some_iff.mp ha
    have hactor := ((hselected.mem id b).mp (Hamt.mem_of_lookup hb)).2
    obtain ⟨v, hv⟩ := h.writable hactor
    -- another state does not change whether a record can be written
    refine Option.isSome_iff_exists.mp ?_
    have hsome : b.toCbor?.isSome := Option.isSome_iff_exists.mpr ⟨v, hv⟩
    rw [Actor.toCbor?_isSome] at hsome
    show (Actor.toCbor? _).isSome
    rw [Actor.toCbor?_isSome]
    split <;> exact hsome

/-- What is written before the tree of a masked state: the registry, and the empty tree. -/
private def writtenFirst (ws : List Block) : List Block :=
  ws ++ [.ofDagCbor (Cbor.encode (.list []))]

/-- Once the registry has been restricted, the tree is written, unless its keys are crowded. -/
private theorem exec_writeMasked_of_restricted {m : Memory} (h : Stores neat m.get? base L root)
    {found : List (ActorId × Actor)} (hselected : Selected L retain found) {head : Cid}
    {ws : List Block}
    (hon : (restrictAmong retain found).on m.get? = (.ok (reheadRegistry found head), ws)) :
    (∃ ws₂ masked, let m' := m.putAll (writtenFirst ws);
      m.exec (writeMasked version retain found) = (.ok masked, m'.putAll ws₂) ∧
      m.writes (writeMasked version retain found) = writtenFirst ws ++ ws₂ ∧
      (maskedTree (reheadRegistry found head)).write.on m'.get? = (.ok masked, ws₂)) ∨
    ((∃ e m', m.exec (writeMasked version retain found) = (.error e, m')) ∧
      Hamt.Crowded (MaskKey retain) ∧ ¬neat) := by
  have horderly := orderly_restrictAmong retain found
  have hfirst : m.exec (restrictAmong retain found) =
      (.ok (reheadRegistry found head), m.putAll ws) := by
    rw [horderly.exec, hon]
  let m' : Memory := m.putAll (writtenFirst ws)
  have hcreate : (m.putAll ws).exec (create version) =
      (.ok ⟨.empty, .ofDagCbor (Cbor.encode (.list [])), [], []⟩, m') := by
    rw [exec_create, ← Memory.putAll_append]
    rfl
  have hnodup := nodup_reheadRegistry hselected.nodup head
  have htree := (maskedTree (reheadRegistry found head)).orderly_write
  have hexec : m.exec (writeMasked version retain found) =
      m'.exec (maskedTree (reheadRegistry found head)).write := by
    rw [writeMasked, Memory.exec_bind, hfirst]
    dsimp only
    rw [Memory.exec_bind, hcreate]
    rfl
  rcases (hasActors_maskedTree hnodup m'.get?).write_ok_or with
    ⟨masked, ws', hwrite⟩ | ⟨⟨e, ws', hfails⟩, hfull | hnot⟩
  · refine Or.inl ⟨ws', masked, by rw [hexec, htree.exec, hwrite], ?_, hwrite⟩
    have hwritten := horderly.writes_eq m
    rw [hon] at hwritten
    have hinfo : (m.putAll ws).writes (create version) =
        [.ofDagCbor (Cbor.encode (.list []))] := by
      rw [create, if_pos rfl]
      rfl
    have hlast : m'.writes (maskedTree (reheadRegistry found head)).write = ws' := by
      rw [htree.writes_eq, hwrite]
    rw [writeMasked, Memory.writes_bind hfirst, Memory.writes_bind hcreate, hwritten, hinfo,
      ← List.append_assoc]
    exact congrArg (writtenFirst ws ++ ·) hlast
  · -- a tree without room: the keys are crowded, as they would be in the tree they come from
    have hspread : ¬Hamt.Spread (flushed (fun _ => none)
      (maskedTree (reheadRegistry found head))) := hfull.2
    refine Or.inr ⟨⟨e, m'.putAll ws', by rw [hexec, htree.exec, hfails]⟩, ?_, fun hneat =>
      hspread ?_⟩
    · exact (Hamt.crowded_of_not_spread hspread).mono fun key hkey =>
        maskKey_of_flushed hnodup hkey
    · obtain ⟨root, -, -, hstores, -⟩ := h.actors
      exact (hstores.spread hneat).of_keys fun key hkey => base_ne_none_of_flushed h hselected hkey
  · exact absurd (writable_maskedTree h hselected head) hnot

/-- Writing a masked state: first the registry, then the tree. -/
private theorem exec_writeMasked {m : Memory} (h : Stores neat m.get? base L root)
    {found : List (ActorId × Actor)} (hselected : Selected L retain found) {a : Actor}
    {r : Registry} (ha : found.lookup .registry = some a)
    (hr : RegistryAt neat m.get? L.ids r a.head) :
    (∃ head addressMap ws₁ ws₂ masked, let m' := m.putAll ws₁;
      m.exec (writeMasked version retain found) = (.ok masked, m'.putAll ws₂) ∧
      m.writes (writeMasked version retain found) = ws₁ ++ ws₂ ∧
      (maskedTree (reheadRegistry found head)).write.on m'.get? = (.ok masked, ws₂) ∧
      ∀ view', Hamt.Within m.get? view' → (∀ b ∈ ws₁, view' b.cid = some b.data) →
        RegistryAt True view' (fun a => if a ∈ retain then L.ids a else none) { r with addressMap }
          head) ∨
    ((∃ e m', m.exec (writeMasked version retain found) = (.error e, m')) ∧
      Hamt.Crowded (MaskKey retain) ∧ ¬neat) := by
  rcases restricts_restrictAmong hselected.nodup ha hr retain with
    ⟨head, addressMap, ws, hon, hstored⟩ | ⟨⟨e, ws, hfails⟩, hcrowded⟩
  · refine (exec_writeMasked_of_restricted h hselected hon).imp_left ?_
    rintro ⟨ws₂, masked, hexec, hwritten, hwrite⟩
    exact ⟨head, addressMap, writtenFirst ws, ws₂, masked, hexec, hwritten, hwrite,
      fun view' hsub hws => hstored view' hsub fun b hb => hws b (List.mem_append_left _ hb)⟩
  · -- the map of the registry has no room
    refine Or.inr ⟨⟨e, m.putAll ws, ?_⟩, hcrowded.1.mono fun key ⟨b, hb, hkey⟩ =>
      ⟨b, hkey, Or.inl hb⟩, hcrowded.2⟩
    rw [writeMasked, Memory.exec_bind, (orderly_restrictAmong retain found).exec, hfails]

/-- Masking ends well, whatever is retained, unless too many of the keys involved have the same
path. -/
theorem exec_mask_ok_or {m : Memory} (h : Stores neat m.get? base L root) (retain : List Address) :
    (∃ masked m', m.exec (mask root retain) = (.ok masked, m')) ∨
      Hamt.Crowded (MaskKey retain) := by
  obtain ⟨found, hselected, hexec, -⟩ := exec_mask_eq h retain
  rw [hexec]
  cases hfound : found.lookup .registry with
  | none =>
    have hon : (restrictAmong retain found).on m.get? =
        (.ok (reheadRegistry found default), []) := by
      rw [restrictAmong_of_lookup hfound, reheadRegistry_of_lookup hfound]
      rfl
    rcases exec_writeMasked_of_restricted h hselected hon with
      ⟨ws₂, masked, hdone, -⟩ | ⟨-, hcrowded, -⟩
    · exact Or.inl ⟨_, _, hdone⟩
    · exact Or.inr hcrowded
  | some a =>
    obtain ⟨a', r, ha', hread, hr⟩ := h.registered
    have ha := ((hselected.mem _ _).mp (Hamt.mem_of_lookup hfound)).2
    obtain rfl : a = a' := Option.some.inj (ha.symm.trans ha')
    rcases exec_writeMasked h hselected hfound ⟨hread, hr⟩ with
      ⟨head, addressMap, ws₁, ws₂, masked, hdone, -⟩ | ⟨-, hcrowded, -⟩
    · exact Or.inl ⟨_, _, hdone⟩
    · exact Or.inr hcrowded

/-- What is left of a state under the root that masking gave. -/
structure MaskedTo (blocks : Blocks) (L : Ledger) (retain : List Address) (m m' : Memory)
    (masked : Cid) : Prop where
  within : m'.Within blocks
  keeps : Hamt.Within m.get? m'.get?
  stores : ∃ base M, L.Masks retain M ∧ Stores True m'.get? base M masked
  /-- The registry has another map, and nothing else of it has changed. -/
  registry : ∀ a r, L.actors .registry = some a →
    (readAs Registry.ofCbor? a.head).Gives m.get? r → ∃ head addressMap,
      (actorAt masked .registry).Gives m'.get? (some { a with head }) ∧
      (readAs Registry.ofCbor? head).Gives m'.get? { r with addressMap }

/-- Masking a state that can be read gives the root of one that holds what the retained addresses
stand for, unless too many of the keys involved have the same path. States that are neat always have
room for what is left of them. -/
theorem exec_mask {m : Memory} (h : Stores neat m.get? base L root)
    (hretain : .id .registry ∈ retain) :
    (∃ masked m', m.exec (mask root retain) = (.ok masked, m') ∧
      ∀ blocks, CollisionFree blocks → m.Within blocks →
        (∀ b ∈ m.writes (mask root retain), blocks b) → MaskedTo blocks L retain m m' masked) ∨
    ((∃ e m', m.exec (mask root retain) = (.error e, m')) ∧ Hamt.Crowded (MaskKey retain) ∧
      ¬neat) := by
  obtain ⟨found, hselected, hexec, hwrites⟩ := exec_mask_eq h retain
  obtain ⟨a, r, ha, hread, hr⟩ := h.registered
  have hfound : found.lookup .registry = some a :=
    (hselected.lookup ⟨_, hretain, rfl⟩).trans ha
  rcases exec_writeMasked h hselected hfound ⟨hread, hr⟩ with
    ⟨head, addressMap, ws₁, ws₂, masked, hdone, hwritten, htree, hregistry⟩ | ⟨⟨e, m', hfails⟩, hcrowded⟩
  · refine Or.inl ⟨masked, (m.putAll ws₁).putAll ws₂, hexec.trans hdone, ?_⟩
    intro blocks hfree hm hws
    rw [hwrites, hwritten] at hws
    have hgrows₁ := Memory.grows_putAll hfree hm fun b hb => hws b (List.mem_append_left ws₂ hb)
    have hgrows₂ := Memory.grows_putAll hfree hgrows₁.within
      fun b hb => hws b (List.mem_append_right ws₁ hb)
    have hkeeps : Hamt.Within m.get? ((m.putAll ws₁).putAll ws₂).get? :=
      fun c data hc => hgrows₂.keeps c data (hgrows₁.keeps c data hc)
    have hnodup := nodup_reheadRegistry hselected.nodup head
    have hactors := (hasActors_maskedTree hnodup (m.putAll ws₁).get?).of_write hgrows₂.keeps
      htree hgrows₂.holds
    obtain ⟨hread', hr'⟩ := hregistry _ hkeeps fun b hb =>
      hgrows₂.keeps _ _ (hgrows₁.holds b hb)
    have hregistered : (reheadRegistry found head).lookup .registry = some { a with head } := by
      rw [lookup_reheadRegistry, hselected.lookup ⟨_, hretain, rfl⟩, ha]
      simp
    refine ⟨hgrows₂.within, hkeeps, ⟨_, maskedLedger L retain found head,
      hselected.masks hretain head, hactors, _, _, hregistered, hread', hr'⟩, ?_⟩
    intro a₁ r₁ ha₁ hread₁
    obtain rfl : a = a₁ := Option.some.inj (ha.symm.trans ha₁)
    obtain rfl := hread.unique hread₁
    refine ⟨head, addressMap, ?_, hread'⟩
    rw [← hregistered]
    exact hactors.gives_actorAt .registry
  · exact Or.inr ⟨⟨e, m', hexec.trans hfails⟩, hcrowded⟩

end StateTree

end ReplayVector
