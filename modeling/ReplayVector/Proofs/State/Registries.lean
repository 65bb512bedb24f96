import ReplayVector.Proofs.State.Trees

/-!
# Registries and other small blocks

The state of the registry's actor is a block with a link to its map. Restricting a registry to some
addresses reads both, then writes a smaller map.

* `Registry.Sound.carries`: what a registry is written as.
* `Registry.staged_restrict`: restricting a registry.
-/

namespace ReplayVector

open BlockM

variable {known : Known}

/-! ## Small blocks -/

namespace Cbor

/-- The value is short, not nested deeply, and neither a node of a trie nor a registry. -/
theorem carries_of_short {v : Cbor} (hfits : v.Fits nesting) (hlen : v.encode.length ≤ 2048)
    (hlinks : v.links = []) (hnode : ∀ field branches, v ≠ .list [.bytes field, .list branches]) :
    (Block.ofDagCbor v.encode).Carries v where
  eq := rfl
  fits := hfits
  tidy := {
    links := by simp [hlinks]
    node := fun field branches h => absurd h (hnode field branches)
    name := by
      rintro addressMap next name rfl
      simp [links, linksOfItems] at hlinks }
  length_le := by
    have : Block.maxLength = 1048576 := rfl
    omega

theorem carries_nil : (Block.ofDagCbor (encode (.list []))).Carries (.list []) :=
  carries_of_short ⟨by simp, by simp⟩ (by simp [encode, encodeItems, head]) rfl (by simp)

end Cbor

/-! ## Registries -/

/-- The registry's map may be linked to, and its name is short. -/
structure Registry.Sound (known : Known) (r : Registry) : Prop where
  map : known.Allows r.addressMap
  name : r.networkName.utf8ByteSize ≤ Cbor.maxName

namespace Registry

theorem Sound.mono {known known' : Known} {r : Registry} (h : r.Sound known)
    (hsub : known.Below known') : r.Sound known' := ⟨h.map.mono hsub, h.name⟩

theorem ofCbor?_toCbor (r : Registry) : ofCbor? r.toCbor = some r := by
  rw [toCbor, ofCbor?, Cbor.toUInt64?_ofUInt64]
  rfl

theorem fits_toCbor {r : Registry} (hname : r.networkName.utf8ByteSize < 2 ^ 64) :
    r.toCbor.Fits Cbor.nesting := by
  refine ⟨by simp, ?_⟩
  simp only [List.mem_cons, List.not_mem_nil, or_false, forall_eq_or_imp, forall_eq]
  exact ⟨trivial, Cbor.fits_ofUInt64 126 r.nextId, hname⟩

/-- What a sound registry is written as. -/
theorem Sound.carries {r : Registry} (h : r.Sound known) :
    (Block.ofDagCbor r.toCbor.encode).Carries r.toCbor ∧
      ∀ c ∈ r.toCbor.links, known.Allows c := by
  have hname := h.name
  have hmax : Cbor.maxName = 1024 := rfl
  have hlinks : ∀ c ∈ r.toCbor.links, known.Allows c := by
    intro c hc
    simp only [toCbor, Cbor.ofUInt64, Cbor.links, Cbor.linksOfItems, List.append_nil,
      List.mem_singleton] at hc
    exact hc ▸ h.map
  refine ⟨⟨rfl, fits_toCbor (by omega), ⟨fun c hc => (hlinks c hc).1, ?_, ?_⟩, ?_⟩, hlinks⟩
  · intro field branches heq
    cases heq
  · intro addressMap next name heq
    cases heq
    exact hname
  · have hmap := Cbor.length_encode_link_le r.addressMap
    have hnext := Cbor.length_encode_int_le r.nextId.toNat
    have htext := Cbor.length_encode_text_le r.networkName
    have hitems := Cbor.length_encode_list_le
      [.link r.addressMap, .ofUInt64 r.nextId, .text r.networkName] 3 1100 (by simp) (by
        simp only [List.mem_cons, List.not_mem_nil, or_false, forall_eq_or_imp, forall_eq,
          Cbor.ofUInt64]
        omega)
    have : Block.maxLength = 1048576 := rfl
    rw [toCbor]
    omega

/-- What is read as a registry is sound. -/
theorem sound_of_ofCbor? {v : Cbor} (hv : v.Tidy) {r : Registry} (h : ofCbor? v = some r)
    (known : Known) : r.Sound (known.add v) := by
  refine ⟨known.allows_add hv (link_of_ofCbor? h), ?_⟩
  unfold ofCbor? at h
  split at h
  · next addressMap next name =>
    simp only [Option.bind_eq_bind, Option.bind_eq_some_iff] at h
    obtain ⟨n, -, h⟩ := h
    obtain rfl := Option.some.inj h
    exact hv.name addressMap next name rfl
  · cases h

theorem length_key_le (a : Address) : a.toBytes.length ≤ Cbor.maxKey := by
  have := a.length_toBytes_le
  have : Cbor.maxKey = 128 := rfl
  omega

theorem finds_loadMap {r : Registry} (hr : r.Sound known) :
    r.loadMap.Finds Hamt.SoundMap known := (Hamt.finds_load packing_lawful hr.map).mapFailure _

/-- Copying entries to another map only reads. -/
theorem finds_copyEntries {retain : List Address} {map pruned : Hamt ActorId}
    (hmap : Hamt.SoundMap known map) (hpruned : Hamt.SoundMap known pruned) :
    (copyEntries retain map pruned).Finds Hamt.SoundMap known := by
  induction retain generalizing map pruned known with
  | nil => exact finds_pure hpruned
  | cons a retain ih =>
    rw [copyEntries]
    split
    · exact ih hmap hpruned
    · have hget : ((map.get? packing a.toBytes).context .readingAddressMap).Finds
          (fun known r => Hamt.SoundMap known r.2) known :=
        ((Hamt.finds_get? packing_lawful hmap a.toBytes).imp
          fun _ _ hr r' heq => (hr r' heq).2).mapFailure _
      refine hget.bind fun known₁ r hsub₁ hr => ?_
      obtain ⟨found, map'⟩ := r
      cases found with
      | none => exact ih hr (hpruned.mono hsub₁)
      | some id =>
        have hset : ((pruned.set packing a.toBytes id).context .writingAddressMap).Finds
            Hamt.SoundMap known₁ :=
          (Hamt.finds_set packing_lawful (hpruned.mono hsub₁) (length_key_le a)
            fun c hc => (by cases hc)).mapFailure _
        refine hset.bind fun known₂ pruned' hsub₂ hpruned' => ?_
        exact ih (hr.mono hsub₂) hpruned'

/-- Restricting a registry reads its map, then writes another one. -/
theorem staged_restrict {r : Registry} (hr : r.Sound known) (retain : List Address) :
    (r.restrict retain).Staged Failed (onValue fun known r => r.Sound known) known := by
  refine (finds_loadMap hr).staged_bind fun known₁ map hsub₁ hmap => ?_
  refine (finds_copyEntries hmap (Hamt.soundMap_empty known₁)).staged_bind
    fun known₂ pruned hsub₂ hpruned => Writes.staged ?_
  have hflush : ((pruned.flush packing).context .storingAddressMap).Writes
      (onValue fun known r => known.Allows r.1 ∧ Hamt.SoundMap known r.2) known₂ :=
    (Hamt.writes_flush packing_lawful hpruned).mapFailure _
  exact hflush.bind fun known₃ x _ hx => onValue_ok ⟨hx.1, hr.name⟩

end Registry

end ReplayVector
