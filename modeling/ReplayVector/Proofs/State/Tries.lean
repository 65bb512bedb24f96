import ReplayVector.Proofs.State.Nodes
import ReplayVector.Proofs.Store.Paths

/-!
# What tries read and write

Looking a key up in a trie, and setting one, reads nodes over links that have come up and keeps
the nodes in memory sound. Flushing only writes.

* `finds_lookup`, `finds_insert`: along a path.
* `writes_flushSlots`: below a node.
* `finds_load`, `finds_get?`, `finds_set`, `writes_flush`: for whole tries.
-/

namespace ReplayVector.Hamt

open BlockM

variable {β : Type}

/-! ## Paths -/

/-- Five bits make a number below 32. -/
private theorem group_lt (a b c d e : Bool) :
    [a, b, c, d, e].foldl (fun (n : UInt8) bit => 2 * n + bit.toUInt8) 0 < 32 := by
  cases a <;> cases b <;> cases c <;> cases d <;> cases e <;> decide

/-- So does every group of a path. -/
private theorem groupsOfFive_lt (bits : List Bool) : ∀ i ∈ groupsOfFive bits, i < 32 := by
  induction bits using groupsOfFive.induct with
  | case1 a b c d e rest ih =>
    intro i hi
    rw [groupsOfFive] at hi
    rcases List.mem_cons.mp hi with rfl | hi
    · exact group_lt a b c d e
    · exact ih i hi
  | case2 bits hbits =>
    intro i hi
    rw [groupsOfFive] at hi
    · cases hi
    · exact hbits

/-- The numbers of a path are numbers of branches. -/
theorem path_lt (key : Bytes) : ∀ i ∈ path key, i < 32 := groupsOfFive_lt _

/-! ## Branches -/

/-- What is found in a list is in it. -/
theorem mem_of_lookup {κ ν : Type} [BEq κ] [LawfulBEq κ] {k : κ} {v : ν} {l : List (κ × ν)}
    (h : l.lookup k = some v) : (k, v) ∈ l := by
  induction l with
  | nil => cases h
  | cons e l ih =>
    rw [List.lookup_cons] at h
    split at h
    · next heq =>
      obtain rfl := Option.some.inj h
      rw [beq_iff_eq] at heq
      rw [heq]
      exact List.mem_cons_self ..
    · exact List.mem_cons_of_mem _ (ih h)

/-- The first entry is found under its key, the others behind it. -/
theorem lookup_cons_eq {κ ν : Type} [BEq κ] [LawfulBEq κ] [DecidableEq κ] (k key : κ) (v : ν)
    (l : List (κ × ν)) :
    ((key, v) :: l).lookup k = if k = key then some v else l.lookup k := by
  rw [List.lookup_cons]
  by_cases h : k = key
  · simp [h]
  · simp [h, beq_eq_false_iff_ne.mpr h]

/-- In a list without repeated keys every entry is found. -/
theorem lookup_of_mem {κ ν : Type} [BEq κ] [LawfulBEq κ] [DecidableEq κ] {k : κ} {v : ν}
    {l : List (κ × ν)} (hnodup : (l.map (·.1)).Nodup) (h : (k, v) ∈ l) : l.lookup k = some v := by
  induction l with
  | nil => cases h
  | cons e l ih =>
    obtain ⟨hnotin, hnodup⟩ := List.nodup_cons.mp hnodup
    rw [lookup_cons_eq]
    rcases List.mem_cons.mp h with rfl | h
    · rw [if_pos rfl]
    · have hne : k ≠ e.1 := fun heq => hnotin (List.mem_map.mpr ⟨_, h, heq⟩)
      rw [if_neg hne, ih hnodup h]

/-- A branch that is found is one of the node. -/
theorem mem_of_find? {i : UInt8} {slots : Slots β} {b : Branch β} (h : find? i slots = some b) :
    (i, b) ∈ slots := mem_of_lookup h

/-- A branch of a changed node is the new one or an old one. -/
theorem mem_put {i : UInt8} {b : Branch β} {slots : Slots β} {s : UInt8 × Branch β}
    (h : s ∈ put i b slots) : s = (i, b) ∨ s ∈ slots := by
  induction slots with
  | nil => exact Or.inl (List.mem_singleton.mp h)
  | cons s' slots ih =>
    rw [put] at h
    split at h
    · rcases List.mem_cons.mp h with h | h
      · exact Or.inl h
      · exact Or.inr (List.mem_cons_of_mem _ h)
    · split at h
      · exact List.mem_cons.mp h
      · rcases List.mem_cons.mp h with rfl | h
        · exact Or.inr (List.mem_cons_self ..)
        · rcases ih h with h | h
          · exact Or.inl h
          · exact Or.inr (List.mem_cons_of_mem _ h)

/-- Branches are put in order. -/
theorem Sorted.put {slots : Slots β} (h : Sorted slots) (i : UInt8) (b : Branch β) :
    Sorted (put i b slots) := by
  induction slots with
  | nil => exact List.pairwise_singleton _ _
  | cons s slots ih =>
    obtain ⟨hs, hslots⟩ := List.pairwise_cons.mp h
    rw [Hamt.put]
    split
    · next heq => exact List.pairwise_cons.mpr ⟨heq ▸ hs, hslots⟩
    · split
      · next hlt =>
        refine List.pairwise_cons.mpr ⟨?_, h⟩
        intro s' hs'
        rcases List.mem_cons.mp hs' with rfl | hs'
        · exact hlt
        · exact UInt8.lt_trans hlt (hs s' hs')
      · next hne hge =>
        refine List.pairwise_cons.mpr ⟨?_, ih hslots⟩
        intro s' hs'
        rcases mem_put hs' with rfl | hs'
        · exact UInt8.lt_of_le_of_ne (UInt8.not_lt.mp hge) (Ne.symm hne)
        · exact hs s' hs'

/-- And under a number below 32. -/
theorem Numbered.put {i : UInt8} (hi : i < 32) (b : Branch β) {slots : Slots β}
    (h : Numbered slots) : Numbered (put i b slots) := by
  refine ⟨h.1.put i b, ?_⟩
  intro s hs
  rcases mem_put hs with rfl | hs
  · exact hi
  · exact h.2 s hs

/-! ## Buckets -/

/-- The entries of a bucket after a change are the new one and old ones, as many as before. -/
theorem mem_setEntry (key : Bytes) (value : β) (entries : List (Bytes × β)) :
    (setEntry key value entries).length = entries.length ∧
      ∀ e ∈ setEntry key value entries, e = (key, value) ∨ e ∈ entries := by
  induction entries with
  | nil => simp [setEntry]
  | cons e entries ih =>
    rw [setEntry]
    split
    · refine ⟨rfl, ?_⟩
      intro e' he'
      rcases List.mem_cons.mp he' with h | h
      · exact Or.inl h
      · exact Or.inr (List.mem_cons_of_mem _ h)
    · refine ⟨by simp [ih.1], ?_⟩
      intro e' he'
      rcases List.mem_cons.mp he' with rfl | h
      · exact Or.inr (List.mem_cons_self ..)
      · exact (ih.2 e' h).imp_right (List.mem_cons_of_mem _)

/-- After an addition they are one more. -/
theorem mem_addEntry (key : Bytes) (value : β) (entries : List (Bytes × β)) :
    (addEntry key value entries).length = entries.length + 1 ∧
      ∀ e ∈ addEntry key value entries, e = (key, value) ∨ e ∈ entries := by
  induction entries with
  | nil => simp [addEntry]
  | cons e entries ih =>
    rw [addEntry]
    split
    · exact ⟨rfl, fun e' he' => List.mem_cons.mp he'⟩
    · refine ⟨by simp [ih.1], ?_⟩
      intro e' he'
      rcases List.mem_cons.mp he' with rfl | h
      · exact Or.inr (List.mem_cons_self ..)
      · exact (ih.2 e' h).imp_right (List.mem_cons_of_mem _)

/-! ## Sound branches -/

variable [Linking β] {p : Packing β} {known : Known}

/-- A sound branch may be put into a sound node. -/
theorem Sound.put {i : UInt8} (hi : i < 32) {b : Branch β} (hb : SoundBranch known b)
    {slots : Slots β} (h : Sound known slots) : Sound known (put i b slots) := by
  refine ⟨h.1.put hi b, ?_⟩
  intro s hs
  rcases mem_put hs with rfl | hs
  · exact hb
  · exact h.2 s hs

/-- The branches of a sound node are sound. -/
theorem Sound.find? {i : UInt8} {slots : Slots β} (h : Sound known slots) {b : Branch β}
    (hb : find? i slots = some b) : SoundBranch known b := h.2 _ (mem_of_find? hb)

/-- A bucket stays sound when an entry is set or, unless it is full, added. -/
private theorem SoundBucket.of_mem {entries entries' : List (Bytes × β)} {key : Bytes} {value : β}
    (h : SoundBucket known entries) (hlen : entries'.length ≤ bucketSize)
    (hkey : key.length ≤ Cbor.maxKey) (hvalue : Grounds known value)
    (hmem : ∀ e ∈ entries', e = (key, value) ∨ e ∈ entries) : SoundBucket known entries' := by
  refine ⟨hlen, fun e he => ?_⟩
  rcases hmem e he with rfl | he
  · exact ⟨hkey, hvalue⟩
  · exact h.2 e he

/-! ## Along a path -/

/-- A node that may be linked to is read as a sound one. -/
theorem finds_loadNode (hp : p.Lawful) {c : Cid} (hc : known.Allows c) :
    (loadNode p c).Finds (Sound) known := by
  refine finds_readAs hc.2 fun _ _ hv hslots => ?_
  exact sound_of_nodeOf? hp hv hslots known

/-- Looking a key up keeps the nodes in memory sound. -/
theorem finds_lookup (hp : p.Lawful) (key : Bytes) {rest : List UInt8}
    (hrest : ∀ i ∈ rest, i < 32) {slots : Slots β} (h : Sound known slots) :
    (lookup p key rest slots).Finds
      (fun known r => (∀ a, r.1 = some a → Grounds known a) ∧ Sound known r.2) known := by
  induction rest generalizing slots known with
  | nil => exact finds_fail _ known _
  | cons i rest ih =>
    have hi := hrest i (List.mem_cons_self ..)
    have hrest' := fun j hj => hrest j (List.mem_cons_of_mem i hj)
    rw [lookup]
    split
    · exact finds_pure ⟨fun a ha => (by cases ha), h⟩
    · next entries hb =>
      refine finds_pure ⟨fun a ha => ?_, h⟩
      exact ((h.find? hb).2 (key, a) (mem_of_lookup ha)).2
    · next c hb =>
      have hc : known.Allows c := h.find? hb
      refine (finds_loadNode hp hc).bind fun known₁ inner hsub₁ hinner => ?_
      refine (ih hrest' hinner).bind fun known₂ r hsub₂ hr => ?_
      refine finds_pure ⟨hr.1, (h.mono fun c hc => hsub₂ c (hsub₁ c hc)).put hi ?_⟩
      refine soundBranch_node.mpr ⟨fun c' hc' => ?_, hr.2⟩
      obtain rfl := Option.some.inj hc'
      exact (hc.mono hsub₁).mono hsub₂
    · next stored inner hb =>
      obtain ⟨hstored, hinner⟩ := soundBranch_node.mp (h.find? hb)
      refine (ih hrest' hinner).bind fun known₁ r hsub hr => ?_
      refine finds_pure ⟨hr.1, (h.mono hsub).put hi ?_⟩
      exact soundBranch_node.mpr ⟨fun c hc => (hstored c hc).mono hsub, hr.2⟩

/-- A fold keeps what each of its steps keeps. -/
private theorem finds_foldlM {σ γ : Type} (inv : Known → σ → Prop) {f : σ → γ → BlockM σ}
    {l : List γ} {s : σ} (hs : inv known s)
    (hf : ∀ known' s, known.Below known' → inv known' s → ∀ x ∈ l, (f s x).Finds inv known') :
    (l.foldlM f s).Finds inv known := by
  induction l generalizing s known with
  | nil => exact finds_pure hs
  | cons x l ih =>
    rw [List.foldlM_cons]
    refine (hf known s (.refl known) hs x (List.mem_cons_self ..)).bind fun known₁ s₁ hsub hs₁ => ?_
    exact ih hs₁ fun known₂ s₂ hsub₂ hs₂ x hx =>
      hf known₂ s₂ (fun c hc => hsub₂ c (hsub c hc)) hs₂ x (List.mem_cons_of_mem _ hx)

/-- The entries of a full bucket move to a new node, after the key. -/
private theorem finds_full [DecidableEq β] {height : Nat}
    (hset : ∀ (known : Known) (rest : List UInt8) (key : Bytes) (value : β) (slots : Slots β),
      (∀ i ∈ rest, i < 32) → key.length ≤ Cbor.maxKey → Grounds known value → Sound known slots →
      (insert p height rest key value slots).Finds (fun known r => Sound known r.2) known)
    {rest : List UInt8} (hrest : ∀ i ∈ rest, i < 32) {key : Bytes}
    (hkey : key.length ≤ Cbor.maxKey) {value : β} (hvalue : Grounds known value)
    {entries : List (Bytes × β)} (hentries : SoundBucket known entries) {γ : Type}
    {inv : Known → γ → Prop} {next : Slots β → BlockM γ}
    (hnext : ∀ known' inner, known.Below known' → Sound known' inner →
      (next inner).Finds inv known') :
    (do
      let (_, inner) ← insert p height rest key value []
      let inner ← entries.foldlM (fun inner (k, v) => do
        let (_, inner) ← insert p height ((path k).drop (levels - height)) k v inner
        return inner) inner
      next inner).Finds inv known := by
  refine (hset known rest key value [] hrest hkey hvalue (sound_nil known)).bind
    fun known₁ r₁ hsub₁ hr₁ => ?_
  refine Explores.bind (finds_foldlM Sound hr₁ fun known' inner hsub hinner e he => ?_)
    fun known₂ inner hsub₂ hinner => ?_
  · have hvalue' := (hentries.2 e he).2.mono fun c hc => hsub c (hsub₁ c hc)
    have hpath : ∀ j ∈ (path e.1).drop (levels - height), j < 32 :=
      fun j hj => path_lt e.1 j (List.mem_of_mem_drop hj)
    refine (hset known' _ _ _ _ hpath (hentries.2 e he).1 hvalue' hinner).bind
      fun known'' r _ hr => ?_
    exact finds_pure hr
  · exact hnext known₂ inner (fun c hc => hsub₂ c (hsub₁ c hc)) hinner

/-- Setting the value of a key keeps the nodes in memory sound. -/
theorem finds_insert [DecidableEq β] (hp : p.Lawful) {height : Nat} {rest : List UInt8}
    (hrest : ∀ i ∈ rest, i < 32) {key : Bytes} (hkey : key.length ≤ Cbor.maxKey) {value : β}
    (hvalue : Grounds known value) {slots : Slots β} (h : Sound known slots) :
    (insert p height rest key value slots).Finds (fun known r => Sound known r.2) known := by
  -- by induction on the height, along the path of the key
  induction height generalizing rest key value slots known with
  | zero => exact finds_fail _ known .unworded
  | succ height ih =>
    cases rest with
    | nil => exact finds_fail _ known .unworded
    | cons i rest =>
      have hi := hrest i (List.mem_cons_self ..)
      have hrest' := fun j hj => hrest j (List.mem_cons_of_mem i hj)
      rw [insert]
      split
      · -- there was nothing under the index
        have hone : SoundBucket known [(key, value)] :=
          ⟨by simp [bucketSize], fun e he => by
            rw [List.mem_singleton.mp he]
            exact ⟨hkey, hvalue⟩⟩
        exact finds_pure (h.put hi (soundBranch_bucket.mpr hone))
      · next entries hb =>
        have hentries := soundBranch_bucket.mp (h.find? hb)
        split
        · split
          · exact finds_pure h
          · have hset := mem_setEntry key value entries
            have hnew := hentries.of_mem (by rw [hset.1]; exact hentries.1) hkey hvalue hset.2
            exact finds_pure (h.put hi (soundBranch_bucket.mpr hnew))
        · split
          · next hlt =>
            have hadd := mem_addEntry key value entries
            have hnew := hentries.of_mem (by omega) hkey hvalue hadd.2
            exact finds_pure (h.put hi (soundBranch_bucket.mpr hnew))
          · refine finds_full (fun known' rest key value slots hrest hkey hvalue h =>
              ih hrest hkey hvalue h) hrest' hkey hvalue hentries fun known' inner hsub hinner => ?_
            refine finds_pure ((h.mono hsub).put hi ?_)
            exact soundBranch_node.mpr ⟨fun c hc => (by cases hc), hinner⟩
      · next c hb =>
        have hc : known.Allows c := h.find? hb
        -- a node that is read, and changed in memory
        refine (finds_loadNode hp hc).bind fun known₁ inner hsub₁ hinner => ?_
        refine (ih hrest' hkey (hvalue.mono hsub₁) hinner).bind fun known₂ r hsub₂ hr => ?_
        refine finds_pure ((h.mono fun c hc => hsub₂ c (hsub₁ c hc)).put hi ?_)
        refine soundBranch_node.mpr ⟨fun c' hc' => ?_, hr⟩
        split at hc'
        · cases hc'
        · obtain rfl := Option.some.inj hc'
          exact (hc.mono hsub₁).mono hsub₂
      · next stored inner hb =>
        obtain ⟨hstored, hinner⟩ := soundBranch_node.mp (h.find? hb)
        refine (ih hrest' hkey hvalue hinner).bind fun known₁ r hsub hr => ?_
        refine finds_pure ((h.mono hsub).put hi ?_)
        refine soundBranch_node.mpr ⟨fun c hc => ?_, hr⟩
        split at hc
        · cases hc
        · exact (hstored c hc).mono hsub

/-! ## Flushing -/

/-- A node that is sound can be written, and linked to then. -/
theorem writes_storeNode (hp : p.Lawful) {slots : Slots β} (h : Sound known slots) :
    (storeNode p slots).Writes (onValue fun known c => known.Allows c ∧ Sound known slots)
      known := by
  rw [storeNode]
  cases hv : nodeCbor? p slots with
  | none => exact onValue_error known _
  | some v =>
    obtain ⟨hcarries, hlinks⟩ := h.carries hp hv
    have hsub : known.Below (known.insert (Cid.ofDagCbor v.encode)) := (Known.Below.refl known).insert _
    exact writes_writeCbor hcarries hlinks
      ⟨known.allows_insert (Cid.tame_ofDagCbor _), h.mono hsub⟩

mutual

/-- A branch is written from the bottom up, by induction on the node. -/
theorem writes_flushBranch (hp : p.Lawful) {known : Known} :
    {b : Branch β} → SoundBranch known b →
      (flushBranch p b).Writes (onValue fun known b => SoundBranch known b) known
  | .bucket _, h => by
    rw [flushBranch]
    exact onValue_ok h
  | .link _, h => by
    rw [flushBranch]
    exact onValue_ok h
  | .node (some c) slots, h => by
    rw [flushBranch]
    exact onValue_ok h
  | .node none slots, h => by
    rw [flushBranch]
    obtain ⟨-, hslots⟩ := soundBranch_node.mp h
    refine (writes_flushSlots hp hslots.2).bind fun known₁ slots' _ hslots' => ?_
    have hsound : Sound known₁ slots' := ⟨hslots.1.of_map_eq hslots'.1, hslots'.2⟩
    refine (writes_storeNode hp hsound).bind fun known₂ c _ hc => ?_
    refine onValue_ok (soundBranch_node.mpr ⟨fun c' hc' => ?_, hc.2⟩)
    obtain rfl := Option.some.inj hc'
    exact hc.1

/-- Flushing the branches of a node keeps them sound and leaves their numbers alone. -/
theorem writes_flushSlots (hp : p.Lawful) {known : Known} :
    {slots : Slots β} → (∀ s ∈ slots, SoundBranch known s.2) →
      (flushSlots p slots).Writes (onValue fun known slots' =>
        slots'.map (·.1) = slots.map (·.1) ∧ ∀ s ∈ slots', SoundBranch known s.2) known
  | [], _ => by
    rw [flushSlots]
    exact onValue_ok ⟨rfl, by simp⟩
  | (i, b) :: rest, h => by
    rw [flushSlots]
    refine (writes_flushBranch hp (h _ (List.mem_cons_self ..))).bind fun known₁ b' hsub hb' => ?_
    have hrest := fun s hs => (h s (List.mem_cons_of_mem _ hs)).mono hsub
    refine (writes_flushSlots hp hrest).bind fun known₂ rest' hsub' hrest' => ?_
    refine onValue_ok ⟨by simp [hrest'.1], ?_⟩
    intro s hs
    rcases List.mem_cons.mp hs with rfl | hs
    · exact hb'.mono hsub'
    · exact hrest'.2 s hs

end

/-! ## Whole tries -/

/-- The nodes in memory are sound, and the identifier of the trie has come up. -/
structure SoundMap (known : Known) (m : Hamt β) : Prop where
  root : Sound known m.root
  stored : ∀ c, m.stored = some c → known.Allows c

/-- A sound trie stays sound when more is known. -/
theorem SoundMap.mono {known known' : Known} {m : Hamt β} (h : SoundMap known m)
    (hsub : known.Below known') : SoundMap known' m := by
  refine ⟨h.root.mono hsub, fun c hc => ?_⟩
  exact (h.stored c hc).mono hsub

theorem soundMap_empty (known : Known) : SoundMap known (empty : Hamt β) := by
  refine ⟨sound_nil known, fun c hc => ?_⟩
  cases hc

/-- A trie is loaded over a link that has come up. -/
theorem finds_load (hp : p.Lawful) {c : Cid} (hc : known.Allows c) :
    (load p c).Finds (SoundMap) known := by
  refine (finds_loadNode hp hc).bind fun known₁ slots hsub hslots => ?_
  refine finds_pure ⟨hslots, fun c' hc' => ?_⟩
  obtain rfl := Option.some.inj hc'
  exact hc.mono hsub

/-- A value that is looked up links to what has come up. -/
theorem finds_get? (hp : p.Lawful) {m : Hamt β} (hm : SoundMap known m) (key : Bytes) :
    (m.get? p key).Finds
      (fun known r => (∀ a, r.1 = some a → Grounds known a) ∧ SoundMap known r.2) known := by
  refine (finds_lookup hp key (path_lt key) hm.root).bind fun known₁ r hsub hr => ?_
  exact finds_pure ⟨hr.1, hr.2, fun c hc => (hm.stored c hc).mono hsub⟩

/-- A value that links to what has come up may be set. -/
theorem finds_set [DecidableEq β] (hp : p.Lawful) {m : Hamt β} (hm : SoundMap known m)
    {key : Bytes} (hkey : key.length ≤ Cbor.maxKey) {value : β} (hvalue : Grounds known value) :
    (m.set p key value).Finds (SoundMap) known := by
  refine (finds_insert hp (path_lt key) hkey hvalue hm.root).bind fun known₁ r hsub hr => ?_
  refine finds_pure ⟨hr, fun c hc => ?_⟩
  split at hc
  · cases hc
  · exact (hm.stored c hc).mono hsub

/-- Flushing a sound trie writes tidy nodes, and the root may be linked to. -/
theorem writes_flush (hp : p.Lawful) {m : Hamt β} (hm : SoundMap known m) :
    (m.flush p).Writes (onValue fun known r => known.Allows r.1 ∧ SoundMap known r.2) known := by
  rw [flush]
  split
  · next c hc => exact onValue_ok ⟨hm.stored c hc, hm⟩
  · refine (writes_flushSlots hp hm.root.2).bind fun known₁ slots _ hslots => ?_
    have hsound : Sound known₁ slots := ⟨hm.root.1.of_map_eq hslots.1, hslots.2⟩
    refine (writes_storeNode hp hsound).bind fun known₂ c _ hc => ?_
    refine onValue_ok ⟨hc.1, hc.2, fun c' hc' => ?_⟩
    obtain rfl := Option.some.inj hc'
    exact hc.1

end ReplayVector.Hamt
