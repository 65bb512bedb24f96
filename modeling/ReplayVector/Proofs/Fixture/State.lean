import ReplayVector.Fixture.State
import ReplayVector.Proofs.State.Registries

/-!
# What a new state consists of

Writing a new state puts blocks that link to nothing but each other: the states of its actors, the
nodes of the registry's map and of the tree, and the root.

* `Fixture.grounded_newState`: all that is written is grounded, and so is the root.
-/

namespace ReplayVector

open BlockM

variable {known : Known}

/-! ## Small blocks -/

namespace Cbor

/-- A block of a short text is one of a state. -/
theorem carries_text {s : String} (hs : s.utf8ByteSize ≤ 1000) :
    (Block.ofDagCbor (encode (.list [.text s]))).Carries (.list [.text s]) := by
  refine carries_of_short ⟨by simp, ?_⟩ ?_ rfl (by simp)
  · simp only [List.mem_singleton, forall_eq]
    show s.utf8ByteSize < 2 ^ 64
    omega
  · have htext := length_encode_text_le s
    have := length_encode_list_le [.text s] 1 1009 (by simp) (by
      simp only [List.mem_singleton, forall_eq]
      omega)
    omega

/-- So is that of an address. -/
theorem carries_address (a : Address) :
    (Block.ofDagCbor (Fixture.addressState a).encode).Carries (Fixture.addressState a) := by
  have haddress := a.length_toBytes_le
  refine carries_of_short ⟨by simp, ?_⟩ ?_ rfl (by simp [Fixture.addressState])
  · simp only [List.mem_singleton, forall_eq]
    show a.toBytes.length < 2 ^ 64
    omega
  · have hbytes := length_encode_bytes_le a.toBytes
    have := length_encode_list_le [.bytes a.toBytes] 1 100 (by simp) (by
      simp only [List.mem_singleton, forall_eq]
      omega)
    rw [Fixture.addressState]
    omega

end Cbor

namespace Registry

/-- A new registry links to what was just written. -/
theorem grounded_create (name : String) (hname : name.utf8ByteSize ≤ Cbor.maxName) :
    (create name).Grounded (onValue fun known r => r.Sound known) known := by
  have hflush : ((Hamt.flush packing .empty).context .creatingAddressMap).Writes
      (onValue fun known r => known.Allows r.1 ∧ Hamt.SoundMap known r.2) known :=
    (Hamt.writes_flush packing_lawful (Hamt.soundMap_empty known)).mapFailure _
  exact hflush.grounded.bind fun known₁ r _ hr => onValue_ok ⟨hr.1, hname⟩

end Registry

/-- The outcome of trying is that of the computation. -/
theorem BlockM.Grounded.attempt {α : Type} {post : Known → α → Prop} {p : BlockM α}
    (h : p.Grounded (onValue post) known) :
    p.attempt.Grounded (onValue fun known r => ∀ a, r = .ok a → post known a) known :=
  h.andThen fun _ _ hr => onValue_ok hr

namespace Registry

/-- So does one after an assignment. -/
theorem grounded_assign {r : Registry} (hr : r.Sound known) (a : Address) :
    (r.assign a).Grounded (onValue fun known x => x.2.Sound known) known := by
  rw [assign]
  split
  · exact onValue_ok hr
  · split
    · exact onValue_ok hr
    · have hstored : (do
          let map ← (← r.loadMap).set packing a.toBytes r.nextId |>.context .writingAddressMap
          return (← (map.flush packing).context .storingAddressMap).1 : BlockM Cid).Grounded
            (onValue fun known c => known.Allows c) known := by
        refine (finds_loadMap hr).value_grounded.bind fun known₁ map _ hmap => ?_
        have hset : ((map.set packing a.toBytes r.nextId).context .writingAddressMap).Finds
            Hamt.SoundMap known₁ :=
          (Hamt.finds_set packing_lawful hmap (length_key_le a) fun c hc => (by cases hc)).mapFailure _
        refine (Explores.value_grounded hset).bind fun known₂ map' _ hmap' => ?_
        have hflush : ((map'.flush packing).context .storingAddressMap).Writes
            (onValue fun known r => known.Allows r.1 ∧ Hamt.SoundMap known r.2) known₂ :=
          (Hamt.writes_flush packing_lawful hmap').mapFailure _
        exact hflush.grounded.bind fun known₃ x _ hx => onValue_ok hx.1
      refine hstored.attempt.bind fun known₁ x hsub hx => ?_
      cases x with
      | ok c => exact onValue_ok ⟨hx c rfl, hr.name⟩
      | error e => exact onValue_ok ⟨hr.map.mono hsub, hr.name⟩

end Registry

namespace Fixture

/-- A new actor links to its state, which was just written. -/
theorem grounded_newActor {code : String} {state : Cbor} {balance : TokenAmount}
    (hstate : (Block.ofDagCbor state.encode).Carries state)
    (hlinks : ∀ c ∈ state.links, known.Allows c) :
    (newActor code state balance).Grounded (onValue Hamt.Grounds) known := by
  have hwrite : (writeCbor state).Writes (onValue fun known c => known.Allows c) known :=
    writes_writeCbor hstate hlinks (known.allows_insert (Cid.tame_ofDagCbor _))
  refine hwrite.grounded.bind fun known₁ head _ hhead => onValue_ok ?_
  intro c hc
  simp only [Linking.links, List.mem_cons, List.not_mem_nil, or_false] at hc
  rcases hc with rfl | rfl
  · exact Known.allows_inline known₁ _
  · exact hhead

private theorem grounded_ofOption {α : Type} (f : Failure) (o : Option α) :
    (BlockM.ofOption f o).Grounded (onValue fun _ _ => True) known := by
  cases o with
  | none => exact onValue_error known f
  | some a => exact onValue_ok trivial

private theorem grounded_ofExcept {α : Type} (r : Except Failure α) :
    (BlockM.ofExcept r).Grounded (onValue fun _ _ => True) known := by
  cases r with
  | error e => exact onValue_error known e
  | ok a => exact onValue_ok trivial

/-- Accounts are added one after the other, by induction on them. -/
theorem grounded_addAccounts {indices : List Nat} {registry : Registry} {tree : StateTree}
    {accounts : List Account} (hregistry : registry.Sound known) (htree : tree.Sound known) :
    (addAccounts indices registry tree accounts).Grounded
      (onValue fun known x => x.1.Sound known ∧ x.2.1.Sound known) known := by
  induction indices generalizing registry tree accounts known with
  | nil => exact onValue_ok ⟨hregistry, htree⟩
  | cons i rest ih =>
    rw [addAccounts]
    refine (grounded_ofOption .crash (accountAddress? i)).bind fun known₁ robust hsub₁ _ => ?_
    refine (Registry.grounded_assign (hregistry.mono hsub₁) robust).bind
      fun known₂ x hsub₂ hx => ?_
    refine (grounded_ofExcept x.1).bind fun known₃ id hsub₃ _ => ?_
    refine (grounded_newActor (Cbor.carries_address robust) (fun c hc => (by cases hc))).bind
      fun known₄ actor hsub₄ hactor => ?_
    have htree₄ := (((htree.mono hsub₁).mono hsub₂).mono hsub₃).mono hsub₄
    exact ih ((hx.mono hsub₃).mono hsub₄) (htree₄.setActor id hactor)

/-- A new tree links to the information that was just written. -/
theorem grounded_createTree :
    (StateTree.create StateTree.version).Grounded (onValue fun known t => t.Sound known)
      known := by
  have hwrite : (writeCbor (.list [])).Writes (onValue fun known c => known.Allows c) known :=
    writes_writeCbor Cbor.carries_nil (fun c hc => (by cases hc))
      (known.allows_insert (Cid.tame_ofDagCbor _))
  rw [StateTree.create, if_pos rfl]
  refine Grounded.mapFailure (hwrite.grounded.bind fun known₁ info _ hinfo => ?_) _
  exact onValue_ok ⟨Hamt.soundMap_empty known₁, hinfo, fun e he => (by cases he)⟩

/-- All that is written for a new state links to nothing but what was written before. -/
theorem grounded_newState (accounts : Nat) :
    (newState accounts).Grounded (onValue fun known s => known.Stores s.root) known := by
  have hnone {known : Known} : ∀ c ∈ ([] : List Cid), known.Allows c := fun c hc => by cases hc
  refine (Registry.grounded_create networkName (by decide)).bind
    fun known₁ registry _ hregistry => ?_
  refine grounded_createTree.bind fun known₂ tree hsub₂ htree => ?_
  refine (grounded_newActor (Cbor.carries_text (by decide)) hnone).bind
    fun known₃ system hsub₃ hsystem => ?_
  refine (grounded_newActor (Cbor.carries_text (by decide)) hnone).bind
    fun known₄ reward hsub₄ hreward => ?_
  refine (grounded_newActor (Cbor.carries_address _) hnone).bind
    fun known₅ burnt hsub₅ hburnt => ?_
  have htree₅ := ((((htree.mono hsub₃).mono hsub₄).mono hsub₅).setActor .system
    ((hsystem.mono hsub₄).mono hsub₅)).setActor .reward (hreward.mono hsub₅)
  have hregistry₅ := (((hregistry.mono hsub₂).mono hsub₃).mono hsub₄).mono hsub₅
  refine (grounded_addAccounts hregistry₅ (htree₅.setActor .burnt hburnt)).bind
    fun known₆ x hsub₆ hx => ?_
  obtain ⟨hcarries, hlinks⟩ := hx.1.carries
  refine (grounded_newActor hcarries hlinks).bind fun known₇ init hsub₇ hinit => ?_
  have hwrite := StateTree.staged_write ((hx.2.mono hsub₇).setActor .registry hinit)
  exact (Staged.value_grounded hwrite).bind fun known₈ root _ hroot => onValue_ok hroot

end Fixture

end ReplayVector
