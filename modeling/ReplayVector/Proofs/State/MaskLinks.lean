import ReplayVector.Proofs.Fixture.State
import ReplayVector.State.Mask

/-!
# What masking reads and writes

Masking a state follows links from its root, and what it writes links to what it has read or
written before. So the blocks of the masked state may join those of the state.

* `StateTree.grounded_mask`: all that is written is grounded, and so is the root.
-/

namespace ReplayVector

open BlockM

variable {known : Known} {retain : List Address}

/-- Structured data that is read brings its links up. The computation may go on without it. -/
theorem BlockM.grounded_readCbor? {α : Type} {c : Cid} {g : Option Cbor → BlockM α}
    {post : Known → α → Prop} (hc : c.codec = Cid.dagCbor → known c)
    (hnone : (g none).Grounded (onValue post) known)
    (hg : ∀ v, v.Tidy → (g (some v)).Grounded (onValue post) (known.add v)) :
    (readCbor? c >>= g).Grounded (onValue post) known := by
  rw [readCbor?]
  split
  · exact onValue_error known _
  · next hcodec =>
    have hcodec : c.codec = Cid.dagCbor := by simpa using hcodec
    refine ⟨⟨hc hcodec, hcodec⟩, ?_, ?_⟩
    · intro r hr
      rcases r with e | (_ | data)
      · exact onValue_error known e
      · exact hnone
      · -- the data is not structured
        have hbroken : Cbor.decode? data = none := by
          cases hv : Cbor.decode? data with
          | none => rfl
          | some v => exact absurd hv (hr data v rfl)
        simp only [andThen, hbroken]
        exact onValue_error known _
    · intro data v hv htidy
      simp only [andThen, hv]
      exact hg v htidy

namespace StateTree

theorem finds_loadRoot {root : Cid} (hroot : known root) :
    (StateRoot.load root).Finds (fun _ _ => True) known := by
  refine finds_readCbor? (fun _ => hroot) (endsIn_failed _) fun _ _ => ?_
  exact finds_ofOption _ fun _ _ => trivial

/-- Selected actors have been read. -/
theorem looks_select {found : List (ActorId × Actor)}
    (hfound : ∀ e ∈ found, Hamt.Grounds known e.2) :
    (select retain found).Looks (fun known found => ∀ e ∈ found, Hamt.Grounds known e.2) known := by
  -- by induction on the addresses: what has been selected before stays grounded as more is read
  induction retain generalizing found known with
  | nil => exact TreeM.looks_pure fun known' hsub e he => (hfound e he).mono hsub
  | cons a retain ih =>
    refine (TreeM.looks_resolve a).bind fun known₁ r hsub₁ _ => ?_
    have hfound₁ : ∀ e ∈ found, Hamt.Grounds known₁ e.2 := fun e he => (hfound e he).mono hsub₁
    cases r with
    | none => exact ih hfound₁
    | some id =>
      refine (TreeM.looks_getActor id).bind fun known₂ r hsub₂ hr => ?_
      have hfound₂ : ∀ e ∈ found, Hamt.Grounds known₂ e.2 := fun e he => (hfound₁ e he).mono hsub₂
      cases r with
      | none => exact ih hfound₂
      | some actor =>
        dsimp only
        split
        · exact ih hfound₂
        · refine ih fun e he => ?_
          rcases List.mem_append.mp he with he | he
          · exact hfound₂ e he
          · rw [List.mem_singleton.mp he]
            exact hr actor rfl

theorem grounded_restrictRegistry {a : Actor} (ha : Hamt.Grounds known a) :
    (restrictRegistry retain a).Grounded (onValue Hamt.Grounds) known := by
  have hhead : known.Allows a.head := ha _ (by simp [Linking.links])
  refine grounded_readCbor? hhead.2 (onValue_error known _) fun v hv => ?_
  have hregistry : (ofOption .unworded (Registry.ofCbor? v)).Finds
      (fun known r => Registry.Sound known r) (known.add v) :=
    finds_ofOption _ fun r hr => Registry.sound_of_ofCbor? hv hr known
  refine (Explores.value_grounded hregistry).bind fun known₁ r hsub₁ hr => ?_
  refine (Staged.value_grounded (Registry.staged_restrict hr retain)).bind
    fun known₂ smaller hsub₂ hsmaller => ?_
  obtain ⟨hcarries, hlinks⟩ := hsmaller.carries
  have hwrite : (writeCbor smaller.toCbor).Writes (onValue fun known c => known.Allows c) known₂ :=
    writes_writeCbor hcarries hlinks (known₂.allows_insert (Cid.tame_ofDagCbor _))
  refine hwrite.grounded.bind fun known₃ head hsub₃ hhead => onValue_ok ?_
  have ha₃ := (((ha.mono fun c hc => Or.inl hc).mono hsub₁).mono hsub₂).mono hsub₃
  intro c hc
  simp only [Linking.links, List.mem_cons, List.not_mem_nil, or_false] at hc
  rcases hc with rfl | rfl
  · exact ha₃ _ (by simp [Linking.links])
  · exact hhead

theorem grounded_restrictAmong {found : List (ActorId × Actor)}
    (hfound : ∀ e ∈ found, Hamt.Grounds known e.2) :
    (restrictAmong retain found).Grounded
      (onValue fun known found => ∀ e ∈ found, Hamt.Grounds known e.2) known := by
  -- by induction on the actors, up to the registry; those after it are left as they are
  induction found generalizing known with
  | nil => exact onValue_ok fun e he => by cases he
  | cons e found ih =>
    obtain ⟨id, a⟩ := e
    have ha : Hamt.Grounds known a := hfound _ (List.mem_cons_self ..)
    have hrest : ∀ e ∈ found, Hamt.Grounds known e.2 := fun e he =>
      hfound e (List.mem_cons_of_mem _ he)
    rw [restrictAmong]
    split
    · refine (grounded_restrictRegistry ha).bind fun known₁ b hsub hb => onValue_ok ?_
      intro e he
      rcases List.mem_cons.mp he with rfl | he
      · exact hb
      · exact (hrest e he).mono hsub
    · refine (ih hrest).bind fun known₁ rest hsub hrest' => onValue_ok ?_
      intro e he
      rcases List.mem_cons.mp he with rfl | he
      · exact ha.mono hsub
      · exact hrest' e he

theorem Sound.setAll {t : StateTree} (h : t.Sound known) {actors : List (ActorId × Actor)}
    (hactors : ∀ e ∈ actors, Hamt.Grounds known e.2) :
    (actors.foldl (fun t (id, a) => t.setActor id a) t).Sound known := by
  induction actors generalizing t with
  | nil => exact h
  | cons e actors ih =>
    exact ih (h.setActor e.1 (hactors e (List.mem_cons_self ..)))
      fun e he => hactors e (List.mem_cons_of_mem _ he)

/-- All that masking writes links to nothing but what was read or written before. -/
theorem grounded_mask {root : Cid} (hroot : known root) (retain : List Address) :
    (mask root retain).Grounded (onValue fun known masked => known.Stores masked) known := by
  refine (finds_loadRoot hroot).value_grounded.bind fun known₁ r hsub₁ _ => ?_
  refine (finds_load (hsub₁ root hroot)).value_grounded.bind fun known₂ t hsub₂ ht => ?_
  have hselect := @looks_select known₂ retain [] (fun e he => by cases he) known₂ (.refl known₂) t ht
  refine (Explores.value_grounded hselect).bind fun known₃ x hsub₃ hx => ?_
  refine (grounded_restrictAmong hx.1).bind fun known₄ actors hsub₄ hactors => ?_
  -- the smaller tree starts from an empty one, which stands for itself
  have hcreate : (create r.version).Grounded (onValue fun known t => t.Sound known) known₄ := by
    by_cases hversion : r.version = version
    · rw [hversion]
      exact Fixture.grounded_createTree
    · rw [create, if_neg hversion]
      exact onValue_error known₄ _
  refine hcreate.bind fun known₅ masked hsub₅ hmasked => ?_
  exact Staged.value_grounded (staged_write (hmasked.setAll fun e he => (hactors e he).mono hsub₅))

end StateTree

end ReplayVector
