import ReplayVector.Proofs.State.Contents

/-!
# Tries as maps

A trie that is read, changed and written stands for a map from keys to values, and the map is the
same before it is written and after it was read again.

* `Hamt.Represents`: the map that a trie stands for.
* `Represents.gives_get?`, `Represents.set`: looking keys up and setting them.
* `Represents.of_flush`, `Represents.flush_isOk`: writing a trie.
-/

namespace ReplayVector.Hamt

open BlockM

variable {β : Type} {neat : Prop} {view view' : View} {p : Packing β} {f f' : Entries β}
  {height : Nat} {pre : List UInt8} {slots : Slots β}

/-! ## Writing nodes -/

/-- What is left of the branches of a node once it was written. -/
def stubs (slots : Slots β) : Slots β := slots.map fun s => (s.1, s.2.stub)

/-- A branch is not found if no branch has its number. -/
theorem find?_eq_none {i : UInt8} {slots : Slots β} :
    find? i slots = none ↔ i ∉ slots.map (·.1) := by
  induction slots with
  | nil => simp [find?]
  | cons s slots ih =>
    rw [find?, List.lookup_cons, List.map_cons, List.mem_cons]
    by_cases h : i = s.1
    · simp [h]
    · simp only [beq_eq_false_iff_ne.mpr h, h, false_or]
      exact ih

/-- The branches of the listed slots stand for what the map has under their numbers. -/
def SlotsHold (neat : Prop) (view : View) (p : Packing β) (f : Entries β) (height : Nat)
    (pre : List UInt8) (slots : Slots β) : Prop :=
  ∀ s ∈ slots, BranchHolds neat view p f (pre ++ [s.1])
    (Holds neat view p f height (pre ++ [s.1])) (some s.2)

/-- In order, every branch is found. -/
theorem find?_of_mem (h : Sorted slots) {s : UInt8 × Branch β} (hs : s ∈ slots) :
    find? s.1 slots = some s.2 := by
  induction slots with
  | nil => cases hs
  | cons s' slots ih =>
    obtain ⟨hlt, hrest⟩ := List.pairwise_cons.mp h
    rw [find?, List.lookup_cons]
    rcases List.mem_cons.mp hs with rfl | hs
    · simp
    · have hne : s.1 ≠ s'.1 := fun heq => UInt8.lt_irrefl _ (heq ▸ hlt s hs)
      rw [beq_eq_false_iff_ne.mpr hne]
      exact ih hrest hs

/-- A node that stands for a map has branches that stand for parts of it. -/
theorem Holds.slotsHold (h : Holds neat view p f (height + 1) pre slots) :
    SlotsHold neat view p f height pre slots := by
  intro s hs
  have hi := h.2 s.1
  rwa [find?_of_mem h.1.sorted hs] at hi

/-- What is left of branches has their numbers. -/
theorem map_stubs (slots : Slots β) : (stubs slots).map (·.1) = slots.map (·.1) := by
  rw [stubs, List.map_map]
  rfl

/-- A node is as well formed as one with the same numbers. -/
private theorem Formed.of_map_eq {slots' : Slots β} (h : Formed neat slots)
    (heq : slots'.map (·.1) = slots.map (·.1)) : Formed neat slots' := by
  refine ⟨h.sorted.of_map_eq heq, ?_, ?_⟩
  · have hlen := congrArg List.length heq
    rw [List.length_map, List.length_map] at hlen
    rw [hlen]
    exact h.length_le
  · intro hneat
    have hnumbered : Numbered slots' := Numbered.of_map_eq ⟨h.sorted, h.neat hneat⟩ heq
    exact hnumbered.2

/-- A node whose branches have the same numbers and stand for the same stands for the same. -/
theorem Holds.of_slotsHold {slots' : Slots β} (h : Holds neat view p f (height + 1) pre slots)
    (hnumbers : slots'.map (·.1) = slots.map (·.1))
    (hslots' : SlotsHold neat view' p f height pre slots') :
    Holds neat view' p f (height + 1) pre slots' := by
  refine ⟨h.1.of_map_eq hnumbers, ?_⟩
  intro i
  cases hb : find? i slots' with
  | none =>
    -- there was no branch either
    rw [find?_eq_none, hnumbers, ← find?_eq_none] at hb
    have hi := h.2 i
    rw [hb] at hi
    exact hi
  | some b => exact hslots' _ (mem_of_find? hb)

/-- A node all of whose branches were written stands for what it did before. -/
theorem holds_stubs {slots' : Slots β} (h : Holds neat view p f (height + 1) pre slots)
    (hnumbers : slots'.map (·.1) = slots.map (·.1))
    (hslots' : SlotsHold neat view' p f height pre (stubs slots')) :
    Holds neat view' p f (height + 1) pre (stubs slots') :=
  h.of_slotsHold ((map_stubs slots').trans hnumbers) hslots'

variable [Linking β]

/-- The node can be written and read again: its branches stand in order, there are not too many of
them, and heads can tell the lengths in its buckets. -/
structure Plain (slots : Slots β) : Prop where
  sorted : Sorted slots
  length_le : slots.length ≤ 32
  short : ∀ i entries, (i, .bucket entries) ∈ slots → Short entries

omit [Linking β] in
/-- A branch in the place of another one. -/
theorem Plain.put (h : Plain slots) {i : UInt8} (hi : find? i slots ≠ none) {b : Branch β}
    (hb : ∀ entries, b = .bucket entries → Short entries) : Plain (put i b slots) where
  sorted := h.sorted.put i b
  length_le := by
    have hlen := congrArg List.length (map_put h.sorted hi b)
    rw [List.length_map, List.length_map] at hlen
    rw [hlen]
    exact h.length_le
  short := by
    intro j entries hmem
    rcases mem_put hmem with heq | hmem
    · exact hb entries (Prod.mk.inj heq).2.symm
    · exact h.short j entries hmem

/-- What such a node is written as fits. -/
private theorem Plain.fits (h : Plain slots) (hp : p.Lawful) {v : Cbor}
    (hv : nodeCbor? p slots = some v) : v.Fits Cbor.nesting := by
  obtain ⟨branches, hbranches, rfl⟩ := nodeCbor?_eq_some hv
  obtain ⟨hcount, hmem⟩ := mem_of_mapM hbranches
  have hbranch : ∀ item ∈ branches, item.Fits 4 := by
    intro item hitem
    obtain ⟨⟨i, b⟩, hb, hwritten⟩ := hmem item hitem
    match b with
    | .link c =>
      obtain rfl := Option.some.inj hwritten
      trivial
    | .node (some c) inner =>
      obtain rfl := Option.some.inj hwritten
      trivial
    | .node none inner => cases hwritten
    | .bucket entries =>
      obtain ⟨items, hitems, rfl⟩ := Option.map_eq_some_iff.mp hwritten
      obtain ⟨hsize, hentry⟩ := mem_of_mapM hitems
      have hentries := h.short i entries hb
      refine ⟨by rw [hsize]; exact hentries.length_lt, ?_⟩
      intro item' hitem'
      obtain ⟨e, he, hpair⟩ := hentry item' hitem'
      obtain ⟨value, hvalue, rfl⟩ := Option.map_eq_some_iff.mp hpair
      refine ⟨by simp, ?_⟩
      simp only [List.mem_cons, List.not_mem_nil, or_false, forall_eq_or_imp, forall_eq]
      exact ⟨hentries.keys_lt e he, hp.fits hvalue⟩
  have hfield : (bitField slots).length ≤ 32 := by
    refine length_bitField_le h.sorted fun i hi => ?_
    obtain ⟨s, -, rfl⟩ := List.mem_map.mp hi
    exact s.1.toNat_lt
  have hbound := h.length_le
  have hfits : (Cbor.list [.bytes (bitField slots), .list branches]).Fits 6 := by
    refine ⟨by simp, ?_⟩
    simp only [List.mem_cons, List.not_mem_nil, or_false, forall_eq_or_imp, forall_eq]
    refine ⟨?_, by omega, hbranch⟩
    show (bitField slots).length < 2 ^ 64
    omega
  exact hfits.mono (by decide)

/-- A node that was written is read as what is left of it. -/
theorem Plain.gives_loadNode (h : Plain slots) (hp : p.Lawful) {c : Cid} {ws : List Block}
    (hstore : (storeNode p slots).on view = (.ok c, ws))
    (hws : ∀ b ∈ ws, view' b.cid = some b.data) : (loadNode p c).Gives view' (stubs slots) := by
  rw [storeNode] at hstore
  cases hv : nodeCbor? p slots with
  | none =>
    rw [hv] at hstore
    cases hstore
  | some v =>
    rw [hv] at hstore
    obtain ⟨rfl, rfl⟩ : Cid.ofDagCbor v.encode = c ∧ [Block.ofDagCbor v.encode] = ws := by
      cases hstore
      exact ⟨rfl, rfl⟩
    exact gives_readAs rfl (hws _ (List.mem_singleton_self _)) (Cbor.decode?_encode (h.fits hp hv))
      (nodeOf?_nodeCbor? hp h.sorted h.length_le hv)

omit [Linking β] in
/-- A node that stands for something once its branches were written can be written itself. -/
theorem Holds.plain (h : Holds neat view p f (height + 1) pre (stubs slots)) : Plain slots where
  sorted := (h.1.of_map_eq (map_stubs slots).symm).sorted
  length_le := (h.1.of_map_eq (map_stubs slots).symm).length_le
  short := by
    intro i entries hb
    have hmem : (i, Branch.bucket entries) ∈ stubs slots := List.mem_map.mpr ⟨_, hb, rfl⟩
    exact BucketHolds.short (h.slotsHold _ hmem)

omit [Linking β] in
/-- What holds of all branches after each was written; their numbers are as before. -/
theorem forall_of_flushSlots (Q : UInt8 → Branch β → Prop) {slots slots' : Slots β}
    {ws : List Block} (hslot : ∀ s ∈ slots, ∀ b ws', (flushBranch p s.2).on view = (.ok b, ws') →
      (∀ b ∈ ws', b ∈ ws) → Q s.1 b) (hflush : (flushSlots p slots).on view = (.ok slots', ws)) :
    slots'.map (·.1) = slots.map (·.1) ∧ ∀ s ∈ slots', Q s.1 s.2 := by
  induction slots generalizing slots' ws with
  | nil =>
    rw [flushSlots] at hflush
    cases hflush
    simp
  | cons s slots ih =>
    rw [flushSlots] at hflush
    obtain ⟨b, ws₁, ws₂, hb, htail, hws⟩ := of_on_bind_ok hflush
    obtain ⟨rest, ws₃, ws₄, hrest, hdone, hws'⟩ := of_on_bind_ok htail
    cases hdone
    subst hws' hws
    have hfirst := hslot s (List.mem_cons_self ..) b ws₁ hb fun b hb => List.mem_append_left _ hb
    obtain ⟨hnumbers, hall⟩ := ih (fun s hs b ws' hb hws' =>
      hslot s (List.mem_cons_of_mem _ hs) b ws' hb fun b hb =>
        List.mem_append_right _ (List.mem_append_left _ (hws' b hb))) hrest
    refine ⟨by rw [List.map_cons, List.map_cons, hnumbers], ?_⟩
    intro s' hs'
    rcases List.mem_cons.mp hs' with rfl | hs'
    · exact hfirst
    · exact hall s' hs'

/-- A node that is written with all nodes below it stands for what it did before. -/
theorem holds_of_flushSlots (hp : p.Lawful) (hsub : Within view view') {slots' : Slots β}
    {ws : List Block} (h : Holds neat view p f height pre slots)
    (hflush : (flushSlots p slots).on view = (.ok slots', ws))
    (hws : ∀ b ∈ ws, view' b.cid = some b.data) :
    Holds neat view' p f height pre (stubs slots') := by
  induction height generalizing pre slots slots' ws with
  | zero => exact h.elim
  | succ height ih =>
    have hheld := h.slotsHold
    have hbranch : ∀ s ∈ slots, ∀ b ws', (flushBranch p s.2).on view = (.ok b, ws') →
        (∀ b ∈ ws', b ∈ ws) → BranchHolds neat view' p f (pre ++ [s.1])
          (Holds neat view' p f height (pre ++ [s.1])) (some b.stub) := by
      intro s hs b ws' hb hws'
      have hkept := (hheld s hs).imp hsub (fun _ _ => rfl) fun slots hslots => hslots.mono hsub
      obtain ⟨i, branch⟩ := s
      match branch with
      | .bucket entries | .link c =>
        rw [flushBranch] at hb
        cases hb
        exact hkept
      | .node (some c) inner =>
        rw [flushBranch] at hb
        cases hb
        exact hkept.2 c rfl
      | .node none inner =>
        -- a changed node is written after those below it
        rw [flushBranch] at hb
        obtain ⟨inner', ws₁, ws₂, hinner, hstore, hws₁⟩ := of_on_bind_ok hb
        obtain ⟨c, ws₃, ws₄, hc, hdone, hws₂⟩ := of_on_bind_ok hstore
        cases hdone
        subst hws₂ hws₁
        have hin {b : Block} (hb : b ∈ ws₁ ∨ b ∈ ws₃) : view' b.cid = some b.data := by
          refine hws b (hws' b ?_)
          simpa using hb
        have hheld' := ih (hheld _ hs).1 hinner fun b hb => hin (Or.inl hb)
        match height, hheld' with
        | height + 1, hheld' =>
          exact ⟨_, hheld'.plain.gives_loadNode hp hc fun b hb => hin (Or.inr hb), hheld'⟩
    obtain ⟨hnumbers, hslot⟩ := forall_of_flushSlots (fun i b => BranchHolds neat view' p f
      (pre ++ [i]) (Holds neat view' p f height (pre ++ [i])) (some b.stub)) hbranch hflush
    refine holds_stubs h hnumbers ?_
    intro s hs
    obtain ⟨s', hs', rfl⟩ := List.mem_map.mp hs
    exact hslot s' hs'

omit [Linking β] in
/-- Branches can be written if each of them can. -/
private theorem flushSlots_isOk_of_branches {slots : Slots β}
    (h : ∀ s ∈ slots, ∃ b ws, (flushBranch p s.2).on view = (.ok b, ws) ∧
      ∃ item, branchCbor? p b = some item) :
    ∃ slots' ws, (flushSlots p slots).on view = (.ok slots', ws) ∧
      ∀ s ∈ slots', ∃ item, branchCbor? p s.2 = some item := by
  induction slots with
  | nil => exact ⟨[], [], by rw [flushSlots]; rfl, by simp⟩
  | cons s slots ih =>
    obtain ⟨b, ws, hb, hitem⟩ := h s (List.mem_cons_self ..)
    obtain ⟨slots', ws', hslots', hitems⟩ := ih fun s hs => h s (List.mem_cons_of_mem _ hs)
    refine ⟨(s.1, b) :: slots', ws ++ (ws' ++ []), ?_, ?_⟩
    · rw [flushSlots, on_bind, hb]
      dsimp only
      rw [on_bind, hslots']
      rfl
    · intro s' hs'
      rcases List.mem_cons.mp hs' with rfl | hs'
      · exact hitem
      · exact hitems s' hs'

omit [Linking β] in
/-- So can the node above them. -/
private theorem storeNode_isOk {slots : Slots β}
    (h : ∀ s ∈ slots, ∃ item, branchCbor? p s.2 = some item) (view : View) :
    ∃ c ws, (storeNode p slots).on view = (.ok c, ws) := by
  obtain ⟨items, hitems⟩ := mapM_isSome h
  have hv : nodeCbor? p slots = some (.list [.bytes (bitField slots), .list items]) := by
    rw [nodeCbor?, hitems]
    rfl
  rw [storeNode, hv]
  exact ⟨_, _, rfl⟩

omit [Linking β] in
/-- Branches with values that can be written can be written. -/
private theorem flushSlots_isOk (h : Holds neat view p f height pre slots)
    (hwritable : ∀ key value, Under pre key → f key = some value → Writes p value) :
    ∃ slots' ws, (flushSlots p slots).on view = (.ok slots', ws) ∧
      ∀ s ∈ slots', ∃ item, branchCbor? p s.2 = some item := by
  induction height generalizing pre slots with
  | zero => exact h.elim
  | succ height ih =>
    refine flushSlots_isOk_of_branches fun s hs => ?_
    have hheld := h.slotsHold s hs
    obtain ⟨i, branch⟩ := s
    match branch with
    | .bucket entries =>
      have hentries : ∀ e ∈ entries, ∃ item, entryCbor? p e = some item := by
        intro e he
        obtain ⟨v, hv⟩ : Writes p e.2 := by
          rcases hheld.writes_or he with h | ⟨hunder, hvalue⟩
          · exact h
          · exact hwritable e.1 e.2 hunder.of_append hvalue
        exact ⟨_, by rw [entryCbor?, hv]; rfl⟩
      obtain ⟨items, hitems⟩ := mapM_isSome hentries
      exact ⟨_, _, by rw [flushBranch]; rfl, .list items, by rw [branchCbor?, hitems]; rfl⟩
    | .link c => exact ⟨_, _, by rw [flushBranch]; rfl, .link c, rfl⟩
    | .node (some c) inner => exact ⟨_, _, by rw [flushBranch]; rfl, .link c, rfl⟩
    | .node none inner =>
      obtain ⟨inner', ws, hinner, hitems⟩ := ih hheld.1
        fun key value hkey => hwritable key value hkey.of_append
      obtain ⟨c, ws', hstore⟩ := storeNode_isOk hitems view
      refine ⟨.node (some c) inner', ws ++ (ws' ++ []), ?_, .link c, rfl⟩
      rw [flushBranch, on_bind, hinner]
      dsimp only
      rw [on_bind, hstore]
      rfl

/-! ## Whole tries -/

/-- The trie stands for a map. -/
structure Represents (neat : Prop) (view : View) (p : Packing β) (f : Entries β) (m : Hamt β) :
    Prop where
  root : Holds neat view p f levels [] m.root
  stored : ∀ c, m.stored = some c → StoredAt view p c (Holds neat view p f levels [])

/-- A map is stored under an identifier. -/
abbrev Stores (neat : Prop) (view : View) (p : Packing β) (f : Entries β) (c : Cid) : Prop :=
  StoredAt view p c (Holds neat view p f levels [])

section

omit [Linking β]

/-- A trie stands for its map among more blocks, too. -/
theorem Represents.mono {m : Hamt β} (h : Represents neat view p f m) (hsub : Within view view') :
    Represents neat view' p f m := by
  refine ⟨h.root.mono hsub, fun c hc => ?_⟩
  exact (h.stored c hc).imp hsub fun _ hslots => hslots.mono hsub

/-- So does one that is stored. -/
theorem Stores.mono {c : Cid} (h : Stores neat view p f c) (hsub : Within view view') :
    Stores neat view' p f c := h.imp hsub fun _ hslots => hslots.mono hsub

theorem represents_empty (neat : Prop) (view : View) (p : Packing β) :
    Represents neat view p (fun _ => none) empty := by
  refine ⟨holds_nil neat view p 50 [], fun c hc => ?_⟩
  cases hc

/-- A trie that is stored is loaded as one that stands for the same map. -/
theorem Stores.gives_load {c : Cid} (h : Stores neat view p f c) :
    ∃ m, (load p c).Gives view m ∧ Represents neat view p f m := by
  obtain ⟨slots, hload, hslots⟩ := h
  refine ⟨⟨slots, some c⟩, hload.bind (gives_pure view _), hslots, fun c' hc' => ?_⟩
  obtain rfl := Option.some.inj hc'
  exact ⟨slots, hload, hslots⟩

/-- A key is looked up as in the map. -/
theorem Represents.gives_get? {m : Hamt β} (h : Represents neat view p f m) (key : Bytes) :
    ∃ m', (m.get? p key).Gives view (f key, m') ∧ Represents neat view p f m' := by
  have hroot : Holds neat view p f (path key).length [] m.root := by
    rw [length_path]
    exact h.root
  have hpath : path key = [] ++ path key := rfl
  obtain ⟨slots, hlookup, hslots⟩ := hroot.gives_lookup hpath
  rw [length_path] at hslots
  exact ⟨{ m with root := slots }, hlookup.bind (gives_pure view _), hslots, h.stored⟩

/-- A key is set if it is there or the trie is neat, unless too many keys have the same path then. -/
theorem Represents.set [DecidableEq β] {m : Hamt β} (h : Represents neat view p f m) {key : Bytes}
    (hshort : key.length < 2 ^ 64) (hnew : neat ∨ f key ≠ none) (value : β) :
    (∃ m', (m.set p key value).Gives view m' ∧
      Represents neat view p (Function.update f key (some value)) m') ∨
    (m.set p key value).Fails view ∧ f key = none ∧
      ¬Spread (Function.update f key (some value)) := by
  have hset : SetsKey neat view p f levels [] m.root (path key) key value :=
    h.root.insert rfl (length_path key) hshort hnew value
  rcases hset with ⟨⟨changed, slots⟩, hgives, hslots, hsame⟩ | ⟨hfails, hfull⟩
  · refine Or.inl ⟨_, hgives.bind (gives_pure view _), hslots, fun c hc => ?_⟩
    cases changed with
    | true => cases hc
    | false =>
      have heq : Function.update f key (some value) = f := by
        rw [← hsame rfl, Function.update_eq_self]
      rw [heq]
      exact h.stored c hc
  · exact Or.inr ⟨hfails.bind _, hfull⟩

/-- A neat trie that is stored has few keys with the same path. -/
theorem Stores.spread {c : Cid} (h : Stores neat view p f c) (hneat : neat) : Spread f := by
  obtain ⟨slots, -, hslots⟩ := h
  exact hslots.spread hneat

/-- A trie whose values can be written can be written. -/
theorem Represents.flush_isOk {m : Hamt β} (h : Represents neat view p f m)
    (hwritable : Writable p f) : ∃ c m' ws, (m.flush p).on view = (.ok (c, m'), ws) := by
  rw [flush]
  split
  · next c hc => exact ⟨c, m, [], rfl⟩
  · obtain ⟨slots, ws, hslots, hitems⟩ := flushSlots_isOk h.root
      fun key value _ => hwritable key value
    obtain ⟨c, ws', hstore⟩ := storeNode_isOk hitems view
    refine ⟨c, ⟨slots, some c⟩, ws ++ (ws' ++ []), ?_⟩
    rw [on_bind, hslots]
    dsimp only
    rw [on_bind, hstore]
    rfl

end

/-- The map is stored after the trie was written. -/
theorem Represents.of_flush (hp : p.Lawful) (hsub : Within view view') {m m' : Hamt β} {c : Cid}
    {ws : List Block} (h : Represents neat view p f m)
    (hflush : (m.flush p).on view = (.ok (c, m'), ws))
    (hws : ∀ b ∈ ws, view' b.cid = some b.data) : Stores neat view' p f c := by
  rw [flush] at hflush
  split at hflush
  · next c' hc' =>
    cases hflush
    exact Stores.mono (h.stored c hc') hsub
  · obtain ⟨slots, ws₁, ws₂, hslots, hrest, hws₁⟩ := of_on_bind_ok hflush
    obtain ⟨c', ws₃, ws₄, hstore, hdone, hws₂⟩ := of_on_bind_ok hrest
    cases hdone
    subst hws₂ hws₁
    have hheld : Holds neat view' p f (50 + 1) [] (stubs slots) :=
      holds_of_flushSlots hp hsub h.root hslots fun b hb => hws b (List.mem_append_left _ hb)
    refine ⟨_, hheld.plain.gives_loadNode hp hstore fun b hb => ?_, hheld⟩
    exact hws b (List.mem_append_right _ (List.mem_append_left _ hb))

/-- What is stored can be written. -/
theorem Stores.writable (hp : p.Lawful) {c : Cid} (h : Stores neat view p f c) : Writable p f := by
  intro key value hvalue
  have h' : StoredAt view p c (Holds neat view p f (path key).length []) := by
    rw [length_path]
    exact h
  exact writable_of_stored hp h' rfl hvalue

end ReplayVector.Hamt
