import ReplayVector.Proofs.State.Readable
import ReplayVector.Proofs.State.Canonical

/-!
# Tries that are written and read again

A trie that is put together by setting keys may be written in between, and go on from what was written
or from what is read again. Its nodes are in memory or in the store then, but it keeps its shape, and
what is in the store has the identifiers that it was written under. So a map has one identifier,
whatever the order in which its keys were set and whenever it was written.

* `Hamt.Regular`: what setting keys, writing and reading lead to.
* `ShapedMap.of_set`, `ShapedMap.of_get?`: steps in memory.
* `Regular.of_flush`, `RegularAt.gives_load`: writing and reading.
* `RegularAt.unique`: a map has one identifier.
-/

namespace ReplayVector.Hamt

open BlockM

variable {β : Type} {view : View} {p : Packing β} {f f' : Entries β} {height : Nat}
  {pre : List UInt8} {slots slots' : Slots β} {c c' : Cid} {ws : List Block}

-- ---------------------------------------------------------------------------
-- Names
-- ---------------------------------------------------------------------------

/-- The identifier is the one that the node is written under. -/
def Named (p : Packing β) (c : Cid) (slots : Slots β) : Prop :=
  ∃ v, nodeCbor? p slots = some v ∧ c = .ofDagCbor v.encode

/-- The node stored under an identifier is as given, and would be written under it again. -/
def NamedAt (view : View) (p : Packing β) (P : Slots β → Prop) (c : Cid) : Prop :=
  ∃ slots, (loadNode p c).Gives view slots ∧ Named p c slots ∧ P slots

theorem followsNodes_namedAt : FollowsNodes (NamedAt view p) := by
  rintro P P' c ⟨slots, hload, hnamed, hslots⟩ hP
  exact ⟨slots, hload, hnamed, hP slots hslots⟩

theorem leadsToNodes_namedAt : LeadsToNodes view p (NamedAt view p) := by
  rintro P c slots ws ⟨slots', hload, -, hslots'⟩ hon
  rw [hload] at hon
  cases hon
  exact hslots'

theorem Named.unique (h : Named p c slots) (h' : Named p c' slots) : c = c' := by
  obtain ⟨v, hv, rfl⟩ := h
  obtain ⟨v', hv', rfl⟩ := h'
  rw [hv] at hv'
  rw [Option.some.inj hv']

private theorem branchCbor?_stub (b : Branch β) : branchCbor? p b.stub = branchCbor? p b := by
  match b with
  | .bucket entries | .link c => rfl
  | .node none slots | .node (some c) slots => rfl

/-- A node is written as what is left of it. -/
private theorem nodeCbor?_stubs (slots : Slots β) :
    nodeCbor? p (stubs slots) = nodeCbor? p slots := by
  have hfield : bitField (stubs slots) = bitField slots := by
    have hnumbers := congrArg (List.map fun i : UInt8 => 2 ^ i.toNat) (map_stubs slots)
    rw [List.map_map, List.map_map] at hnumbers
    exact congrArg (fun l => Bytes.magnitude l.sum) hnumbers
  have hbranches : ((stubs slots).mapM fun s => branchCbor? p s.2) =
      slots.mapM fun s => branchCbor? p s.2 := by
    rw [stubs, List.mapM_map]
    exact congrArg (fun k => slots.mapM k) (funext fun s => branchCbor?_stub s.2)
  rw [nodeCbor?, nodeCbor?, hfield, hbranches]

variable [Linking β]

/-- A node that was written is stored under its name. -/
private theorem namedAt_of_storeNode (hp : p.Lawful) {P : Slots β → Prop}
    (h : Holds True view p f (height + 1) pre (stubs slots)) (hP : P (stubs slots))
    (hstore : (storeNode p slots).on view = (.ok c, ws))
    (hws : ∀ b ∈ ws, view b.cid = some b.data) : NamedAt view p P c := by
  refine ⟨_, h.plain.gives_loadNode hp hstore hws, ?_, hP⟩
  rw [storeNode] at hstore
  cases hv : nodeCbor? p slots with
  | none =>
    rw [hv] at hstore
    cases hstore
  | some v =>
    rw [hv] at hstore
    cases hstore
    exact ⟨v, (nodeCbor?_stubs slots).trans hv, rfl⟩

-- ---------------------------------------------------------------------------
-- Writing
-- ---------------------------------------------------------------------------

/-- The branch after it was written, in memory and in the store. -/
private structure FlushedBranch (view : View) (p : Packing β) (f : Entries β) (height : Nat)
    (pre : List UInt8) (b : Branch β) : Prop where
  holds : BranchHolds True view p f pre (Holds True view p f height pre) (some b)
  shaped : BranchShaped (NamedAt view p) f pre (Shaped (NamedAt view p) f height pre) b
  stub : BranchShaped (NamedAt view p) f pre (Shaped (NamedAt view p) f height pre) b.stub

/-- The node after it was written with all nodes below it, in memory and in the store. -/
private structure FlushedSlots (view : View) (p : Packing β) (f : Entries β) (height : Nat)
    (pre : List UInt8) (slots : Slots β) : Prop where
  holds : Holds True view p f height pre slots
  shaped : Shaped (NamedAt view p) f height pre slots
  stubs : Shaped (NamedAt view p) f height pre (stubs slots)

/-- Flushing writes the nodes below a node before the node, so that each link leads to the node that it
stands for. -/
private theorem flushedSlots_of_flushSlots (hp : p.Lawful)
    (h : Holds True view p f height pre slots)
    (hshaped : Shaped (NamedAt view p) f height pre slots)
    (hflush : (flushSlots p slots).on view = (.ok slots', ws))
    (hws : ∀ b ∈ ws, view b.cid = some b.data) : FlushedSlots view p f height pre slots' := by
  induction height generalizing pre slots slots' ws with
  | zero => exact h.elim
  | succ height ih =>
    have hheld := h.slotsHold
    have hbranch : ∀ s ∈ slots, ∀ b ws', (flushBranch p s.2).on view = (.ok b, ws') →
        (∀ b ∈ ws', b ∈ ws) → FlushedBranch view p f height (pre ++ [s.1]) b := by
      intro s hs b ws' hb hws'
      have hkept := hheld s hs
      have hkept' := hshaped s hs
      obtain ⟨i, branch⟩ := s
      match branch with
      | .bucket entries | .link c =>
        rw [flushBranch] at hb
        cases hb
        exact ⟨hkept, hkept', hkept'⟩
      | .node (some c) inner =>
        rw [flushBranch] at hb
        cases hb
        exact ⟨hkept, hkept', hkept'.1, hkept'.2.2 c rfl⟩
      | .node none inner =>
        -- a changed node is written after those below it
        rw [flushBranch] at hb
        obtain ⟨inner', ws₁, ws₂, hinner, hstore, hws₁⟩ := of_on_bind_ok hb
        obtain ⟨c, ws₃, ws₄, hc, hdone, hws₂⟩ := of_on_bind_ok hstore
        cases hdone
        subst hws₂ hws₁
        have hin {b : Block} (hb : b ∈ ws₁ ∨ b ∈ ws₃) : view b.cid = some b.data := by
          refine hws b (hws' b ?_)
          simpa using hb
        obtain ⟨hover, hinner', -⟩ := hkept'
        have hflushed := ih hkept.1 hinner' hinner fun b hb => hin (Or.inl hb)
        have hstubs := holds_of_flushSlots hp (.refl view) hkept.1 hinner
          fun b hb => hin (Or.inl hb)
        match height, hflushed, hstubs with
        | height + 1, hflushed, hstubs =>
          have hnamed := namedAt_of_storeNode hp hstubs hflushed.stubs hc
            fun b hb => hin (Or.inr hb)
          have hstored := hstubs.plain.gives_loadNode hp hc fun b hb => hin (Or.inr hb)
          refine ⟨⟨hflushed.holds, fun c' hc' => ?_⟩, ⟨hover, hflushed.shaped, fun c' hc' => ?_⟩,
            hover, hnamed⟩
          · exact Option.some.inj hc' ▸ ⟨_, hstored, hstubs⟩
          · exact Option.some.inj hc' ▸ hnamed
    obtain ⟨hnumbers, hall⟩ := forall_of_flushSlots
      (fun i b => FlushedBranch view p f height (pre ++ [i]) b) hbranch hflush
    refine ⟨h.of_slotsHold hnumbers fun s hs => (hall s hs).holds, fun s hs => (hall s hs).shaped, ?_⟩
    intro s hs
    obtain ⟨s', hs', rfl⟩ := List.mem_map.mp hs
    exact (hall s' hs').stub

-- ---------------------------------------------------------------------------
-- Whole tries
-- ---------------------------------------------------------------------------

/-- The trie came of setting keys of the map. -/
structure ShapedMap (view : View) (p : Packing β) (f : Entries β) (m : Hamt β) : Prop where
  root : Shaped (NamedAt view p) f levels [] m.root
  stored : ∀ c, m.stored = some c → NamedAt view p (Shaped (NamedAt view p) f levels []) c

/-- The trie stands for a map, and came of setting its keys in the empty one, whenever it was written
and read again. -/
structure Regular (view : View) (p : Packing β) (f : Entries β) (m : Hamt β) : Prop where
  represents : Represents True view p f m
  shaped : ShapedMap view p f m

/-- Such a trie is stored under the identifier. -/
structure RegularAt (view : View) (p : Packing β) (f : Entries β) (c : Cid) : Prop where
  stores : Stores True view p f c
  named : NamedAt view p (Shaped (NamedAt view p) f levels []) c

section

omit [Linking β]

variable {m m' : Hamt β}

theorem shapedMap_empty (view : View) (p : Packing β) (f : Entries β) :
    ShapedMap view p f (empty : Hamt β) := by
  refine ⟨shaped_nil _ f levels [], fun c hc => ?_⟩
  cases hc

theorem ShapedMap.mono (h : ShapedMap view p f m) (hsub : ∀ key, f key ≠ none → f' key ≠ none) :
    ShapedMap view p f' m where
  root := h.root.mono followsNodes_namedAt hsub
  stored := fun c hc => followsNodes_namedAt (h.stored c hc) fun _ hslots =>
    hslots.mono followsNodes_namedAt hsub

/-- Setting a key of the map keeps the shape. -/
theorem ShapedMap.of_set [DecidableEq β] (h : ShapedMap view p f m) {key : Bytes}
    (hkey : f key ≠ none) {value : β} (hset : (m.set p key value).on view = (.ok m', ws)) :
    ShapedMap view p f m' := by
  obtain ⟨r, ws₁, ws₂, hinsert, hdone, -⟩ := of_on_bind_ok hset
  cases hdone
  refine ⟨h.root.of_insert leadsToNodes_namedAt rfl (length_path key) hkey hinsert, fun c hc => ?_⟩
  split at hc
  · cases hc
  · exact h.stored c hc

theorem ShapedMap.of_get? (h : ShapedMap view p f m) {key : Bytes} {found : Option β}
    (hget : (m.get? p key).on view = (.ok (found, m'), ws)) : ShapedMap view p f m' := by
  obtain ⟨r, ws₁, ws₂, hlookup, hdone, -⟩ := of_on_bind_ok hget
  cases hdone
  exact ⟨h.root.of_lookup leadsToNodes_namedAt (length_path key) hlookup, h.stored⟩

/-- What is read under an identifier goes on as it was written. -/
theorem RegularAt.gives_load (h : RegularAt view p f c) :
    ∃ m, (load p c).Gives view m ∧ Regular view p f m := by
  obtain ⟨slots, hload, hnamed, hslots⟩ := h.named
  obtain ⟨slots', hload', hslots'⟩ := h.stores
  obtain rfl := hload.unique hload'
  refine ⟨⟨slots, some c⟩, hload.bind (gives_pure view _), ⟨hslots', fun c' hc' => ?_⟩, hslots,
    fun c' hc' => ?_⟩
  · exact Option.some.inj hc' ▸ h.stores
  · exact Option.some.inj hc' ▸ h.named

end

/-- Writing keeps the shape, and leaves the map under an identifier. -/
theorem Regular.of_flush (hp : p.Lawful) {m m' : Hamt β} (h : Regular view p f m)
    (hflush : (m.flush p).on view = (.ok (c, m'), ws)) (hws : ∀ b ∈ ws, view b.cid = some b.data) :
    Regular view p f m' ∧ RegularAt view p f c := by
  have hstores : Stores True view p f c := h.represents.of_flush hp (.refl view) hflush hws
  rw [flush] at hflush
  split at hflush
  · next c' hc' =>
    cases hflush
    exact ⟨h, hstores, h.shaped.stored _ hc'⟩
  · obtain ⟨root, ws₁, ws₂, hslots, hrest, hws₁⟩ := of_on_bind_ok hflush
    obtain ⟨c', ws₃, ws₄, hstore, hdone, hws₂⟩ := of_on_bind_ok hrest
    cases hdone
    subst hws₂ hws₁
    have hfirst : ∀ b ∈ ws₁, view b.cid = some b.data := fun b hb => hws b (by simp [hb])
    have hflushed : FlushedSlots view p f (50 + 1) [] root :=
      flushedSlots_of_flushSlots hp h.represents.root h.shaped.root hslots hfirst
    have hstubs : Holds True view p f (50 + 1) [] (stubs root) :=
      holds_of_flushSlots hp (.refl view) h.represents.root hslots hfirst
    have hnamed : NamedAt view p (Shaped (NamedAt view p) f levels []) c :=
      namedAt_of_storeNode hp hstubs hflushed.stubs hstore fun b hb => hws b (by simp [hb])
    refine ⟨⟨⟨hflushed.holds, fun c' hc' => ?_⟩, hflushed.shaped, fun c' hc' => ?_⟩, hstores, hnamed⟩
    · exact Option.some.inj hc' ▸ hstores
    · exact Option.some.inj hc' ▸ hnamed

-- ---------------------------------------------------------------------------
-- One identifier for a map
-- ---------------------------------------------------------------------------

/-- A node that was read has links and buckets only. -/
private theorem eq_link_of_gives_loadNode (hp : p.Lawful) (h : (loadNode p c).Gives view slots)
    {i : UInt8} {b : Branch β} (hb : find? i slots = some b) (hne : ∀ entries, b ≠ .bucket entries) :
    ∃ c', b = .link c' := by
  obtain ⟨-, data, v, -, hv, hslots⟩ := of_gives_readAs h
  rcases branch_of_nodeOf? hp hv hslots (mem_of_find? hb) with hlink | ⟨entries, heq, -⟩
  · exact hlink
  · exact absurd heq (hne entries)

/-- What a map has under some numbers is stored under one identifier. -/
private theorem NamedAt.unique (hp : p.Lawful)
    (h : NamedAt view p (Shaped (NamedAt view p) f height pre) c)
    (h' : NamedAt view p (Shaped (NamedAt view p) f height pre) c')
    (hstored : StoredAt view p c (Holds True view p f height pre))
    (hstored' : StoredAt view p c' (Holds True view p f height pre)) : c = c' := by
  -- from the bottom up: nodes with the same links and buckets are written alike
  induction height generalizing pre c c' with
  | zero =>
    obtain ⟨slots, -, hslots⟩ := hstored
    exact hslots.elim
  | succ height ih =>
    obtain ⟨slots, hload, hnamed, hshaped⟩ := h
    obtain ⟨slots', hload', hnamed', hshaped'⟩ := h'
    obtain ⟨_, hload₂, hslots⟩ := hstored
    obtain ⟨_, hload₂', hslots'⟩ := hstored'
    obtain rfl := hload.unique hload₂
    obtain rfl := hload'.unique hload₂'
    have hsame : slots = slots' := by
      refine hslots.1.sorted.eq_of_find? hslots'.1.sorted fun i => ?_
      refine BranchShaped.unique (fun b hb => hshaped.branch hb) (fun b hb => hshaped'.branch hb)
        (hslots.2 i) (hslots'.2 i) fun b hb b' hb' hne hne' => ?_
      obtain ⟨d, rfl⟩ := eq_link_of_gives_loadNode hp hload hb hne
      obtain ⟨d', rfl⟩ := eq_link_of_gives_loadNode hp hload' hb' hne'
      have hi := hslots.2 i
      have hi' := hslots'.2 i
      rw [hb] at hi
      rw [hb'] at hi'
      rw [ih (hshaped.branch hb).2 (hshaped'.branch hb').2 hi hi']
    subst hsame
    exact hnamed.unique hnamed'

/-- A map has one identifier. -/
theorem RegularAt.unique (hp : p.Lawful) (h : RegularAt view p f c) (h' : RegularAt view p f c') :
    c = c' := h.named.unique hp h'.named h.stores h'.stores

end ReplayVector.Hamt
