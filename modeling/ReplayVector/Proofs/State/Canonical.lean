import ReplayVector.Proofs.State.Maps

/-!
# The shape of tries

A trie that is put together by setting keys has one shape, whatever the order in which they are set.
The keys under some numbers stand in one bucket, in order, as long as a bucket has room for them, and
have a node of their own otherwise. Whether a link may stand for that node is left open at first, as
long as it says as much as the node itself. In a trie that was put together from nothing, and never
written, there are no links. So two such tries that stand for the same map are the same, down to the
identifiers that they are written under.

* `Hamt.Shaped`: the shape of what was put together.
* `Shaped.of_insert`, `Shaped.of_lookup`: setting a key keeps the shape, and so does looking one up.
* `BranchShaped.unique`: branches of the shape differ in how they stand for a node only.
* `Hamt.Grown`: the shape of what was put together from nothing.
* `Canonical.unique`: there is one such trie for a map.
-/

namespace ReplayVector.Hamt

open BlockM

variable {β : Type} {view view' : View} {p : Packing β} {f f' : Entries β} {height : Nat}
  {pre : List UInt8} {slots slots' : Slots β}

-- ---------------------------------------------------------------------------
-- Sorted lists
-- ---------------------------------------------------------------------------

/-- Lists that are sorted by their keys are the same if they have the same entries. -/
private theorem eq_of_mem_iff {κ α : Type} [LT κ] [Std.Asymm (α := κ) (· < ·)]
    {l l' : List (κ × α)} (h : l.Pairwise fun e e' => e.1 < e'.1)
    (h' : l'.Pairwise fun e e' => e.1 < e'.1) (hmem : ∀ e, e ∈ l ↔ e ∈ l') : l = l' := by
  have hasymm {a b : κ} (hab : a < b) (hba : b < a) : False := Std.Asymm.asymm a b hab hba
  have hne {e e' : κ × α} (hlt : e.1 < e'.1) : e ≠ e' := fun heq =>
    hasymm hlt (heq ▸ hlt)
  refine List.Perm.eq_of_pairwise (fun e e' _ _ hlt hgt => (hasymm hlt hgt).elim) h h' ?_
  rw [List.perm_ext_iff_of_nodup (h.imp hne) (h'.imp hne)]
  exact hmem

/-- Nodes with the same branches are the same. -/
theorem Sorted.eq_of_find? (h : Sorted slots) (h' : Sorted slots')
    (heq : ∀ i, find? i slots = find? i slots') : slots = slots' := by
  refine eq_of_mem_iff h h' fun s => ⟨fun hs => ?_, fun hs => ?_⟩
  · exact mem_of_find? ((heq s.1).symm.trans (find?_of_mem h hs))
  · exact mem_of_find? ((heq s.1).trans (find?_of_mem h' hs))

/-- An entry for a new key goes where the order has it. -/
theorem pairwise_addEntry {key : Bytes} (value : β) {entries : List (Bytes × β)}
    (h : entries.Pairwise fun e e' => e.1 < e'.1) (hnew : key ∉ entries.map (·.1)) :
    (addEntry key value entries).Pairwise fun e e' => e.1 < e'.1 := by
  induction entries with
  | nil => exact List.pairwise_singleton _ _
  | cons e entries ih =>
    obtain ⟨hfirst, hrest⟩ := List.pairwise_cons.mp h
    rw [List.map_cons, List.mem_cons, not_or] at hnew
    rw [addEntry]
    split
    · next hlt =>
      refine List.pairwise_cons.mpr ⟨fun e' he' => ?_, h⟩
      rcases List.mem_cons.mp he' with rfl | he'
      · exact hlt
      · exact List.lt_trans hlt (hfirst e' he')
    · next hge =>
      refine List.pairwise_cons.mpr ⟨fun e' he' => ?_, ih hrest hnew.2⟩
      rcases (mem_addEntry key value entries).2 e' he' with rfl | he'
      · exact Std.lt_of_le_of_ne hge (Ne.symm hnew.1)
      · exact hfirst e' he'

-- ---------------------------------------------------------------------------
-- Buckets
-- ---------------------------------------------------------------------------

/-- Too many keys for a bucket have paths that begin with the numbers. -/
def Overflows (f : Entries β) (pre : List UInt8) : Prop :=
  ∃ keys : List Bytes, keys.Nodup ∧ (∀ k ∈ keys, Under pre k ∧ f k ≠ none) ∧
    bucketSize < keys.length

/-- A bucket that came of adding entries to an empty one, all of them under the numbers. -/
structure GrownBucket (f : Entries β) (pre : List UInt8) (entries : List (Bytes × β)) : Prop where
  ne_nil : entries ≠ []
  sorted : entries.Pairwise fun e e' => e.1 < e'.1
  mem : ∀ e ∈ entries, Under pre e.1 ∧ f e.1 ≠ none

/-- A bucket overflows when there are more keys, too. -/
theorem Overflows.mono (h : Overflows f pre) (hsub : ∀ key, f key ≠ none → f' key ≠ none) :
    Overflows f' pre := by
  obtain ⟨keys, hnodup, hkeys, hlt⟩ := h
  exact ⟨keys, hnodup, fun k hk => ⟨(hkeys k hk).1, hsub k (hkeys k hk).2⟩, hlt⟩

theorem GrownBucket.mono {entries : List (Bytes × β)} (h : GrownBucket f pre entries)
    (hsub : ∀ key, f key ≠ none → f' key ≠ none) : GrownBucket f' pre entries := by
  refine { h with mem := fun e he => ?_ }
  obtain ⟨hunder, hkey⟩ := h.mem e he
  exact ⟨hunder, hsub e.1 hkey⟩

section

variable {key : Bytes} {value : β} {entries : List (Bytes × β)}

/-- A bucket starts with one entry. -/
theorem grownBucket_singleton (hunder : Under pre key) (hkey : f key ≠ none) :
    GrownBucket f pre [(key, value)] where
  ne_nil := by simp
  sorted := List.pairwise_singleton _ _
  mem := by
    intro e he
    rw [List.mem_singleton.mp he]
    exact ⟨hunder, hkey⟩

/-- It keeps its shape when an entry changes. -/
theorem GrownBucket.set (h : GrownBucket f pre entries) (hunder : Under pre key)
    (hkey : f key ≠ none) : GrownBucket f pre (setEntry key value entries) where
  ne_nil := by
    rw [← List.length_pos_iff, (mem_setEntry key value entries).1]
    exact List.length_pos_iff.mpr h.ne_nil
  sorted := by
    have hkeys := List.pairwise_map.mpr h.sorted
    rw [← map_setEntry key value entries] at hkeys
    exact List.pairwise_map.mp hkeys
  mem := by
    intro e he
    rcases (mem_setEntry key value entries).2 e he with rfl | he
    · exact ⟨hunder, hkey⟩
    · exact h.mem e he

/-- And when one is added. -/
theorem GrownBucket.add (h : GrownBucket f pre entries) (hunder : Under pre key)
    (hkey : f key ≠ none) (hnone : entries.lookup key = none) :
    GrownBucket f pre (addEntry key value entries) where
  ne_nil := by
    have hlen := (mem_addEntry key value entries).1
    exact List.length_pos_iff.mp (by omega)
  sorted := pairwise_addEntry value h.sorted (lookup_eq_none.mp hnone)
  mem := by
    intro e he
    rcases (mem_addEntry key value entries).2 e he with rfl | he
    · exact ⟨hunder, hkey⟩
    · exact h.mem e he

/-- A full bucket and a further key are too many for one bucket. -/
theorem GrownBucket.overflows (h : GrownBucket f pre entries) (hunder : Under pre key)
    (hkey : f key ≠ none) (hnone : entries.lookup key = none)
    (hfull : ¬entries.length < bucketSize) : Overflows f pre := by
  have hne {e e' : Bytes × β} (hlt : e.1 < e'.1) : e.1 ≠ e'.1 := by
    intro heq
    rw [heq] at hlt
    exact List.lt_irrefl _ hlt
  have hnodup : (entries.map (·.1)).Nodup := List.pairwise_map.mpr (h.sorted.imp hne)
  refine ⟨key :: entries.map (·.1), List.nodup_cons.mpr ⟨lookup_eq_none.mp hnone, hnodup⟩, ?_, ?_⟩
  · intro k hk
    rcases List.mem_cons.mp hk with rfl | hk
    · exact ⟨hunder, hkey⟩
    · obtain ⟨e, he, rfl⟩ := List.mem_map.mp hk
      exact h.mem e he
  · rw [List.length_cons, List.length_map]
    omega

end

/-- A bucket has room for all keys under its numbers. -/
private theorem BucketHolds.not_overflows {entries : List (Bytes × β)}
    (h : BucketHolds True p f pre entries) : ¬Overflows f pre := by
  rintro ⟨keys, hnodup, hkeys, hlt⟩
  have hsub : keys ⊆ entries.map (·.1) := by
    intro k hk
    obtain ⟨hunder, hne⟩ := hkeys k hk
    rw [h.lookup k hunder] at hne
    exact Classical.byContradiction fun hnotin => hne (lookup_eq_none.mpr hnotin)
  have hcount := hnodup.length_le_of_subset hsub
  rw [List.length_map] at hcount
  have hroom := (h.neat trivial).length_le
  omega

/-- Buckets that have the entries of the same keys are the same. -/
private theorem GrownBucket.unique {entries entries' : List (Bytes × β)}
    (h : GrownBucket f pre entries) (h' : GrownBucket f pre entries')
    (hb : BucketHolds True p f pre entries) (hb' : BucketHolds True p f pre entries') :
    entries = entries' := by
  have hmem {es es' : List (Bytes × β)} (h : GrownBucket f pre es)
      (hb : BucketHolds True p f pre es) (hb' : BucketHolds True p f pre es') {e : Bytes × β}
      (he : e ∈ es) : e ∈ es' := by
    have hlookup := hb'.lookup e.1 (h.mem e he).1
    rw [hb.eq_some trivial he] at hlookup
    exact mem_of_lookup hlookup.symm
  exact eq_of_mem_iff h.sorted h'.sorted fun e => ⟨hmem h hb hb', hmem h' hb' hb⟩

-- ---------------------------------------------------------------------------
-- The shape
-- ---------------------------------------------------------------------------

/-- What is said of a link follows from what is said of the node behind it. -/
def FollowsNodes (linked : (Slots β → Prop) → Cid → Prop) : Prop :=
  ∀ {P P' : Slots β → Prop} {c : Cid}, linked P c → (∀ slots, P slots → P' slots) → linked P' c

/-- What is said of a link is true of the node that is read for it. -/
def LeadsToNodes (view : View) (p : Packing β) (linked : (Slots β → Prop) → Cid → Prop) : Prop :=
  ∀ {P : Slots β → Prop} {c : Cid} {slots : Slots β} {ws : List Block}, linked P c →
    (loadNode p c).on view = (.ok slots, ws) → P slots

/-- A branch that came of setting keys: there is a node, or a link to one, only for want of room in a
bucket. -/
def BranchShaped (linked : (Slots β → Prop) → Cid → Prop) (f : Entries β) (pre : List UInt8)
    (P : Slots β → Prop) : Branch β → Prop
  | .bucket entries => GrownBucket f pre entries
  | .link c => Overflows f pre ∧ linked P c
  | .node stored slots => Overflows f pre ∧ P slots ∧ ∀ c, stored = some c → linked P c

/-- The node came of setting keys of the map. -/
def Shaped (linked : (Slots β → Prop) → Cid → Prop) (f : Entries β) :
    Nat → List UInt8 → Slots β → Prop
  | 0, _, _ => True
  | height + 1, pre, slots =>
    ∀ s ∈ slots, BranchShaped linked f (pre ++ [s.1]) (Shaped linked f height (pre ++ [s.1])) s.2

variable {linked linked' : (Slots β → Prop) → Cid → Prop} {P P' : Slots β → Prop} {b : Branch β}

theorem shaped_nil (linked : (Slots β → Prop) → Cid → Prop) (f : Entries β) (height : Nat)
    (pre : List UInt8) : Shaped linked f height pre [] := by
  cases height with
  | zero => trivial
  | succ height => exact fun s hs => by cases hs

/-- The shape of a branch lasts when keys are added. -/
theorem BranchShaped.imp (h : BranchShaped linked f pre P b) (hlinked : FollowsNodes linked)
    (hsub : ∀ key, f key ≠ none → f' key ≠ none) (hP : ∀ slots, P slots → P' slots) :
    BranchShaped linked f' pre P' b := by
  match b, h with
  | .bucket entries, h => exact GrownBucket.mono h hsub
  | .link c, ⟨hover, hc⟩ => exact ⟨hover.mono hsub, hlinked hc hP⟩
  | .node stored slots, ⟨hover, hslots, hstored⟩ =>
    exact ⟨hover.mono hsub, hP slots hslots, fun c hc => hlinked (hstored c hc) hP⟩

/-- The shape fits maps with more keys. -/
theorem Shaped.mono (h : Shaped linked f height pre slots) (hlinked : FollowsNodes linked)
    (hsub : ∀ key, f key ≠ none → f' key ≠ none) : Shaped linked f' height pre slots := by
  induction height generalizing pre slots with
  | zero => trivial
  | succ height ih => exact fun s hs => (h s hs).imp hlinked hsub fun _ hslots => ih hslots

/-- The branches of a node with that shape have it. -/
theorem Shaped.branch (h : Shaped linked f (height + 1) pre slots) {i : UInt8}
    (hb : find? i slots = some b) :
    BranchShaped linked f (pre ++ [i]) (Shaped linked f height (pre ++ [i])) b :=
  h (i, b) (mem_of_find? hb)

/-- A branch with that shape may be put. -/
theorem Shaped.put (h : Shaped linked f (height + 1) pre slots) {i : UInt8}
    (hb : BranchShaped linked f (pre ++ [i]) (Shaped linked f height (pre ++ [i])) b) :
    Shaped linked f (height + 1) pre (put i b slots) := by
  intro s hs
  rcases mem_put hs with rfl | hs
  · exact hb
  · exact h s hs

/-- Looking a key up reads nodes of the shape. -/
theorem Shaped.of_lookup (h : Shaped linked f height pre slots) (hlinked : LeadsToNodes view p linked)
    {key : Bytes} {rest : List UInt8} (hlen : rest.length = height) {r : Option β × Slots β}
    {ws : List Block} (hlookup : (lookup p key rest slots).on view = (.ok r, ws)) :
    Shaped linked f height pre r.2 := by
  induction rest generalizing height pre slots r ws with
  | nil => cases hlookup
  | cons i rest ih =>
    subst hlen
    rw [lookup] at hlookup
    cases hb : find? i slots with
    | none =>
      rw [hb] at hlookup
      cases hlookup
      exact h
    | some b =>
      have hshaped := h.branch hb
      rw [hb] at hlookup
      cases b with
      | bucket entries =>
        cases hlookup
        exact h
      | link c =>
        obtain ⟨inner, ws₁, ws₂, hload, htail, -⟩ := of_on_bind_ok hlookup
        obtain ⟨r', ws₃, ws₄, hinner, hdone, -⟩ := of_on_bind_ok htail
        cases hdone
        obtain ⟨hover, hc⟩ := hshaped
        refine h.put ⟨hover, ih (hlinked hc hload) rfl hinner, fun c' hc' => ?_⟩
        exact Option.some.inj hc' ▸ hc
      | node stored inner =>
        obtain ⟨r', ws₁, ws₂, hinner, hdone, -⟩ := of_on_bind_ok hlookup
        cases hdone
        obtain ⟨hover, hP, hstored⟩ := hshaped
        exact h.put ⟨hover, ih hP rfl hinner, hstored⟩

section

variable [DecidableEq β] {key : Bytes} {value : β} {entries : List (Bytes × β)}

/-- Entries are set one after the other in a node where each can be set. -/
private theorem Shaped.of_foldlM (hlevel : pre.length + height = levels)
    (hset : ∀ slots, Shaped linked f height pre slots → ∀ key rest value, path key = pre ++ rest →
      rest.length = height → f key ≠ none → ∀ r ws,
        (insert p height rest key value slots).on view = (.ok r, ws) → Shaped linked f height pre r.2)
    (hentries : ∀ e ∈ entries, Under pre e.1 ∧ f e.1 ≠ none) (h : Shaped linked f height pre slots)
    {ws : List Block} (hfold : (entries.foldlM (fun inner (k, v) => do
        let (_, inner) ← insert p height ((path k).drop (levels - height)) k v inner
        return inner) slots).on view = (.ok slots', ws)) : Shaped linked f height pre slots' := by
  induction entries generalizing slots ws with
  | nil =>
    cases hfold
    exact h
  | cons e entries ih =>
    rw [List.foldlM_cons] at hfold
    obtain ⟨inner, ws₁, ws₂, hstep, hrest, -⟩ := of_on_bind_ok hfold
    obtain ⟨r, ws₃, ws₄, hinsert, hdone, -⟩ := of_on_bind_ok hstep
    cases hdone
    obtain ⟨hunder, hkey⟩ := hentries e (List.mem_cons_self ..)
    obtain ⟨hpath, hlen⟩ := hunder.path_eq hlevel
    have hinner := hset slots h e.1 _ e.2 hpath hlen hkey r ws₃ hinsert
    exact ih (fun e' he' => hentries e' (List.mem_cons_of_mem _ he')) hinner hrest

/-- Setting a key of the map keeps the shape. -/
theorem Shaped.of_insert (h : Shaped linked f height pre slots) (hlinked : LeadsToNodes view p linked)
    {rest : List UInt8} (hpath : path key = pre ++ rest) (hlen : rest.length = height)
    (hkey : f key ≠ none) {r : Bool × Slots β} {ws : List Block}
    (hset : (insert p height rest key value slots).on view = (.ok r, ws)) :
    Shaped linked f height pre r.2 := by
  -- by induction on the height, along the path of the key
  induction height generalizing pre slots key rest value r ws with
  | zero => trivial
  | succ height ih =>
    match rest, hlen with
    | i :: rest, hlen =>
    have hbelow : path key = (pre ++ [i]) ++ rest := hpath.trans (List.append_cons ..)
    have hunder : Under (pre ++ [i]) key := ⟨rest, hbelow.symm⟩
    have hlen' : rest.length = height := Nat.succ.inj hlen
    rw [Hamt.insert] at hset
    -- by what stands in the branch that the path goes through
    cases hb : find? i slots with
    | none =>
      rw [hb] at hset
      cases hset
      exact h.put (grownBucket_singleton hunder hkey)
    | some b =>
      have hshaped := h.branch hb
      rw [hb] at hset
      cases b with
      | bucket entries =>
        have hbucket : GrownBucket f (pre ++ [i]) entries := hshaped
        dsimp only at hset
        cases hfound : entries.lookup key with
        | some old =>
          rw [hfound] at hset
          dsimp only at hset
          split at hset
          · cases hset
            exact h
          · cases hset
            exact h.put (hbucket.set hunder hkey)
        | none =>
          rw [hfound] at hset
          dsimp only at hset
          split at hset
          · cases hset
            exact h.put (hbucket.add hunder hkey hfound)
          · next hfull =>
            -- the entries of a full bucket move to a new node, after the key
            obtain ⟨r₁, ws₁, ws₂, hfirst, htail, -⟩ := of_on_bind_ok hset
            obtain ⟨inner, ws₃, ws₄, hfold, hdone, -⟩ := of_on_bind_ok htail
            cases hdone
            have hfirst' := ih (shaped_nil linked f height _) hbelow hlen' hkey hfirst
            have hlevel : (pre ++ [i]).length + height = levels := by
              rw [← length_path key, hbelow, ← hlen']
              exact List.length_append.symm
            have hinner := hfirst'.of_foldlM hlevel
              (fun _ hslots _ _ _ hpath hlen hkey _ _ => ih hslots hpath hlen hkey) hbucket.mem
              hfold
            exact h.put ⟨hbucket.overflows hunder hkey hfound hfull, hinner,
              fun c hc => (by cases hc)⟩
      | link c =>
        obtain ⟨inner, ws₁, ws₂, hload, htail, -⟩ := of_on_bind_ok hset
        obtain ⟨r₁, ws₃, ws₄, hinsert, hdone, -⟩ := of_on_bind_ok htail
        cases hdone
        obtain ⟨hover, hc⟩ := hshaped
        refine h.put ⟨hover, ih (hlinked hc hload) hbelow hlen' hkey hinsert, fun c' hc' => ?_⟩
        split at hc'
        · cases hc'
        · exact Option.some.inj hc' ▸ hc
      | node stored inner =>
        obtain ⟨r₁, ws₁, ws₂, hinsert, hdone, -⟩ := of_on_bind_ok hset
        cases hdone
        obtain ⟨hover, hP, hstored⟩ := hshaped
        refine h.put ⟨hover, ih hP hbelow hlen' hkey hinsert, fun c hc => ?_⟩
        split at hc
        · cases hc
        · exact hstored c hc

end

-- ---------------------------------------------------------------------------
-- One shape for a map
-- ---------------------------------------------------------------------------

/-- There is something else than a bucket only for want of room. -/
private theorem BranchShaped.overflows (h : BranchShaped linked f pre P b)
    (hb : ∀ entries, b ≠ .bucket entries) : Overflows f pre := by
  match b, h with
  | .bucket entries, _ => exact absurd rfl (hb entries)
  | .link c, h => exact h.1
  | .node stored slots, h => exact h.1

/-- A branch is there for some key. -/
private theorem BranchShaped.exists_key (h : BranchShaped linked f pre P b) :
    ∃ key, Under pre key ∧ f key ≠ none := by
  by_cases hb : ∃ entries, b = .bucket entries
  · obtain ⟨entries, rfl⟩ := hb
    have hbucket : GrownBucket f pre entries := h
    obtain ⟨e, he⟩ := List.exists_mem_of_ne_nil entries hbucket.ne_nil
    exact ⟨e.1, hbucket.mem e he⟩
  · obtain ⟨keys, -, hkeys, hlt⟩ := h.overflows (not_exists.mp hb)
    obtain ⟨k, hk⟩ := List.exists_mem_of_length_pos (Nat.zero_lt_of_lt hlt)
    exact ⟨k, hkeys k hk⟩

/-- Branches that stand for the same map are the same, if those that are no buckets are. -/
theorem BranchShaped.unique {Q Q' : Slots β → Prop} {b b' : Option (Branch β)}
    (h : ∀ a ∈ b, BranchShaped linked f pre P a) (h' : ∀ a ∈ b', BranchShaped linked' f pre P' a)
    (hb : BranchHolds True view p f pre Q b) (hb' : BranchHolds True view' p f pre Q' b')
    (hbelow : ∀ a ∈ b, ∀ a' ∈ b', (∀ entries, a ≠ .bucket entries) →
      (∀ entries, a' ≠ .bucket entries) → a = a') : b = b' := by
  -- a bucket has room for all keys, and anything else is there for want of room
  have hmixed {linked : (Slots β → Prop) → Cid → Prop} {P Q : Slots β → Prop} {view : View}
      {entries : List (Bytes × β)} {a : Branch β}
      (hbucket : BranchHolds True view p f pre Q (some (.bucket entries)))
      (ha : BranchShaped linked f pre P a) (hne : ∀ entries, a ≠ .bucket entries) : False :=
    BucketHolds.not_overflows hbucket (ha.overflows hne)
  match b, b' with
  | none, none => rfl
  | none, some a =>
    obtain ⟨key, hunder, hkey⟩ := (h' a rfl).exists_key
    exact absurd (hb key hunder) hkey
  | some a, none =>
    obtain ⟨key, hunder, hkey⟩ := (h a rfl).exists_key
    exact absurd (hb' key hunder) hkey
  | some a, some a' =>
    by_cases ha : ∃ entries, a = .bucket entries <;> by_cases ha' : ∃ entries, a' = .bucket entries
    · obtain ⟨entries, rfl⟩ := ha
      obtain ⟨entries', rfl⟩ := ha'
      rw [GrownBucket.unique (h _ rfl) (h' _ rfl) hb hb']
    · obtain ⟨entries, rfl⟩ := ha
      exact (hmixed hb (h' _ rfl) (not_exists.mp ha')).elim
    · obtain ⟨entries, rfl⟩ := ha'
      exact (hmixed hb' (h _ rfl) (not_exists.mp ha)).elim
    · rw [hbelow a rfl a' rfl (not_exists.mp ha) (not_exists.mp ha')]

-- ---------------------------------------------------------------------------
-- Tries without links
-- ---------------------------------------------------------------------------

/-- A branch that came of setting keys: there is a node only for want of room in a bucket. -/
def BranchGrown (f : Entries β) (pre : List UInt8) (P : Slots β → Prop) : Branch β → Prop
  | .bucket entries => GrownBucket f pre entries
  | .link _ => False
  | .node stored slots => stored = none ∧ Overflows f pre ∧ P slots

/-- The node came of setting keys of the map in an empty one. -/
def Grown (f : Entries β) : Nat → List UInt8 → Slots β → Prop
  | 0, _, _ => True
  | height + 1, pre, slots =>
    ∀ s ∈ slots, BranchGrown f (pre ++ [s.1]) (Grown f height (pre ++ [s.1])) s.2

/-- A branch that has grown in memory is one of that shape without links. -/
private theorem branchGrown_iff {P : Slots β → Prop} {b : Branch β} :
    BranchGrown f pre P b ↔ BranchShaped (fun _ _ => False) f pre P b := by
  match b with
  | .bucket entries => exact Iff.rfl
  | .link c => exact ⟨False.elim, And.right⟩
  | .node none slots => simp [BranchGrown, BranchShaped]
  | .node (some c) slots => simp [BranchGrown, BranchShaped]

/-- What was put together from nothing is of the shape, without links. -/
theorem grown_iff : Grown f height pre slots ↔ Shaped (fun _ _ => False) f height pre slots := by
  induction height generalizing pre slots with
  | zero => exact Iff.rfl
  | succ height ih =>
    refine forall₂_congr fun s _ => ?_
    rw [show Grown f height (pre ++ [s.1]) = Shaped (fun _ _ => False) f height (pre ++ [s.1]) from
      funext fun _ => propext ih]
    exact branchGrown_iff

theorem grown_nil (f : Entries β) (height : Nat) (pre : List UInt8) : Grown f height pre [] :=
  grown_iff.mpr (shaped_nil _ f height pre)

/-- The shape fits maps with more keys. -/
theorem Grown.mono (h : Grown f height pre slots) (hsub : ∀ key, f key ≠ none → f' key ≠ none) :
    Grown f' height pre slots := by
  rw [grown_iff] at h ⊢
  exact h.mono (fun hlinked _ => hlinked) hsub

/-- Setting a key of the map keeps the shape. -/
theorem Grown.of_insert [DecidableEq β] {key : Bytes} {value : β} (h : Grown f height pre slots)
    {rest : List UInt8} (hpath : path key = pre ++ rest) (hlen : rest.length = height)
    (hkey : f key ≠ none) {r : Bool × Slots β} {ws : List Block}
    (hset : (insert p height rest key value slots).on view = (.ok r, ws)) :
    Grown f height pre r.2 := by
  rw [grown_iff] at h ⊢
  exact h.of_insert (fun hlinked _ => hlinked.elim) hpath hlen hkey hset

/-- There is one node of the shape for what a map has under some numbers. -/
theorem Grown.unique (h : Grown f height pre slots) (h' : Grown f height pre slots')
    (hslots : Holds True view p f height pre slots)
    (hslots' : Holds True view' p f height pre slots') : slots = slots' := by
  induction height generalizing pre slots slots' with
  | zero => exact hslots.elim
  | succ height ih =>
    refine hslots.1.sorted.eq_of_find? hslots'.1.sorted fun i => ?_
    have hgrown {slots : Slots β} (h : Grown f (height + 1) pre slots) {b : Branch β}
        (hb : find? i slots = some b) :
        BranchGrown f (pre ++ [i]) (Grown f height (pre ++ [i])) b := h (i, b) (mem_of_find? hb)
    refine BranchShaped.unique (fun b hb => branchGrown_iff.mp (hgrown h hb))
      (fun b hb => branchGrown_iff.mp (hgrown h' hb)) (hslots.2 i) (hslots'.2 i)
      fun a ha a' ha' hne hne' => ?_
    -- both are nodes, which have not been written
    have hb := hgrown h ha
    have hb' := hgrown h' ha'
    have hi := hslots.2 i
    have hi' := hslots'.2 i
    rw [ha] at hi
    rw [ha'] at hi'
    match a, a', hb, hb' with
    | .bucket entries, _, _, _ => exact absurd rfl (hne entries)
    | _, .bucket entries, _, _ => exact absurd rfl (hne' entries)
    | .node stored inner, .node stored' inner', ⟨hstored, _, hP⟩, ⟨hstored', _, hP'⟩ =>
      rw [hstored, hstored', ih hP hP' hi.1 hi'.1]

-- ---------------------------------------------------------------------------
-- Whole tries
-- ---------------------------------------------------------------------------

/-- The trie came of setting keys of the map in the empty one. -/
structure GrownMap (f : Entries β) (m : Hamt β) : Prop where
  stored : m.stored = none
  root : Grown f levels [] m.root

theorem grownMap_empty (f : Entries β) : GrownMap f (empty : Hamt β) := ⟨rfl, grown_nil f levels []⟩

/-- A trie that has grown lasts when keys are added. -/
theorem GrownMap.mono {m : Hamt β} (h : GrownMap f m)
    (hsub : ∀ key, f key ≠ none → f' key ≠ none) : GrownMap f' m :=
  ⟨h.stored, h.root.mono hsub⟩

/-- Setting a key of the map keeps the shape. -/
theorem GrownMap.of_set [DecidableEq β] {m m' : Hamt β} (h : GrownMap f m) {key : Bytes}
    (hkey : f key ≠ none) {value : β} {ws : List Block}
    (hset : (m.set p key value).on view = (.ok m', ws)) : GrownMap f m' := by
  obtain ⟨r, ws₁, ws₂, hinsert, hdone, -⟩ := of_on_bind_ok hset
  cases hdone
  refine ⟨?_, h.root.of_insert rfl (length_path key) hkey hinsert⟩
  rw [h.stored]
  exact ite_self none

/-- The trie stands for a map, and came of setting its keys in the empty one. -/
structure Canonical (view : View) (p : Packing β) (f : Entries β) (m : Hamt β) : Prop where
  represents : Represents True view p f m
  grown : GrownMap f m

/-- The empty trie is canonical. -/
theorem canonical_empty (view : View) (p : Packing β) :
    Canonical view p (fun _ => none) (empty : Hamt β) :=
  ⟨represents_empty True view p, grownMap_empty _⟩

/-- Setting a key, as long as not too many have the same path then. -/
theorem Canonical.set [DecidableEq β] {m : Hamt β} (h : Canonical view p f m) {key : Bytes}
    (hshort : key.length < 2 ^ 64) (value : β) :
    (∃ m', (m.set p key value).Gives view m' ∧
      Canonical view p (Function.update f key (some value)) m') ∨
    (m.set p key value).Fails view ∧ ¬Spread (Function.update f key (some value)) := by
  rcases h.represents.set hshort (Or.inl trivial) value with ⟨m', hset, hm'⟩ | ⟨hfails, -, hspread⟩
  · have hkey : Function.update f key (some value) key ≠ none := by simp
    have hgrown : GrownMap (Function.update f key (some value)) m := by
      refine h.grown.mono fun k hk => ?_
      rw [Function.update_apply]
      split
      · simp
      · exact hk
    exact Or.inl ⟨m', hset, hm', hgrown.of_set hkey hset⟩
  · exact Or.inr ⟨hfails, hspread⟩

/-- A canonical trie has few keys with the same path. -/
theorem Canonical.spread {m : Hamt β} (h : Canonical view p f m) : Spread f :=
  h.represents.root.spread trivial

/-- There is one trie for a map that was put together from nothing. -/
theorem Canonical.unique {m m' : Hamt β} (h : Canonical view p f m)
    (h' : Canonical view' p f m') : m = m' := by
  obtain ⟨root, stored⟩ := m
  obtain ⟨root', stored'⟩ := m'
  obtain rfl : stored = none := h.grown.stored
  obtain rfl : stored' = none := h'.grown.stored
  have heq : root = root' :=
    h.grown.root.unique h'.grown.root h.represents.root h'.represents.root
  rw [heq]

end ReplayVector.Hamt
