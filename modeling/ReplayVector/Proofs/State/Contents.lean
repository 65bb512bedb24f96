import Mathlib.Logic.Function.Basic
import ReplayVector.Proofs.Hash.Length
import ReplayVector.Proofs.State.Tries
import ReplayVector.Proofs.Store.Programs

/-!
# What tries hold

A trie stands for a function from keys to values. What a node holds goes by the numbers that lead
to it: its buckets have the entries of all keys whose paths begin with them, its links and inner
nodes stand for the same function further down. A node that was changed and one that is stored
under an identifier are told apart by nothing but where they are read from.

A trie that was read may have branches that no path leads to, and entries under numbers that do not
lead to their keys. Nothing of the kind gets in the way of looking keys up and setting the values of
those that are there. New keys are set in tries that are known to be neat.

* `Hamt.Holds`: what the branches of a node stand for.
* `Holds.gives_lookup`: a key is looked up.
* `Holds.insert`: a key is set.
* `Holds.spread`: neat tries hold few keys with the same path.
-/

namespace ReplayVector

open BlockM

namespace Hamt

variable {β : Type}

/-- The value of each key. -/
abbrev Entries (β : Type) := Bytes → Option β

/-- The path of the key begins with the numbers. -/
def Under (numbers : List UInt8) (key : Bytes) : Prop := numbers <+: path key

/-- A path that begins with more numbers begins with fewer. -/
theorem Under.of_append {pre : List UInt8} {i : UInt8} {key : Bytes} (h : Under (pre ++ [i]) key) :
    Under pre key := (List.prefix_append pre [i]).trans h

/-- No more keys than fill a bucket have the same path. -/
def Spread (f : Entries β) : Prop :=
  ∀ keys : List Bytes, keys.Nodup → (∀ k ∈ keys, f k ≠ none) →
    (∀ k ∈ keys, ∀ k' ∈ keys, path k = path k') → keys.length ≤ bucketSize

/-- A map with fewer keys has no more of them on the same path. -/
theorem Spread.of_keys {γ : Type} {f : Entries β} {f' : Entries γ} (h : Spread f')
    (hsub : ∀ key, f key ≠ none → f' key ≠ none) : Spread f := by
  intro keys hnodup hkeys hpath
  exact h keys hnodup (fun k hk => hsub k (hkeys k hk)) hpath

/-- More of the keys than fill a bucket have the same path. -/
def Crowded (P : Bytes → Prop) : Prop :=
  ∃ keys : List Bytes, keys.Nodup ∧ (∀ k ∈ keys, P k) ∧ (∀ k ∈ keys, ∀ k' ∈ keys, path k = path k') ∧
    bucketSize < keys.length

theorem Crowded.mono {P P' : Bytes → Prop} (h : Crowded P) (hsub : ∀ key, P key → P' key) :
    Crowded P' := by
  obtain ⟨keys, hnodup, hkeys, hpath, hlt⟩ := h
  exact ⟨keys, hnodup, fun k hk => hsub k (hkeys k hk), hpath, hlt⟩

/-- A map that is not spread has more keys on one path than fill a bucket. -/
theorem crowded_of_not_spread {f : Entries β} (h : ¬Spread f) : Crowded fun key => f key ≠ none := by
  simp only [Spread, not_forall, Nat.not_le] at h
  obtain ⟨keys, hnodup, hkeys, hpath, hlt⟩ := h
  exact ⟨keys, hnodup, hkeys, hpath, hlt⟩

/-- Heads can tell how many entries there are, and how long their keys are. -/
structure Short (entries : List (Bytes × β)) : Prop where
  length_lt : entries.length < 2 ^ 64
  keys_lt : ∀ e ∈ entries, e.1.length < 2 ^ 64

/-- The bucket is as it comes of adding entries. -/
structure NeatBucket (pre : List UInt8) (entries : List (Bytes × β)) : Prop where
  length_le : entries.length ≤ bucketSize
  nodup : (entries.map (·.1)).Nodup
  under : ∀ e ∈ entries, Under pre e.1

/-- The value can be written. -/
def Writes (p : Packing β) (value : β) : Prop := ∃ v, p.toCbor? value = some v

/-- The bucket has the entries of all keys under the numbers. Its other entries, those of other keys
and those behind an entry of the same key, are as they were read. -/
structure BucketHolds (neat : Prop) (p : Packing β) (f : Entries β) (pre : List UInt8)
    (entries : List (Bytes × β)) : Prop where
  lookup : ∀ key, Under pre key → f key = entries.lookup key
  short : Short entries
  stray : ∀ e ∈ entries, Under pre e.1 ∨ Writes p e.2
  shadowed : entries.Pairwise fun e e' => e'.1 = e.1 → Writes p e'.2
  neat : neat → NeatBucket pre entries

/-- The branches can be written, and their numbers are those of paths if the node is neat. -/
structure Formed (neat : Prop) (slots : Slots β) : Prop where
  sorted : Sorted slots
  length_le : slots.length ≤ 32
  neat : neat → ∀ s ∈ slots, s.1 < 32

/-- The node stored under an identifier is as given. -/
def StoredAt (view : View) (p : Packing β) (c : Cid) (P : Slots β → Prop) : Prop :=
  ∃ slots, (loadNode p c).Gives view slots ∧ P slots

/-- What a branch stands for, given what the branches of the node below it stand for. -/
def BranchHolds (neat : Prop) (view : View) (p : Packing β) (f : Entries β) (pre : List UInt8)
    (P : Slots β → Prop) : Option (Branch β) → Prop
  | none => ∀ key, Under pre key → f key = none
  | some (.bucket entries) => BucketHolds neat p f pre entries
  | some (.link c) => StoredAt view p c P
  | some (.node stored slots) => P slots ∧ ∀ c, stored = some c → StoredAt view p c P

/-- The branches stand for what a map has under the numbers that lead to them, with at most `height`
numbers to go. -/
def Holds (neat : Prop) (view : View) (p : Packing β) (f : Entries β) :
    Nat → List UInt8 → Slots β → Prop
  | 0, _, _ => False
  | height + 1, pre, slots => Formed neat slots ∧ ∀ i, BranchHolds neat view p f (pre ++ [i])
    (Holds neat view p f height (pre ++ [i])) (find? i slots)

variable {neat : Prop} {view view' : View} {p : Packing β} {f f' : Entries β} {height : Nat}
  {pre : List UInt8} {slots : Slots β}

/-! ## Nodes -/

/-- A bucket is about the keys under its numbers only. -/
theorem BucketHolds.congr {entries : List (Bytes × β)} (h : BucketHolds neat p f pre entries)
    (heq : ∀ key, Under pre key → f key = f' key) : BucketHolds neat p f' pre entries := by
  refine { h with lookup := fun key hkey => ?_ }
  rw [← heq key hkey]
  exact h.lookup key hkey

/-- One set of blocks has all that another one has. -/
def Within (view view' : View) : Prop := ∀ c data, view c = some data → view' c = some data

/-- A node that is stored stays so among more blocks. -/
theorem StoredAt.imp {c : Cid} {P P' : Slots β → Prop} (h : StoredAt view p c P)
    (hview : Within view view') (hP : ∀ slots, P slots → P' slots) : StoredAt view' p c P' := by
  obtain ⟨slots, hslots, h⟩ := h
  exact ⟨slots, Gives.mono_readAs hslots hview, hP slots h⟩

/-- What a branch stands for is about the keys under its numbers, and lasts among more blocks. -/
theorem BranchHolds.imp {P P' : Slots β → Prop} {b : Option (Branch β)}
    (h : BranchHolds neat view p f pre P b) (hview : Within view view')
    (heq : ∀ key, Under pre key → f key = f' key) (hP : ∀ slots, P slots → P' slots) :
    BranchHolds neat view' p f' pre P' b := by
  match b with
  | none => exact fun key hkey => (heq key hkey).symm.trans (h key hkey)
  | some (.bucket entries) => exact BucketHolds.congr h heq
  | some (.link c) => exact StoredAt.imp h hview hP
  | some (.node stored slots) => exact ⟨hP slots h.1, fun c hc => (h.2 c hc).imp hview hP⟩

/-- Nothing that is held gets lost when there are more blocks, and what stands under some numbers
is about no other keys. -/
theorem Holds.imp (h : Holds neat view p f height pre slots) (hview : Within view view')
    (heq : ∀ key, Under pre key → f key = f' key) : Holds neat view' p f' height pre slots := by
  induction height generalizing pre slots with
  | zero => exact h.elim
  | succ height ih =>
    refine ⟨h.1, ?_⟩
    intro i
    have heq' : ∀ key, Under (pre ++ [i]) key → f key = f' key :=
      fun key hkey => heq key hkey.of_append
    exact (h.2 i).imp hview heq' fun slots' hslots' => ih hslots' heq'

theorem Within.refl (view : View) : Within view view := fun _ _ h => h

/-- What a node stands for is about the keys under its numbers only. -/
theorem Holds.congr (h : Holds neat view p f height pre slots)
    (heq : ∀ key, Under pre key → f key = f' key) : Holds neat view p f' height pre slots :=
  h.imp (.refl view) heq

/-- It lasts among more blocks. -/
theorem Holds.mono (h : Holds neat view p f height pre slots) (hview : Within view view') :
    Holds neat view' p f height pre slots := h.imp hview fun _ _ => rfl

/-! ## Paths -/

/-- A path has one number at each place. -/
theorem Under.unique {i j : UInt8} {key : Bytes} (hi : Under (pre ++ [i]) key)
    (hj : Under (pre ++ [j]) key) : i = j := by
  obtain ⟨rest, hi⟩ := hi
  obtain ⟨rest', hj⟩ := hj
  rw [← hj, List.append_assoc, List.append_assoc] at hi
  exact (List.cons.inj (List.append_cancel_left hi)).1

/-- A key under some numbers is what is left of its path below them. -/
theorem Under.path_eq {key : Bytes} (h : Under pre key) (hlevel : pre.length + height = levels) :
    path key = pre ++ (path key).drop (levels - height) ∧
      ((path key).drop (levels - height)).length = height := by
  obtain ⟨rest, hrest⟩ := h
  have hlen := congrArg List.length hrest
  rw [List.length_append, length_path] at hlen
  have hdrop : levels - height = pre.length := by omega
  rw [hdrop, ← hrest, List.drop_left]
  exact ⟨rfl, by omega⟩

/-! ## Branches -/

/-- A branch that was put is found under its number, the others under theirs. -/
theorem find?_put (i j : UInt8) (b : Branch β) (slots : Slots β) :
    find? j (put i b slots) = if j = i then some b else find? j slots := by
  have hcons (k : UInt8) (b' : Branch β) (slots : Slots β) :
      find? j ((k, b') :: slots) = if j = k then some b' else find? j slots :=
    lookup_cons_eq j k b' slots
  induction slots with
  | nil => exact hcons i b []
  | cons s slots ih =>
    rw [put]
    split
    · next heq =>
      rw [hcons, hcons, ← heq]
      split <;> rfl
    · split
      · exact hcons i b _
      · next hne _ =>
        rw [hcons, hcons, ih]
        by_cases hj : j = s.1
        · rw [if_pos hj, if_pos hj, if_neg (hj ▸ fun h => hne h.symm)]
        · rw [if_neg hj, if_neg hj]

/-- A branch in the place of another one. -/
theorem map_put {i : UInt8} (h : Sorted slots) (hi : find? i slots ≠ none) (b : Branch β) :
    (put i b slots).map (·.1) = slots.map (·.1) := by
  induction slots with
  | nil => exact absurd rfl hi
  | cons s slots ih =>
    obtain ⟨hs, hslots⟩ := List.pairwise_cons.mp h
    rw [put]
    split
    · next heq => rw [List.map_cons, List.map_cons, heq]
    · next hne =>
      have hi' : find? i slots ≠ none := by
        rw [find?, List.lookup_cons, beq_eq_false_iff_ne.mpr hne] at hi
        exact hi
      split
      · next hlt =>
        -- the number would come before all others
        obtain ⟨b', hb'⟩ := Option.ne_none_iff_exists'.mp hi'
        have hlt' : s.1 < i := hs _ (mem_of_find? hb')
        exact absurd (UInt8.lt_trans hlt hlt') (UInt8.lt_irrefl i)
      · rw [List.map_cons, List.map_cons, ih hslots hi']

/-- There is room for a branch: another one is in its place, or the node is neat and the number one
of a path. -/
def Room (neat : Prop) (i : UInt8) (slots : Slots β) : Prop :=
  find? i slots ≠ none ∨ neat ∧ i < 32

/-- A branch may be put where there is room. -/
private theorem Formed.put (h : Formed neat slots) {i : UInt8} (hroom : Room neat i slots)
    (b : Branch β) : Formed neat (put i b slots) := by
  rcases hroom with hi | ⟨hneat, hi⟩
  · have hmap := map_put h.sorted hi b
    refine ⟨h.sorted.put i b, ?_, ?_⟩
    · have hlen := congrArg List.length hmap
      rw [List.length_map, List.length_map] at hlen
      rw [hlen]
      exact h.length_le
    · intro hneat s hs
      have hmem : s.1 ∈ slots.map (·.1) := hmap ▸ List.mem_map_of_mem hs
      obtain ⟨s', hs', heq⟩ := List.mem_map.mp hmem
      rw [← heq]
      exact h.neat hneat s' hs'
  · have hput : Numbered (Hamt.put i b slots) := Numbered.put hi b ⟨h.sorted, h.neat hneat⟩
    exact ⟨hput.1, length_le_of_numbered hput, fun _ => hput.2⟩

/-- A branch that stands for what a map has under its numbers takes its place in a node. -/
theorem Holds.put (h : Holds neat view p f (height + 1) pre slots) {i : UInt8} {b : Branch β}
    (hroom : Room neat i slots)
    (hb : BranchHolds neat view p f' (pre ++ [i]) (Holds neat view p f' height (pre ++ [i]))
      (some b))
    (heq : ∀ key, ¬Under (pre ++ [i]) key → f key = f' key) :
    Holds neat view p f' (height + 1) pre (put i b slots) := by
  refine ⟨h.1.put hroom b, ?_⟩
  intro j
  rw [find?_put]
  split
  · next hj => exact hj ▸ hb
  · next hj =>
    have heq' : ∀ key, Under (pre ++ [j]) key → f key = f' key :=
      fun key hkey => heq key fun hkey' => hj (hkey.unique hkey')
    exact (h.2 j).imp (.refl view) heq' fun slots' hslots' => hslots'.congr heq'

/-- A node without branches stands for the empty map. -/
theorem holds_nil (neat : Prop) (view : View) (p : Packing β) (height : Nat) (pre : List UInt8) :
    Holds neat view p (fun _ => none) (height + 1) pre [] := by
  refine ⟨⟨.nil, Nat.zero_le _, by simp⟩, fun _ _ _ => ?_⟩
  rfl

/-! ## Looking keys up -/

/-- A key is found with its value. -/
theorem Holds.gives_lookup {key : Bytes} {rest : List UInt8}
    (h : Holds neat view p f rest.length pre slots) (hkey : path key = pre ++ rest) :
    ∃ slots', (lookup p key rest slots).Gives view (f key, slots') ∧
      Holds neat view p f rest.length pre slots' := by
  induction rest generalizing pre slots with
  | nil => exact h.elim
  | cons i rest ih =>
    have hunder : Under (pre ++ [i]) key := ⟨rest, by rw [hkey, List.append_assoc]; rfl⟩
    have hkey' : path key = (pre ++ [i]) ++ rest := by rw [hkey, List.append_assoc]; rfl
    have hi := h.2 i
    rw [lookup]
    cases hb : find? i slots with
    | none =>
      rw [hb] at hi
      refine ⟨slots, ?_, h⟩
      rw [hi key hunder]
      exact gives_pure view _
    | some b =>
      rw [hb] at hi
      have hroom : Room neat i slots := Or.inl (by rw [hb]; simp)
      cases b with
      | bucket entries =>
        refine ⟨slots, ?_, h⟩
        rw [BucketHolds.lookup hi key hunder]
        exact gives_pure view _
      | link c =>
        obtain ⟨inner, hload, hinner⟩ := hi
        obtain ⟨inner', hlookup, hinner'⟩ := ih hinner hkey'
        refine ⟨_, hload.bind (hlookup.bind (gives_pure view _)), h.put hroom ?_ fun _ _ => rfl⟩
        refine ⟨hinner', fun c' hc' => ?_⟩
        obtain rfl := Option.some.inj hc'
        exact ⟨inner, hload, hinner⟩
      | node stored inner =>
        obtain ⟨inner', hlookup, hinner'⟩ := ih hi.1 hkey'
        exact ⟨_, hlookup.bind (gives_pure view _), h.put hroom ⟨hinner', hi.2⟩ fun _ _ => rfl⟩

/-! ## Buckets -/

/-- Changing the value of an entry changes no key. -/
theorem map_setEntry (key : Bytes) (value : β) (entries : List (Bytes × β)) :
    (setEntry key value entries).map (·.1) = entries.map (·.1) := by
  induction entries with
  | nil => rfl
  | cons e entries ih =>
    rw [setEntry]
    split
    · next heq => rw [List.map_cons, List.map_cons, heq]
    · rw [List.map_cons, List.map_cons, ih]

/-- The value that was set is found, and every other one as before. -/
theorem lookup_setEntry {key : Bytes} {value old : β} {entries : List (Bytes × β)}
    (h : entries.lookup key = some old) (k : Bytes) :
    (setEntry key value entries).lookup k = if k = key then some value else entries.lookup k := by
  induction entries with
  | nil => cases h
  | cons e entries ih =>
    rw [lookup_cons_eq] at h
    rw [setEntry]
    by_cases heq : e.1 = key
    · rw [if_pos heq, lookup_cons_eq, lookup_cons_eq, heq]
      split <;> rfl
    · rw [if_neg fun hkey => heq hkey.symm] at h
      rw [if_neg heq, lookup_cons_eq, lookup_cons_eq, ih h]
      by_cases hk : k = e.1
      · rw [if_pos hk, if_pos hk, if_neg (hk ▸ heq)]
      · rw [if_neg hk, if_neg hk]

/-- An entry that is added brings one key more. -/
theorem map_addEntry_perm (key : Bytes) (value : β) (entries : List (Bytes × β)) :
    ((addEntry key value entries).map (·.1)).Perm (key :: entries.map (·.1)) := by
  induction entries with
  | nil => exact .refl _
  | cons e entries ih =>
    rw [addEntry]
    split
    · exact .refl _
    · exact (ih.cons e.1).trans (.swap ..)

/-- The value that was added is found, and every other one as before. -/
private theorem lookup_addEntry {key : Bytes} (value : β) {entries : List (Bytes × β)}
    (h : entries.lookup key = none) (k : Bytes) :
    (addEntry key value entries).lookup k = if k = key then some value else entries.lookup k := by
  induction entries with
  | nil => exact lookup_cons_eq k key value []
  | cons e entries ih =>
    rw [lookup_cons_eq] at h
    have hne : key ≠ e.1 := fun heq => by
      rw [if_pos heq] at h
      cases h
    rw [if_neg hne] at h
    rw [addEntry]
    split
    · exact lookup_cons_eq k key value _
    · rw [lookup_cons_eq, lookup_cons_eq, ih h]
      by_cases hk : k = e.1
      · rw [if_pos hk, if_pos hk, if_neg fun hkey => hne (hkey.symm.trans hk)]
      · rw [if_neg hk, if_neg hk]

/-- A key that is not found is not there. -/
theorem lookup_eq_none {κ : Type} [BEq κ] [LawfulBEq κ] [DecidableEq κ] {key : κ}
    {entries : List (κ × β)} :
    entries.lookup key = none ↔ key ∉ entries.map (·.1) := by
  induction entries with
  | nil => simp
  | cons e entries ih =>
    rw [lookup_cons_eq, List.map_cons, List.mem_cons]
    by_cases h : key = e.1
    · simp [h]
    · simp [h, ih]

/-- What stands behind an entry stays there. -/
private theorem shadowed_setEntry {entries : List (Bytes × β)}
    (h : entries.Pairwise fun e e' => e'.1 = e.1 → Writes p e'.2) (key : Bytes) (value : β) :
    (setEntry key value entries).Pairwise fun e e' => e'.1 = e.1 → Writes p e'.2 := by
  induction entries with
  | nil => exact .nil
  | cons e entries ih =>
    obtain ⟨hfirst, hrest⟩ := List.pairwise_cons.mp h
    rw [setEntry]
    split
    · next heq => exact List.pairwise_cons.mpr ⟨fun e' he' hk => hfirst e' he' (hk.trans heq.symm), hrest⟩
    · next hne =>
      refine List.pairwise_cons.mpr ⟨fun e' he' hk => ?_, ih hrest⟩
      rcases (mem_setEntry key value entries).2 e' he' with rfl | he'
      · exact absurd hk.symm hne
      · exact hfirst e' he' hk

/-- The values behind an entry of the same key can be written as before, for the new key has none.
-/
private theorem shadowed_addEntry {entries : List (Bytes × β)}
    (h : entries.Pairwise fun e e' => e'.1 = e.1 → Writes p e'.2) {key : Bytes}
    (hnew : key ∉ entries.map (·.1)) (value : β) :
    (addEntry key value entries).Pairwise fun e e' => e'.1 = e.1 → Writes p e'.2 := by
  have hbefore {entries : List (Bytes × β)} (hnew : key ∉ entries.map (·.1)) :
      ∀ e ∈ entries, e.1 = key → Writes p e.2 :=
    fun e he hk => absurd (List.mem_map.mpr ⟨e, he, hk⟩) hnew
  induction entries with
  | nil => exact List.pairwise_singleton _ _
  | cons e entries ih =>
    obtain ⟨hfirst, hrest⟩ := List.pairwise_cons.mp h
    rw [addEntry]
    split
    · exact List.pairwise_cons.mpr ⟨hbefore hnew, h⟩
    · rw [List.map_cons, List.mem_cons, not_or] at hnew
      refine List.pairwise_cons.mpr ⟨fun e' he' hk => ?_, ih hrest hnew.2⟩
      rcases (mem_addEntry key value entries).2 e' he' with rfl | he'
      · exact absurd hk hnew.1
      · exact hfirst e' he' hk

/-- The bucket has another value for a key. -/
private theorem BucketHolds.set {entries : List (Bytes × β)} (h : BucketHolds neat p f pre entries)
    {key : Bytes} (hkey : Under pre key) {old : β} (hold : entries.lookup key = some old) (value : β) :
    BucketHolds neat p (Function.update f key (some value)) pre (setEntry key value entries) where
  lookup := by
    intro k hk
    rw [lookup_setEntry hold, Function.update_apply, h.lookup k hk]
  short := by
    refine ⟨by rw [(mem_setEntry key value entries).1]; exact h.short.length_lt, ?_⟩
    intro e he
    rcases (mem_setEntry key value entries).2 e he with rfl | he
    · exact h.short.keys_lt (key, old) (mem_of_lookup hold)
    · exact h.short.keys_lt e he
  stray := by
    intro e he
    rcases (mem_setEntry key value entries).2 e he with rfl | he
    · exact Or.inl hkey
    · exact h.stray e he
  shadowed := shadowed_setEntry h.shadowed key value
  neat := by
    intro hneat
    have hbucket := h.neat hneat
    refine ⟨?_, by rw [map_setEntry]; exact hbucket.nodup, ?_⟩
    · rw [(mem_setEntry key value entries).1]
      exact hbucket.length_le
    · intro e he
      rcases (mem_setEntry key value entries).2 e he with rfl | he
      · exact hbucket.under (key, old) (mem_of_lookup hold)
      · exact hbucket.under e he

/-- The bucket has one entry more. -/
private theorem BucketHolds.add {entries : List (Bytes × β)} (h : BucketHolds neat p f pre entries)
    {key : Bytes} (hkey : Under pre key) (hshort : key.length < 2 ^ 64)
    (hnone : entries.lookup key = none) (hlt : entries.length < bucketSize) (value : β) :
    BucketHolds neat p (Function.update f key (some value)) pre (addEntry key value entries) where
  lookup := by
    intro k hk
    rw [lookup_addEntry value hnone, Function.update_apply, h.lookup k hk]
  short := by
    have hsize : bucketSize = 3 := rfl
    refine ⟨by rw [(mem_addEntry key value entries).1]; omega, ?_⟩
    intro e he
    rcases (mem_addEntry key value entries).2 e he with rfl | he
    · exact hshort
    · exact h.short.keys_lt e he
  stray := by
    intro e he
    rcases (mem_addEntry key value entries).2 e he with rfl | he
    · exact Or.inl hkey
    · exact h.stray e he
  shadowed := shadowed_addEntry h.shadowed (lookup_eq_none.mp hnone) value
  neat := by
    intro hneat
    have hbucket := h.neat hneat
    refine ⟨by rw [(mem_addEntry key value entries).1]; exact hlt, ?_, ?_⟩
    · rw [(map_addEntry_perm key value entries).nodup_iff]
      exact List.nodup_cons.mpr ⟨lookup_eq_none.mp hnone, hbucket.nodup⟩
    · intro e he
      rcases (mem_addEntry key value entries).2 e he with rfl | he
      · exact hkey
      · exact hbucket.under e he

/-- Every entry of a bucket is the value that the map has for its key, unless it is as it was read. -/
theorem BucketHolds.writes_or {entries : List (Bytes × β)} (h : BucketHolds neat p f pre entries)
    {e : Bytes × β} (he : e ∈ entries) : Writes p e.2 ∨ Under pre e.1 ∧ f e.1 = some e.2 := by
  have hlookup {entries : List (Bytes × β)}
      (h : entries.Pairwise fun e e' => e'.1 = e.1 → Writes p e'.2) (he : e ∈ entries) :
      Writes p e.2 ∨ entries.lookup e.1 = some e.2 := by
    induction entries with
    | nil => cases he
    | cons e' entries ih =>
      obtain ⟨hfirst, hrest⟩ := List.pairwise_cons.mp h
      rw [lookup_cons_eq]
      rcases List.mem_cons.mp he with rfl | he
      · exact Or.inr (if_pos rfl)
      · split
        · next heq => exact Or.inl (hfirst e he heq)
        · exact ih hrest he
  rcases h.stray e he with hunder | hwrites
  · refine (hlookup h.shadowed he).imp_right fun hvalue => ⟨hunder, ?_⟩
    rw [h.lookup e.1 hunder, hvalue]
  · exact Or.inl hwrites

/-- Every entry of a neat bucket is the value that the map has for its key. -/
theorem BucketHolds.eq_some {entries : List (Bytes × β)} (h : BucketHolds neat p f pre entries)
    (hneat : neat) {e : Bytes × β} (he : e ∈ entries) : f e.1 = some e.2 := by
  have hbucket := h.neat hneat
  rw [h.lookup e.1 (hbucket.under e he), lookup_of_mem hbucket.nodup he]

/-! ## Setting keys -/

/-- Setting keys ends with branches that stand for another map, or fails because the trie is
full. -/
def Sets (neat : Prop) (view : View) (p : Packing β) (f : Entries β) (height : Nat)
    (pre : List UInt8) {α : Type} (slotsOf : α → Slots β) (q : BlockM α) (post : α → Prop)
    (full : Prop) : Prop :=
  (∃ a, q.Gives view a ∧ Holds neat view p f height pre (slotsOf a) ∧ post a) ∨
    q.Fails view ∧ full

/-- The map after all entries of a list have been set. -/
def setAll (f : Entries β) (entries : List (Bytes × β)) : Entries β :=
  entries.foldl (fun f e => Function.update f e.1 (some e.2)) f

theorem setAll_cons (f : Entries β) (e : Bytes × β) (entries : List (Bytes × β)) :
    setAll f (e :: entries) = setAll (Function.update f e.1 (some e.2)) entries := rfl

/-- A key has the value it was set to, or its old one. -/
theorem setAll_apply (f : Entries β) {entries : List (Bytes × β)}
    (h : (entries.map (·.1)).Nodup) (key : Bytes) :
    setAll f entries key = (entries.lookup key).or (f key) := by
  induction entries generalizing f with
  | nil => rfl
  | cons e entries ih =>
    obtain ⟨hnotin, hnodup⟩ := List.nodup_cons.mp h
    rw [setAll_cons, ih _ hnodup, lookup_cons_eq, Function.update_apply]
    by_cases heq : key = e.1
    · rw [if_pos heq, if_pos heq, lookup_eq_none.mpr (heq ▸ hnotin)]
      rfl
    · rw [if_neg heq, if_neg heq]

/-- Setting keys removes none. -/
theorem setAll_ne_none {f : Entries β} {entries : List (Bytes × β)} {key : Bytes}
    (h : f key ≠ none) : setAll f entries key ≠ none := by
  induction entries generalizing f with
  | nil => exact h
  | cons e entries ih =>
    have hne : Function.update f e.1 (some e.2) key ≠ none := by
      rw [Function.update_apply]
      split
      · simp
      · exact h
    exact ih hne

/-- A new key and the entries of a bucket, set one after the other, make up the map under the numbers
of the bucket. -/
private theorem BucketHolds.full {entries : List (Bytes × β)} (h : BucketHolds neat p f pre entries)
    (hneat : neat) {key : Bytes} (hnone : entries.lookup key = none) (value : β) :
    (∀ k, Under pre k → setAll (Function.update (fun _ => none) key (some value)) entries k =
      Function.update f key (some value) k) ∧
    ∀ k, setAll (Function.update (fun _ => none) key (some value)) entries k ≠ none →
      Function.update f key (some value) k ≠ none := by
  constructor
  · intro k hk
    rw [setAll_apply _ (h.neat hneat).nodup, Function.update_apply, Function.update_apply]
    by_cases heq : k = key
    · rw [if_pos heq, if_pos heq, heq, hnone]
      rfl
    · rw [if_neg heq, if_neg heq, h.lookup k hk, Option.or_none]
  · intro k hk
    rw [setAll_apply _ (h.neat hneat).nodup, Function.update_apply] at hk
    rw [Function.update_apply]
    by_cases heq : k = key
    · simp [heq]
    · rw [if_neg heq, Option.or_none] at hk
      rw [if_neg heq]
      obtain ⟨v, hv⟩ := Option.ne_none_iff_exists'.mp hk
      rw [h.eq_some hneat (mem_of_lookup hv)]
      simp

/-- A full bucket at the lowest level has too many keys with the same path for one more. -/
private theorem not_spread_of_full {entries : List (Bytes × β)}
    (h : BucketHolds neat p f pre entries) (hneat : neat) (hlevel : pre.length = levels)
    {key : Bytes} (hkey : Under pre key)
    (hnone : entries.lookup key = none) (hfull : ¬entries.length < bucketSize) (value : β) :
    ¬Spread (Function.update f key (some value)) := by
  intro hspread
  have hpath {k : Bytes} (hk : Under pre k) : path k = pre :=
    (hk.eq_of_length (by rw [length_path, hlevel])).symm
  have hunder : ∀ k ∈ key :: entries.map (·.1), Under pre k := by
    intro k hk
    rcases List.mem_cons.mp hk with rfl | hk
    · exact hkey
    · obtain ⟨e, he, rfl⟩ := List.mem_map.mp hk
      exact (h.neat hneat).under e he
  have hcount := hspread (key :: entries.map (·.1))
    (List.nodup_cons.mpr ⟨lookup_eq_none.mp hnone, (h.neat hneat).nodup⟩) ?_
    fun k hk k' hk' => (hpath (hunder k hk)).trans (hpath (hunder k' hk')).symm
  · rw [List.length_cons, List.length_map] at hcount
    omega
  · intro k hk
    rw [Function.update_apply]
    split
    · simp
    · next hne =>
      obtain ⟨e, he, rfl⟩ := List.mem_map.mp ((List.mem_cons.mp hk).resolve_left hne)
      rw [h.eq_some hneat he]
      simp

section

/-- What is left of the path of a short key below a node at the given height. -/
private structure Ahead (height : Nat) (pre rest : List UInt8) (key : Bytes) : Prop where
  path_eq : path key = pre ++ rest
  length_eq : rest.length = height
  short : key.length < 2 ^ 64

/-- One number further down, the path is one number shorter. -/
private theorem Ahead.below {i : UInt8} {rest : List UInt8} {key : Bytes}
    (h : Ahead (height + 1) pre (i :: rest) key) : Ahead height (pre ++ [i]) rest key where
  path_eq := by
    rw [h.path_eq, List.append_assoc]
    rfl
  length_eq := Nat.succ.inj h.length_eq
  short := h.short

private theorem Ahead.under {rest : List UInt8} {key : Bytes} (h : Ahead height pre rest key) :
    Under pre key := ⟨rest, h.path_eq.symm⟩

/-- What lies behind and what lies ahead make up a path. -/
private theorem Ahead.level {rest : List UInt8} {key : Bytes} (h : Ahead height pre rest key) :
    pre.length + height = levels := by
  rw [← length_path key, h.path_eq, ← h.length_eq]
  exact List.length_append.symm

/-- A change of a key is seen under its path only. -/
private theorem Ahead.other {rest : List UInt8} {key : Bytes} (h : Ahead height pre rest key)
    (value : β) (k : Bytes) (hk : ¬Under pre k) : f k = Function.update f key (some value) k := by
  have hne : k ≠ key := by
    rintro rfl
    exact hk h.under
  rw [Function.update_of_ne hne]

variable [DecidableEq β]

/-- Setting one key of a node at the given height. It fails only for new keys, if too many have the
same path then. -/
def SetsKey (neat : Prop) (view : View) (p : Packing β) (f : Entries β) (height : Nat)
    (pre : List UInt8) (slots : Slots β) (rest : List UInt8) (key : Bytes) (value : β) : Prop :=
  Sets neat view p (Function.update f key (some value)) height pre (·.2)
    (insert p height rest key value slots) (fun r => r.1 = false → f key = some value)
    (f key = none ∧ ¬Spread (Function.update f key (some value)))

/-- Entries are set one after the other in a node where each can be set. -/
private theorem sets_foldlM (hlevel : pre.length + height = levels)
    (hset : ∀ (f : Entries β) slots, Holds neat view p f height pre slots →
      ∀ key rest value, Ahead height pre rest key →
        SetsKey neat view p f height pre slots rest key value)
    {entries : List (Bytes × β)} (hunder : ∀ e ∈ entries, Under pre e.1)
    (hshort : ∀ e ∈ entries, e.1.length < 2 ^ 64) (h : Holds neat view p f height pre slots) :
    Sets neat view p (setAll f entries) height pre id
      (entries.foldlM (fun inner (k, v) => do
        let (_, inner) ← insert p height ((path k).drop (levels - height)) k v inner
        return inner) slots) (fun _ => True) (¬Spread (setAll f entries)) := by
  induction entries generalizing f slots with
  | nil => exact Or.inl ⟨slots, gives_pure view _, h, trivial⟩
  | cons e entries ih =>
    obtain ⟨hpath, hlen⟩ := (hunder e (List.mem_cons_self ..)).path_eq hlevel
    rw [List.foldlM_cons]
    rcases hset f slots h e.1 _ e.2 ⟨hpath, hlen, hshort e (List.mem_cons_self ..)⟩ with
      ⟨⟨changed, slots'⟩, hgives, hslots', -⟩ | ⟨hfails, -, hfull⟩
    · have hstep : BlockM.Gives view (do
          let (_, inner) ← insert p height ((path e.1).drop (levels - height)) e.1 e.2 slots
          return inner) slots' := hgives.bind (gives_pure view slots')
      have hrest := ih (fun e' he' => hunder e' (List.mem_cons_of_mem _ he'))
        (fun e' he' => hshort e' (List.mem_cons_of_mem _ he')) hslots'
      rcases hrest with ⟨slots'', hgives', hslots'', -⟩ | ⟨hfails, hspread⟩
      · exact Or.inl ⟨slots'', hstep.bind hgives', hslots'', trivial⟩
      · exact Or.inr ⟨hstep.fails_bind hfails, hspread⟩
    · refine Or.inr ⟨(hfails.bind _).bind _, fun hspread => hfull ?_⟩
      have hkeys : ∀ key, Function.update f e.1 (some e.2) key ≠ none →
          setAll (Function.update f e.1 (some e.2)) entries key ≠ none :=
        fun key hkey => setAll_ne_none hkey
      exact hspread.of_keys hkeys

section

variable {i : UInt8} {rest : List UInt8} {key : Bytes} {value : β}

/-- Setting a key of the node in a branch sets it. The node is written again if it changes. -/
private theorem sets_below {stored : Option Cid} {inner : Slots β}
    (hinner : SetsKey neat view p f height (pre ++ [i]) inner rest key value)
    (h : Holds neat view p f (height + 1) pre slots) (hroom : Room neat i slots)
    (hkey : Ahead height (pre ++ [i]) rest key)
    (hstored : ∀ c, stored = some c →
      StoredAt view p c (Holds neat view p f height (pre ++ [i]))) :
    Sets neat view p (Function.update f key (some value)) (height + 1) pre (·.2)
      (do
        let (changed, inner) ← Hamt.insert p height rest key value inner
        return (changed, Hamt.put i (.node (if changed then none else stored) inner) slots))
      (fun r => r.1 = false → f key = some value)
      (f key = none ∧ ¬Spread (Function.update f key (some value))) := by
  rcases hinner with ⟨⟨changed, inner'⟩, hgives, hinner', hsame⟩ | ⟨hfails, hfull⟩
  · refine Or.inl ⟨_, hgives.bind (gives_pure view _),
      h.put hroom ⟨hinner', ?_⟩ (hkey.other value), hsame⟩
    intro c hc
    cases changed with
    | true => cases hc
    | false =>
      have heq : Function.update f key (some value) = f := by
        rw [← hsame rfl, Function.update_eq_self]
      rw [heq]
      exact hstored c hc
  · exact Or.inr ⟨hfails.bind _, hfull⟩

/-- The entries of a full bucket move to a new node, after the key. At the bottom there is no room
for a node, and too many keys have the same path. -/
private theorem sets_full {entries : List (Bytes × β)}
    (hset : ∀ (f : Entries β) slots, Holds neat view p f height (pre ++ [i]) slots →
      ∀ key rest value, Ahead height (pre ++ [i]) rest key →
        SetsKey neat view p f height (pre ++ [i]) slots rest key value)
    (h : Holds neat view p f (height + 1) pre slots) (hroom : Room neat i slots)
    (hkey : Ahead height (pre ++ [i]) rest key) (hneat : neat)
    (hi : BucketHolds neat p f (pre ++ [i]) entries) (hfound : entries.lookup key = none)
    (hfull : ¬entries.length < bucketSize) :
    Sets neat view p (Function.update f key (some value)) (height + 1) pre (·.2)
      (do
        let (_, inner) ← Hamt.insert p height rest key value []
        let inner ← entries.foldlM (fun inner (k, v) => do
          let (_, inner) ← Hamt.insert p height ((path k).drop (levels - height)) k v inner
          return inner) inner
        return (true, Hamt.put i (.node none inner) slots))
      (fun r => r.1 = false → f key = some value)
      (f key = none ∧ ¬Spread (Function.update f key (some value))) := by
  obtain ⟨hall, hkeys⟩ := hi.full hneat hfound value
  have hnone : f key = none := (BucketHolds.lookup hi key hkey.under).trans hfound
  cases height with
  | zero =>
    refine Or.inr ⟨(fails_fail view _).bind _, hnone, ?_⟩
    exact not_spread_of_full hi hneat hkey.level hkey.under hfound hfull value
  | succ height =>
    have hnil := holds_nil neat view p height (pre ++ [i])
    rcases hset _ _ hnil key rest value hkey with
      ⟨⟨changed, inner⟩, hgives, hinner, -⟩ | ⟨hfails, -, hspread⟩
    · have hfold := sets_foldlM hkey.level hset (hi.neat hneat).under hi.short.keys_lt hinner
      rcases hfold with ⟨inner', hgives', hinner', -⟩ | ⟨hfails, hspread⟩
      · refine Or.inl ⟨_, hgives.bind (hgives'.bind (gives_pure view _)),
          h.put hroom ?_ (hkey.other value), fun hfalse => (by cases hfalse)⟩
        exact ⟨hinner'.congr hall, fun c hc => (by cases hc)⟩
      · refine Or.inr ⟨hgives.fails_bind (hfails.bind _), hnone, fun hgood => ?_⟩
        exact hspread (hgood.of_keys hkeys)
    · refine Or.inr ⟨hfails.bind _, hnone, fun hgood => hspread (hgood.of_keys ?_)⟩
      exact fun k hk => hkeys k (setAll_ne_none hk)

omit [DecidableEq β] in
/-- A key that has nothing under its number gets a bucket of its own. -/
private theorem holds_put_new (h : Holds neat view p f (height + 1) pre slots) (hneat : neat)
    (hkey : Ahead height (pre ++ [i]) rest key) (hi : ∀ k, Under (pre ++ [i]) k → f k = none) :
    Holds neat view p (Function.update f key (some value)) (height + 1) pre
      (Hamt.put i (.bucket [(key, value)]) slots) := by
  have hlt : i < 32 := path_lt key i (by rw [hkey.path_eq]; simp)
  refine h.put (Or.inr ⟨hneat, hlt⟩) ?_ (hkey.other value)
  refine ⟨?_, ⟨by simp, by simpa using hkey.short⟩, ?_, List.pairwise_singleton _ _,
    fun _ => ⟨by simp [bucketSize], by simp, by simpa using hkey.under⟩⟩
  · intro k hk
    rw [Function.update_apply, hi k hk, lookup_cons_eq]
    rfl
  · intro e he
    rw [List.mem_singleton.mp he]
    exact Or.inl hkey.under

end

/-- A key of a node can be set if it is there or the node is neat, unless too many keys have the
same path then. -/
theorem Holds.insert (h : Holds neat view p f height pre slots) {key : Bytes} {rest : List UInt8}
    (hkey : path key = pre ++ rest) (hlen : rest.length = height) (hshort : key.length < 2 ^ 64)
    (hnew : neat ∨ f key ≠ none) (value : β) :
    SetsKey neat view p f height pre slots rest key value := by
  induction height generalizing f pre slots key rest value with
  | zero => exact h.elim
  | succ height ih =>
    match rest, hlen with
    | i :: rest, hlen =>
    have hbelow : Ahead height (pre ++ [i]) rest key := Ahead.below ⟨hkey, hlen, hshort⟩
    have hi := h.2 i
    rw [SetsKey, Hamt.insert]
    -- by what stands in the branch that the path goes through
    cases hb : find? i slots with
    | none =>
      rw [hb] at hi
      have hneat : neat := hnew.resolve_right fun hne => hne (hi key hbelow.under)
      exact Or.inl ⟨_, gives_pure view _, holds_put_new h hneat hbelow hi,
        fun hfalse => (by cases hfalse)⟩
    | some b =>
      rw [hb] at hi
      have hroom : Room neat i slots := Or.inl (by rw [hb]; simp)
      cases b with
      | bucket entries =>
        dsimp only
        cases hfound : entries.lookup key with
        | some old =>
          dsimp only
          split
          · next heq =>
            -- the key has the value already
            have hsame : f key = some value := by
              rw [BucketHolds.lookup hi key hbelow.under, hfound, heq]
            have heq' : Function.update f key (some value) = f := by
              rw [← hsame, Function.update_eq_self]
            refine Or.inl ⟨_, gives_pure view _, ?_, fun _ => hsame⟩
            rw [heq']
            exact h
          · refine Or.inl ⟨_, gives_pure view _, h.put hroom ?_ (hbelow.other value),
              fun hfalse => (by cases hfalse)⟩
            exact BucketHolds.set hi hbelow.under hfound value
        | none =>
          have hnone : f key = none := (BucketHolds.lookup hi key hbelow.under).trans hfound
          have hneat : neat := hnew.resolve_right fun hne => hne hnone
          dsimp only
          split
          · next hlt =>
            refine Or.inl ⟨_, gives_pure view _, h.put hroom ?_ (hbelow.other value),
              fun hfalse => (by cases hfalse)⟩
            exact BucketHolds.add hi hbelow.under hshort hfound hlt value
          · next hfull =>
            exact sets_full (fun f slots h key rest value hk =>
              ih h hk.path_eq hk.length_eq hk.short (Or.inl hneat) value) h hroom hbelow hneat hi
              hfound hfull
      | link c =>
        -- the node is read first
        obtain ⟨inner, hload, hinner⟩ := hi
        have hstored : ∀ c', some c = some c' →
            StoredAt view p c' (Holds neat view p f height (pre ++ [i])) := by
          intro c' hc'
          obtain rfl := Option.some.inj hc'
          exact ⟨inner, hload, hinner⟩
        rcases sets_below (ih hinner hbelow.path_eq hbelow.length_eq hshort hnew value) h hroom hbelow
          hstored with ⟨r, hgives, hr⟩ | ⟨hfails, hfull⟩
        · exact Or.inl ⟨r, hload.bind hgives, hr⟩
        · exact Or.inr ⟨hload.fails_bind hfails, hfull⟩
      | node stored inner =>
        exact sets_below (ih hi.1 hbelow.path_eq hbelow.length_eq hshort hnew value) h hroom hbelow
          hi.2

end

/-! ## Keys and values of what is held -/

/-- A neat trie holds no more keys with the same path than fill a bucket. -/
theorem Holds.count_le (h : Holds neat view p f height pre slots) (hneat : neat) {keys : List Bytes}
    (hnodup : keys.Nodup) (hkeys : ∀ k ∈ keys, f k ≠ none) {rest : List UInt8}
    (hpath : ∀ k ∈ keys, path k = pre ++ rest) (hlen : rest.length = height) :
    keys.length ≤ bucketSize := by
  induction height generalizing pre slots rest with
  | zero => exact h.elim
  | succ height ih =>
    match rest, hlen with
    | i :: rest, hlen =>
    have hpath' : ∀ k ∈ keys, path k = (pre ++ [i]) ++ rest := by
      intro k hk
      rw [hpath k hk, List.append_assoc]
      rfl
    have hunder : ∀ k ∈ keys, Under (pre ++ [i]) k := fun k hk => ⟨rest, (hpath' k hk).symm⟩
    have hlen' : rest.length = height := Nat.succ.inj hlen
    have hi := h.2 i
    match hb : find? i slots, hi with
    | none, hi =>
      match keys with
      | [] => exact Nat.zero_le _
      | k :: keys =>
        have hk := List.mem_cons_self (a := k) (l := keys)
        exact absurd (hi k (hunder k hk)) (hkeys k hk)
    | some (.bucket entries), hi =>
      have hsub : keys ⊆ entries.map (·.1) := by
        intro k hk
        rcases hfound : entries.lookup k with _ | v
        · exact absurd ((BucketHolds.lookup hi k (hunder k hk)).trans hfound) (hkeys k hk)
        · exact List.mem_map.mpr ⟨_, mem_of_lookup hfound, rfl⟩
      have hcount := hnodup.length_le_of_subset hsub
      rw [List.length_map] at hcount
      exact Nat.le_trans hcount (hi.neat hneat).length_le
    | some (.link c), hi =>
      obtain ⟨inner, -, hinner⟩ := hi
      exact ih hinner hpath' hlen'
    | some (.node stored inner), hi => exact ih hi.1 hpath' hlen'

/-- The keys of a neat trie are spread, since a bucket is split as long as there is a number left.
-/
theorem Holds.spread (h : Holds neat view p f levels [] slots) (hneat : neat) : Spread f := by
  intro keys hnodup hkeys hpath
  match keys with
  | [] => exact Nat.zero_le _
  | k :: keys =>
    exact h.count_le hneat hnodup hkeys (fun k' hk' => hpath k' hk' k (List.mem_cons_self ..))
      (length_path k)

/-- All values can be written. -/
def Writable (p : Packing β) (f : Entries β) : Prop :=
  ∀ key value, f key = some value → Writes p value

/-- A node that was read has buckets of values that were read, and links. -/
private theorem branchOf?_of_nodeOf? {v : Cbor} (h : nodeOf? p v = some slots) {s : UInt8 × Branch β}
    (hs : s ∈ slots) : ∃ item, branchOf? p item = some s.2 := by
  obtain ⟨field, branches, bs, -, hbs, -, rfl⟩ := nodeOf?_eq_some h
  obtain ⟨item, -, hread⟩ := (mem_of_mapM hbs).2 s.2 (List.of_mem_zip hs).2
  exact ⟨item, hread⟩

/-- What has been written can be written. -/
theorem writable_of_stored [Linking β] (hp : p.Lawful) {c : Cid} {rest : List UInt8}
    (h : StoredAt view p c (Holds neat view p f rest.length pre)) {key : Bytes}
    (hkey : path key = pre ++ rest) {value : β} (hvalue : f key = some value) : Writes p value := by
  -- down the path of the key, to the bucket that it was read from
  induction rest generalizing c pre with
  | nil =>
    obtain ⟨slots, -, hslots⟩ := h
    exact hslots.elim
  | cons i rest ih =>
    obtain ⟨slots, hload, hslots⟩ := h
    obtain ⟨-, data, w, -, -, hw⟩ := of_gives_readAs hload
    have hkey' : path key = (pre ++ [i]) ++ rest := by rw [hkey, List.append_assoc]; rfl
    have hunder : Under (pre ++ [i]) key := ⟨rest, hkey'.symm⟩
    have hi := hslots.2 i
    cases hb : find? i slots with
    | none =>
      rw [hb] at hi
      rw [hi key hunder] at hvalue
      cases hvalue
    | some b =>
      rw [hb] at hi
      obtain ⟨item, hitem⟩ := branchOf?_of_nodeOf? hw (mem_of_find? hb)
      unfold branchOf? at hitem
      split at hitem
      · obtain rfl := Option.some.inj hitem
        exact ih hi hkey'
      · next items =>
        simp only [Option.map_eq_some_iff] at hitem
        obtain ⟨entries, hentries, rfl⟩ := hitem
        rw [BucketHolds.lookup hi key hunder] at hvalue
        obtain ⟨e, -, he⟩ := (mem_of_mapM hentries).2 (key, value) (mem_of_lookup hvalue)
        unfold entryOf? at he
        split at he
        · simp only [Option.map_eq_some_iff] at he
          obtain ⟨value', hvalue', heq⟩ := he
          cases heq
          exact hp.write hvalue'
        · cases he
      · cases hitem

end Hamt

end ReplayVector
