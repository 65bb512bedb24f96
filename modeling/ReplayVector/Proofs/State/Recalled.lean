import ReplayVector.Proofs.State.Readable
import ReplayVector.Proofs.Store.Steady

/-!
# What tries and trees recall

A trie keeps the nodes that a search went through, so it recalls the values that were found in it.
A value that it recalls is replaced without a question to the store, and without another branch in
any node. Nothing is assumed of what is stored, so this is what there is to say of a state in a
store that is not consistent: of whatever else the trie has, only what was read is known.

* `Hamt.recollect`: the values that a trie recalls.
* `Hamt.insert_of_recollect`, `Hamt.set_of_recalled`: replacing one of them.
* `StateTree.Kept`: trees whose actors in memory are all recalled.
* `StateTree.Kept.gives_load`: if the sequence number of one of them has changed, the tree is loaded
  from where it was written.
-/

namespace ReplayVector

open BlockM

-- ---------------------------------------------------------------------------
-- Tries
-- ---------------------------------------------------------------------------

namespace Hamt

variable {β : Type} {p : Packing β}

/-- The value that the nodes in memory have for a key, along what is left of its path. -/
def recollect (key : Bytes) : List UInt8 → Slots β → Option β
  | [], _ => none
  | i :: rest, slots =>
    match find? i slots with
    | none => none
    | some (.bucket entries) => entries.lookup key
    | some (.link _) => none
    | some (.node _ inner) => recollect key rest inner

/-- What one node recalls of some keys, another one does. -/
def Remembers (keys : Bytes → Prop) (slots slots' : Slots β) : Prop :=
  ∀ key rest value, keys key → recollect key rest slots = some value →
    recollect key rest slots' = some value

variable {keys : Bytes → Prop} {slots : Slots β} {i : UInt8}

theorem Remembers.refl (keys : Bytes → Prop) (slots : Slots β) : Remembers keys slots slots :=
  fun _ _ _ _ h => h

/-- A branch takes the place of one that recalls no more. -/
private theorem Remembers.put {b : Branch β} (h : ∀ key rest value, keys key →
      recollect key (i :: rest) slots = some value →
      recollect key (i :: rest) (put i b slots) = some value) :
    Remembers keys slots (put i b slots) := by
  intro key rest value hkey hrecall
  cases rest with
  | nil => cases hrecall
  | cons j rest =>
    by_cases hj : j = i
    · subst hj
      exact h key rest value hkey hrecall
    · rw [recollect, find?_put, if_neg hj]
      exact hrecall

theorem remembers_put_bucket {entries entries' : List (Bytes × β)}
    (hfind : find? i slots = some (.bucket entries))
    (h : ∀ key value, keys key → entries.lookup key = some value →
      entries'.lookup key = some value) :
    Remembers keys slots (put i (.bucket entries') slots) := by
  refine Remembers.put fun key rest value hkey hrecall => ?_
  rw [recollect, hfind] at hrecall
  rw [recollect, find?_put, if_pos rfl]
  exact h key value hkey hrecall

theorem remembers_put_link {c : Cid} (hfind : find? i slots = some (.link c)) (b : Branch β) :
    Remembers keys slots (put i b slots) := by
  refine Remembers.put fun key rest value hkey hrecall => ?_
  rw [recollect, hfind] at hrecall
  cases hrecall

theorem remembers_put_node {stored stored' : Option Cid} {inner inner' : Slots β}
    (hfind : find? i slots = some (.node stored inner)) (h : Remembers keys inner inner') :
    Remembers keys slots (put i (.node stored' inner') slots) := by
  refine Remembers.put fun key rest value hkey hrecall => ?_
  rw [recollect, hfind] at hrecall
  rw [recollect, find?_put, if_pos rfl]
  exact h key rest value hkey hrecall

theorem plain_put_node (h : Plain slots) (hfind : find? i slots ≠ none) (stored : Option Cid)
    (inner : Slots β) : Plain (put i (.node stored inner) slots) :=
  h.put hfind fun _ hb => by cases hb

/-- Another value for a key of a bucket leaves the keys of the bucket as they are. -/
theorem plain_put_setEntry {entries : List (Bytes × β)} (h : Plain slots)
    (hfind : find? i slots = some (.bucket entries)) (key : Bytes) (value : β) :
    Plain (put i (.bucket (setEntry key value entries)) slots) := by
  refine h.put (by simp [hfind]) fun entries' heq => ?_
  cases heq
  have hshort := h.short i entries (mem_of_find? hfind)
  refine ⟨by rw [(mem_setEntry key value entries).1]; exact hshort.length_lt, ?_⟩
  intro e he
  have hkey := List.mem_map_of_mem (f := Prod.fst) he
  rw [map_setEntry] at hkey
  obtain ⟨e', he', heq⟩ := List.mem_map.mp hkey
  rw [← heq]
  exact hshort.keys_lt e' he'

/-- The value that is found is recalled from then on, and nothing is forgotten. -/
theorem ensures_lookup (p : Packing β) (key : Bytes) (rest : List UInt8) (slots : Slots β) :
    (lookup p key rest slots).Ensures fun r =>
      (∀ value, r.1 = some value → recollect key rest r.2 = some value) ∧
        Remembers (fun _ => True) slots r.2 ∧ (Plain slots → Plain r.2) := by
  induction rest generalizing slots with
  | nil => exact ensures_fail _
  | cons i rest ih =>
    -- what holds of the node below, once the node itself keeps it
    have hbelow {r : Option β × Slots β} (stored : Option Cid)
        (hr : ∀ value, r.1 = some value → recollect key rest r.2 = some value)
        (hfind : find? i slots ≠ none) :
        (∀ value, r.1 = some value →
          recollect key (i :: rest) (put i (.node stored r.2) slots) = some value) ∧
        (Plain slots → Plain (put i (.node stored r.2) slots)) := by
      refine ⟨fun value hvalue => ?_, fun h => plain_put_node h hfind stored r.2⟩
      rw [recollect, find?_put, if_pos rfl]
      exact hr value hvalue
    rw [lookup]
    split
    · exact ensures_pure ⟨fun _ hnone => (by cases hnone), .refl _ slots, fun h => h⟩
    · next entries hfind =>
      refine ensures_pure ⟨fun value hvalue => ?_, .refl _ slots, fun h => h⟩
      rw [recollect, hfind]
      exact hvalue
    · next c hfind =>
      refine (ensures_true (loadNode p c)).bind fun inner _ => (ih inner).bind fun r hr => ?_
      obtain ⟨hfound, hplain⟩ := hbelow (some c) hr.1 (by simp [hfind])
      exact ensures_pure ⟨hfound, remembers_put_link hfind _, hplain⟩
    · next stored inner hfind =>
      refine (ih inner).bind fun r hr => ?_
      obtain ⟨hfound, hplain⟩ := hbelow stored hr.1 (by simp [hfind])
      exact ensures_pure ⟨hfound, remembers_put_node hfind hr.2.1, hplain⟩

variable [DecidableEq β]

/-- A value that is recalled is replaced without asking for anything. -/
theorem insert_of_recollect (p : Packing β) {height : Nat} {rest : List UInt8} {key : Bytes}
    {old : β} (value : β) {slots : Slots β} (hheight : rest.length ≤ height)
    (h : recollect key rest slots = some old) :
    ∃ slots', insert p height rest key value slots = pure (decide (old ≠ value), slots') ∧
      recollect key rest slots' = some value ∧ Remembers (· ≠ key) slots slots' ∧
      (Plain slots → Plain slots') := by
  -- by induction on the path, down to the bucket with the value
  induction rest generalizing height slots with
  | nil => cases h
  | cons i rest ih =>
    obtain ⟨height, rfl⟩ : ∃ n, height = n + 1 := ⟨height - 1, by simp at hheight; omega⟩
    have hheight' : rest.length ≤ height := by simpa using hheight
    rw [recollect] at h
    split at h
    · cases h
    · next entries hfind =>
      rw [insert, hfind]
      dsimp only
      rw [h]
      dsimp only
      split
      · next heq =>
        refine ⟨slots, by simp [heq], ?_, .refl _ slots, fun h => h⟩
        rw [recollect, hfind, ← heq]
        exact h
      · next hne =>
        refine ⟨_, by rw [decide_eq_true hne], ?_, remembers_put_bucket hfind ?_,
          fun hplain => plain_put_setEntry hplain hfind key value⟩
        · rw [recollect, find?_put, if_pos rfl]
          dsimp only
          rw [lookup_setEntry h, if_pos rfl]
        · intro key' value' hkey' hvalue'
          rw [lookup_setEntry h, if_neg hkey', hvalue']
    · cases h
    · next stored inner hfind =>
      obtain ⟨inner', hinsert, hrecall, hremembers, -⟩ := ih hheight' h
      rw [insert, hfind]
      dsimp only
      rw [hinsert, pure_bind]
      refine ⟨_, rfl, ?_, remembers_put_node hfind hremembers, ?_⟩
      · rw [recollect, find?_put, if_pos rfl]
        exact hrecall
      · exact fun hplain => plain_put_node hplain (by simp [hfind]) _ inner'

/-- The value that a trie recalls for a key. -/
def recalled (m : Hamt β) (key : Bytes) : Option β := recollect key (path key) m.root

omit [DecidableEq β] in
theorem ensures_load [Linking β] (hp : p.Lawful) (c : Cid) :
    (load p c).Ensures fun m => Plain m.root := by
  refine (ensures_readAs c fun _ _ _ hv hslots => ?_).bind fun _ hplain => ensures_pure hplain
  exact plain_of_nodeOf? hp hv hslots

omit [DecidableEq β] in
theorem ensures_get? (p : Packing β) (m : Hamt β) (key : Bytes) :
    (m.get? p key).Ensures fun r =>
      (∀ value, r.1 = some value → r.2.recalled key = some value) ∧
        (∀ key' value, m.recalled key' = some value → r.2.recalled key' = some value) ∧
        (Plain m.root → Plain r.2.root) := by
  refine (ensures_lookup p key (path key) m.root).bind fun _ hr => ?_
  exact ensures_pure ⟨hr.1, fun key' value => hr.2.1 key' (path key') value trivial, hr.2.2⟩

/-- A value that a trie recalls is replaced without asking for anything. If it is another one, the
trie has yet to be written. -/
theorem set_of_recalled (p : Packing β) {m : Hamt β} {key : Bytes} {old : β} (value : β)
    (h : m.recalled key = some old) :
    ∃ m', m.set p key value = pure m' ∧ m'.recalled key = some value ∧
      (∀ key' value', key' ≠ key → m.recalled key' = some value' →
        m'.recalled key' = some value') ∧
      (Plain m.root → Plain m'.root) ∧ m'.stored = if old = value then m.stored else none := by
  obtain ⟨root, hinsert, hrecall, hremembers, hplain⟩ :=
    insert_of_recollect p value (Nat.le_of_eq (length_path key)) h
  refine ⟨{ root, stored := if decide (old ≠ value) then none else m.stored }, ?_, hrecall,
    fun key' value' => hremembers key' (path key') value', hplain, ?_⟩
  · rw [set, hinsert]
    rfl
  · by_cases heq : old = value <;> simp [heq]

omit [DecidableEq β] in
/-- The root of a trie that has yet to be written is read as it is written. -/
theorem Plain.gives_load [Linking β] (hp : p.Lawful) {m m' : Hamt β} {c : Cid} {ws : List Block}
    {view view' : View} (hplain : Plain m.root) (hstored : m.stored = none)
    (hflush : (m.flush p).on view = (.ok (c, m'), ws)) (hws : ∀ b ∈ ws, view' b.cid = some b.data) :
    ∃ m'', (load p c).Gives view' m'' := by
  rw [flush, hstored] at hflush
  obtain ⟨slots, ws₁, ws₂, hslots, hrest, rfl⟩ := of_on_bind_ok hflush
  obtain ⟨c', ws₃, ws₄, hstore, hdone, rfl⟩ := of_on_bind_ok hrest
  cases hdone
  -- buckets are written as they are
  obtain ⟨hnumbers, hbuckets⟩ := forall_of_flushSlots
    (fun _ b => ∀ entries, b = .bucket entries → Short entries) (fun s hs b ws' hb _ => by
      intro entries heq
      subst heq
      obtain ⟨i, branch⟩ := s
      rcases branch with entries' | c | ⟨_ | c, inner⟩
      · rw [flushBranch] at hb
        cases hb
        exact hplain.short i entries hs
      · rw [flushBranch] at hb
        cases hb
      · rw [flushBranch] at hb
        obtain ⟨_, _, _, -, hrest, -⟩ := of_on_bind_ok hb
        obtain ⟨_, _, _, -, hdone, -⟩ := of_on_bind_ok hrest
        cases hdone
      · rw [flushBranch] at hb
        cases hb) hslots
  have hplain' : Plain slots := by
    have hlength := congrArg List.length hnumbers
    rw [List.length_map, List.length_map] at hlength
    exact ⟨hplain.sorted.of_map_eq hnumbers, hlength ▸ hplain.length_le,
      fun i entries hb => hbuckets _ hb entries rfl⟩
  exact ⟨_, (hplain'.gives_loadNode hp hstore fun b hb =>
    hws b (List.mem_append_right _ (List.mem_append_left _ hb))).bind (gives_pure view' _)⟩

end Hamt

-- ---------------------------------------------------------------------------
-- Trees
-- ---------------------------------------------------------------------------

namespace StateTree

/-- All actors in memory are recalled, as they are unless they were changed. Either none was
changed, or one of them was given the sequence number that it has now. -/
structure Kept (charged : Option (ActorId × UInt64)) (t : StateTree) : Prop where
  plain : Hamt.Plain t.map.root
  nodup : (t.known.map (·.1)).Nodup
  recalled : ∀ id k a, t.known.lookup id = some k → k.actor = some a →
    ∃ old, t.map.recalled (key id) = some old ∧ (k.changed = false → old = a)
  untouched : charged = none → ∀ id k, t.known.lookup id = some k → k.changed = false
  touched : ∀ id n, charged = some (id, n) → ∃ k a old, t.known.lookup id = some k ∧
    k.changed = true ∧ k.actor = some a ∧ a.sequence = n ∧
    t.map.recalled (key id) = some old ∧ old.sequence ≠ n

variable {charged : Option (ActorId × UInt64)} {t : StateTree} {id : ActorId}

/-- The actor is in memory. -/
def Holds (t : StateTree) (id : ActorId) (a : Actor) : Prop :=
  ∃ k, t.known.lookup id = some k ∧ k.actor = some a

theorem ensures_load (root : Cid) : (load root).Ensures (Kept none) := by
  have hroot : (ofRoot root).Ensures (Kept none) := by
    unfold ofRoot
    refine (ensures_true _).bind fun r _ => ?_
    split
    · exact ensures_fail _
    · refine (Hamt.ensures_load Actor.packing_lawful r.actors).bind fun map hplain => ?_
      refine ensures_pure ⟨hplain, .nil, ?_, fun _ => ?_, ?_⟩
      · exact fun _ _ _ hk => (by cases hk)
      · exact fun _ _ hk => (by cases hk)
      · exact fun _ _ heq => (by cases heq)
  exact hroot.summarize _

/-- An actor that is found is in memory from then on. -/
theorem Kept.ensures_findActor (h : t.Kept charged) (id : ActorId) :
    (t.findActor id).Ensures fun r =>
      r.2.Kept charged ∧ ∀ a, r.1 = some a → r.2.Holds id a := by
  rw [findActor]
  cases hk : t.known.lookup id with
  | some k => exact ensures_pure ⟨h, fun a ha => ⟨k, hk, ha⟩⟩
  | none =>
    refine (Hamt.ensures_get? Actor.packing t.map (key id)).bind fun r hr => ?_
    obtain ⟨actor, map⟩ := r
    obtain ⟨hfound, hkeeps, hplain⟩ := hr
    refine ensures_pure ⟨⟨hplain h.plain, nodup_setKnown h.nodup, ?_, ?_, ?_⟩, fun a ha => ?_⟩
    · intro j k a hj ha
      dsimp only at hj
      rw [lookup_setKnown] at hj
      split at hj
      · next heq =>
        cases hj
        exact ⟨a, heq ▸ hfound a ha, fun _ => rfl⟩
      · obtain ⟨old, hold, hsame⟩ := h.recalled j k a hj ha
        exact ⟨old, hkeeps (key j) old hold, hsame⟩
    · intro hnone j k hj
      dsimp only at hj
      rw [lookup_setKnown] at hj
      split at hj
      · cases hj
        rfl
      · exact h.untouched hnone j k hj
    · intro j n hcharged
      obtain ⟨k, a, old, hj, hchanged, ha, hn, hold, hne⟩ := h.touched j n hcharged
      refine ⟨k, a, old, ?_, hchanged, ha, hn, hkeeps (key j) old hold, hne⟩
      dsimp only
      rw [lookup_setKnown, if_neg fun heq => ?_, hj]
      rw [← heq, hj] at hk
      cases hk
    · refine ⟨⟨actor, false⟩, ?_, ha⟩
      dsimp only
      rw [lookup_setKnown, if_pos rfl]

theorem Kept.ensures_findId (h : t.Kept charged) (a : Address) :
    (t.findId a).Ensures fun r => r.2.Kept charged := by
  rw [findId]
  split
  · exact ensures_pure h
  · split
    · exact ensures_pure h
    · refine (h.ensures_findActor .registry).bind fun r hr => ?_
      obtain ⟨actor, t'⟩ := r
      refine (ensures_true _).bind fun actor _ => (ensures_true _).bind fun registry _ => ?_
      refine (ensures_true _).bind fun found _ => ?_
      obtain ⟨hplain, hnodup, hrecalled, huntouched, htouched⟩ := hr.1
      cases found with
      | none => exact ensures_pure hr.1
      | some id => exact ensures_pure ⟨hplain, hnodup, hrecalled, huntouched, htouched⟩

/-- An actor in memory is changed. -/
private theorem Kept.recalled_setActor (h : t.Kept charged) {a : Actor} (hid : t.Holds id a)
    (a' : Actor) (j : ActorId) (k : KnownActor) (b : Actor)
    (hj : (t.setActor id a').known.lookup j = some k) (hb : k.actor = some b) :
    ∃ old, (t.setActor id a').map.recalled (key j) = some old ∧ (k.changed = false → old = b) := by
  rw [setActor, lookup_setKnown] at hj
  split at hj
  · next heq =>
    cases hj
    obtain ⟨k, hk, ha⟩ := hid
    obtain ⟨old, hold, -⟩ := h.recalled id k a hk ha
    exact ⟨old, heq ▸ hold, fun hunchanged => by cases hunchanged⟩
  · exact h.recalled j k b hj hb

/-- The first change gives an actor another sequence number. -/
theorem Kept.charge (h : t.Kept none) {a a' : Actor} (hid : t.Holds id a)
    (hne : a'.sequence ≠ a.sequence) : (t.setActor id a').Kept (some (id, a'.sequence)) where
  plain := h.plain
  nodup := nodup_setKnown h.nodup
  recalled := h.recalled_setActor hid a'
  untouched := nofun
  touched := by
    intro j n heq
    cases heq
    obtain ⟨k, hk, ha⟩ := hid
    obtain ⟨old, hold, hsame⟩ := h.recalled id k a hk ha
    obtain rfl := hsame (h.untouched rfl id k hk)
    refine ⟨⟨some a', true⟩, a', old, ?_, rfl, rfl, rfl, hold, hne.symm⟩
    rw [setActor, lookup_setKnown, if_pos rfl]

/-- Later changes leave sequence numbers alone. -/
theorem Kept.setActor {s : ActorId} {n : UInt64} (h : t.Kept (some (s, n))) {a a' : Actor}
    (hid : t.Holds id a) (heq : a'.sequence = a.sequence) :
    (t.setActor id a').Kept (some (s, n)) where
  plain := h.plain
  nodup := nodup_setKnown h.nodup
  recalled := h.recalled_setActor hid a'
  untouched := nofun
  touched := by
    intro j m hcharged
    obtain ⟨k, b, old, hj, hchanged, hb, hm, hold, hne⟩ := h.touched j m hcharged
    by_cases hsame : j = id
    · subst hsame
      obtain ⟨k', hk', ha⟩ := hid
      obtain rfl : k = k' := Option.some.inj (hj.symm.trans hk')
      obtain rfl : b = a := Option.some.inj (hb.symm.trans ha)
      refine ⟨⟨some a', true⟩, a', old, ?_, rfl, rfl, heq.trans hm, hold, hne⟩
      rw [StateTree.setActor, lookup_setKnown, if_pos rfl]
    · refine ⟨k, b, old, ?_, hchanged, hb, hm, hold, hne⟩
      rw [StateTree.setActor, lookup_setKnown, if_neg hsame, hj]

/-- The map learns of all changes of actors that it recalls, without asking for anything. If one
makes a difference, the map has yet to be written. -/
theorem moveChanged_of_recalled {known : List (ActorId × KnownActor)} {map : Hamt Actor}
    (hnodup : (known.map (·.1)).Nodup) (hplain : Hamt.Plain map.root)
    (h : ∀ e ∈ known, e.2.actor ≠ none → map.recalled (key e.1) ≠ none) :
    ∃ rest map', moveChanged known map = pure (.ok (), rest, map') ∧ Hamt.Plain map'.root ∧
      (map.stored = none → map'.stored = none) ∧
      ∀ e ∈ known, e.2.changed = true → ∀ a, e.2.actor = some a →
        map.recalled (key e.1) ≠ some a → map'.stored = none := by
  induction known generalizing map with
  | nil => exact ⟨[], map, rfl, hplain, fun h => h, fun _ he => by cases he⟩
  | cons e known ih =>
    obtain ⟨id, k⟩ := e
    obtain ⟨hnotin, hnodup⟩ := List.nodup_cons.mp hnodup
    have hrest := fun e he => h e (List.mem_cons_of_mem _ he)
    rw [moveChanged]
    split
    · next a hchanged hactor =>
      obtain ⟨old, hold⟩ := Option.ne_none_iff_exists'.mp
        (h (id, k) (List.mem_cons_self ..) (by simp [hactor]))
      obtain ⟨map₁, hset, -, hkeeps, hplain₁, hstored₁⟩ :=
        Hamt.set_of_recalled Actor.packing a hold
      -- the other actors are recalled as before
      have hsame : ∀ e ∈ known, e.2.actor ≠ none →
          map₁.recalled (key e.1) = map.recalled (key e.1) := by
        intro e he hne
        have hother : key e.1 ≠ key id := fun heq =>
          hnotin (List.mem_map.mpr ⟨e, he, key_inj heq⟩)
        obtain ⟨b, hb⟩ := Option.ne_none_iff_exists'.mp (hrest e he hne)
        rw [hb, hkeeps (key e.1) b hother hb]
      obtain ⟨rest, map', hmoved, hplain', hlater, hdiffers⟩ :=
        ih hnodup (hplain₁ hplain) fun e he hne => by rw [hsame e he hne]; exact hrest e he hne
      refine ⟨(id, { k with changed := false }) :: rest, map', ?_, hplain',
        fun hnone => hlater ?_, ?_⟩
      · rw [hset]
        show (moveChanged known map₁ >>= fun r => pure (r.1, (id, { k with changed := false }) ::
          r.2.1, r.2.2)) = _
        rw [hmoved, pure_bind]
      · rw [hstored₁, hnone, ite_self]
      · intro e he hchanged' b hb hne
        rcases List.mem_cons.mp he with rfl | he
        · obtain rfl : a = b := Option.some.inj (hactor.symm.trans hb)
          have hdifferent : old ≠ a := fun heq => hne (heq ▸ hold)
          exact hlater (by rw [hstored₁, if_neg hdifferent])
        · refine hdiffers e he hchanged' b hb ?_
          rwa [hsame e he (by simp [hb])]
    · next hnot =>
      obtain ⟨rest, map', hmoved, hplain', hlater, hdiffers⟩ := ih hnodup hplain hrest
      refine ⟨(id, k) :: rest, map', by rw [hmoved, pure_bind], hplain', hlater, ?_⟩
      intro e he hchanged b hb hne
      rcases List.mem_cons.mp he with rfl | he
      · exact (hnot b hchanged hb).elim
      · exact hdiffers e he hchanged b hb hne

/-- Once an actor has another sequence number, the tree is loaded from where it was written. -/
theorem Kept.gives_load {s : ActorId × UInt64} (h : t.Kept (some s)) {view view' : View}
    {root : Cid} {ws : List Block} (hwrite : t.write.on view = (.ok root, ws))
    (hws : ∀ b ∈ ws, view' b.cid = some b.data) : ∃ t', (load root).Gives view' t' := by
  obtain ⟨rest, map, hmoved, hplain, -, hdiffers⟩ :=
    moveChanged_of_recalled h.nodup h.plain fun e he hne => by
      obtain ⟨a, ha⟩ := Option.ne_none_iff_exists'.mp hne
      obtain ⟨old, hold, -⟩ := h.recalled e.1 e.2 a (Hamt.lookup_of_mem h.nodup he) ha
      rw [hold]
      nofun
  have hstored : map.stored = none := by
    obtain ⟨k, a, old, hk, hchanged, ha, hn, hold, hne⟩ := h.touched s.1 s.2 rfl
    refine hdiffers (s.1, k) (Hamt.mem_of_lookup hk) hchanged a ha fun heq => hne ?_
    obtain rfl : old = a := Option.some.inj (hold.symm.trans heq)
    exact hn
  have hgives : (moveChanged t.known t.map).Gives view (.ok (), rest, map) := by
    rw [hmoved]
    exact gives_pure view _
  rw [on_write_of_moved hgives] at hwrite
  rcases hflush : (map.flush Actor.packing).on view with ⟨e | ⟨c, map'⟩, ws'⟩
  · rw [hflush] at hwrite
    cases hwrite
  · rw [hflush] at hwrite
    cases hwrite
    obtain ⟨map'', hload⟩ := hplain.gives_load Actor.packing_lawful hstored hflush
      fun b hb => hws b (List.mem_append_left _ hb)
    have hread := gives_readAs_root c t.info
      (hws _ (List.mem_append_right _ (List.mem_singleton_self _)))
    exact ⟨_, gives_loadRoot hread rfl hload⟩

end StateTree

end ReplayVector
