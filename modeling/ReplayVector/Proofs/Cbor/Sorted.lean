import ReplayVector.Proofs.Cbor.RoundTrip

/-!
# Structured data with keys in any order

A value can be written with the keys of its maps in any order, but the reader brings the entries of
every map into the order of their keys' bytes. So a value with distinct keys is read with its
entries sorted, as long as it is not nested too deep.

* `nested`: induction on the nesting of a value.
* `sortEntries?_eq`: the reader sorts entries.
* `decode?_encode_eq`: what is read from the encoding of a value, and when.
-/

namespace ReplayVector.Cbor

-- ---------------------------------------------------------------------------
-- Values and their parts
-- ---------------------------------------------------------------------------

/-- Induction on the nesting of a value: what holds of all items holds of a list, and what holds of
all values holds of a map. -/
theorem nested {P : Cbor → Prop}
    (plain : ∀ v, (∀ items, v ≠ .list items) → (∀ entries, v ≠ .map entries) → P v)
    (list : ∀ items, (∀ v ∈ items, P v) → P (.list items))
    (map : ∀ entries : List (String × Cbor), (∀ e ∈ entries, P e.2) → P (.map entries))
    (v : Cbor) : P v := by
  refine @Cbor.rec P (fun items => ∀ v ∈ items, P v) (fun entries => ∀ e ∈ entries, P e.2)
    (fun e => P e.2) ?null ?bool ?int ?float ?bytes ?text list map ?link ?nil ?cons ?nil' ?cons'
    (fun _ _ h => h) v
  case nil | nil' => exact fun _ h => absurd h List.not_mem_nil
  case cons => exact fun _ _ hv hvs => List.forall_mem_cons.mpr ⟨hv, hvs⟩
  case cons' => exact fun _ _ he hes => List.forall_mem_cons.mpr ⟨he, hes⟩
  all_goals intros; exact plain _ nofun nofun

/-- What holds of the entries of every map in a value. -/
inductive EveryMap (P : List (String × Cbor) → Prop) : Cbor → Prop
  | plain {v : Cbor} (hlist : ∀ items, v ≠ .list items) (hmap : ∀ entries, v ≠ .map entries) :
      EveryMap P v
  | list {items : List Cbor} (hitems : ∀ v ∈ items, EveryMap P v) : EveryMap P (.list items)
  | map {entries : List (String × Cbor)} (hmap : P entries)
      (hentries : ∀ e ∈ entries, EveryMap P e.2) : EveryMap P (.map entries)

theorem everyMap_list {P : List (String × Cbor) → Prop} {items : List Cbor} :
    (Cbor.list items).EveryMap P ↔ ∀ v ∈ items, v.EveryMap P := by
  refine ⟨fun h => ?_, .list⟩
  cases h with
  | plain hlist => exact absurd rfl (hlist items)
  | list hitems => exact hitems

theorem everyMap_map {P : List (String × Cbor) → Prop} {entries : List (String × Cbor)} :
    (Cbor.map entries).EveryMap P ↔ P entries ∧ ∀ e ∈ entries, e.2.EveryMap P := by
  refine ⟨fun h => ?_, fun h => .map h.1 h.2⟩
  cases h with
  | plain _ hmap => exact absurd rfl (hmap entries)
  | map hmap hentries => exact ⟨hmap, hentries⟩

/-- No key repeats. -/
def DistinctKeys (entries : List (String × Cbor)) : Prop := (entries.map Prod.fst).Nodup

/-- Numbers and lengths are what heads can say. -/
inductive Writable : Cbor → Prop
  | null : Writable .null
  | bool (b : Bool) : Writable (.bool b)
  | int {n : Int} (hn : -2 ^ 64 ≤ n ∧ n < 2 ^ 64) : Writable (.int n)
  | float (bits : UInt64) : Writable (.float bits)
  | bytes {bs : Bytes} (hlen : bs.length < 2 ^ 64) : Writable (.bytes bs)
  | text {s : String} (hlen : s.utf8ByteSize < 2 ^ 64) : Writable (.text s)
  | list {items : List Cbor} (hlen : items.length < 2 ^ 64) (hitems : ∀ v ∈ items, Writable v) :
      Writable (.list items)
  | map {entries : List (String × Cbor)} (hlen : entries.length < 2 ^ 64)
      (hkeys : ∀ e ∈ entries, e.1.utf8ByteSize < 2 ^ 64) (hentries : ∀ e ∈ entries, Writable e.2) :
      Writable (.map entries)
  | link (c : Cid) : Writable (.link c)

mutual

/-- How many levels a value nests; every value counts. -/
def levels : Cbor → Nat
  | .list items => levelsOfItems items + 1
  | .map entries => levelsOfEntries entries + 1
  | _ => 1

/-- The levels of the deepest item. -/
def levelsOfItems : List Cbor → Nat
  | [] => 0
  | v :: vs => max v.levels (levelsOfItems vs)

/-- The levels of the deepest entry. -/
def levelsOfEntries : List (String × Cbor) → Nat
  | [] => 0
  | (_, v) :: es => max v.levels (levelsOfEntries es)

end

-- ---------------------------------------------------------------------------
-- Entries in the order of their keys
-- ---------------------------------------------------------------------------

/-- Entries in the order of their keys. -/
def byKey (entries : List (String × Cbor)) : List (String × Cbor) :=
  entries.mergeSort fun e e' => ! decide (e'.1 < e.1)

theorem perm_byKey (entries : List (String × Cbor)) : (byKey entries).Perm entries :=
  List.mergeSort_perm _ _

/-- Sorted entries are in strict order if their keys are distinct. -/
theorem pairwise_byKey {entries : List (String × Cbor)} (h : DistinctKeys entries) :
    (byKey entries).Pairwise fun e e' => e.1 < e'.1 := by
  have hsorted : (byKey entries).Pairwise fun e e' => (! decide (e'.1 < e.1)) = true := by
    refine List.pairwise_mergeSort (fun a b c hab hbc => ?_) (fun a b => ?_) entries
    · simp only [Bool.not_eq_true', decide_eq_false_iff_not, String.not_lt] at hab hbc ⊢
      exact String.le_trans hab hbc
    · simp only [Bool.or_eq_true, Bool.not_eq_true', decide_eq_false_iff_not, String.not_lt]
      exact String.le_total a.1 b.1
  have hdistinct : (byKey entries).Pairwise fun e e' => e.1 ≠ e'.1 :=
    List.pairwise_map.mp (((perm_byKey entries).map Prod.fst).nodup_iff.mpr h)
  refine (hsorted.and hdistinct).imp fun {a b} hab => ?_
  simp only [Bool.not_eq_true', decide_eq_false_iff_not, String.not_lt] at hab
  exact Std.lt_of_le_of_ne hab.1 hab.2

/-- Entries in strict order are determined by what they are. -/
theorem eq_of_perm_of_pairwise {es es' : List (String × Cbor)} (hperm : es.Perm es')
    (h : es.Pairwise fun e e' => e.1 < e'.1) (h' : es'.Pairwise fun e e' => e.1 < e'.1) :
    es = es' := by
  refine hperm.eq_of_pairwise (fun e e' _ _ hlt hgt => ?_) h h'
  exact absurd hgt (String.lt_asymm hlt)

/-- Putting a new key into entries in order. -/
private theorem insertKeyed?_of_new {k : String} {v : Cbor} {es : List (String × Cbor)}
    (hsorted : es.Pairwise fun e e' => e.1 < e'.1) (hnew : ∀ e ∈ es, k ≠ e.1) :
    ∃ es', insertKeyed? k v es = some es' ∧ es'.Perm ((k, v) :: es) ∧
      es'.Pairwise fun e e' => e.1 < e'.1 := by
  induction es with
  | nil => exact ⟨[(k, v)], rfl, .refl _, List.pairwise_singleton ..⟩
  | cons e es ih =>
    obtain ⟨k', v'⟩ := e
    obtain ⟨hfirst, hes⟩ := List.pairwise_cons.mp hsorted
    obtain ⟨hne, hnew⟩ := List.forall_mem_cons.mp hnew
    rw [insertKeyed?, if_neg hne]
    split
    · next hlt =>
      refine ⟨_, rfl, .refl _, List.pairwise_cons.mpr ⟨fun e he => ?_, hsorted⟩⟩
      rcases List.mem_cons.mp he with rfl | he
      · exact hlt
      · exact String.lt_trans hlt (hfirst e he)
    · next hge =>
      obtain ⟨es', hinsert, hperm, hpair⟩ := ih hes hnew
      refine ⟨(k', v') :: es', by rw [hinsert]; rfl, (hperm.cons _).trans (.swap ..), ?_⟩
      refine List.pairwise_cons.mpr ⟨fun e he => ?_, hpair⟩
      rcases List.mem_cons.mp (hperm.mem_iff.mp he) with rfl | he
      · exact Std.lt_of_le_of_ne (String.not_lt.mp hge) (Ne.symm hne)
      · exact hfirst e he

/-- The reader sorts entries by key, if no key repeats. -/
theorem sortEntries?_eq {entries : List (String × Cbor)} (h : DistinctKeys entries) :
    sortEntries? entries = some (byKey entries) := by
  have hsort : ∃ es', sortEntries? entries = some es' ∧ es'.Perm entries ∧
      es'.Pairwise fun e e' => e.1 < e'.1 := by
    induction entries with
    | nil => exact ⟨[], rfl, .refl _, .nil⟩
    | cons e es ih =>
      obtain ⟨hnot, hes⟩ := List.nodup_cons.mp h
      obtain ⟨es', hrest, hperm, hpair⟩ := ih hes
      have hnew : ∀ e' ∈ es', e.1 ≠ e'.1 := fun e' he' heq =>
        hnot (heq ▸ List.mem_map_of_mem (hperm.mem_iff.mp he'))
      obtain ⟨es'', hinsert, hperm', hpair'⟩ := insertKeyed?_of_new (v := e.2) hpair hnew
      refine ⟨es'', ?_, hperm'.trans (hperm.cons e), hpair'⟩
      rw [sortEntries?, hrest]
      exact hinsert
  obtain ⟨es', hes', hperm, hpair⟩ := hsort
  rw [hes', eq_of_perm_of_pairwise (hperm.trans (perm_byKey entries).symm) hpair (pairwise_byKey h)]

-- ---------------------------------------------------------------------------
-- Reading what was written
-- ---------------------------------------------------------------------------

mutual

/-- The value with the entries of every map in the order of their keys. -/
def sorted : Cbor → Cbor
  | .list items => .list (sortedItems items)
  | .map entries => .map (byKey (sortedEntries entries))
  | v => v

/-- Sorts the entries of the maps in items. -/
def sortedItems : List Cbor → List Cbor
  | [] => []
  | v :: vs => v.sorted :: sortedItems vs

/-- Sorts the entries of the maps in the values of entries. -/
def sortedEntries : List (String × Cbor) → List (String × Cbor)
  | [] => []
  | (k, v) :: es => (k, v.sorted) :: sortedEntries es

end

theorem sortedItems_eq (items : List Cbor) : sortedItems items = items.map sorted := by
  induction items with
  | nil => rfl
  | cons v vs ih => rw [sortedItems, ih, List.map_cons]

theorem sortedEntries_eq (entries : List (String × Cbor)) :
    sortedEntries entries = entries.map fun e => (e.1, e.2.sorted) := by
  induction entries with
  | nil => rfl
  | cons e es ih => rw [sortedEntries, ih, List.map_cons]

/-- Sorting inside the values leaves the keys alone. -/
theorem distinctKeys_sortedEntries {entries : List (String × Cbor)} (h : DistinctKeys entries) :
    DistinctKeys (sortedEntries entries) := by
  rw [DistinctKeys, sortedEntries_eq, List.map_map]
  exact h

/-- A value that is neither list nor map has one level and nothing to sort. -/
theorem plain_eq {v : Cbor} (hlist : ∀ items, v ≠ .list items)
    (hmap : ∀ entries, v ≠ .map entries) : v.levels = 1 ∧ v.sorted = v := by
  cases v with
  | list items => exact absurd rfl (hlist items)
  | map entries => exact absurd rfl (hmap entries)
  | _ => exact ⟨rfl, rfl⟩

/-- Such a value is read wherever a level is left. -/
private theorem fits_of_writable {v : Cbor} (hlist : ∀ items, v ≠ .list items)
    (hmap : ∀ entries, v ≠ .map entries) (h : v.Writable) (depth : Nat) : v.Fits (depth + 1) := by
  cases h with
  | list => exact absurd rfl (hlist _)
  | map => exact absurd rfl (hmap _)
  | int hn => exact hn
  | bytes hlen => exact hlen
  | text hlen => exact hlen
  | _ => trivial

/-- The value whose encoding a reader has in front of it, as long as it is not nested too deep. -/
private def ReadsWithin (depth : Nat) (value : Bytes → Option (Cbor × Bytes)) (v : Cbor) : Prop :=
  ∀ rest, value (encode v ++ rest) = if v.levels ≤ depth then some (v.sorted, rest) else none

private theorem readItems?_encodeItems {depth : Nat} {value : Bytes → Option (Cbor × Bytes)}
    {items : List Cbor} (h : ∀ v ∈ items, ReadsWithin depth value v) (rest : Bytes) :
    readItems? value items.length (encodeItems items ++ rest) =
      if levelsOfItems items ≤ depth then some (sortedItems items, rest) else none := by
  induction items with
  | nil => rw [if_pos (show levelsOfItems [] ≤ depth from Nat.zero_le depth)]; rfl
  | cons v vs ih =>
    obtain ⟨hv, hvs⟩ := List.forall_mem_cons.mp h
    have hrest := ih hvs
    rw [List.length_cons, readItems?, encodeItems, List.append_assoc, hv, levelsOfItems,
      sortedItems]
    by_cases hle : v.levels ≤ depth
    · rw [if_pos hle]
      show (readItems? value vs.length (encodeItems vs ++ rest)).bind _ = _
      rw [hrest]
      by_cases hles : levelsOfItems vs ≤ depth
      · rw [if_pos hles, if_pos (by omega)]
        rfl
      · rw [if_neg hles, if_neg (by omega)]
        rfl
    · rw [if_neg hle, if_neg (by omega)]
      rfl

private theorem readEntries?_encodeEntries {depth : Nat} {value : Bytes → Option (Cbor × Bytes)}
    {entries : List (String × Cbor)} (hkeys : ∀ e ∈ entries, e.1.utf8ByteSize < 2 ^ 64)
    (h : ∀ e ∈ entries, ReadsWithin depth value e.2) (rest : Bytes) :
    readEntries? value entries.length (encodeEntries entries ++ rest) =
      if levelsOfEntries entries ≤ depth then some (sortedEntries entries, rest) else none := by
  induction entries with
  | nil => rw [if_pos (show levelsOfEntries [] ≤ depth from Nat.zero_le depth)]; rfl
  | cons e es ih =>
    obtain ⟨k, v⟩ := e
    obtain ⟨hk, hks⟩ := List.forall_mem_cons.mp hkeys
    obtain ⟨hv, hvs⟩ := List.forall_mem_cons.mp h
    have hrest := ih hks hvs
    rw [List.length_cons, readEntries?, encodeEntries, List.append_assoc, List.append_assoc,
      readKey?_encodeText_append hk, levelsOfEntries, sortedEntries]
    show (value (encode v ++ (encodeEntries es ++ rest))).bind _ = _
    rw [hv]
    by_cases hle : v.levels ≤ depth
    · rw [if_pos hle]
      show (readEntries? value es.length (encodeEntries es ++ rest)).bind _ = _
      rw [hrest]
      by_cases hles : levelsOfEntries es ≤ depth
      · rw [if_pos hles, if_pos (by omega)]
        rfl
      · rw [if_neg hles, if_neg (by omega)]
        rfl
    · rw [if_neg hle, if_neg (by omega)]
      rfl

/-- A value is read with its entries sorted, unless it is nested too deep. -/
private theorem readsWithin_readValue? {v : Cbor} (hwrites : v.Writable)
    (hkeys : v.EveryMap DistinctKeys) (depth : Nat) : ReadsWithin depth (readValue? depth) v := by
  intro rest
  -- on the nesting of the value; what is nested has one level less
  induction v using nested generalizing depth rest with
  | plain v hlist hmap =>
    obtain ⟨hlevels, hsorted⟩ := plain_eq hlist hmap
    rw [hlevels, hsorted]
    cases depth with
    | zero => rfl
    | succ depth =>
      rw [if_pos (Nat.le_add_left 1 depth)]
      exact readValue?_encode_append (fits_of_writable hlist hmap hwrites depth) rest
  | list items ih =>
    cases depth with
    | zero => rfl
    | succ depth =>
      cases hwrites with
      | list hlen hitems =>
      have hdistinct := everyMap_list.mp hkeys
      obtain ⟨low, hhead⟩ := readHead?_head_append 4 (by decide) hlen (encodeItems items ++ rest)
      have hread := readItems?_encodeItems
        (fun v hv rest => ih v hv (hitems v hv) (hdistinct v hv) depth rest) rest
      rw [encode, List.append_assoc, readValue?, hhead, levels, sorted]
      show (readItems? (readValue? depth) items.length (encodeItems items ++ rest)).map _ = _
      rw [hread]
      by_cases hle : levelsOfItems items ≤ depth
      · rw [if_pos hle, if_pos (by omega)]
        rfl
      · rw [if_neg hle, if_neg (by omega)]
        rfl
  | map entries ih =>
    cases depth with
    | zero => rfl
    | succ depth =>
      cases hwrites with
      | map hlen hsizes hentries =>
      obtain ⟨hnodup, hdistinct⟩ := everyMap_map.mp hkeys
      obtain ⟨low, hhead⟩ :=
        readHead?_head_append 5 (by decide) hlen (encodeEntries entries ++ rest)
      have hread := readEntries?_encodeEntries hsizes
        (fun e he rest => ih e he (hentries e he) (hdistinct e he) depth rest) rest
      rw [encode, List.append_assoc, readValue?, hhead, levels, sorted]
      show ((readEntries? (readValue? depth) entries.length (encodeEntries entries ++ rest)).bind
        fun x => (sortEntries? x.1).bind fun es => some (Cbor.map es, x.2)) = _
      rw [hread]
      by_cases hle : levelsOfEntries entries ≤ depth
      · rw [if_pos hle, if_pos (by omega), Option.bind_some,
          sortEntries?_eq (distinctKeys_sortedEntries hnodup)]
        rfl
      · rw [if_neg hle, if_neg (by omega)]
        rfl

/-- A block is read as the value it was made of with the entries of its maps sorted, unless that is
nested too deep. -/
theorem decode?_encode_eq {v : Cbor} (hwrites : v.Writable) (hkeys : v.EveryMap DistinctKeys) :
    decode? v.encode = if v.levels ≤ nesting then some v.sorted else none := by
  have hread := readsWithin_readValue? hwrites hkeys nesting []
  rw [List.append_nil] at hread
  rw [decode?, hread]
  by_cases hle : v.levels ≤ nesting
  · rw [if_pos hle, if_pos hle]
  · rw [if_neg hle, if_neg hle]

end ReplayVector.Cbor
