import Mathlib.Data.List.Perm.Basic
import Mathlib.Data.List.Nodup
import ReplayVector.Proofs.Cbor.Sorted

/-!
# The order of links

The encoding of a value keeps the order of the value, so its links stand in the bytes in the order
of `Cbor.links`. Read from the bytes, the value has its maps sorted by key. So the links of a block
come out as often as they occur, but in the order of the keys, and in that of the bytes only as far
as the two agree. In the canonical form of maps they need not: there shorter keys stand before
longer ones.

* `perm_links_sorted`, `links_sorted`, `everyMap_of_links_sorted`: links before and after sorting.
* `standIn_links`: links stand in the bytes in their order.
* `links_by_key`: which links come out of a block, and when in the order of its bytes.
* `links_reordered`: a canonical block whose links come out in another order.
-/

namespace ReplayVector.Cbor

-- ---------------------------------------------------------------------------
-- Pieces in another order
-- ---------------------------------------------------------------------------

section Pieces

variable {α β : Type} {l l' : List α} {f g : α → List β}

/-- Empty pieces add nothing. -/
private theorem flatMap_filter_nonempty (l : List α) (g : α → List β) :
    (l.filter fun a => ! (g a).isEmpty).flatMap g = l.flatMap g := by
  induction l with
  | nil => rfl
  | cons a l ih =>
    rw [List.filter_cons, List.flatMap_cons]
    cases hg : g a with
    | nil => simpa [hg] using ih
    | cons b bs => simp [hg, ih]

/-- If nothing repeats, a piece is what is found of it in the whole. -/
private theorem filter_mem_flatMap [DecidableEq β] (hnodup : (l.flatMap g).Nodup) {a : α}
    (ha : a ∈ l) : (l.flatMap g).filter (fun b => decide (b ∈ g a)) = g a := by
  induction l with
  | nil => cases ha
  | cons c l ih =>
    rw [List.flatMap_cons] at hnodup ⊢
    obtain ⟨-, hrest, hdisjoint⟩ := List.nodup_append.mp hnodup
    rw [List.filter_append]
    by_cases hmem : a ∈ l
    · have hnone : (g c).filter (fun b => decide (b ∈ g a)) = [] := by
        simp only [List.filter_eq_nil_iff, decide_eq_true_eq]
        exact fun b hb hb' => hdisjoint b hb b (List.mem_flatMap_of_mem hmem hb') rfl
      rw [hnone, ih hrest hmem, List.nil_append]
    · obtain rfl : a = c := (List.mem_cons.mp ha).resolve_right hmem
      have hall : (g a).filter (fun b => decide (b ∈ g a)) = g a := by
        simp only [List.filter_eq_self, decide_eq_true_eq]
        exact fun b hb => hb
      have hnone : (l.flatMap g).filter (fun b => decide (b ∈ g a)) = [] := by
        simp only [List.filter_eq_nil_iff, decide_eq_true_eq]
        exact fun b hb hb' => hdisjoint b hb' b hb rfl
      rw [hall, hnone, List.append_nil]

/-- Pieces that were rearranged inside and among each other, and give the same whole without
repetitions, were not rearranged inside. -/
private theorem pieces_eq [DecidableEq β] (hperm : l.Perm l')
    (hfg : ∀ a ∈ l, (f a).Perm (g a)) (hnodup : (l'.flatMap g).Nodup)
    (heq : l.flatMap f = l'.flatMap g) : ∀ a ∈ l, f a = g a := by
  intro a ha
  calc f a = (l.flatMap f).filter (fun b => decide (b ∈ f a)) :=
        (filter_mem_flatMap (heq ▸ hnodup) ha).symm
    _ = (l'.flatMap g).filter (fun b => decide (b ∈ g a)) := by
        simp only [heq, (hfg a ha).mem_iff]
    _ = g a := filter_mem_flatMap hnodup (hperm.mem_iff.mp ha)

/-- Nor were they rearranged among each other, if none of them is empty. -/
private theorem eq_of_flatMap_eq (hperm : l.Perm l') (hne : ∀ a ∈ l, g a ≠ [])
    (hnodup : (l.flatMap g).Nodup) (heq : l.flatMap g = l'.flatMap g) : l = l' := by
  induction l generalizing l' with
  | nil => exact (List.nil_perm.mp hperm).symm
  | cons a l ih =>
    cases l' with
    | nil => exact absurd hperm.length_eq (by simp)
    | cons b l' =>
      have hnodup' := heq ▸ hnodup
      rw [List.flatMap_cons] at hnodup hnodup'
      -- the first of everything stands in the first piece of either list
      have hhead : a = b := by
        obtain ⟨c, cs, hc⟩ := List.exists_cons_of_ne_nil (hne a (List.mem_cons_self ..))
        obtain ⟨d, ds, hd⟩ := List.exists_cons_of_ne_nil
          (hne b (hperm.mem_iff.mpr (List.mem_cons_self ..)))
        obtain ⟨rfl, -⟩ : c = d ∧ _ := by simpa [hc, hd] using heq
        rcases List.mem_cons.mp (hperm.mem_iff.mp (List.mem_cons_self ..)) with hab | hmem
        · exact hab
        · have hlater : c ∈ l'.flatMap g := List.mem_flatMap_of_mem hmem (by simp [hc])
          exact absurd rfl ((List.nodup_append.mp hnodup').2.2 c (by simp [hd]) c hlater)
      subst hhead
      have hrest : l.flatMap g = l'.flatMap g := by simpa using heq
      rw [ih (List.perm_cons a |>.mp hperm) (fun x hx => hne x (List.mem_cons_of_mem _ hx))
        (List.nodup_append.mp hnodup).2.1 hrest]

end Pieces

-- ---------------------------------------------------------------------------
-- Links
-- ---------------------------------------------------------------------------

theorem linksOfItems_eq (items : List Cbor) : linksOfItems items = items.flatMap links := by
  induction items with
  | nil => rfl
  | cons v vs ih => rw [linksOfItems, ih, List.flatMap_cons]

theorem linksOfEntries_eq (entries : List (String × Cbor)) :
    linksOfEntries entries = entries.flatMap fun e => e.2.links := by
  induction entries with
  | nil => rfl
  | cons e es ih => rw [linksOfEntries, ih, List.flatMap_cons]

theorem links_list (items : List Cbor) : (Cbor.list items).links = items.flatMap links := by
  rw [links, linksOfItems_eq]

theorem links_map (entries : List (String × Cbor)) :
    (Cbor.map entries).links = entries.flatMap fun e => e.2.links := by
  rw [links, linksOfEntries_eq]

theorem links_sorted_list (items : List Cbor) :
    (Cbor.list items).sorted.links = items.flatMap fun v => v.sorted.links := by
  rw [sorted, links_list, sortedItems_eq, List.flatMap_map]

theorem links_sorted_map (entries : List (String × Cbor)) :
    (Cbor.map entries).sorted.links = (byKey entries).flatMap fun e => e.2.sorted.links := by
  have hsort : byKey (entries.map fun e => (e.1, e.2.sorted)) =
      (byKey entries).map fun e => (e.1, e.2.sorted) :=
    (List.map_mergeSort (f := fun e : String × Cbor => (e.1, e.2.sorted)) fun _ _ _ _ => rfl).symm
  rw [sorted, links_map, sortedEntries_eq, hsort, List.flatMap_map]

/-- Sorting the entries of maps rearranges the links. -/
theorem perm_links_sorted (v : Cbor) : v.sorted.links.Perm v.links := by
  induction v using nested with
  | plain v hlist hmap => rw [(plain_eq hlist hmap).2]
  | list items ih =>
    rw [links_sorted_list, links_list]
    exact .flatMap_left items ih
  | map entries ih =>
    rw [links_sorted_map, links_map]
    exact (perm_byKey entries).flatMap fun e he => ih e ((perm_byKey entries).mem_iff.mp he)

/-- The keys under which there are links stand in the order of their bytes. -/
def LinksByKey (entries : List (String × Cbor)) : Prop :=
  (entries.filter fun e => ! e.2.links.isEmpty).Pairwise fun e e' => e.1 < e'.1

/-- Sorting leaves the links in their order if the keys under which there are links stand in the
order of their bytes. -/
theorem links_sorted {v : Cbor} (hkeys : v.EveryMap DistinctKeys) (h : v.EveryMap LinksByKey) :
    v.sorted.links = v.links := by
  induction v using nested with
  | plain v hlist hmap => rw [(plain_eq hlist hmap).2]
  | list items ih =>
    have hkeys := everyMap_list.mp hkeys
    have h := everyMap_list.mp h
    rw [links_sorted_list, links_list]
    exact List.flatMap_congr fun v hv => ih v hv (hkeys v hv) (h v hv)
  | map entries ih =>
    obtain ⟨hdistinct, hkeys⟩ := everyMap_map.mp hkeys
    obtain ⟨hordered, h⟩ := everyMap_map.mp h
    have hvalues : ∀ e ∈ byKey entries, e.2.sorted.links = e.2.links := fun e he =>
      have hmem := (perm_byKey entries).mem_iff.mp he
      ih e hmem (hkeys e hmem) (h e hmem)
    -- only the entries with links count, and these stand in order as they are
    have hsame : ((byKey entries).filter fun e => ! e.2.links.isEmpty) =
        entries.filter fun e => ! e.2.links.isEmpty :=
      eq_of_perm_of_pairwise ((perm_byKey entries).filter _)
        ((pairwise_byKey hdistinct).filter _) hordered
    rw [links_sorted_map, links_map, List.flatMap_congr hvalues,
      ← flatMap_filter_nonempty (byKey entries), ← flatMap_filter_nonempty entries, hsame]

/-- Links of which none repeats stay in their order only if the keys under which there are links
stand in the order of their bytes. -/
theorem everyMap_of_links_sorted {v : Cbor} (hkeys : v.EveryMap DistinctKeys)
    (hnodup : v.links.Nodup) (h : v.sorted.links = v.links) : v.EveryMap LinksByKey := by
  induction v using nested with
  | plain v hlist hmap => exact .plain hlist hmap
  | list items ih =>
    have hkeys := everyMap_list.mp hkeys
    rw [links_list] at hnodup
    rw [links_sorted_list, links_list] at h
    have hitems := pieces_eq (.refl items) (fun v _ => perm_links_sorted v) hnodup h
    exact .list fun v hv =>
      ih v hv (hkeys v hv) ((List.nodup_flatMap.mp hnodup).1 v hv) (hitems v hv)
  | map entries ih =>
    obtain ⟨hdistinct, hkeys⟩ := everyMap_map.mp hkeys
    rw [links_map] at hnodup
    rw [links_sorted_map, links_map] at h
    have hperm := perm_byKey entries
    have hvalues := pieces_eq hperm (fun e _ => perm_links_sorted e.2) hnodup h
    refine .map ?_ fun e he => ih e he (hkeys e he) ((List.nodup_flatMap.mp hnodup).1 e he)
      (hvalues e (hperm.mem_iff.mpr he))
    rw [List.flatMap_congr hvalues, ← flatMap_filter_nonempty (byKey entries),
      ← flatMap_filter_nonempty entries] at h
    have hsame := eq_of_flatMap_eq (hperm.filter _) (fun e he => by
      simpa using (List.mem_filter.mp he).2) (by rwa [h, flatMap_filter_nonempty]) h
    rw [LinksByKey, ← hsame]
    exact (pairwise_byKey hdistinct).filter _

-- ---------------------------------------------------------------------------
-- Links in a block
-- ---------------------------------------------------------------------------

/-- The encodings of links stand in the bytes one after the other, in the order of the links. -/
inductive StandIn : List Cid → Bytes → Prop
  | nil (bs : Bytes) : StandIn [] bs
  | cons (gap : Bytes) (c : Cid) {cs : List Cid} {rest : Bytes} (hrest : StandIn cs rest) :
      StandIn (c :: cs) (gap ++ (encode (.link c) ++ rest))

private theorem StandIn.append {cs cs' : List Cid} {bs bs' : Bytes} (h : StandIn cs bs)
    (h' : StandIn cs' bs') : StandIn (cs ++ cs') (bs ++ bs') := by
  induction h with
  | nil bs =>
    cases h' with
    | nil bs' => exact .nil _
    | cons gap c hrest =>
      rw [List.nil_append, ← List.append_assoc]
      exact .cons (bs ++ gap) c hrest
  | cons gap c _ ih =>
    rw [List.append_assoc, List.append_assoc]
    exact .cons gap c ih

/-- The links of a value stand in its encoding in their order. -/
theorem standIn_links (v : Cbor) : StandIn v.links v.encode := by
  induction v using nested with
  | plain v hlist hmap =>
    cases v with
    | link c =>
      show StandIn [c] _
      simpa using StandIn.cons [] c (.nil [])
    | list items => exact absurd rfl (hlist items)
    | map entries => exact absurd rfl (hmap entries)
    | _ => exact .nil _
  | list items ih =>
    have hitems : StandIn (linksOfItems items) (encodeItems items) := by
      induction items with
      | nil => exact .nil []
      | cons v vs ihs =>
        rw [linksOfItems, encodeItems]
        obtain ⟨hv, hvs⟩ := List.forall_mem_cons.mp ih
        exact hv.append (ihs hvs)
    rw [links, encode]
    exact (StandIn.nil (head 4 items.length)).append hitems
  | map entries ih =>
    have hentries : StandIn (linksOfEntries entries) (encodeEntries entries) := by
      induction entries with
      | nil => exact .nil []
      | cons e es ihs =>
        rw [linksOfEntries, encodeEntries]
        obtain ⟨hv, hvs⟩ := List.forall_mem_cons.mp ih
        exact ((StandIn.nil (encodeText e.1)).append hv).append (ihs hvs)
    rw [links, encode]
    exact (StandIn.nil (head 5 entries.length)).append hentries

/-- Out of the block of a value come the links that stand in it, unless the value is nested too deep
to be read: each as often as it occurs, and map by map in the order of the keys' bytes. That is
their order in the block if the keys under which there are links stand in the order of their bytes,
and otherwise not, unless links repeat. -/
theorem links_by_key {v : Cbor} (hwrites : v.Writable) (hkeys : v.EveryMap DistinctKeys) :
    StandIn v.links v.encode ∧
      (decode? v.encode).map links = (if v.levels ≤ nesting then some v.sorted.links else none) ∧
      v.sorted.links.Perm v.links ∧
      (v.EveryMap LinksByKey → v.sorted.links = v.links) ∧
      (v.links.Nodup → v.sorted.links = v.links → v.EveryMap LinksByKey) := by
  refine ⟨standIn_links v, ?_, perm_links_sorted v, links_sorted hkeys,
    everyMap_of_links_sorted hkeys⟩
  rw [decode?_encode_eq hwrites hkeys]
  split <;> rfl

/-- A list with a map in it, whose keys with links stand in the order of their bytes though the
others do not. -/
def listed : Cbor :=
  .list [.map [("b", .link (.inline [1])), ("z", .int 5), ("aa", .text "x"),
    ("ccc", .list [.link (.inline [2]), .link (.inline [1])])], .link (.inline [2])]

private theorem writable_listed : listed.Writable := by
  refine .list (by decide) ?_
  simp only [List.forall_mem_cons, List.not_mem_nil, false_implies, implies_true, and_true]
  refine ⟨.map (by decide) (by decide) ?_, .link _⟩
  simp only [List.forall_mem_cons, List.not_mem_nil, false_implies, implies_true, and_true]
  refine ⟨.link _, .int (by decide), .text (by decide), .list (by decide) ?_⟩
  simp only [List.forall_mem_cons, List.not_mem_nil, false_implies, implies_true, and_true]
  exact ⟨.link _, .link _⟩

/-- What holds of the only map in the list holds of every one. -/
private theorem everyMap_listed {P : List (String × Cbor) → Prop}
    (h : P [("b", .link (.inline [1])), ("z", .int 5), ("aa", .text "x"),
      ("ccc", .list [.link (.inline [2]), .link (.inline [1])])]) : listed.EveryMap P := by
  have hlinks : EveryMap P (.list [.link (.inline [2]), .link (.inline [1])]) := by
    refine .list ?_
    simp only [List.forall_mem_cons, List.not_mem_nil, false_implies, implies_true, and_true]
    exact ⟨.plain nofun nofun, .plain nofun nofun⟩
  refine .list ?_
  simp only [List.forall_mem_cons, List.not_mem_nil, false_implies, implies_true, and_true]
  refine ⟨.map h ?_, .plain nofun nofun⟩
  simp only [List.forall_mem_cons, List.not_mem_nil, false_implies, implies_true, and_true]
  exact ⟨.plain nofun nofun, .plain nofun nofun, .plain nofun nofun, hlinks⟩

/-- The links of the list come out in their order, and as often as they stand there. -/
theorem links_by_key_listed :
    listed.Writable ∧ listed.EveryMap DistinctKeys ∧ listed.EveryMap LinksByKey ∧
      (decode? listed.encode).map links =
        some [.inline [1], .inline [2], .inline [1], .inline [2]] := by
  have hdistinct : listed.EveryMap DistinctKeys := everyMap_listed (by unfold DistinctKeys; decide)
  have hordered : listed.EveryMap LinksByKey := everyMap_listed (by unfold LinksByKey; decide)
  obtain ⟨-, hread, -, hsorted, -⟩ := links_by_key writable_listed hdistinct
  refine ⟨writable_listed, hdistinct, hordered, ?_⟩
  rw [hread, if_pos (by decide), hsorted hordered]
  rfl

/-- The canonical order of entries: shorter keys first, and the bytes of the keys decide among
those of one length. -/
def CanonicalKeys (entries : List (String × Cbor)) : Prop :=
  entries.Pairwise fun e e' => e.1.utf8ByteSize < e'.1.utf8ByteSize ∨
    e.1.utf8ByteSize = e'.1.utf8ByteSize ∧ e.1 < e'.1

/-- A map in canonical form: the shorter key stands first, though its byte is the greater one. -/
def shorterFirst : Cbor := .map [("b", .link (.inline [1])), ("aa", .link (.inline [2]))]

/-- The links of the canonical map come out in the order of its keys' bytes, not in that of the
block. -/
theorem links_reordered :
    shorterFirst.Writable ∧ shorterFirst.EveryMap CanonicalKeys ∧
      StandIn [.inline [1], .inline [2]] shorterFirst.encode ∧
      shorterFirst.links = [.inline [1], .inline [2]] ∧
      (decode? shorterFirst.encode).map links = some [.inline [2], .inline [1]] := by
  refine ⟨.map (by decide) (by decide) ?_, .map (by unfold CanonicalKeys; decide) ?_,
    standIn_links shorterFirst, rfl, by decide +kernel⟩
  · simp only [List.forall_mem_cons, List.not_mem_nil, false_implies, implies_true, and_true]
    exact ⟨.link _, .link _⟩
  · simp only [List.forall_mem_cons, List.not_mem_nil, false_implies, implies_true, and_true]
    exact ⟨.plain nofun nofun, .plain nofun nofun⟩

end ReplayVector.Cbor
