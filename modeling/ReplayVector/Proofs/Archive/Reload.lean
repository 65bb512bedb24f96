import ReplayVector.Proofs.Archive.Preorder
import ReplayVector.Proofs.Archive.RoundTrip
import ReplayVector.Proofs.State.Nodes

/-!
# An archive that is loaded stands on its own

Loading an archive into empty memory gives back its roots and just the blocks that were written. The
loaded memory looks to a writer as the memory it came from, so that writing again gives the same
bytes; and if nothing was left out by a list, no link of a loaded block leads out of it.

* `Cbor.Mentions`: a link at any depth.
* `Memory.SelfContained`: no link leads out.
* `load_writeAs`: what loading an archive comes to.
-/

namespace ReplayVector

/-- The identifier stands as a link somewhere in the value, at any depth of lists and maps. -/
inductive Cbor.Mentions (c : Cid) : Cbor → Prop
  | link : Mentions c (.link c)
  | item {items : List Cbor} {v : Cbor} (hv : v ∈ items) (h : Mentions c v) :
      Mentions c (.list items)
  | value {entries : List (String × Cbor)} {e : String × Cbor} (he : e ∈ entries)
      (h : Mentions c e.2) : Mentions c (.map entries)

private theorem Cbor.mem_linksOfEntries {entries : List (String × Cbor)} {e : String × Cbor}
    {c : Cid} (he : e ∈ entries) (hc : c ∈ e.2.links) : c ∈ linksOfEntries entries := by
  induction entries with
  | nil => cases he
  | cons e' es ih =>
    rw [linksOfEntries, List.mem_append]
    rcases List.mem_cons.mp he with rfl | he
    · exact Or.inl hc
    · exact Or.inr (ih he)

/-- No mention is missed among the links. -/
theorem Cbor.Mentions.mem_links {v : Cbor} {c : Cid} (h : v.Mentions c) : c ∈ v.links := by
  induction h with
  | link =>
    rw [links]
    exact List.mem_singleton_self c
  | item hv _ ih =>
    rw [links]
    exact mem_linksOfItems.mpr ⟨_, hv, ih⟩
  | value he _ ih =>
    rw [links]
    exact mem_linksOfEntries he ih

namespace Memory

variable {m : Memory}

/-- A new block goes to the end. -/
private theorem insert_of_new {bs : List Block} {b : Block} (h : b.cid ∉ bs.map (·.cid)) :
    insert bs b = bs ++ [b] := by
  induction bs with
  | nil => rfl
  | cons b' bs ih =>
    rw [List.map_cons, List.mem_cons, not_or] at h
    rw [insert, if_neg (Ne.symm h.1), ih h.2, List.cons_append]

/-- Blocks of different identifiers are held as they come. -/
theorem putAll_of_nodup {bs bs' : List Block} (h : ((bs ++ bs').map (·.cid)).Nodup) :
    (⟨bs⟩ : Memory).putAll bs' = ⟨bs ++ bs'⟩ := by
  induction bs' generalizing bs with
  | nil => rw [List.append_nil]; rfl
  | cons b bs' ih =>
    have hsplit : bs ++ b :: bs' = (bs ++ [b]) ++ bs' := by simp
    have hnew : b.cid ∉ bs.map (·.cid) := by
      rw [List.map_append, List.nodup_append] at h
      intro hb
      exact h.2.2 _ hb _ (by simp) rfl
    rw [putAll_cons, put, insert_of_new hnew, ih (hsplit ▸ h), hsplit]

/-- If no identifier is held twice, every block is found. -/
theorem get?_of_mem (h : (m.blocks.map (·.cid)).Nodup) {b : Block} (hb : b ∈ m.blocks) :
    m.get? b.cid = some b.data := by
  suffices ∀ bs : List Block, (bs.map (·.cid)).Nodup → b ∈ bs →
      (bs.find? (·.cid == b.cid)).map Block.data = some b.data from this m.blocks h hb
  intro bs hnodup hmem
  induction bs with
  | nil => cases hmem
  | cons b' bs ih =>
    rw [List.map_cons, List.nodup_cons] at hnodup
    rw [List.find?_cons]
    rcases List.mem_cons.mp hmem with rfl | hmem
    · rw [beq_self_eq_true]
      rfl
    · have hne : (b'.cid == b.cid) = false := by
        rw [beq_eq_false_iff_ne]
        intro heq
        exact hnodup.1 (heq ▸ List.mem_map_of_mem hmem)
      rw [hne]
      exact ih hnodup.2 hmem

/-- No link leads out: all structured blocks can be read, and what they mention at any depth is held
too, as far as stores keep it at all. -/
def SelfContained (m : Memory) : Prop :=
  ∀ b ∈ m.blocks, b.cid.codec = Cid.dagCbor → ∃ v, Cbor.decode? b.data = some v ∧
    ∀ c, v.Mentions c → c.isIdentity = false → c.codec = Cid.dagCbor ∨ c.codec = Cid.raw →
      ∃ b' ∈ m.blocks, b'.cid = c

end Memory

namespace Archive

variable {m loaded : Memory} {roots : Roots} {listed : Option (List Cid)}

/-- The blocks that the archive of some roots consists of, up to a failure. -/
def archived (m : Memory) (roots : Roots) (listed : Option (List Cid)) : List Block :=
  match (m.exec (visit (leadsOn roots listed) visitLimit [] [] roots.cids)).1 with
  | .ok v => v.blocks
  | .error _ => []

private theorem archived_of_visit {v : Visit}
    (h : m.exec (visit (leadsOn roots listed) visitLimit [] [] roots.cids) = (.ok v, m)) :
    archived m roots listed = v.blocks := by
  unfold archived
  generalize m.exec (visit (leadsOn roots listed) visitLimit [] [] roots.cids) = run at h
  rw [h]

/-- Where the same is held, the same comes under a block. -/
private theorem under_congr {c : Cid} (h : loaded.get? c = m.get? c) :
    under loaded roots listed c = under m roots listed c := by
  unfold under
  rw [h]

private theorem blocksAt_congr {cs : List Cid} (h : ∀ c ∈ cs, loaded.get? c = m.get? c) :
    blocksAt loaded cs = blocksAt m cs := by
  induction cs with
  | nil => rfl
  | cons c cs ih =>
    have hcs : blocksAt loaded cs = blocksAt m cs := ih fun c' hc' => h c' (List.mem_cons_of_mem _ hc')
    unfold blocksAt at hcs ⊢
    rw [List.filterMap_cons, List.filterMap_cons, h c (List.mem_cons_self ..), hcs]

/-- A writer sees no difference between memories that agree on the blocks that it visits. -/
theorem visit_congr {order : List Cid} {v v' : Visit}
    (horder : Preorder (under m roots listed) [] roots.cids order) (hv : ComesTo m order v)
    (hsound : ∀ c ∈ order, Sound m c) (hsame : ∀ c ∈ order, loaded.get? c = m.get? c)
    {order' : List Cid} (horder' : Preorder (under loaded roots listed) [] roots.cids order')
    (hv' : ComesTo loaded order' v') : v' = v := by
  obtain rfl : order' = order :=
    (horder.congr fun c hc => under_congr (hsame c hc)).unique horder'
  have hsound' : ∀ c ∈ order', Sound loaded c := by
    intro c hc
    unfold Sound
    rw [hsame c hc]
    exact hsound c hc
  have hblocks := blocksAt_congr hsame
  rcases hv with ⟨rfl, -⟩ | ⟨-, c, hc, hbroken⟩
  · rcases hv' with ⟨rfl, -⟩ | ⟨-, c, hc, hbroken⟩
    · rw [hblocks]
    · exact absurd (hsound' c hc) hbroken
  · exact absurd (hsound c hc) hbroken

/-- Every link of a visited block is visited, if all links lead on. -/
theorem selfContained_of_preorder {order : List Cid} (hblocks : loaded.blocks.map (·.cid) = order)
    (hnodup : order.Nodup) (horder : Preorder (under loaded roots none) [] roots.cids order)
    (hsound : ∀ c ∈ order, Sound loaded c) : loaded.SelfContained := by
  intro b hb hcodec
  have hc : b.cid ∈ order := hblocks ▸ List.mem_map_of_mem hb
  have hget := Memory.get?_of_mem (hblocks ▸ hnodup) hb
  obtain ⟨data, hdata, hdecode⟩ := hsound b.cid hc
  obtain rfl : data = b.data := Option.some.inj (hdata.symm.trans hget)
  obtain ⟨v, hv⟩ := hdecode hcodec
  refine ⟨v, hv, ?_⟩
  intro l hl hid hkind
  have hstored : l.isStoredBlock = true := by
    simp [Cid.isStoredBlock, hid, hkind]
  have hunder : l ∈ under loaded roots none b.cid := by
    simp only [under, if_pos hcodec, hget, Option.bind_some, hv]
    exact List.mem_filter.mpr ⟨hl.mem_links, by simp [hstored, leadsOn]⟩
  rcases horder.closed hc List.not_mem_nil hunder with h | h
  · rw [hid] at h
    cases h
  · rw [← hblocks] at h
    obtain ⟨b', hb', rfl⟩ := List.mem_map.mp h
    exact ⟨b', hb', rfl⟩

/-- An archive that was written of genuine blocks, none too long for a frame, can be loaded: that
gives its roots and the blocks that were written, which are those that the recursion from the roots
visits, in its order. Without a list, no link leads out of what is loaded; and writing from it gives the
very same archive. -/
theorem load_writeAs {written : Written} {n : Nat} (hverify : ∀ b ∈ m.blocks, b.verify = .ok ())
    (hwritten : (m.exec (writeAs roots listed)).1 = .ok written) (hn : written.result = .ok n)
    (hheader : (headerCbor roots).encode.length ≤ Frame.limit.toNat)
    (hframes : ∀ b ∈ archived m roots listed,
      (b.cid.toBytes ++ b.data).length ≤ Frame.limit.toNat) :
    Preorder (under m roots listed) [] roots.cids ((archived m roots listed).map (·.cid)) ∧
      (∀ b ∈ archived m roots listed, m.get? b.cid = some b.data) ∧
      written.bytes = encode roots (archived m roots listed) ∧
      ∃ loaded, Memory.empty.exec (load written.bytes) = (.ok roots, loaded) ∧
        loaded.blocks = archived m roots listed ∧
        (listed = none → loaded.SelfContained) ∧
        loaded.exec (writeAs roots listed) = (.ok written, loaded) := by
  obtain ⟨order, v, horder, hv, hcomes⟩ := exec_visit_roots m roots listed
  rw [exec_writeAs_of_visit hv] at hwritten
  obtain rfl : v.archive roots = written := Except.ok.inj hwritten
  rw [archived_of_visit hv] at hframes ⊢
  -- the visit did not fail
  obtain ⟨rfl, hsound⟩ : v = ⟨blocksAt m order, none⟩ ∧ ∀ c ∈ order, Sound m c := by
    rcases hcomes with h | ⟨⟨e, he⟩, -⟩
    · exact h
    · simp [Visit.archive, he] at hn
  have hcids := map_blocksAt hsound
  have hnodup := horder.nodup .nil
  have hheld (b : Block) (hb : b ∈ blocksAt m order) := get?_of_mem_blocksAt hb
  have hgenuine : ∀ b ∈ blocksAt m order, b.verify = .ok () :=
    fun b hb => hverify b (Memory.get?_eq_some (hheld b hb))
  refine ⟨hcids.symm ▸ horder, hheld, rfl, ⟨blocksAt m order⟩, ?_, rfl, ?_⟩
  · have hdecode := decode_encode hheader (length_roots_lt hheader)
      fun b hb => ⟨hgenuine b hb, hframes b hb⟩
    have hempty : Memory.empty.putAll (blocksAt m order) = ⟨blocksAt m order⟩ :=
      @Memory.putAll_of_nodup [] (blocksAt m order) (by rw [List.nil_append, hcids]; exact hnodup)
    rw [← hempty]
    exact exec_load hdecode rfl hgenuine .empty
  · -- what is loaded is what was there, under the same identifiers
    have hsame : ∀ c ∈ order, (⟨blocksAt m order⟩ : Memory).get? c = m.get? c := by
      intro c hc
      obtain ⟨b, hb, rfl⟩ := List.mem_map.mp (hcids.symm ▸ hc)
      have hloaded : (⟨blocksAt m order⟩ : Memory).get? b.cid = some b.data :=
        Memory.get?_of_mem (by rw [hcids]; exact hnodup) hb
      rw [hloaded, hheld b hb]
    have horder' : Preorder (under ⟨blocksAt m order⟩ roots listed) [] roots.cids order :=
      horder.congr fun c hc => under_congr (hsame c hc)
    refine ⟨?_, ?_⟩
    · rintro rfl
      refine selfContained_of_preorder hcids hnodup horder' fun c hc => ?_
      unfold Sound
      rw [hsame c hc]
      exact hsound c hc
    · obtain ⟨order', v', horder'', hv', hcomes'⟩ :=
        exec_visit_roots ⟨blocksAt m order⟩ roots listed
      obtain rfl := visit_congr horder hcomes hsound hsame horder'' hcomes'
      exact exec_writeAs_of_visit hv'

/-! ## Two blocks -/

/-- A block of plain bytes. -/
def leaf : Block := ⟨.v1 Cid.raw (.blake2b256 [1]), [1]⟩

/-- A block that links to it from inside a map, next to an identifier that stands for itself. -/
def branch : Block :=
  .ofDagCbor (Cbor.map [("k", .list [.link (.inline [2]), .link leaf.cid])]).encode

private theorem writeAs_branch :
    ([leaf, branch].all fun b => b.verify.isOk) &&
      (match ((⟨[leaf, branch]⟩ : Memory).exec (writeAs ⟨branch.cid, []⟩ none)).1 with
      | .ok written => written.result.toOption == some 2
      | _ => false) &&
      decide (archived ⟨[leaf, branch]⟩ ⟨branch.cid, []⟩ none = [branch, leaf]) &&
      decide ((headerCbor ⟨branch.cid, []⟩).encode.length ≤ Frame.limit.toNat) &&
      ((archived ⟨[leaf, branch]⟩ ⟨branch.cid, []⟩ none).all fun b =>
        decide ((b.cid.toBytes ++ b.data).length ≤ Frame.limit.toNat)) = true := by
  decide +kernel

/-- The archive that starts from the upper block can be loaded: it has that block, and then the one
below. -/
theorem load_writeAs_branch :
    ∃ written loaded,
      ((⟨[leaf, branch]⟩ : Memory).exec (writeAs ⟨branch.cid, []⟩ none)).1 = .ok written ∧
      Memory.empty.exec (load written.bytes) = (.ok ⟨branch.cid, []⟩, loaded) ∧
      loaded.blocks = [branch, leaf] ∧
      loaded.SelfContained ∧
      loaded.exec (writeAs ⟨branch.cid, []⟩ none) = (.ok written, loaded) := by
  have hruns := writeAs_branch
  simp only [Bool.and_eq_true, decide_eq_true_eq] at hruns
  obtain ⟨⟨⟨⟨hverify, hwritten⟩, harchived⟩, hheader⟩, hframes⟩ := hruns
  split at hwritten
  · next written hexec =>
    cases hn : written.result with
    | error e =>
      rw [hn] at hwritten
      cases hwritten
    | ok n =>
      have hgenuine : ∀ b ∈ (⟨[leaf, branch]⟩ : Memory).blocks, b.verify = .ok () :=
        fun b hb => verify_of_isOk (List.all_eq_true.mp hverify b hb)
      obtain ⟨-, -, -, loaded, hload, hblocks, hclosed, hagain⟩ :=
        load_writeAs hgenuine hexec hn hheader
          fun b hb => of_decide_eq_true (List.all_eq_true.mp hframes b hb)
      exact ⟨written, loaded, hexec, hload, hblocks.trans harchived, hclosed rfl, hagain⟩
  · cases hwritten

end Archive

end ReplayVector
