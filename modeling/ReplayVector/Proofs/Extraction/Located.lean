import Mathlib.Data.List.Chain
import Mathlib.Data.List.Nodup
import ReplayVector.Proofs.Extraction.Stages
import ReplayVector.Proofs.State.Tries

/-!
# Locating a message with a hint and without

In a chain each tipset has the one before it as its parent and a greater height, but not always the
next one: at a height that was left out, a node answers with the tipset below. A search goes from
the tipset that executes a message to its parent, so it finds both across any gap. A hint goes to
the heights of the block and right above, so it fails wherever the second one was left out.

* `Fixture.Chain.Linked`: tipsets that follow one another.
* `Linked.push`: every chain that is put together from below is linked.
* `Linked.tipsetAt_eq`: what is found at a height, or below.
* `Resolved.locate_linked`: what both ways come to.
* `Resolved.locate_gap`: a height left out, at which a hint leads nowhere.
-/

namespace ReplayVector

open Fixture

namespace Fixture.Chain

/-- Each tipset has the one before as its parent and a greater height, no block is in two of them,
and the chain holds the headers of all blocks. -/
structure Linked (ch : Chain) : Prop where
  rising : ch.tipsets.Pairwise fun t u => t.height < u.height
  parents : ch.tipsets.IsChain fun t u => u.parents = t.key.cids
  distinct : (ch.tipsets.flatMap (·.key.cids)).Nodup
  blocks : ∀ t ∈ ch.tipsets, ∀ p ∈ t.key.cids.zip t.headers, ch.blocks.lookup p.1 = some p.2

variable {ch : Chain} {t u : Tipset}

-- ---------------------------------------------------------------------------
-- Putting a chain together
-- ---------------------------------------------------------------------------

/-- A chain without tipsets is linked. -/
theorem linked_of_nil (h : ch.tipsets = []) : ch.Linked where
  rising := by rw [h]; exact .nil
  parents := by rw [h]; exact .nil
  distinct := by rw [h]; exact .nil
  blocks := by rw [h]; exact List.forall_mem_nil _

/-- There is a header for each identifier of a key. -/
theorem map_fst_zip_headers (t : Tipset) : (t.key.cids.zip t.headers).map (·.1) = t.key.cids := by
  refine List.map_fst_zip ?_
  simp only [TipsetKey.cids, Tipset.headers, List.length_cons, t.length_eq, le_refl]

/-- A tipset on top of a linked chain whose parent is the head, with blocks of its own and at a
greater height, makes it a linked chain. -/
theorem Linked.push (h : ch.Linked) (hheight : ∀ u ∈ ch.tipsets, u.height < t.height)
    (hparents : ∀ u ∈ ch.tipsets.getLast?, t.parents = u.key.cids) (hown : t.key.cids.Nodup)
    (hnew : ∀ u ∈ ch.tipsets, ∀ c ∈ u.key.cids, c ∉ t.key.cids) : (ch.push t).Linked where
  rising := by
    refine List.pairwise_append.mpr ⟨h.rising, List.pairwise_singleton _ _, fun u hu t' ht' => ?_⟩
    obtain rfl := List.mem_singleton.mp ht'
    exact hheight u hu
  parents := by
    refine List.isChain_append.mpr ⟨h.parents, .singleton t, fun u hu t' ht' => ?_⟩
    obtain rfl := Option.some.inj ht'
    exact hparents u hu
  distinct := by
    rw [Chain.push, List.flatMap_append, List.flatMap_singleton]
    refine List.nodup_append.mpr ⟨h.distinct, hown, fun c hc c' hc' heq => ?_⟩
    obtain ⟨u, hu, hcu⟩ := List.mem_flatMap.mp hc
    exact hnew u hu c hcu (heq ▸ hc')
  blocks := by
    intro u hu p hp
    rw [Chain.push, List.lookup_append]
    rcases List.mem_append.mp hu with hu | hu
    · -- the new blocks hide none of the old ones
      have hnone : (t.key.cids.zip t.headers).reverse.lookup p.1 = none := by
        rw [List.lookup_eq_none_iff]
        intro q hq
        have hq' : q.1 ∈ t.key.cids := (List.of_mem_zip (List.mem_reverse.mp hq)).1
        rw [bne_iff_ne]
        rintro heq
        exact hnew u hu p.1 (List.of_mem_zip hp).1 (heq ▸ hq')
      rw [hnone, Option.none_or]
      exact h.blocks u hu p hp
    · obtain rfl := List.mem_singleton.mp hu
      have hsome : (u.key.cids.zip u.headers).reverse.lookup p.1 = some p.2 := by
        refine Hamt.lookup_of_mem ?_ (List.mem_reverse.mpr hp)
        rw [List.map_reverse, List.nodup_reverse, map_fst_zip_headers]
        exact hown
      rw [hsome, Option.some_or]

-- ---------------------------------------------------------------------------
-- What a linked chain answers
-- ---------------------------------------------------------------------------

/-- Only one tipset has a given key. -/
theorem Linked.eq_of_key (h : ch.Linked) (ht : t ∈ ch.tipsets) (hu : u ∈ ch.tipsets)
    (hkey : t.key.cids = u.key.cids) : t = u := by
  by_contra hne
  have hsymm : Std.Symm (Function.onFun List.Disjoint fun t : Tipset => t.key.cids) :=
    ⟨fun _ _ hd _ ha hb => hd hb ha⟩
  have hdisjoint : List.Disjoint t.key.cids u.key.cids :=
    (List.nodup_flatMap.mp h.distinct).2.forall ht hu hne
  have hfirst : t.key.first ∈ t.key.cids := List.mem_cons_self ..
  exact hdisjoint hfirst (hkey ▸ hfirst)

theorem Linked.tipset (h : ch.Linked) (ht : t ∈ ch.tipsets) : ch.tipset t.key = .ok t := by
  cases hfind : ch.tipsets.find? (·.key == t.key) with
  | none =>
    have hnot := List.find?_eq_none.mp hfind t ht
    rw [beq_self_eq_true] at hnot
    exact absurd rfl hnot
  | some u =>
    have hfound := List.find?_some hfind
    rw [beq_iff_eq] at hfound
    obtain rfl := h.eq_of_key (List.mem_of_find?_eq_some hfind) ht (congrArg _ hfound)
    rw [Chain.tipset, hfind]
    rfl

/-- Every block of a tipset is at the height of the tipset. -/
theorem Linked.block (h : ch.Linked) (ht : t ∈ ch.tipsets) {b : Cid} (hb : b ∈ t.key.cids) :
    ∃ header, ch.answer (.block b) = .ok header ∧ header.height = t.height := by
  rw [← map_fst_zip_headers, List.mem_map] at hb
  obtain ⟨⟨_, header⟩, hp, rfl⟩ := hb
  refine ⟨header, ?_, ?_⟩
  · rw [answer, h.blocks t ht _ hp]
    rfl
  · rcases List.mem_cons.mp (List.of_mem_zip hp).2 with rfl | hrest
    · rfl
    · exact (t.agree header hrest).1

/-- Where a search for a height starts: at a tipset with a key, or at the head. -/
inductive Starts (ch : Chain) : Option TipsetKey → Tipset → Prop
  | key {t : Tipset} (h : ch.tipset t.key = .ok t) : Starts ch (some t.key) t
  | head {t : Tipset} (h : ch.tipsets.getLast? = some t) : Starts ch none t

/-- From a tipset at least as high, the search for a height ends at the last tipset that is not
above. -/
theorem tipsetAt_eq {pre post : List Tipset} (hsplit : ch.tipsets = pre ++ t :: post)
    {height : Epoch} (hbelow : t.height ≤ height) (habove : ∀ u ∈ post, height < u.height)
    {start : Option TipsetKey} {top : Tipset} (hstart : ch.Starts start top)
    (hheight : height ≤ top.height) : ch.tipsetAt height start = .ok t := by
  have hnone : post.reverse.find? (fun u => decide (u.height ≤ height)) = none := by
    rw [List.find?_eq_none]
    intro u hu
    rw [decide_eq_true_eq, Int64.not_le]
    exact habove u (List.mem_reverse.mp hu)
  have hfind : ch.tipsets.reverse.find? (fun u => decide (u.height ≤ height)) = some t := by
    rw [hsplit, List.reverse_append, List.reverse_cons, List.append_assoc, List.find?_append, hnone,
      Option.none_or, List.singleton_append, List.find?_cons, decide_eq_true hbelow]
  have hsearch : (if height ≤ top.height then
      entry (.nothingAtOrBelow height) (ch.tipsets.reverse.find? fun u => u.height ≤ height)
      else .error (.of .aboveStart)) = .ok t := by
    rw [if_pos hheight, hfind]
    rfl
  cases hstart with
  | key h =>
    show (ch.tipset top.key >>= _) = _
    rw [h]
    exact hsearch
  | head h =>
    show (entry .emptyChain ch.tipsets.getLast? >>= _) = _
    rw [h]
    exact hsearch

end Fixture.Chain

-- ---------------------------------------------------------------------------
-- Both ways to a message
-- ---------------------------------------------------------------------------

namespace Resolved

variable {ch : Chain} {t u : Tipset} {pre post : List Tipset} {c b : Cid} {found : MessageLookup}

/-- The search finds the tipset that executes a message and its parent. -/
theorem run_search_linked (h : ch.Linked) (hsplit : ch.tipsets = pre ++ t :: u :: post)
    (hfound : ch.lookups.lookup c = some found) (hexecution : found.tipset = u.key) :
    (search Chain.node c).run ch = (.ok (u, t), ch) := by
  have ht : t ∈ ch.tipsets := by simp [hsplit]
  have hu : u ∈ ch.tipsets := by simp [hsplit]
  have hlink : u.parents = t.key.cids := by
    have hchain := h.parents
    rw [hsplit] at hchain
    exact (List.isChain_cons_cons.mp hchain.right_of_append).1
  have hlookup : ch.answer (.search c) = .ok (some found) := congrArg Except.ok hfound
  have hquery : (Chain.node.query (.tipset found.tipset)).run ch = (.ok u, ch) := by
    rw [hexecution]
    exact congrArg (·, ch) (h.tipset hu)
  have hparents : u.parentsKey? = some t.key := by
    rw [Tipset.parentsKey?, hlink]
    rfl
  have hinclusion : ch.answer (.tipset t.key) = .ok t := h.tipset ht
  rw [search, run_question_bind_ok (run_queryFor hlookup _)]
  dsimp only
  rw [run_question_bind_ok hquery, hparents]
  dsimp only
  rw [run_question_bind_ok (run_queryFor hinclusion _)]
  rfl

/-- A height below another one is not the last, and the next one is not above the other. -/
private theorem add_one_le {i j : Int64} (h : i < j) :
    i ≠ Int64.maxValue ∧ i ≤ i + 1 ∧ i + 1 ≤ j := by
  have hlt := Int64.lt_iff_toInt_lt.mp h
  have hj := Int64.toInt_lt j
  have hi := Int64.le_toInt i
  have hnext : (i + 1).toInt = i.toInt + 1 := by
    rw [Int64.toInt_add, Int64.toInt_one]
    exact Int.bmod_eq_of_le (by omega) (by omega)
  refine ⟨?_, Int64.le_iff_toInt_le.mpr (by omega), Int64.le_iff_toInt_le.mpr (by omega)⟩
  rintro rfl
  rw [Int64.toInt_maxValue] at hlt
  omega

/-- A hint leads to the tipset right above its block, or, if there is none at that height, to the
block's own one twice. -/
theorem run_around_linked (h : ch.Linked) (hsplit : ch.tipsets = pre ++ t :: u :: post)
    (hb : b ∈ t.key.cids) :
    (around Chain.node b).run ch =
      (.ok (if u.height = t.height + 1 then u else t, t), ch) := by
  have ht : t ∈ ch.tipsets := by simp [hsplit]
  have hu : u ∈ ch.tipsets := by simp [hsplit]
  obtain ⟨header, hheader, hheight⟩ := h.block ht hb
  have hrising := h.rising
  rw [hsplit] at hrising
  obtain ⟨-, hrising, -⟩ := List.pairwise_append.mp hrising
  obtain ⟨habove, hrising⟩ := List.pairwise_cons.mp hrising
  obtain ⟨hhigher, -⟩ := List.pairwise_cons.mp hrising
  have hlt : t.height < u.height := habove u (List.mem_cons_self ..)
  obtain ⟨hmax, hself, hnext⟩ := add_one_le hlt
  -- the search for the height above starts at the head, which is no lower
  obtain ⟨top, htop, hhead⟩ : ∃ top, ch.Starts none top ∧ u.height ≤ top.height := by
    refine ⟨(u :: post).getLast (List.cons_ne_nil _ _), .head ?_, ?_⟩
    · rw [hsplit, List.getLast?_append, List.getLast?_cons_cons,
        List.getLast?_eq_some_getLast (List.cons_ne_nil _ _), Option.some_or]
    · rcases List.mem_cons.mp (List.getLast_mem (List.cons_ne_nil u post)) with heq | hmem
      · rw [heq]
        exact Int64.le_refl _
      · exact Int64.le_of_lt (hhigher _ hmem)
  have hexecution : ch.answer (.tipsetAt (t.height + 1) none) =
      .ok (if u.height = t.height + 1 then u else t) := by
    have htop' : t.height + 1 ≤ top.height := Int64.le_trans hnext hhead
    split
    · next heq =>
      have hsplit' : ch.tipsets = (pre ++ [t]) ++ u :: post := by simp [hsplit]
      refine Chain.tipsetAt_eq hsplit' ?_ ?_ htop htop'
      · rw [heq]
        exact Int64.le_refl _
      · rw [← heq]
        exact hhigher
    · next hne =>
      refine Chain.tipsetAt_eq hsplit hself ?_ htop htop'
      have hgap : t.height + 1 < u.height := Int64.lt_of_le_of_ne hnext (Ne.symm hne)
      intro v hv
      rcases List.mem_cons.mp hv with rfl | hv
      · exact hgap
      · exact Int64.lt_trans hgap (hhigher v hv)
  have hinclusion : ch.answer (.tipsetAt t.height
      (some (if u.height = t.height + 1 then u else t).key)) = .ok t := by
    refine Chain.tipsetAt_eq hsplit (Int64.le_refl _) habove (.key (h.tipset ?_)) ?_
    · split
      · exact hu
      · exact ht
    · split
      · exact Int64.le_of_lt hlt
      · exact Int64.le_refl _
  rw [around, run_question_bind_ok (run_queryFor hheader _), hheight, if_neg hmax,
    run_question_bind_ok (run_queryFor hexecution _),
    run_question_bind_ok (run_queryFor hinclusion _)]
  rfl

/-- Locating a message of a linked chain. Without a hint the message is found with the tipset that
executes it and its parent. So it is with a block of the parent as a hint, if the heights of the two
follow on one another. If a height was left out between them, the hint leads to the parent and the
parent again, which is refused, since no tipset of the chain but maybe the first one is its own
parent. -/
theorem locate_linked (h : ch.Linked) (hpair : [t, u] <:+: ch.tipsets) (hb : b ∈ t.key.cids)
    {message : Message} (hmessage : ch.messages.lookup c = some message)
    (hfound : ch.lookups.lookup c = some found) (hexecution : found.tipset = u.key) :
    (locate Chain.node c none).run ch = (.ok ⟨message, u, t⟩, ch) ∧
    (locate Chain.node c (some b)).run ch =
      (if u.height = t.height + 1 then .ok ⟨message, u, t⟩
        else if t.parents = t.key.cids then .ok ⟨message, t, t⟩
        else .error (.of (.notParent t.key t.key)), ch) ∧
    (t.parents = t.key.cids → ch.tipsets.head? = some t) := by
  obtain ⟨pre, post, hsplit⟩ := hpair
  replace hsplit : ch.tipsets = pre ++ t :: u :: post := by simp [← hsplit]
  have hchain := h.parents
  rw [hsplit] at hchain
  have hlink : u.parents = t.key.cids := (List.isChain_cons_cons.mp hchain.right_of_append).1
  have hlists : t.key.lists u.parents = true := by rw [TipsetKey.lists, hlink, beq_self_eq_true]
  have hquestion : ch.answer (.message c) = .ok message := by
    rw [Chain.answer, hmessage]
    rfl
  refine ⟨?_, ?_, fun hself => ?_⟩
  · rw [locate, run_question_bind_ok (run_queryFor hquestion _),
      run_question_bind_ok (run_search_linked h hsplit hfound hexecution)]
    dsimp only
    rw [if_pos hlists]
    rfl
  · rw [locate, run_question_bind_ok (run_queryFor hquestion _),
      run_question_bind_ok (run_around_linked h hsplit hb)]
    dsimp only
    by_cases hnext : u.height = t.height + 1
    · rw [if_pos hnext, if_pos hlists, if_pos hnext]
      rfl
    · by_cases hself : t.parents = t.key.cids
      · have : t.key.lists t.parents = true := by rw [TipsetKey.lists, hself, beq_self_eq_true]
        rw [if_neg hnext, if_neg hnext, if_pos this, if_pos hself]
        rfl
      · have : ¬t.key.lists t.parents = true := by
          rw [TipsetKey.lists, beq_iff_eq]
          exact fun heq => hself heq.symm
        rw [if_neg hnext, if_neg hnext, if_neg this, if_neg hself]
        rfl
  · -- the parent of every other tipset is another one
    cases hpre : pre.getLast? with
    | none =>
      rw [List.getLast?_eq_none_iff] at hpre
      rw [hsplit, hpre]
      rfl
    | some v =>
      have hparent : t.parents = v.key.cids :=
        (List.isChain_append.mp hchain).2.2 v hpre t rfl
      have hv : v ∈ ch.tipsets := by
        rw [hsplit]
        exact List.mem_append_left _ (List.mem_of_getLast? hpre)
      have ht : t ∈ ch.tipsets := by simp [hsplit]
      obtain rfl := h.eq_of_key ht hv (hself.symm.trans hparent)
      have hrising := h.rising
      rw [hsplit] at hrising
      have hlt := (List.pairwise_append.mp hrising).2.2 t (List.mem_of_getLast? hpre) t
        (List.mem_cons_self ..)
      exact absurd hlt Int64.lt_irrefl

-- ---------------------------------------------------------------------------
-- Two chains of two tipsets
-- ---------------------------------------------------------------------------

/-- A chain of two tipsets, one at height 10 that includes a message and one above that executes
it. -/
def shortChain (height : Epoch) : Chain :=
  let inclusion := Extractor.sampleTipset 1 10 []
  let execution := Extractor.sampleTipset 2 height [.inline [1]]
  let bottom : Chain := { Chain.empty with
    messages := [(Extractor.sampleCid, Extractor.sampleMessage)]
    lookups := [(Extractor.sampleCid, {
      message := Extractor.sampleCid, receipt := .plain .ok 0, tipset := execution.key, height })] }
  (bottom.push inclusion).push execution

theorem linked_shortChain {height : Epoch} (h : 10 < height) : (shortChain height).Linked := by
  have hne : Cid.inline [1] ∉ [Cid.inline [2]] := by decide
  refine Chain.Linked.push (Chain.Linked.push (Chain.linked_of_nil rfl) ?_ ?_ ?_ ?_) ?_ ?_ ?_ ?_
  -- there is nothing below the first tipset
  · exact List.forall_mem_nil _
  · exact fun u hu => nomatch hu
  · exact List.nodup_singleton _
  · exact List.forall_mem_nil _
  -- the first is below the second
  · intro u hu
    obtain rfl := List.mem_singleton.mp hu
    exact h
  · intro u hu
    obtain rfl := Option.some.inj hu
    rfl
  · exact List.nodup_singleton _
  · intro u hu c hc
    obtain rfl := List.mem_singleton.mp hu
    obtain rfl := List.mem_singleton.mp hc
    exact hne

/-- The tipsets follow one another at heights 10 and 11: both ways lead to the message. -/
theorem locate_linked_next :
    (locate Chain.node Extractor.sampleCid none).run (shortChain 11) =
      (.ok ⟨Extractor.sampleMessage, Extractor.sampleTipset 2 11 [.inline [1]],
        Extractor.sampleTipset 1 10 []⟩, shortChain 11) ∧
    (locate Chain.node Extractor.sampleCid (some (.inline [1]))).run (shortChain 11) =
      (.ok ⟨Extractor.sampleMessage, Extractor.sampleTipset 2 11 [.inline [1]],
        Extractor.sampleTipset 1 10 []⟩, shortChain 11) := by
  have hmessage : (shortChain 11).messages.lookup Extractor.sampleCid =
      some Extractor.sampleMessage := by decide +kernel
  have hfound : (shortChain 11).lookups.lookup Extractor.sampleCid = some {
      message := Extractor.sampleCid, receipt := .plain .ok 0
      tipset := (Extractor.sampleTipset 2 11 [.inline [1]]).key, height := 11 } := by decide +kernel
  obtain ⟨hsearch, haround, -⟩ := locate_linked (linked_shortChain (by decide))
    (t := Extractor.sampleTipset 1 10 []) (u := Extractor.sampleTipset 2 11 [.inline [1]])
    (b := .inline [1]) (List.infix_refl _) (List.mem_singleton.mpr rfl) hmessage hfound rfl
  exact ⟨hsearch, haround⟩

/-- Height 11 was left out: the search leads to the message, and a block of the tipset that includes
it as a hint does not. -/
theorem locate_gap :
    (shortChain 12).Linked ∧
    (shortChain 12).tipsets =
      [Extractor.sampleTipset 1 10 [], Extractor.sampleTipset 2 12 [.inline [1]]] ∧
    Cid.inline [1] ∈ (Extractor.sampleTipset 1 10 []).key.cids ∧
    ((locate Chain.node Extractor.sampleCid none).run (shortChain 12)).1 =
      .ok ⟨Extractor.sampleMessage, Extractor.sampleTipset 2 12 [.inline [1]],
        Extractor.sampleTipset 1 10 []⟩ ∧
    ((locate Chain.node Extractor.sampleCid (some (.inline [1]))).run (shortChain 12)).1 =
      .error (.of (.notParent ⟨.inline [1], []⟩ ⟨.inline [1], []⟩)) :=
  ⟨linked_shortChain (by decide), rfl, List.mem_singleton.mpr rfl, by decide +kernel,
    by decide +kernel⟩

end Resolved

end ReplayVector
