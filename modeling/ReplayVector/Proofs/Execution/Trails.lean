import ReplayVector.Fixture.Transfers
import ReplayVector.Proofs.Execution.Runs
import ReplayVector.Proofs.Store.Mirrors

/-!
# Messages applied one after the other

Among blocks that link to none but each other, messages are applied one after the other, each on
the root that the one before has left. All that they read and compute is among these blocks. So
whoever holds the blocks can apply the messages again, from root to root, and nothing changes.

* `Transfer.Applies`: a message and its outcome among some blocks.
* `Transfer.Trail`: messages, their receipts, and the root they lead to.
* `Transfer.trail_of_exec`: messages that were executed in memory.
-/

namespace ReplayVector

open BlockM

/-- Putting blocks that are held changes nothing. -/
theorem Memory.get?_putAll_held {m : Memory} {bs : List Block}
    (h : ∀ b ∈ bs, m.get? b.cid = some b.data) : (m.putAll bs).get? = m.get? := by
  induction bs generalizing m with
  | nil => rfl
  | cons b bs ih =>
    have hput : (m.put b).get? = m.get? := by
      funext c
      rw [get?_put]
      split
      · next heq => rw [← heq, h b (List.mem_cons_self ..)]
      · rfl
    rw [putAll_cons, ih (by rw [hput]; exact fun b' hb' => h b' (List.mem_cons_of_mem _ hb')), hput]

namespace Transfer

variable {blocks : Blocks} {e : Execution} {outcome : Outcome} {m m' : Memory}

-- ---------------------------------------------------------------------------
-- One message
-- ---------------------------------------------------------------------------

/-- A message is applied among some blocks: it reads some of them, and what it computes is among
them too. -/
def Applies (blocks : Blocks) (e : Execution) (outcome : Outcome) : Prop :=
  ∃ rs ws, Course blocks e rs ws (.ok outcome) ∧ ∀ b ∈ ws, blocks b

/-- A message that was applied in memory has been applied among the blocks. -/
theorem applies_of_exec (hblocks : blocks.Closed) (hfree : CollisionFree blocks)
    (hroot : blocks.names e.preroot) (hm : m.Within blocks)
    (hexec : (m.exec (apply e)).1 = .ok outcome) (hws : ∀ b ∈ m.writes (apply e), blocks b) :
    Applies blocks e outcome := by
  obtain ⟨rs, ws, r, hcourse⟩ := exists_course hblocks e hroot
  have hheld := hcourse.apply.held_of_ok (fun b hb => hm.get? hfree (hcourse.mem b hb)) hexec
  rw [hcourse.apply.exec hheld] at hexec
  obtain rfl : r = .ok outcome := hexec
  rw [Memory.writes_of_path hcourse.apply hheld] at hws
  exact ⟨rs, ws, hcourse, hws⟩

/-- The root after a message is among the blocks. -/
theorem Applies.names_postroot (h : Applies blocks e outcome) :
    blocks.names outcome.postroot := by
  obtain ⟨rs, ws, hcourse, hws⟩ := h
  exact Blocks.names_mono (fun b hb => hb.elim id (hws b)) hcourse.postroot

/-- Where the blocks are held, the message can be applied again, and nothing changes. -/
theorem Applies.run (h : Applies blocks e outcome) (hm : m.Holds blocks) :
    m.Answers (apply e) ∧ ∃ m', m.exec (apply e) = (.ok outcome, m') ∧ m'.get? = m.get? := by
  obtain ⟨rs, ws, hcourse, hws⟩ := h
  have hheld : ∀ b ∈ rs, m.get? b.cid = some b.data := fun b hb => hm b (hcourse.mem b hb)
  have hstored : ∀ b ∈ rs, b.cid.isIdentity = false :=
    fun b hb => hcourse.stored (Or.inl (hcourse.mem b hb))
  exact ⟨(hcourse.apply.answers hheld hstored).1, m.putAll ws, hcourse.apply.exec hheld,
    Memory.get?_putAll_held fun b hb => hm b (hws b hb)⟩

/-- What a root says is carried on by a message. -/
theorem Applies.stores (h : Applies blocks e outcome) (hfree : CollisionFree blocks)
    (hwithin : m.Within blocks) (hm : m.Holds blocks) {neat : Prop} {base : StateTree.Base}
    {L : Ledger} (hL : StateTree.Stores neat m.get? base L e.preroot) :
    ∃ base' L', StateTree.Stores neat m.get? base' L' outcome.postroot := by
  obtain ⟨-, m', hexec, hsame⟩ := h.run hm
  obtain ⟨rs, ws, hcourse, hws⟩ := h
  have hwrites : ∀ b ∈ m.writes (apply e), blocks b := by
    rw [Memory.writes_of_path hcourse.apply fun b hb => hm b (hcourse.mem b hb)]
    exact hws
  obtain ⟨s, base', -, -, hstores⟩ := of_exec_apply hL hfree hwithin hwrites
    (congrArg Prod.fst hexec)
  rw [hexec, hsame] at hstores
  exact ⟨base', s.after L, hstores⟩

-- ---------------------------------------------------------------------------
-- Many messages
-- ---------------------------------------------------------------------------

/-- Messages are applied among some blocks one after the other: the root before them, their
receipts, and the root after them. -/
inductive Trail (blocks : Blocks) : Cid → List Message → List Receipt → Cid → Prop
  | nil (root : Cid) : Trail blocks root [] [] root
  | cons {root last : Cid} {message : Message} {ms : List Message} {receipts : List Receipt}
      {outcome : Outcome} (h : Applies blocks (Fixture.execution root message) outcome)
      (rest : Trail blocks outcome.postroot ms receipts last) :
      Trail blocks root (message :: ms) (outcome.receipt :: receipts) last

/-- Every message of a trail has its receipt. -/
theorem Trail.length_eq {root last : Cid} {ms : List Message} {receipts : List Receipt}
    (h : Trail blocks root ms receipts last) : receipts.length = ms.length := by
  induction h with
  | nil root => rfl
  | cons h rest ih => rw [List.length_cons, List.length_cons, ih]

/-- What a root says is carried on along a trail. -/
theorem Trail.stores {root last : Cid} {ms : List Message} {receipts : List Receipt}
    (h : Trail blocks root ms receipts last) (hfree : CollisionFree blocks)
    (hwithin : m.Within blocks) (hm : m.Holds blocks) {neat : Prop} {base : StateTree.Base}
    {L : Ledger} (hL : StateTree.Stores neat m.get? base L root) :
    ∃ base' L', StateTree.Stores neat m.get? base' L' last := by
  -- by induction on the trail: the ledger after a message is the one before the next
  induction h generalizing base L with
  | nil root => exact ⟨base, L, hL⟩
  | cons h rest ih =>
    obtain ⟨base', L', hL'⟩ := h.stores hfree hwithin hm hL
    exact ih hL'

/-- Messages that were executed in memory are a trail. -/
theorem trail_of_exec (hblocks : blocks.Closed) (hfree : CollisionFree blocks) {root last : Cid}
    {ms : List Message} {receipts : List Receipt} (hroot : blocks.names root)
    (hm : m.Within blocks)
    (hexec : m.exec (Fixture.executeAll ms root) = (.ok (receipts, last), m'))
    (hws : ∀ b ∈ m.writes (Fixture.executeAll ms root), blocks b) :
    Trail blocks root ms receipts last ∧ blocks.names last := by
  -- by induction on the messages, for every root among the blocks and every memory within them
  induction ms generalizing m root receipts with
  | nil =>
    cases hexec
    exact ⟨.nil _, hroot⟩
  | cons message ms ih =>
    obtain ⟨outcome, m₁, hexec₁, hgrows₁, hexec₂, hws₂⟩ := Memory.grows_bind hfree hm hexec hws
    obtain ⟨⟨rest, last'⟩, m₂, hexec₂, hgrows₂, hexec₃, -⟩ :=
      Memory.grows_bind hfree hgrows₁.within hexec₂ hws₂
    cases hexec₃
    have happlies : Applies blocks (Fixture.execution root message) outcome :=
      applies_of_exec hblocks hfree hroot hm (congrArg Prod.fst hexec₁) hgrows₁.mem
    obtain ⟨htrail, hlast⟩ :=
      ih happlies.names_postroot hgrows₁.within hexec₂ hgrows₂.mem
    exact ⟨.cons happlies htrail, hlast⟩

end Transfer

namespace Fixture

-- ---------------------------------------------------------------------------
-- Executing messages in memory
-- ---------------------------------------------------------------------------

theorem executeAll_append (ms ms' : List Message) (root : Cid) :
    executeAll (ms ++ ms') root = do
      let (receipts, mid) ← executeAll ms root
      let (receipts', last) ← executeAll ms' mid
      return (receipts ++ receipts', last) := by
  induction ms generalizing root with
  | nil => simp [executeAll]
  | cons m ms ih => simp [executeAll, ih]

/-- Executing messages goes on with the history of states. -/
theorem History.executeAll {accounts : Nat} {held held' : Memory} {involved : List Block}
    {roots : List Cid} (h : History accounts held involved roots) {ms : List Message}
    {root last : Cid} {receipts : List Receipt} (hroot : root ∈ roots)
    (hexec : held.exec (Fixture.executeAll ms root) = (.ok (receipts, last), held')) :
    ∃ roots', History accounts held'
      (involved ++ held.writes (Fixture.executeAll ms root)) roots' := by
  induction ms generalizing held involved roots root receipts with
  | nil =>
    cases hexec
    exact ⟨roots, (List.append_nil involved).symm ▸ h⟩
  | cons m ms ih =>
    obtain ⟨outcome, held₁, hexec₁, hrest⟩ := Memory.of_exec_bind_ok hexec
    obtain ⟨⟨receipts', last'⟩, held₂, hexec₂, hdone⟩ := Memory.of_exec_bind_ok hrest
    cases hdone
    -- the root after the first message has become one of the history
    obtain ⟨roots', h'⟩ := ih (h.executed (e := execution root m) hroot hexec₁)
      (List.mem_cons_self ..) hexec₂
    have hwrites : held.writes (Fixture.executeAll (m :: ms) root) =
        held.writes (Transfer.apply (execution root m)) ++
          (held₁.writes (Fixture.executeAll ms outcome.postroot) ++ []) := by
      rw [Fixture.executeAll, Memory.writes_bind hexec₁, Memory.writes_bind hexec₂]
      rfl
    rw [List.append_nil] at hwrites
    rw [hwrites, ← List.append_assoc]
    exact ⟨roots', h'⟩

end Fixture

end ReplayVector
