import ReplayVector.Proofs.Fixture.History
import ReplayVector.Proofs.Store.Stores

/-!
# Runs that read through to a source

A store that reads through to a source shows the blocks that it keeps and those of the source. If
memory holds just these, a run over the store does what a run in that memory does, as long as the
run finds every block that it asks for.

* `Memory.Answers`: a run in memory that finds every block.
* `Grounded.answers`: runs among blocks that link to none but each other.
* `Memory.Answers.run_readThrough`: such a run over a store that reads through.
-/

namespace ReplayVector

open BlockM

variable {α β σ : Type}

-- ---------------------------------------------------------------------------
-- Runs that find every block
-- ---------------------------------------------------------------------------

namespace Memory

/-- A run in memory finds every block that it asks for. -/
def Answers (m : Memory) : BlockM α → Prop
  | .done _ => True
  | .get c next =>
    c.isIdentity = false ∧ ∃ data, m.get? c = some data ∧ m.Answers (next (.ok (some data)))
  | .has _ _ => False
  | .put b next => (m.put b).Answers (next (.ok ()))

/-- What a run in memory reads, in order. -/
def reads (m : Memory) : BlockM α → List Cid
  | .done _ => []
  | .get c next => c :: m.reads (next (.ok (m.get? c)))
  | .has c next => m.reads (next (.ok (m.contains c)))
  | .put b next => (m.put b).reads (next (.ok ()))

/-- Both parts of a run find every block. -/
theorem Answers.andThen {m : Memory} {p : BlockM α} {f : Except Failure α → BlockM β}
    (h : m.Answers p) (hf : (m.exec p).2.Answers (f (m.exec p).1)) : m.Answers (p.andThen f) := by
  induction p generalizing m with
  | done r => exact hf
  | get c next ih =>
    obtain ⟨hid, data, hdata, hnext⟩ := h
    refine ⟨hid, data, hdata, ih _ hnext ?_⟩
    rw [exec_get, hdata] at hf
    exact hf
  | has c next => exact h.elim
  | put b next ih => exact ih _ h hf

/-- Rewording a failure asks for nothing. -/
theorem Answers.context {m : Memory} {p : BlockM α} (h : m.Answers p) (c : Cause) :
    m.Answers (p.context c) := h.andThen trivial

theorem exec_context (m : Memory) (p : BlockM α) (c : Cause) :
    m.exec (p.context c) = (withContext c (m.exec p).1, (m.exec p).2) := by
  show m.exec (p.andThen _) = _
  rw [exec_andThen]
  rfl

end Memory

namespace BlockM

/-- Where all blocks of a path are held, a run finds every block, and reads those of the path. -/
theorem Path.answers {miss : Except Failure α → Prop} {p : BlockM α} {rs ws : List Block}
    {r : Except Failure α} (h : Path miss p rs ws r) {m : Memory}
    (hrs : ∀ b ∈ rs, m.get? b.cid = some b.data) (hids : ∀ b ∈ rs, b.cid.isIdentity = false) :
    m.Answers p ∧ m.reads p = rs.map (·.cid) := by
  induction h generalizing m with
  | done r => exact ⟨trivial, rfl⟩
  | @get c next data rs ws r _ h ih =>
    have hdata := hrs _ (List.mem_cons_self ..)
    obtain ⟨hanswers, hreads⟩ := ih (fun b hb => hrs b (List.mem_cons_of_mem _ hb))
      fun b hb => hids b (List.mem_cons_of_mem _ hb)
    refine ⟨⟨hids _ (List.mem_cons_self ..), data, hdata, hanswers⟩, ?_⟩
    rw [Memory.reads, hdata, hreads]
    rfl
  | put h ih => exact ih (by simp) (by simp)

/-- Among blocks that link to none but each other and are all held, a run finds every block. -/
theorem Grounded.answers {post : Known → Except Failure α → Prop} {known : Known} {p : BlockM α}
    (h : p.Grounded post known) {blocks all : Blocks} (hblocks : blocks.Closed)
    (hknown : known.Within blocks) (hfree : CollisionFree all) (hsub : ∀ b, blocks b → all b)
    {m : Memory} (hm : m.Within all) (hheld : m.Holds blocks) (hws : ∀ b ∈ m.writes p, all b) :
    m.Answers p := by
  -- by induction on the computation: a block that is written joins those that are held
  induction p generalizing known blocks m with
  | done r => trivial
  | get c next ih =>
    obtain ⟨⟨hc, hcodec⟩, -, hnext⟩ := h
    obtain ⟨b, hb, rfl⟩ := hknown c hc hcodec
    obtain ⟨v, hv, hlinks⟩ := hblocks b hb
    have hdata := hheld b hb
    refine ⟨hv.tame.isIdentity hcodec, b.data, hdata, ?_⟩
    rw [Memory.writes, hdata] at hws
    exact ih _ (hnext b.data v hv.decode? hv.tidy) hblocks (hknown.add hlinks) hsub hm hheld hws
  | has c next => exact h.elim
  | put b next ih =>
    have hb : all b := hws b (List.mem_cons_self ..)
    refine ih _ h.2.2 (hblocks.also (hknown.grounded h.1)) (hknown.insert b) ?_ (hm.put hb) ?_
      fun b' hb' => hws b' (List.mem_cons_of_mem _ hb')
    · rintro b' (hb' | hb')
      · exact hsub b' hb'
      · exact List.mem_singleton.mp hb' ▸ hb
    · exact hheld.putAll hfree hm fun b' hb' => List.mem_singleton.mp hb' ▸ hb

end BlockM

-- ---------------------------------------------------------------------------
-- Reading through
-- ---------------------------------------------------------------------------

/-- Memory `M` holds what `m` does, and else what the source has. -/
def Memory.Mirrors (source : Cid → Option Bytes) (m M : Memory) : Prop :=
  ∀ c, M.get? c = (m.get? c).or (source c)

namespace Memory.Mirrors

variable {source : Cid → Option Bytes} {m M : Memory}

theorem of_empty (O : Memory) : Mirrors O.get? empty O := fun _ => rfl

theorem put (h : Mirrors source m M) (b : Block) : Mirrors source (m.put b) (M.put b) := by
  intro c
  rw [get?_put, get?_put, h c]
  split <;> rfl

/-- A block of the source is kept. -/
theorem keep (h : Mirrors source m M) {c : Cid} {data : Bytes} (hc : M.get? c = some data) :
    Mirrors source (m.put ⟨c, data⟩) M := by
  intro c'
  rw [get?_put]
  split
  · next heq =>
    have heq : c = c' := heq
    rw [← heq, hc]
    rfl
  · exact h c'

end Memory.Mirrors

/-- The source gives genuine blocks, and nothing happens to the chain. -/
def Gives (readBlock : Cid → StateM σ (Except Failure Bytes)) (source : Cid → Option Bytes)
    (ch : σ) : Prop :=
  ∀ c data, source c = some data →
    readBlock c ch = (.ok data, ch) ∧ (⟨c, data⟩ : Block).verify = .ok ()

/-- A run over a store that reads through does what a run in memory does that finds every block. -/
theorem Memory.Answers.run_readThrough {readBlock : Cid → StateM σ (Except Failure Bytes)}
    {source : Cid → Option Bytes} {ch : σ} (hsource : Gives readBlock source ch) {m M : Memory}
    {p : BlockM α} (h : M.Answers p) (hm : Mirrors source m M) (record : ReadRecord) :
    ∃ m', p.run (ReadThrough.store readBlock).traced record m ch =
        ((((M.exec p).1, (M.reads p).foldl (fun record c => record.add c) record), m'), ch) ∧
      Mirrors source m' (M.exec p).2 := by
  induction p generalizing m M record with
  | done r => exact ⟨m, rfl, hm⟩
  | get c next ih =>
    obtain ⟨hid, data, hdata, hnext⟩ := h
    have hget : ∃ m₁, (ReadThrough.store readBlock).get c m ch = ((.ok (some data), m₁), ch) ∧
        Mirrors source m₁ M := by
      rw [ReadThrough.get_eq readBlock hid]
      have hc := hm c
      rw [hdata] at hc
      cases hheld : m.get? c with
      | some data' =>
        rw [hheld] at hc
        cases hc
        exact ⟨m, rfl, hm⟩
      | none =>
        -- the block is fetched, and kept
        rw [hheld] at hc
        obtain ⟨hread, hverify⟩ := hsource c data hc.symm
        refine ⟨m.put ⟨c, data⟩, ?_, hm.keep hdata⟩
        rw [ReadThrough.fetch_eq, hread]
        dsimp only
        rw [hverify]
        rfl
    obtain ⟨m₁, hget, hm₁⟩ := hget
    obtain ⟨m', hrun, hm'⟩ := ih _ hnext hm₁ (record.add c)
    refine ⟨m', ?_, by rw [exec_get, hdata]; exact hm'⟩
    rw [run_get, hget, exec_get, reads, hdata]
    exact hrun
  | has c next => exact h.elim
  | put b next ih =>
    obtain ⟨m', hrun, hm'⟩ := ih _ (M := M.put b) h (hm.put b) record
    refine ⟨m', ?_, hm'⟩
    rw [run_put]
    exact hrun

end ReplayVector
