import ReplayVector.Extraction.Retention
import ReplayVector.Proofs.Store.Held
import ReplayVector.Store.Memory

/-!
# Runs over stores

A store that keeps blocks in memory serves some blocks, no two of which share an identifier: what
it answers is one of them, and what it has held it holds on to. A computation that runs over such a
store, with its reads recorded, goes along its path unless it misses a block.

* `serves_memory`, `serves_readThrough`: stores that serve blocks.
* `Path.run_traced`: a recorded run over such a store.
-/

namespace ReplayVector

variable {σ : Type}

/-! ## Stores that serve blocks -/

/-- Memory that came of other memory holds on to what that held. -/
def Memory.Keeps (m m' : Memory) : Prop :=
  ∀ c data, m.get? c = some data → m'.get? c = some data

theorem Memory.Keeps.refl (m : Memory) : m.Keeps m := fun _ _ h => h

/-- What is kept twice is kept. -/
theorem Memory.Keeps.trans {m m' m'' : Memory} (h : m.Keeps m') (h' : m'.Keeps m'') :
    m.Keeps m'' := by
  intro c data hc
  exact h' c data (h c data hc)

/-- The store keeps blocks in memory and gives out none but the given ones. -/
structure Serves (s : BlockStore (StateT Memory (StateM σ))) (blocks : Blocks) : Prop where
  get : ∀ {c : Cid} {m m' : Memory} {ch ch' : σ} {a : Except Failure (Option Bytes)},
    c.isIdentity = false → m.Within blocks → s.get c m ch = ((a, m'), ch') →
      m'.Within blocks ∧ m.Keeps m' ∧
        ∀ data, a = .ok (some data) → blocks ⟨c, data⟩ ∧ m'.get? c = some data
  put : ∀ (b : Block) (m : Memory) (ch : σ), s.put b m ch = ((.ok (), m.put b), ch)

/-- A store in memory serves what it holds. -/
theorem serves_memory (blocks : Blocks) :
    Serves (Memory.store : BlockStore (StateT Memory (StateM σ))) blocks where
  get := by
    intro c m m' ch ch' a _ hm h
    cases h
    refine ⟨hm, .refl m, fun data hdata => ?_⟩
    have hget : m.get? c = some data := Except.ok.inj hdata
    exact ⟨hm _ (Memory.get?_eq_some hget), hget⟩
  put := fun _ _ _ => rfl

/-- The blocks that a source has and that are genuine. -/
def Supplies (readBlock : Cid → StateM σ (Except Failure Bytes)) : Blocks :=
  fun b => b.verify = .ok () ∧ ∃ ch ch', readBlock b.cid ch = (.ok b.data, ch')

/-- A block that is fetched is verified, and then kept. -/
theorem ReadThrough.fetch_eq (readBlock : Cid → StateM σ (Except Failure Bytes)) (c : Cid) (m : Memory)
    (ch : σ) :
    ReadThrough.fetch readBlock c m ch =
      match (readBlock c ch).1 with
      | .error e => ((.error (e.context (.fetchingBlock c)), m), (readBlock c ch).2)
      | .ok data =>
        match (⟨c, data⟩ : Block).verify with
        | .error e => ((.error e, m), (readBlock c ch).2)
        | .ok () => ((.ok data, m.put ⟨c, data⟩), (readBlock c ch).2) := by
  rcases h : readBlock c ch with ⟨a, ch'⟩
  cases a with
  | error e =>
    simp only [ReadThrough.fetch, bind, StateT.bind, liftM, monadLift, MonadLift.monadLift,
      StateT.lift, h]
    rfl
  | ok data =>
    have hfetch : ReadThrough.fetch readBlock c m ch =
        (match (⟨c, data⟩ : Block).verify with
          | .error e => (pure (.error e) : StateT Memory (StateM σ) (Except Failure Bytes))
          | .ok () => do
            modify fun m : Memory => m.put ⟨c, data⟩
            return .ok data) m ch' := by
      simp only [ReadThrough.fetch, bind, StateT.bind, liftM, monadLift, MonadLift.monadLift,
        StateT.lift, h]
      rfl
    rw [hfetch]
    dsimp only
    cases (⟨c, data⟩ : Block).verify <;> rfl

/-- A block that is held is not fetched. -/
theorem ReadThrough.get_eq (readBlock : Cid → StateM σ (Except Failure Bytes)) {c : Cid}
    (hid : c.isIdentity = false) (m : Memory) (ch : σ) :
    (ReadThrough.store readBlock).get c m ch =
      match m.get? c with
      | some data => ((.ok (some data), m), ch)
      | none =>
        (((ReadThrough.fetch readBlock c m ch).1.1.map some,
          (ReadThrough.fetch readBlock c m ch).1.2), (ReadThrough.fetch readBlock c m ch).2) := by
  have hstore : (ReadThrough.store readBlock).get c m ch =
      (match m.get? c with
        | some data => (pure (.ok (some data)) :
            StateT Memory (StateM σ) (Except Failure (Option Bytes)))
        | none => do return (← ReadThrough.fetch readBlock c).map some) m ch := by
    simp only [ReadThrough.store, hid, Bool.false_eq_true, if_false]
    rfl
  rw [hstore]
  cases m.get? c <;> rfl

namespace ReadThrough

variable {readBlock : Cid → StateM σ (Except Failure Bytes)}

/-- Bytes in an identifier are read off it. -/
theorem get_identity {k : Cid} (hid : k.isIdentity = true) (m : Memory) (ch : σ) :
    (store readBlock).get k m ch = ((.ok (some k.hash.digest.val), m), ch) := by
  simp only [store, hid, if_true]
  rfl

/-- Looking whether a block is there is reading it. -/
theorem has_eq (k : Cid) (m : Memory) (ch : σ) :
    (store readBlock).has k m ch =
      ((.ok ((store readBlock).get k m ch).1.1.isOk, ((store readBlock).get k m ch).1.2),
        ((store readBlock).get k m ch).2) := by
  cases hid : k.isIdentity with
  | true =>
    rw [get_identity hid]
    simp only [store, hid]
    rfl
  | false =>
    rw [get_eq readBlock hid]
    have hcontains := m.get?_isSome k
    simp only [store, hid, Bool.false_eq_true, false_or]
    show (if m.contains k then _ else _ : StateT Memory (StateM σ) (Except Failure Bool)) m ch = _
    -- what is held is there at once, and for anything else both of them fetch
    cases hm : m.get? k with
    | some data =>
      rw [hm] at hcontains
      rw [← hcontains]
      rfl
    | none =>
      rw [hm] at hcontains
      rw [← hcontains]
      show (fetch readBlock k >>= _) m ch = _
      rcases hfetch : fetch readBlock k m ch with ⟨⟨_ | data, m'⟩, ch'⟩
      · simp only [bind, StateT.bind, hfetch]
        rfl
      · simp only [bind, StateT.bind, hfetch]
        rfl

end ReadThrough

/-- A store over a chain serves what the chain supplies. -/
theorem serves_readThrough {readBlock : Cid → StateM σ (Except Failure Bytes)} {blocks : Blocks}
    (hfree : CollisionFree blocks) (hsupplies : ∀ b, Supplies readBlock b → blocks b) :
    Serves (ReadThrough.store readBlock) blocks where
  get := by
    intro c m m' ch ch' a hid hm h
    rw [ReadThrough.get_eq readBlock hid] at h
    split at h
    · next data hdata =>
      cases h
      refine ⟨hm, .refl m, fun data' hdata' => ?_⟩
      cases hdata'
      exact ⟨hm _ (Memory.get?_eq_some hdata), hdata⟩
    · rw [ReadThrough.fetch_eq] at h
      split at h
      · cases h
        exact ⟨hm, .refl m, fun data hdata => (by cases hdata)⟩
      · next data hread =>
        split at h
        · cases h
          exact ⟨hm, .refl m, fun data hdata => (by cases hdata)⟩
        · next hverify =>
          have hb : blocks ⟨c, data⟩ :=
            hsupplies ⟨c, data⟩ ⟨hverify, ch, (readBlock c ch).2, Prod.ext hread rfl⟩
          cases h
          refine ⟨hm.put hb, fun c' data' h' => Memory.get?_put_of_get? hfree hm hb h', ?_⟩
          intro data' hdata'
          cases hdata'
          exact ⟨hb, by rw [Memory.get?_put, if_pos rfl]⟩
  put := fun _ _ _ => rfl

/-- What a store that keeps blocks in memory may have behind it: nothing, or a source to read
through to. -/
inductive Backing (σ : Type) where
  | none
  | source (readBlock : Cid → StateM σ (Except Failure Bytes))

namespace Backing

/-- The store. -/
def store : Backing σ → BlockStore (StateT Memory (StateM σ))
  | none => Memory.store
  | source readBlock => ReadThrough.store readBlock

/-- The blocks that may come from behind the memory. -/
def Supplies : Backing σ → Blocks
  | none => fun _ => False
  | source readBlock => ReplayVector.Supplies readBlock

theorem serves (backing : Backing σ) {blocks : Blocks} (hfree : CollisionFree blocks)
    (hsupplies : ∀ b, backing.Supplies b → blocks b) : Serves backing.store blocks := by
  cases backing with
  | none => exact serves_memory blocks
  | source readBlock => exact serves_readThrough hfree hsupplies

end Backing

/-! ## Runs -/

/-- What is recorded of an answer. -/
def ReadRecord.after (c : Cid) (a : Except Failure (Option Bytes)) (record : ReadRecord) :
    ReadRecord :=
  match a with
  | .ok (some _) => record.add c
  | _ => record

/-- What is recorded of blocks that were found. -/
def ReadRecord.addAll (record : ReadRecord) (bs : List Block) : ReadRecord :=
  bs.foldl (fun record b => record.add b.cid) record

namespace BlockM

variable {α : Type} {s : BlockStore (StateT Memory (StateM σ))} {blocks : Blocks}

/-- A question over the recording store, and what goes on from its answer. -/
theorem run_get (s : BlockStore (StateT Memory (StateM σ))) (c : Cid)
    (next : Except Failure (Option Bytes) → BlockM α) (record : ReadRecord) (m : Memory) (ch : σ) :
    (get c next).run s.traced record m ch =
      (next (s.get c m ch).1.1).run s.traced (record.after c (s.get c m ch).1.1)
        (s.get c m ch).1.2 (s.get c m ch).2 := by
  rcases h : s.get c m ch with ⟨⟨a, m'⟩, ch'⟩
  simp only [run, BlockStore.traced, bind, StateT.bind, liftM, monadLift, MonadLift.monadLift,
    StateT.lift, h]
  rcases a with e | _ | data <;> rfl

theorem run_put (s : BlockStore (StateT Memory (StateM σ))) (b : Block)
    (next : Except Failure Unit → BlockM α) (record : ReadRecord) (m : Memory) (ch : σ) :
    (put b next).run s.traced record m ch =
      (next (s.put b m ch).1.1).run s.traced record (s.put b m ch).1.2 (s.put b m ch).2 := by
  rcases h : s.put b m ch with ⟨⟨a, m'⟩, ch'⟩
  simp only [run, BlockStore.traced, bind, StateT.bind, liftM, monadLift, MonadLift.monadLift,
    StateT.lift, h]
  rfl

/-- How a recorded run over a store has gone along a path. -/
structure Went (blocks : Blocks) (rs ws : List Block) (record record' : ReadRecord)
    (m m' : Memory) : Prop where
  record_eq : record' = record.addAll rs
  within : m'.Within blocks
  keeps : m.Keeps m'
  holds : ∀ b ∈ rs ++ ws, m'.get? b.cid = some b.data

/-- A recorded run over a store that does not miss a block goes along the path. -/
theorem Path.run_traced (hs : Serves s blocks) (hfree : CollisionFree blocks)
    {miss : Except Failure α → Prop} {p : BlockM α} {rs ws : List Block} {r : Except Failure α}
    (h : Path miss p rs ws r) (hrs : ∀ b ∈ rs, blocks b ∧ b.cid.isIdentity = false)
    (hws : ∀ b ∈ ws, blocks b) {record record' : ReadRecord} {m m' : Memory} {ch ch' : σ}
    {r' : Except Failure α} (hm : m.Within blocks)
    (hrun : p.run s.traced record m ch = (((r', record'), m'), ch')) (hr' : ¬miss r') :
    r' = r ∧ Went blocks rs ws record record' m m' := by
  induction h generalizing record m ch with
  | done r =>
    cases hrun
    exact ⟨rfl, rfl, hm, .refl _, by simp⟩
  | @get c next data rs ws r hstrict h ih =>
    obtain ⟨hb, hid⟩ := hrs _ (List.mem_cons_self ..)
    have hrest := fun b hb => hrs b (List.mem_cons_of_mem _ hb)
    rw [run_get] at hrun
    rcases hget : s.get c m ch with ⟨⟨a, m₁⟩, ch₁⟩
    rw [hget] at hrun
    obtain ⟨hm₁, hkeeps, hfound⟩ := hs.get hid hm hget
    have hend (hq : (next a).EndsIn miss) : False := by
      obtain ⟨r₁, hr₁, hmiss⟩ := hq
      simp only [hr₁] at hrun
      cases hrun
      exact hr' hmiss
    rcases a with e | _ | data'
    · exact (hend (hstrict.1 e)).elim
    · exact (hend hstrict.2).elim
    · obtain ⟨hb', hheld⟩ := hfound data' rfl
      -- what the store has found is the block of the path
      have heq : (⟨c, data'⟩ : Block) = ⟨c, data⟩ := hfree _ _ hb' hb rfl
      cases heq
      obtain ⟨hr, hwent⟩ := ih hrest hws hm₁ hrun
      refine ⟨hr, hwent.record_eq, hwent.within, hkeeps.trans hwent.keeps, ?_⟩
      intro b hmem
      rcases List.mem_cons.mp hmem with rfl | hmem
      · exact hwent.keeps c data hheld
      · exact hwent.holds b hmem
  | @put b next ws r h ih =>
    have hb := hws b (List.mem_cons_self ..)
    have hrest := fun b hb => hws b (List.mem_cons_of_mem _ hb)
    rw [run_put, hs.put] at hrun
    obtain ⟨hr, hwent⟩ := ih (by simp) hrest (hm.put hb) hrun
    refine ⟨hr, hwent.record_eq, hwent.within, ?_, ?_⟩
    · intro c data hc
      exact hwent.keeps c data (Memory.get?_put_of_get? hfree hm hb hc)
    · intro b' hmem
      rcases List.mem_cons.mp hmem with rfl | hmem
      · exact hwent.keeps _ _ (by rw [Memory.get?_put, if_pos rfl])
      · exact hwent.holds b' hmem

end BlockM

end ReplayVector
