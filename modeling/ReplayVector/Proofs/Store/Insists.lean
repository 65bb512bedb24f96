import ReplayVector.Proofs.Store.Phases
import ReplayVector.Proofs.Store.Stores

/-!
# Computations that need every block they ask for

A computation insists on its blocks if it comes to nothing without any of them, whether the block is
not there, the store fails or it does not take a block. If such a computation ends well over any store
that gives out the right bytes, it has not missed a block. So it does what it does on all blocks there
are, however the store comes by them.

* `BlockM.Refuses`: what a computation makes of a block that is not taken.
* `BlockM.Insists`: the form of computations that need every block.
* `Offers`: stores that give out the bytes of a view.
* `BlockM.Insists.of_run_ok`: a run over such a store.
-/

namespace ReplayVector

namespace BlockM

variable {α β : Type}

-- ---------------------------------------------------------------------------
-- Forms
-- ---------------------------------------------------------------------------

/-- The first block that is not taken ends the computation, with a result made of the reason. -/
def Refuses (k : Failure → Except Failure α) : BlockM α → Prop
  | done _ => True
  | get _ next => ∀ r, Refuses k (next r)
  | has _ next => ∀ r, Refuses k (next r)
  | put _ next => (∀ e, next (.error e) = done (k e)) ∧ Refuses k (next (.ok ()))

/-- Without any block that it asks for or writes, the computation is at its end, with a result in
`miss`. -/
def Insists (miss : Except Failure α → Prop) : BlockM α → Prop
  | done _ => True
  | get _ next => (∀ e, (next (.error e)).EndsIn miss) ∧ (next (.ok none)).EndsIn miss ∧
      ∀ data, Insists miss (next (.ok (some data)))
  | has _ _ => False
  | put _ next => (∀ e, (next (.error e)).EndsIn miss) ∧ Insists miss (next (.ok ()))

variable {miss : Except Failure α → Prop} {miss' : Except Failure β → Prop}
  {k : Failure → Except Failure α} {k' : Failure → Except Failure β} {p : BlockM α}
  {f : Except Failure α → BlockM β} {g : α → BlockM β}

/-- What writes nothing has nothing refused. -/
theorem Quiet.refuses (h : p.Quiet) : p.Refuses k := by
  induction p with
  | done r => trivial
  | get c next ih => exact fun r => ih r (h r)
  | has c next ih => exact fun r => ih r (h r)
  | put b next => exact h.elim

/-- What follows is left out when a block is not taken, apart from what it makes of the result. -/
theorem Refuses.andThen (h : p.Refuses k) (hf : ∀ r, (f r).Refuses k')
    (hk : ∀ e, f (k e) = done (k' e)) : (p.andThen f).Refuses k' := by
  induction p with
  | done r => exact hf r
  | get c next ih => exact fun r => ih r (h r)
  | has c next ih => exact fun r => ih r (h r)
  | put b next ih =>
    refine ⟨fun e => ?_, ih _ h.2⟩
    show (next (.error e)).andThen f = done (k' e)
    rw [h.1 e]
    exact hk e

/-- Two parts in which a refusal comes out alike. -/
theorem Refuses.bind {reword : Failure → Failure} (h : p.Refuses fun e => .error (reword e))
    (hg : ∀ a, (g a).Refuses fun e => .error (reword e)) :
    (p >>= g).Refuses fun e => .error (reword e) := by
  refine h.andThen (fun r => ?_) fun _ => rfl
  cases r with
  | ok a => exact hg a
  | error e => trivial

/-- Trying turns a refusal into an outcome. -/
theorem Refuses.attempt (h : p.Refuses k) : p.attempt.Refuses fun e => .ok (k e) := by
  refine h.andThen (fun r => ?_) fun e => ?_
  · trivial
  · rfl

/-- A value is written as one block, and a refusal of it is handed on. -/
theorem refuses_writeCbor (v : Cbor) : (writeCbor v).Refuses .error := ⟨fun _ => rfl, trivial⟩

/-- What only writes needs every block to be taken, if it comes to nothing otherwise. -/
theorem Blind.insists (h : p.Blind) (hrefuses : p.Refuses k) (hk : ∀ e, miss (k e)) :
    p.Insists miss := by
  induction p with
  | done r => trivial
  | get c next => exact h.elim
  | has c next => exact h.elim
  | put b next ih => exact ⟨fun e => ⟨_, hrefuses.1 e, hk e⟩, ih _ (h _) hrefuses.2⟩

/-- A miss ends the first part, and what follows makes a miss of it. -/
theorem Insists.andThen (h : p.Insists miss) (hf : ∀ r, (f r).Insists miss')
    (hmiss : ∀ r, miss r → (f r).EndsIn miss') : (p.andThen f).Insists miss' := by
  induction p with
  | done r => exact hf r
  | get c next ih =>
    exact ⟨fun e => (h.1 e).andThen hmiss, h.2.1.andThen hmiss, fun data => ih _ (h.2.2 data)⟩
  | has c next => exact h.elim
  | put b next ih => exact ⟨fun e => (h.1 e).andThen hmiss, ih _ h.2⟩

theorem insists_pure (a : α) : (pure a : BlockM α).Insists miss := trivial

theorem insists_fail (e : Failure) : (fail e : BlockM α).Insists miss := trivial

theorem insists_ofOption (e : Failure) (o : Option α) : (ofOption e o).Insists miss := by
  cases o <;> trivial

/-- A value that is not taken is a failure. -/
theorem insists_writeCbor (v : Cbor) : (writeCbor v).Insists Failed := by
  have hrefuses := refuses_writeCbor v
  exact (blind_writeCbor v).insists hrefuses fun e => ⟨e, rfl⟩

/-- Parts that fail without a block make up a whole that does. -/
theorem Insists.bind (h : p.Insists Failed) (hg : ∀ a, (g a).Insists Failed) :
    (p >>= g).Insists Failed := by
  refine h.andThen (fun r => ?_) ?_
  · cases r with
    | ok a => exact hg a
    | error e => trivial
  · rintro _ ⟨e, rfl⟩
    exact endsIn_failed e

/-- A failure may be reworded. -/
theorem Insists.mapFailure (h : p.Insists Failed) (k : Failure → Failure) :
    (p.mapFailure k).Insists Failed := by
  refine h.andThen (fun _ => trivial) ?_
  rintro _ ⟨e, rfl⟩
  exact endsIn_failed _

theorem Insists.context (h : p.Insists Failed) (c : Cause) : (p.context c).Insists Failed :=
  h.mapFailure _

theorem Insists.summarize (h : p.Insists Failed) (c : Cause) : (p.summarize c).Insists Failed :=
  h.mapFailure _

/-- Trying turns a miss into an outcome. -/
theorem Insists.attempt (h : p.Insists Failed) :
    p.attempt.Insists fun r => ∃ e, r = .ok (.error e) := by
  refine h.andThen (fun _ => trivial) ?_
  rintro _ ⟨e, rfl⟩
  exact ⟨_, rfl, e, rfl⟩

/-- A value that is not there is a failure. -/
theorem insists_readAs (k : Cbor → Option α) (c : Cid) : (readAs k c).Insists Failed := by
  -- reading structured data may find nothing; only then is that a failure
  have hread : (readCbor? c).Insists fun r => Failed r ∨ r = .ok none := by
    unfold readCbor?
    split
    · trivial
    · refine ⟨fun e => ⟨_, rfl, Or.inl ⟨e, rfl⟩⟩, ⟨_, rfl, Or.inr rfl⟩, fun data => ?_⟩
      simp only [andThen]
      cases Cbor.decode? data <;> trivial
  refine hread.andThen (fun r => ?_) ?_
  · cases r with
    | ok v => exact insists_ofOption _ _
    | error e => trivial
  · rintro _ (⟨e, rfl⟩ | rfl)
    · exact endsIn_failed e
    · exact endsIn_failed _

-- ---------------------------------------------------------------------------
-- Writes kept aside
-- ---------------------------------------------------------------------------

/-- With its writes kept aside a computation needs the blocks that it asks for. -/
private theorem Insists.aside (h : p.Insists Failed) (horderly : p.Orderly) :
    (p.aside .empty).Insists Failed := by
  have hfailed {q : BlockM α} (hq : q.EndsIn Failed) : (q.aside .empty).EndsIn Failed := by
    obtain ⟨_, rfl, e, rfl⟩ := hq
    exact endsIn_failed e
  induction p with
  | done r => trivial
  | get c next ih =>
    exact ⟨fun e => hfailed (h.1 e), hfailed h.2.1, fun data => ih _ (h.2.2 data) (horderly _)⟩
  | has c next => exact h.elim
  | put b next =>
    have hblind : (put b next).Blind := horderly
    obtain ⟨writes, haside⟩ := hblind.aside .empty fun _ => none
    rw [haside]
    trivial

/-- With its writes discarded it needs them too. -/
theorem Insists.buffered (h : p.Insists Failed) (horderly : p.Orderly) :
    p.buffered.Insists Failed := by
  rw [BlockM.buffered, map_eq]
  refine (h.aside horderly).andThen (fun _ => trivial) ?_
  rintro _ ⟨e, rfl⟩
  exact endsIn_failed e

end BlockM

-- ---------------------------------------------------------------------------
-- Stores
-- ---------------------------------------------------------------------------

variable {σ α : Type}

/-- A view as a set of blocks. -/
def BlockM.View.blocks (view : BlockM.View) : Blocks := fun b => view b.cid = some b.data

/-- A view has one block for an identifier. -/
theorem BlockM.View.collisionFree (view : BlockM.View) : CollisionFree view.blocks := by
  rintro ⟨c, data⟩ ⟨c', data'⟩ hb hb' (rfl : c = c')
  have heq : some data = some data' := hb.symm.trans hb'
  rw [Option.some.inj heq]

/-- A store that keeps blocks in memory gives out the bytes of a view, and keeps no others. -/
structure Offers (s : BlockStore (StateT Memory (StateM σ))) (view : BlockM.View) : Prop where
  get : ∀ {c : Cid} {m m' : Memory} {ch ch' : σ} {a : Except Failure (Option Bytes)},
    m.Within view.blocks → s.get c m ch = ((a, m'), ch') →
      m'.Within view.blocks ∧ ∀ data, a = .ok (some data) → view c = some data
  put : ∀ (b : Block) (m : Memory) (ch : σ), s.put b m ch = ((.ok (), m.put b), ch)

/-- A store over a chain gives out what the chain supplies, and what identifiers hold inline. -/
theorem offers_readThrough {readBlock : Cid → StateM σ (Except Failure Bytes)} {view : BlockM.View}
    (hinline : ∀ c, c.isIdentity = true → view c = some c.hash.digest.val)
    (hsupplies : ∀ b, Supplies readBlock b → view.blocks b) :
    Offers (ReadThrough.store readBlock) view where
  get := by
    intro c m m' ch ch' a hm h
    cases hid : c.isIdentity with
    | true =>
      have hget : (ReadThrough.store readBlock).get c m ch =
          ((.ok (some c.hash.digest.val), m), ch) := by
        simp only [ReadThrough.store, hid, if_true]
        rfl
      rw [hget] at h
      cases h
      refine ⟨hm, fun data hdata => ?_⟩
      cases hdata
      exact hinline c hid
    | false =>
      obtain ⟨hm', -, hfound⟩ :=
        (serves_readThrough view.collisionFree hsupplies).get hid hm h
      exact ⟨hm', fun data hdata => (hfound data hdata).1⟩
  put := fun _ _ _ => rfl

namespace BlockM

/-- A computation that only writes leaves the record and the chain alone. -/
private theorem Blind.run_traced {s : BlockStore (StateT Memory (StateM σ))} {view : View}
    (hs : Offers s view) {p : BlockM α} (h : p.Blind) (record : ReadRecord) (m : Memory) (ch : σ) :
    p.run s.traced record m ch = ((((p.on view).1, record), m.putAll (p.on view).2), ch) := by
  induction p generalizing m with
  | done r => rfl
  | get c next => exact h.elim
  | has c next => exact h.elim
  | put b next ih =>
    rw [run_put, hs.put]
    exact ih _ (h _) (m.put b)

/-- A recorded run that ends well, over a store that gives out the bytes of a view, does what the
computation does on the view. -/
theorem Insists.of_run_ok {s : BlockStore (StateT Memory (StateM σ))} {view : View}
    (hs : Offers s view) {p : BlockM α} (h : p.Insists Failed) (horderly : p.Orderly)
    {record record' : ReadRecord} {m m' : Memory} {ch ch' : σ} (hm : m.Within view.blocks) {a : α}
    (hrun : p.run s.traced record m ch = (((.ok a, record'), m'), ch')) :
    (p.on view).1 = .ok a ∧ ((∀ b ∈ (p.on view).2, view.blocks b) → m'.Within view.blocks) := by
  induction p generalizing record m ch with
  | done r =>
    cases hrun
    exact ⟨rfl, fun _ => hm⟩
  | get c next ih =>
    rw [run_get] at hrun
    rcases hget : s.get c m ch with ⟨⟨answer, m₁⟩, ch₁⟩
    rw [hget] at hrun
    obtain ⟨hm₁, hfound⟩ := hs.get hm hget
    -- a run that ends well has not missed the block, for then it would have failed right there
    have hend (hq : (next answer).EndsIn Failed) : False := by
      obtain ⟨_, hr, e, rfl⟩ := hq
      simp only [hr] at hrun
      cases hrun
    rcases answer with e | _ | data
    · exact (hend (h.1 e)).elim
    · exact (hend h.2.1).elim
    · unfold on
      rw [hfound data rfl]
      exact ih _ (h.2.2 data) (horderly _) hm₁ hrun
  | has c next => exact h.elim
  | put b next =>
    -- from the first write on nothing is asked any more
    have hblind : (put b next).Blind := horderly
    rw [hblind.run_traced hs] at hrun
    obtain ⟨hfirst, -⟩ := Prod.mk.inj hrun
    obtain ⟨hfirst, hmemory⟩ := Prod.mk.inj hfirst
    refine ⟨(Prod.mk.inj hfirst).1, fun hws => ?_⟩
    rw [← hmemory]
    exact hm.putAll hws

end BlockM

end ReplayVector
