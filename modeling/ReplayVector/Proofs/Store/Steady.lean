import ReplayVector.Proofs.Store.Stores
import ReplayVector.Store.Memory

/-!
# Computations that do not crash

A crash is a failure that nothing else goes on from, and no context hides it. A computation is
steady if it does not crash of its own accord: as long as no answer that it gets is a crash, its
result is none. This can be seen from its form, whatever the answers are, so it holds over every
store.

* `BlockM.Always`: what holds of a result, however the computation is answered.
* `BlockM.Steady`: computations that do not crash.
* `BlockM.Ensures`: what holds of a value, if there is one.
* `BlockM.Always.exec`, `BlockM.Always.run_traced`: what becomes of that over a store.
-/

namespace ReplayVector

variable {α β : Type}

-- ---------------------------------------------------------------------------
-- Results
-- ---------------------------------------------------------------------------

/-- A cause does not make a failure a crash. -/
theorem Failure.context_ne_crash {e : Failure} (h : e ≠ .crash) (c : Cause) :
    e.context c ≠ .crash := by
  cases e with
  | because causes => exact fun heq => nomatch heq
  | crash => exact absurd rfl h

/-- Nor does it when it replaces the others. -/
theorem Failure.summarize_ne_crash {e : Failure} (h : e ≠ .crash) (c : Cause) :
    e.summarize c ≠ .crash := by
  cases e with
  | because causes => exact fun heq => nomatch heq
  | crash => exact absurd rfl h

/-- A failure is the same one whatever there could have been instead. -/
theorem error_eq_congr {ε : Type} {e f : ε} :
    (.error e : Except ε α) = .error f ↔ (.error e : Except ε β) = .error f := by
  refine ⟨?_, ?_⟩
  · intro h
    exact congrArg Except.error (Except.error.inj h)
  · intro h
    exact congrArg Except.error (Except.error.inj h)

/-- The result is no crash. -/
def Uncrashed (r : Except Failure α) : Prop := r ≠ .error .crash

theorem uncrashed_ok (a : α) : Uncrashed (.ok a) := fun h => nomatch h

/-- A failure is no crash if it is another failure. -/
theorem uncrashed_error {e : Failure} : Uncrashed (.error e : Except Failure α) ↔ e ≠ .crash := by
  refine not_congr ⟨fun h => ?_, fun h => ?_⟩
  · exact Except.error.inj h
  · exact congrArg Except.error h

theorem uncrashed_because (causes : List Cause) :
    Uncrashed (.error (.because causes) : Except Failure α) := fun h => nomatch h

/-- Failures may be reworded into others that are no crash. -/
theorem Uncrashed.mapError {r : Except Failure α} (h : Uncrashed r) {f : Failure → Failure}
    (hf : ∀ e, e ≠ .crash → f e ≠ .crash) : Uncrashed (r.mapError f) := by
  cases r with
  | ok a => exact uncrashed_ok a
  | error e => exact uncrashed_error.mpr (hf e (uncrashed_error.mp h))

theorem Uncrashed.map {r : Except Failure α} (h : Uncrashed r) (f : α → β) :
    Uncrashed (r.map f) := by
  cases r with
  | ok a => exact uncrashed_ok _
  | error e => exact uncrashed_error.mpr (uncrashed_error.mp h)

/-- A result that is no crash may be gone on with. -/
theorem Uncrashed.bind {r : Except Failure α} (h : Uncrashed r) {f : α → Except Failure β}
    (hf : ∀ a, Uncrashed (f a)) : Uncrashed (r >>= f) := by
  cases r with
  | ok a => exact hf a
  | error e => exact uncrashed_error.mpr (uncrashed_error.mp h)

/-- A cause may be added to it. -/
theorem Uncrashed.withContext {r : Except Failure α} (h : Uncrashed r) (c : Cause) :
    Uncrashed (withContext c r) := by
  refine h.mapError fun _ he => ?_
  exact Failure.context_ne_crash he c

/-- A block that does not verify is refused, which is no crash. -/
theorem Block.uncrashed_verify (b : Block) : Uncrashed b.verify := by
  unfold verify
  repeat' split
  all_goals first | exact uncrashed_ok _ | exact uncrashed_because _

namespace BlockM

-- ---------------------------------------------------------------------------
-- Forms
-- ---------------------------------------------------------------------------

/-- However the computation is answered, if no answer is a crash, its result is in `post`. -/
def Always (post : Except Failure α → Prop) : BlockM α → Prop
  | done r => post r
  | get _ next => ∀ a, Uncrashed a → Always post (next a)
  | has _ next => ∀ a, Uncrashed a → Always post (next a)
  | put _ next => ∀ a, Uncrashed a → Always post (next a)

/-- The computation does not crash of its own accord. -/
def Steady (p : BlockM α) : Prop := p.Always Uncrashed

variable {post : Except Failure α → Prop} {post' : Except Failure β → Prop} {p : BlockM α}
  {f : Except Failure α → BlockM β} {g : α → BlockM β}

/-- What holds of every result of the first part may be used for the second. -/
theorem Always.andThen (h : p.Always post) (hf : ∀ r, post r → (f r).Always post') :
    (p.andThen f).Always post' := by
  induction p with
  | done r => exact hf r h
  | get c next ih => exact fun a ha => ih a (h a ha)
  | has c next ih => exact fun a ha => ih a (h a ha)
  | put b next ih => exact fun a ha => ih a (h a ha)

theorem steady_pure (a : α) : (pure a : BlockM α).Steady := uncrashed_ok a

theorem steady_because (causes : List Cause) : (fail (.because causes) : BlockM α).Steady :=
  uncrashed_because causes

/-- A result at hand crashes only if it is a crash. -/
theorem steady_ofExcept {r : Except Failure α} (h : Uncrashed r) : (ofExcept r).Steady := h

/-- A value that is missing is an ordinary failure. -/
theorem steady_ofOption (causes : List Cause) (o : Option α) :
    (ofOption (.because causes) o).Steady := by
  cases o with
  | none => exact steady_because causes
  | some a => exact steady_pure a

/-- Steady parts make up a steady whole. -/
theorem Steady.bind (h : p.Steady) (hg : ∀ a, (g a).Steady) : (p >>= g).Steady := by
  refine Always.andThen h fun r hr => ?_
  cases r with
  | ok a => exact hg a
  | error e => exact uncrashed_error.mpr (uncrashed_error.mp hr)

/-- What follows a computation that always ends well. -/
theorem Always.bind {P : α → Prop} (h : p.Always fun r => ∃ a, r = .ok a ∧ P a)
    (hg : ∀ a, P a → (g a).Always post') : (p >>= g).Always post' := by
  refine h.andThen ?_
  rintro _ ⟨a, rfl, ha⟩
  exact hg a ha

/-- Causes may be added to what fails. -/
theorem Steady.context (h : p.Steady) (c : Cause) : (p.context c).Steady := by
  refine Always.andThen h fun _ hr => ?_
  refine Uncrashed.mapError hr fun _ he => ?_
  exact Failure.context_ne_crash he c

/-- They may be replaced by one. -/
theorem Steady.summarize (h : p.Steady) (c : Cause) : (p.summarize c).Steady := by
  refine Always.andThen h fun _ hr => ?_
  refine Uncrashed.mapError hr fun _ he => ?_
  exact Failure.summarize_ne_crash he c

/-- Trying hands on an outcome that is no crash. -/
theorem Steady.attempt (h : p.Steady) :
    p.attempt.Always fun r => ∃ r', r = .ok r' ∧ Uncrashed r' := by
  refine Always.andThen h fun r hr => ?_
  exact ⟨r, rfl, hr⟩

theorem steady_write (b : Block) : (write b).Steady := fun _ ha => ha

/-- Whether a block is taken or not, writing it does not crash. -/
theorem steady_writeCbor (v : Cbor) : (writeCbor v).Steady :=
  (steady_write _).bind fun _ => steady_pure _

/-- Bytes that are no structured data end in an ordinary failure. -/
theorem steady_readCbor? (c : Cid) : (readCbor? c).Steady := by
  unfold readCbor?
  split
  · exact steady_because _
  · refine Steady.bind (fun a ha => ha : (read c).Steady) fun found => ?_
    cases found with
    | none => exact steady_pure none
    | some data =>
      dsimp only
      split
      · exact steady_pure _
      · exact steady_because _

/-- So do structured data of another kind. -/
theorem steady_readAs (k : Cbor → Option α) (c : Cid) : (readAs k c).Steady := by
  refine (steady_readCbor? c).bind fun v => ?_
  exact steady_ofOption _ _

-- ---------------------------------------------------------------------------
-- Values
-- ---------------------------------------------------------------------------

/-- However the computation is answered, if it ends with a value, the value is in `P`. -/
def Ensures (P : α → Prop) (p : BlockM α) : Prop := p.Always fun r => ∀ a, r = .ok a → P a

section

variable {P P' : α → Prop} {Q : β → Prop}

/-- A value at hand is what it is. -/
theorem ensures_pure {a : α} (h : P a) : (pure a : BlockM α).Ensures P := by
  intro b hb
  cases hb
  exact h

/-- A failure has no value to be wrong about. -/
theorem ensures_fail (e : Failure) : (fail e : BlockM α).Ensures P := fun _ h => nomatch h

theorem ensures_true (p : BlockM α) : p.Ensures fun _ => True := by
  induction p with
  | done r => exact fun _ _ => trivial
  | get c next ih => exact fun a _ => ih a
  | has c next ih => exact fun a _ => ih a
  | put b next ih => exact fun a _ => ih a

/-- What is ensured of the first value may be used for the second. -/
theorem Ensures.bind (h : p.Ensures P) (hg : ∀ a, P a → (g a).Ensures Q) : (p >>= g).Ensures Q := by
  refine Always.andThen h fun r hr => ?_
  cases r with
  | ok a => exact hg a (hr a rfl)
  | error e => exact ensures_fail e

/-- A failure may be reworded. -/
theorem Ensures.summarize (h : p.Ensures P) (c : Cause) : (p.summarize c).Ensures P := by
  refine Always.andThen h fun r hr => ?_
  cases r with
  | ok a => exact hr
  | error e => exact ensures_fail _

/-- What is read is what the bytes of some block stand for. -/
theorem ensures_readAs {k : Cbor → Option α} (c : Cid)
    (h : ∀ data v a, Cbor.decode? data = some v → k v = some a → P a) : (readAs k c).Ensures P := by
  have hread : (readCbor? c).Ensures fun r =>
      ∀ v, r = some v → ∃ data, Cbor.decode? data = some v := by
    unfold readCbor?
    split
    · exact ensures_fail _
    · refine (ensures_true (read c)).bind fun found _ => ?_
      cases found with
      | none => exact ensures_pure fun v hv => nomatch hv
      | some data =>
        dsimp only
        split
        · next v hv => exact ensures_pure fun v' hv' => ⟨data, Option.some.inj hv' ▸ hv⟩
        · exact ensures_fail _
  refine hread.bind fun r hr => ?_
  cases hk : r.bind k with
  | none => exact ensures_fail _
  | some a =>
    obtain ⟨v, rfl, ha⟩ := Option.bind_eq_some_iff.mp hk
    obtain ⟨data, hv⟩ := hr v rfl
    exact ensures_pure (h data v a hv ha)

end

-- ---------------------------------------------------------------------------
-- Writes kept aside
-- ---------------------------------------------------------------------------

/-- Keeping writes aside does not crash: what is found there is an answer like any other. -/
theorem Steady.aside (h : p.Steady) (writes : Memory) : (p.aside writes).Steady := by
  induction p generalizing writes with
  | done r => exact Uncrashed.map h _
  | get c next ih =>
    unfold BlockM.aside
    split
    · exact ih _ (h _ (uncrashed_ok _)) writes
    · exact fun a ha => ih a (h a ha) writes
  | has c next ih =>
    unfold BlockM.aside
    split
    · exact ih _ (h _ (uncrashed_ok _)) writes
    · exact fun a ha => ih _ (h _ (Uncrashed.map ha _)) writes
  | put b next ih => exact ih _ (h _ (uncrashed_ok _)) _

/-- With its writes discarded, a steady computation is steady. -/
theorem Steady.buffered (h : p.Steady) : p.buffered.Steady := by
  refine (h.aside .empty).bind fun ended => ?_
  exact steady_pure _

-- ---------------------------------------------------------------------------
-- Runs
-- ---------------------------------------------------------------------------

/-- Blocks that are there or not are no crash. -/
theorem Always.on (h : p.Always post) (view : View) : post (p.on view).1 := by
  induction p with
  | done r => exact h
  | get c next ih => exact ih _ (h _ (uncrashed_ok _))
  | has c next ih => exact ih _ (h _ (uncrashed_ok _))
  | put b next ih => exact ih _ (h _ (uncrashed_ok _))

/-- What is ensured of every value holds of the one on a view. -/
theorem Ensures.on {P : α → Prop} (h : p.Ensures P) {view : View} {a : α}
    (hon : (p.on view).1 = .ok a) : P a :=
  Always.on h view a hon

/-- In memory no answer is a crash. -/
theorem Always.exec (h : p.Always post) (m : Memory) : post (m.exec p).1 := by
  induction p generalizing m with
  | done r => exact h
  | get c next ih => exact ih _ (h _ (uncrashed_ok _)) m
  | has c next ih => exact ih _ (h _ (uncrashed_ok _)) m
  | put b next ih => exact ih _ (h _ (uncrashed_ok _)) (m.put b)

end BlockM

variable {σ : Type}

/-- Wherever the store stands, no answer of it is a crash. -/
structure BlockStore.Steady (s : BlockStore (StateT Memory (StateM σ))) : Prop where
  get : ∀ c m ch, Uncrashed (s.get c m ch).1.1
  has : ∀ c m ch, Uncrashed (s.has c m ch).1.1
  put : ∀ b m ch, Uncrashed (s.put b m ch).1.1

/-- If the chain does not crash, neither does reading through to it. -/
theorem steady_readThrough {readBlock : Cid → StateM σ (Except Failure Bytes)}
    (h : ∀ c ch, Uncrashed (readBlock c ch).1) : (ReadThrough.store readBlock).Steady := by
  have hfetch (c : Cid) (m : Memory) (ch : σ) :
      Uncrashed (ReadThrough.fetch readBlock c m ch).1.1 := by
    have hread := h c ch
    rw [ReadThrough.fetch_eq]
    cases hr : (readBlock c ch).1 with
    | error e =>
      rw [hr] at hread
      exact uncrashed_error.mpr (Failure.context_ne_crash (uncrashed_error.mp hread) _)
    | ok data =>
      have hverify := Block.uncrashed_verify ⟨c, data⟩
      dsimp only
      cases hv : (⟨c, data⟩ : Block).verify with
      | error e =>
        rw [hv] at hverify
        exact uncrashed_error.mpr (uncrashed_error.mp hverify)
      | ok u => exact uncrashed_ok _
  constructor
  · intro c m ch
    cases hid : c.isIdentity with
    | true =>
      rw [ReadThrough.get_identity hid]
      exact uncrashed_ok _
    | false =>
      rw [ReadThrough.get_eq readBlock hid]
      split
      · exact uncrashed_ok _
      · exact (hfetch c m ch).map some
  · intro c m ch
    -- whether a block is there is always told
    rw [ReadThrough.has_eq]
    exact uncrashed_ok _
  · exact fun b m ch => uncrashed_ok ()

/-- Asking whether a block is there. -/
theorem BlockM.run_has (s : BlockStore (StateT Memory (StateM σ))) (c : Cid)
    (next : Except Failure Bool → BlockM α) (record : ReadRecord) (m : Memory) (ch : σ) :
    (has c next).run s.traced record m ch =
      (next (s.has c m ch).1.1).run s.traced
        (match (s.has c m ch).1.1 with
          | .ok true => record.add c
          | _ => record) (s.has c m ch).1.2 (s.has c m ch).2 := by
  rcases h : s.has c m ch with ⟨⟨a, m'⟩, ch'⟩
  simp only [run, BlockStore.traced, bind, StateT.bind, liftM, monadLift, MonadLift.monadLift,
    StateT.lift, h]
  rcases a with e | _ | _ <;> rfl

/-- A recorded run over a store that does not crash. -/
theorem BlockM.Always.run_traced {s : BlockStore (StateT Memory (StateM σ))} (hs : s.Steady)
    {post : Except Failure α → Prop} {p : BlockM α} (h : p.Always post) (record : ReadRecord)
    (m : Memory) (ch : σ) : post (p.run s.traced record m ch).1.1.1 := by
  induction p generalizing record m ch with
  | done r => exact h
  | get c next ih =>
    rw [run_get]
    exact ih _ (h _ (hs.get c m ch)) _ _ _
  | has c next ih =>
    rw [run_has]
    exact ih _ (h _ (hs.has c m ch)) _ _ _
  | put b next ih =>
    rw [run_put]
    exact ih _ (h _ (hs.put b m ch)) _ _ _

end ReplayVector
