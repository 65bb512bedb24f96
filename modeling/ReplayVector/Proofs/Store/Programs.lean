import ReplayVector.Store.Memory

/-!
# Laws of computations over blocks

Computations over blocks form a lawful monad. If every question about a block is answered from the
same blocks, `BlockM.on` says what a computation ends with and what it writes, and that goes along
the structure of the computation: no law needs to know how the blocks are held.

* `BlockM.on_bind`: what a sequence of two computations does.
* `BlockM.Gives`: a computation that ends with a value and writes nothing.
* `BlockM.run_writeAll`: blocks that are written over any store.
* `Memory.exec_bind`: runs in memory, one after the other.
-/

namespace ReplayVector

namespace BlockM

variable {α β γ : Type}

/-! ## The monad -/

/-- Going on with the result as it is changes nothing. -/
theorem andThen_done (p : BlockM α) : p.andThen done = p := by
  induction p with
  | done r => rfl
  | get c next ih =>
    rw [andThen]
    congr 1
    funext r
    exact ih r
  | has c next ih =>
    rw [andThen]
    congr 1
    funext r
    exact ih r
  | put b next ih =>
    rw [andThen]
    congr 1
    funext r
    exact ih r

/-- Three computations one after the other, however they are grouped. -/
theorem andThen_assoc (p : BlockM α) (f : Except Failure α → BlockM β)
    (g : Except Failure β → BlockM γ) :
    (p.andThen f).andThen g = p.andThen fun r => (f r).andThen g := by
  induction p with
  | done r => rfl
  | get c next ih =>
    simp only [andThen]
    congr 1
    funext r
    exact ih r
  | has c next ih =>
    simp only [andThen]
    congr 1
    funext r
    exact ih r
  | put b next ih =>
    simp only [andThen]
    congr 1
    funext r
    exact ih r

/-- Going on with a value is going on with the result, a failure being handed on. -/
theorem bind_eq (p : BlockM α) (f : α → BlockM β) :
    p >>= f = p.andThen fun
      | .ok a => f a
      | .error e => done (.error e) := rfl

/-- A function of the value is applied at the end. -/
theorem map_eq (f : α → β) (p : BlockM α) : f <$> p = p.andThen fun r => done (r.map f) := by
  show p.andThen _ = _
  congr 1
  funext r
  cases r <;> rfl

private theorem id_map' (p : BlockM α) : id <$> p = p := by
  show p.andThen _ = p
  conv => rhs; rw [← andThen_done p]
  congr 1
  funext r
  cases r <;> rfl

/-- Grouping does not matter for values either. -/
private theorem bind_assoc' (p : BlockM α) (f : α → BlockM β) (g : β → BlockM γ) :
    p >>= f >>= g = p >>= fun a => f a >>= g := by
  rw [bind_eq, bind_eq, andThen_assoc, bind_eq]
  congr 1
  funext r
  cases r <;> rfl

instance : LawfulMonad BlockM := LawfulMonad.mk' BlockM id_map' (fun _ _ => rfl) bind_assoc'

/-! ## Answers from the same blocks -/

/-- Which bytes are held under which identifiers. -/
abbrev View := Cid → Option Bytes

/-- What a computation ends with, and what it writes, if all its questions are answered from the
same blocks and nothing that it writes is refused. -/
def on (view : View) : BlockM α → Except Failure α × List Block
  | done r => (r, [])
  | get c next => (next (.ok (view c))).on view
  | has c next => (next (.ok (view c).isSome)).on view
  | put b next => (((next (.ok ())).on view).1, b :: ((next (.ok ())).on view).2)

@[simp] theorem on_done (view : View) (r : Except Failure α) : (done r).on view = (r, []) := rfl

@[simp] theorem on_pure (view : View) (a : α) : (pure a : BlockM α).on view = (.ok a, []) := rfl

/-- The second computation starts from the result of the first, and its writes come last. -/
theorem on_andThen (view : View) (p : BlockM α) (f : Except Failure α → BlockM β) :
    (p.andThen f).on view =
      (((f (p.on view).1).on view).1, (p.on view).2 ++ ((f (p.on view).1).on view).2) := by
  induction p with
  | done r => rfl
  | get c next ih => exact ih _
  | has c next ih => exact ih _
  | put b next ih =>
    rw [andThen, on, ih]
    rfl

/-- A sequence of two computations: the second is answered from the same blocks. -/
theorem on_bind (view : View) (p : BlockM α) (f : α → BlockM β) :
    (p >>= f).on view =
      match p.on view with
      | (.ok a, ws) => (((f a).on view).1, ws ++ ((f a).on view).2)
      | (.error e, ws) => (.error e, ws) := by
  rw [bind_eq, on_andThen]
  rcases p.on view with ⟨r, ws⟩
  cases r <;> simp

/-- A function of the value writes nothing. -/
theorem on_map (view : View) (g : α → β) (p : BlockM α) :
    (g <$> p).on view = ((p.on view).1.map g, (p.on view).2) := by
  rw [map_eq, on_andThen]
  simp

/-- Rewording a failure writes nothing. -/
theorem on_mapFailure (view : View) (g : Failure → Failure) (p : BlockM α) :
    (p.mapFailure g).on view = ((p.on view).1.mapError g, (p.on view).2) := by
  rw [mapFailure, on_andThen]
  simp

/-- Nor does naming a cause. -/
theorem on_context (view : View) (c : Cause) (p : BlockM α) :
    (p.context c).on view = ((p.on view).1.mapError (Failure.context c), (p.on view).2) :=
  on_mapFailure view _ p

/-- Nor does replacing the causes by one. -/
theorem on_summarize (view : View) (c : Cause) (p : BlockM α) :
    (p.summarize c).on view = ((p.on view).1.mapError (Failure.summarize c), (p.on view).2) :=
  on_mapFailure view _ p

/-- An attempt ends with the result as its value. -/
theorem on_attempt (view : View) (p : BlockM α) :
    p.attempt.on view = (.ok (p.on view).1, (p.on view).2) := by
  rw [attempt, on_andThen]
  simp

/-- What is read is what is seen, and nothing is written. -/
@[simp] theorem on_read (view : View) (c : Cid) : (read c).on view = (.ok (view c), []) := rfl

/-- A block that is written is taken. -/
@[simp] theorem on_write (view : View) (b : Block) : (write b).on view = (.ok (), [b]) := rfl

@[simp] theorem on_fail (view : View) (f : Failure) :
    (fail f : BlockM α).on view = (.error f, []) := rfl

@[simp] theorem on_ofExcept (view : View) (r : Except Failure α) :
    (ofExcept r).on view = (r, []) := rfl

/-- Both parts of a sequence that ends well end well. -/
theorem of_on_bind_ok {view : View} {p : BlockM α} {f : α → BlockM β} {b : β} {ws : List Block}
    (h : (p >>= f).on view = (.ok b, ws)) :
    ∃ a ws₁ ws₂, p.on view = (.ok a, ws₁) ∧ (f a).on view = (.ok b, ws₂) ∧ ws = ws₁ ++ ws₂ := by
  rw [on_bind] at h
  split at h
  · next a ws₁ hp =>
    refine ⟨a, ws₁, ((f a).on view).2, hp, ?_, (congrArg Prod.snd h).symm⟩
    have hfirst : ((f a).on view).1 = .ok b := congrArg Prod.fst h
    exact Prod.ext hfirst rfl
  · cases h

/-! ## Computations that only look -/

/-- A computation ends with a value and writes nothing. -/
def Gives (view : View) (p : BlockM α) (a : α) : Prop := p.on view = (.ok a, [])

/-- A computation fails. -/
def Fails (view : View) (p : BlockM α) : Prop := ∃ f ws, p.on view = (.error f, ws)

variable {view : View} {p : BlockM α} {f : α → BlockM β} {a : α} {b : β}

theorem gives_pure (view : View) (a : α) : Gives view (pure a) a := rfl

/-- What comes after a value that is given. -/
theorem Gives.on_bind (h : p.Gives view a) (f : α → BlockM β) :
    (p >>= f).on view = (f a).on view := by
  have h' : p.on view = (.ok a, []) := h
  rw [BlockM.on_bind, h']
  simp

/-- What is given by the first computation, the second goes on with. -/
theorem Gives.bind (h : p.Gives view a) (hf : (f a).Gives view b) : (p >>= f).Gives view b := by
  rw [Gives, h.on_bind]
  exact hf

theorem Gives.context (h : p.Gives view a) (c : Cause) : (p.context c).Gives view a := by
  have h' : p.on view = (.ok a, []) := h
  rw [Gives, on_context, h']
  rfl

theorem Gives.summarize (h : p.Gives view a) (c : Cause) : (p.summarize c).Gives view a := by
  have h' : p.on view = (.ok a, []) := h
  rw [Gives, on_summarize, h']
  rfl

/-- An attempt gives what was attempted. -/
theorem Gives.attempt (h : p.Gives view a) : p.attempt.Gives view (.ok a) := by
  have h' : p.on view = (.ok a, []) := h
  rw [Gives, on_attempt, h']

theorem fails_fail (view : View) (f : Failure) : (fail f : BlockM α).Fails view := ⟨f, [], rfl⟩

/-- After a failure nothing follows. -/
theorem Fails.bind (h : p.Fails view) (f : α → BlockM β) : (p >>= f).Fails view := by
  obtain ⟨e, ws, h⟩ := h
  exact ⟨e, ws, by rw [BlockM.on_bind, h]⟩

/-- What comes after a value that is given fails. -/
theorem Gives.fails_bind (h : p.Gives view a) (hf : (f a).Fails view) : (p >>= f).Fails view := by
  obtain ⟨e, ws, hf⟩ := hf
  exact ⟨e, ws, by rw [h.on_bind, hf]⟩

/-- A cause does not turn a failure into a value. -/
theorem Fails.context (h : p.Fails view) (c : Cause) : (p.context c).Fails view := by
  obtain ⟨e, ws, h⟩ := h
  exact ⟨e.context c, ws, by rw [on_context, h]; rfl⟩

/-! ## Structured data -/

/-- Structured data that is there is read. -/
theorem gives_readCbor? {c : Cid} {data : Bytes} {v : Cbor} (hcodec : c.codec = Cid.dagCbor)
    (hdata : view c = some data) (hv : Cbor.decode? data = some v) :
    (readCbor? c).Gives view (some v) := by
  rw [readCbor?, if_neg (by simpa using hcodec)]
  have hread : (read c).Gives view (some data) := by rw [Gives, on_read, hdata]
  refine hread.bind ?_
  simp only [hv]
  rfl

/-- Structured data of the right shape is read as a value of the type. -/
theorem gives_readAs {c : Cid} {data : Bytes} {v : Cbor} {g : Cbor → Option α}
    (hcodec : c.codec = Cid.dagCbor) (hdata : view c = some data)
    (hv : Cbor.decode? data = some v) (ha : g v = some a) : (readAs g c).Gives view a := by
  refine (gives_readCbor? hcodec hdata hv).bind ?_
  rw [Option.bind_some, ha]
  rfl

/-- What is read as a value is the content of a block. -/
theorem of_gives_readAs {c : Cid} {g : Cbor → Option α} (h : (readAs g c).Gives view a) :
    c.codec = Cid.dagCbor ∧ ∃ data v, view c = some data ∧ Cbor.decode? data = some v ∧
      g v = some a := by
  obtain ⟨r, ws₁, ws₂, hread, hvalue, hws⟩ := of_on_bind_ok h
  rw [readCbor?] at hread
  split at hread
  · cases hread
  · next hcodec =>
    refine ⟨by simpa using hcodec, ?_⟩
    rw [on_bind, on_read] at hread
    cases hdata : view c with
    | none =>
      rw [hdata] at hread
      cases hread
      cases hvalue
    | some data =>
      rw [hdata] at hread
      cases hv : Cbor.decode? data with
      | none =>
        simp only [hv] at hread
        cases hread
      | some v =>
        simp only [hv] at hread
        cases hread
        refine ⟨data, v, rfl, hv, ?_⟩
        rw [Option.bind_some] at hvalue
        cases ha : g v with
        | none =>
          rw [ha] at hvalue
          cases hvalue
        | some a' =>
          rw [ha] at hvalue
          cases hvalue
          rfl

/-- Among more blocks, the same is read. -/
theorem Gives.mono_readAs {view' : View} {c : Cid} {g : Cbor → Option α}
    (h : (readAs g c).Gives view a) (hsub : ∀ c data, view c = some data → view' c = some data) :
    (readAs g c).Gives view' a := by
  obtain ⟨hcodec, data, v, hdata, hv, ha⟩ := of_gives_readAs h
  exact gives_readAs hcodec (hsub c data hdata) hv ha

/-- A structured value is written as one block and named by its identifier. -/
theorem on_writeCbor (view : View) (v : Cbor) :
    (writeCbor v).on view =
      (.ok (Cid.ofDagCbor v.encode), [Block.ofDagCbor v.encode]) := rfl

end BlockM

/-! ## Blocks in turn -/

/-- Gives a store blocks, one after the other, up to the first that it does not take. -/
def BlockStore.putAll {m : Type → Type} [Monad m] (s : BlockStore m) :
    List Block → m (Except Failure Unit)
  | [] => return .ok ()
  | b :: bs => do
    match ← s.put b with
    | .ok () => s.putAll bs
    | .error e => return .error e

namespace BlockM

variable {α : Type}

/-- Writes blocks, one after the other, up to the first that is not taken. -/
def writeAll (bs : List Block) : BlockM Unit := bs.forM write

/-- Blocks are written one after the other. -/
theorem writeAll_cons (b : Block) (bs : List Block) :
    writeAll (b :: bs) = write b >>= fun _ => writeAll bs := rfl

/-- Over a store, a result is reached after all blocks are taken. -/
theorem run_writeAll {m : Type → Type} [Monad m] [LawfulMonad m] (s : BlockStore m)
    (bs : List Block) (r : Except Failure α) :
    (writeAll bs >>= fun _ => ofExcept r).run s =
      s.putAll bs >>= fun taken => pure (taken >>= fun _ => r) := by
  induction bs with
  | nil =>
    rw [BlockStore.putAll, pure_bind]
    rfl
  | cons b bs ih =>
    rw [BlockStore.putAll, bind_assoc]
    show (s.put b >>= _) = _
    refine bind_congr fun taken => ?_
    cases taken with
    | error e =>
      dsimp only
      rw [pure_bind]
      rfl
    | ok u => exact ih

end BlockM

/-! ## Runs in memory -/

namespace Memory

variable {α β : Type}

/-- A question about a block is answered from memory. -/
theorem exec_get (m : Memory) (c : Cid) (next : Except Failure (Option Bytes) → BlockM α) :
    m.exec (.get c next) = m.exec (next (.ok (m.get? c))) := rfl

/-- So is the question whether it is held. -/
theorem exec_has (m : Memory) (c : Cid) (next : Except Failure Bool → BlockM α) :
    m.exec (.has c next) = m.exec (next (.ok (m.contains c))) := rfl

/-- The second computation runs in what the first one has left. -/
theorem exec_andThen (m : Memory) (p : BlockM α) (f : Except Failure α → BlockM β) :
    m.exec (p.andThen f) = (m.exec p).2.exec (f (m.exec p).1) := by
  induction p generalizing m with
  | done r => rfl
  | get c next ih => exact ih _ m
  | has c next ih => exact ih _ m
  | put b next ih => exact ih _ (m.put b)

/-- Two computations that run one after the other. -/
theorem exec_bind (m : Memory) (p : BlockM α) (f : α → BlockM β) :
    m.exec (p >>= f) =
      match m.exec p with
      | (.ok a, m') => m'.exec (f a)
      | (.error e, m') => (.error e, m') := by
  rw [BlockM.bind_eq, exec_andThen]
  rcases m.exec p with ⟨r, m'⟩
  cases r <;> rfl

/-- Both parts of a run that ends well end well. -/
theorem of_exec_bind_ok {m m'' : Memory} {p : BlockM α} {f : α → BlockM β} {b : β}
    (h : m.exec (p >>= f) = (.ok b, m'')) :
    ∃ a m', m.exec p = (.ok a, m') ∧ m'.exec (f a) = (.ok b, m'') := by
  rw [exec_bind] at h
  split at h
  · next a m' hp => exact ⟨a, m', hp, h⟩
  · cases h

/-- What a run in memory writes, in order. -/
def writes (m : Memory) : BlockM α → List Block
  | .done _ => []
  | .get c next => m.writes (next (.ok (m.get? c)))
  | .has c next => m.writes (next (.ok (m.contains c)))
  | .put b next => b :: (m.put b).writes (next (.ok ()))

/-- What a run leaves is what was held, with its writes put on it in order. -/
theorem exec_snd (m : Memory) (p : BlockM α) : (m.exec p).2 = m.putAll (m.writes p) := by
  induction p generalizing m with
  | done r => rfl
  | get c next ih => exact ih _ m
  | has c next ih => exact ih _ m
  | put b next ih => exact ih _ (m.put b)

/-- What a sequence of two computations writes. -/
theorem writes_bind {m m' : Memory} {p : BlockM α} {f : α → BlockM β} {a : α}
    (h : m.exec p = (.ok a, m')) : m.writes (p >>= f) = m.writes p ++ m'.writes (f a) := by
  rw [BlockM.bind_eq]
  induction p generalizing m with
  | done r =>
    cases h
    rfl
  | get c next ih => exact ih _ h
  | has c next ih => exact ih _ h
  | put b next ih => exact congrArg (b :: ·) (ih _ h)

/-! ## What a memory holds -/

/-- A block is held when its bytes are found. -/
theorem get?_isSome (m : Memory) (c : Cid) : (m.get? c).isSome = m.contains c := by
  obtain ⟨bs⟩ := m
  simp only [get?, contains, Option.isSome_map]
  exact List.isSome_find?

/-- Bytes that are found are those of a block that is held. -/
theorem get?_eq_some {m : Memory} {c : Cid} {data : Bytes} (h : m.get? c = some data) :
    ⟨c, data⟩ ∈ m.blocks := by
  simp only [get?, Option.map_eq_some_iff] at h
  obtain ⟨b, hb, rfl⟩ := h
  have hmem := List.mem_of_find?_eq_some hb
  have hcid := List.find?_some hb
  rw [beq_iff_eq] at hcid
  rw [← hcid]
  exact hmem

end Memory

end ReplayVector
