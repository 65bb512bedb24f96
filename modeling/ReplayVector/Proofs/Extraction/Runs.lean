import ReplayVector.Extraction

/-!
# Runs over a chain with a state

What a chain answers may depend on everything it was asked before: its answers have the effects of
a state monad over any type of states. A run then goes from one `Standing` to the next, and this
module says how each part of a run moves it: `runFrom_bind` takes runs apart, and one lemma for
each step says what it does.
-/

namespace ReplayVector

/-- Where a run stands: what is recorded, what is held, and the state of the chain. -/
structure Standing (σ : Type) where
  record : ReadRecord
  memory : Memory
  chain : σ

/-- Where a run starts: nothing is recorded, and nothing is held. -/
def Standing.initial (s : σ) : Standing σ := ⟨.off, .empty, s⟩

/-- What comes of a part of a run from where it stands, and where it stands then. -/
def Standing.perform {σ α : Type} (w : Standing σ)
    (p : StateT ReadRecord (StateT Memory (StateM σ)) α) : α × Standing σ :=
  let ended := p w.record w.memory w.chain
  (ended.1.1.1, ⟨ended.1.1.2, ended.1.2, ended.2⟩)

variable {σ α β : Type}

/-- Questions go on from where the first ones ended, unless these failed. -/
theorem run_question_bind (p : ExceptT Failure (StateM σ) α)
    (f : α → ExceptT Failure (StateM σ) β) (s : σ) :
    (p >>= f).run s =
      match p.run s with
      | (.ok a, s') => (f a).run s'
      | (.error e, s') => (.error e, s') := by
  rcases h : p.run s with ⟨r, s'⟩
  have hbind : (p >>= f).run s = StateT.run (ExceptT.bindCont f (p.run s).1) (p.run s).2 := rfl
  rw [hbind, h]
  cases r <;> rfl

/-- Questions that are answered hand on the answer. -/
theorem run_question_bind_ok {p : ExceptT Failure (StateM σ) α} {s s' : σ} {a : α}
    (hp : p.run s = (.ok a, s')) (f : α → ExceptT Failure (StateM σ) β) :
    (p >>= f).run s = (f a).run s' := by
  rw [run_question_bind, hp]

/-- Parts of a step that end well go on from where they end. -/
theorem Standing.perform_bind_ok {w w' : Standing σ}
    {p : ExceptT Fault (StateT ReadRecord (StateT Memory (StateM σ))) α} {a : α}
    (hp : w.perform p.run = (.ok a, w'))
    (f : α → ExceptT Fault (StateT ReadRecord (StateT Memory (StateM σ))) β) :
    w.perform (p >>= f).run = w'.perform (f a).run := by
  have hbind : w.perform (p >>= f).run =
      (w.perform p.run).2.perform (ExceptT.bindCont f (w.perform p.run).1) := rfl
  rw [hbind, hp]
  rfl

namespace RunM

/-- What comes of a run from where it stands, and where it stands then. -/
def runFrom (p : RunM (StateM σ) α) (w : Standing σ) : Except StageFault α × Standing σ :=
  let ended := (p.run.run w.record).run w.memory w.chain
  (ended.1.1.1, ⟨ended.1.1.2, ended.1.2, ended.2⟩)

theorem start_eq (p : RunM (StateM σ) α) (s : σ) :
    p.start s = ((p.runFrom (.initial s)).1, (p.runFrom (.initial s)).2.chain) := rfl

@[simp] theorem runFrom_pure (a : α) (w : Standing σ) :
    (pure a : RunM (StateM σ) α).runFrom w = (.ok a, w) := rfl

@[simp] theorem runFrom_throw (f : StageFault) (w : Standing σ) :
    (throw f : RunM (StateM σ) α).runFrom w = (.error f, w) := rfl

/-- A run goes on from where its first part ended, unless that failed. -/
theorem runFrom_bind (p : RunM (StateM σ) α) (f : α → RunM (StateM σ) β) (w : Standing σ) :
    (p >>= f).runFrom w =
      match p.runFrom w with
      | (.ok a, w') => (f a).runFrom w'
      | (.error e, w') => (.error e, w') := by
  rcases h : p.runFrom w with ⟨r, record, memory, chain⟩
  have hbind : (p >>= f).runFrom w =
      runFrom (ExceptT.mk (ExceptT.bindCont f (p.runFrom w).1)) (p.runFrom w).2 := rfl
  rw [hbind, h]
  cases r <;> rfl

/-- Both parts of a run that ends well end well. -/
theorem of_runFrom_bind_ok {p : RunM (StateM σ) α} {f : α → RunM (StateM σ) β}
    {w w'' : Standing σ} {b : β} (h : (p >>= f).runFrom w = (.ok b, w'')) :
    ∃ a w', p.runFrom w = (.ok a, w') ∧ (f a).runFrom w' = (.ok b, w'') := by
  rw [runFrom_bind] at h
  split at h
  · next a w' hp => exact ⟨a, w', hp, h⟩
  · next e w' hp => cases h

/-- A step that ends well hands on what it gives. -/
theorem runFrom_bind_ok {p : RunM (StateM σ) α} {w w' : Standing σ} {a : α}
    (hp : p.runFrom w = (.ok a, w')) (f : α → RunM (StateM σ) β) :
    (p >>= f).runFrom w = (f a).runFrom w' := by
  rw [runFrom_bind, hp]

/-- A fault ends a run. -/
theorem runFrom_bind_error {p : RunM (StateM σ) α} {w w' : Standing σ} {e : StageFault}
    (hp : p.runFrom w = (.error e, w')) (f : α → RunM (StateM σ) β) :
    (p >>= f).runFrom w = (.error e, w') := by
  rw [runFrom_bind, hp]

/-- A step over the store of a run: it may move the record, the blocks held and the chain. -/
theorem runFrom_inStage (s : Stage)
    (p : ExceptT Fault (StateT ReadRecord (StateT Memory (StateM σ))) α) (w : Standing σ) :
    (inStage s p).runFrom w =
      ((w.perform p.run).1.mapError fun fault => { stage := s, fault }, (w.perform p.run).2) := rfl

/-- A step over the store of a run that ends well. -/
theorem runFrom_inStage_ok {p : ExceptT Fault (StateT ReadRecord (StateT Memory (StateM σ))) α}
    {w w' : Standing σ} {a : α} (hp : w.perform p.run = (.ok a, w')) (s : Stage) :
    (inStage s p).runFrom w = (.ok a, w') := by
  rw [runFrom_inStage, hp]
  rfl

/-- A question moves nothing but the chain. -/
theorem runFrom_asking (s : Stage) (kind : List Cause → Fault) (q : ExceptT Failure (StateM σ) α)
    (w : Standing σ) :
    (asking s kind q).runFrom w =
      (((q.run w.chain).1.mapError (Fault.of kind)).mapError fun fault => { stage := s, fault },
        { w with chain := (q.run w.chain).2 }) := rfl

/-- Questions that are answered, by a chain that stays as it is, move nothing. -/
theorem runFrom_asking_ok {q : ExceptT Failure (StateM σ) α} {w : Standing σ} {a : α}
    (hq : q.run w.chain = (.ok a, w.chain)) (s : Stage) (kind : List Cause → Fault) :
    (asking s kind q).runFrom w = (.ok a, w) := by
  rw [runFrom_asking, hq]
  rfl

/-- A result moves nothing. -/
theorem runFrom_ofExcept (s : Stage) (r : Except Fault α) (w : Standing σ) :
    (ofExcept s r : RunM (StateM σ) α).runFrom w =
      (r.mapError fun fault => { stage := s, fault }, w) := rfl

end RunM

namespace Extractor

variable {σ : Type} (x : Extractor (StateM σ))

/-- A checkpoint moves nothing but the chain. -/
theorem runFrom_checkpoint (s : Stage) (w : Standing σ) :
    (x.checkpoint s).runFrom w =
      (if (x.cancelled w.chain).1 then .error { stage := s, fault := .cancelled } else .ok (),
        { w with chain := (x.cancelled w.chain).2 }) := by
  have hcancelled : (liftM x.cancelled : RunM (StateM σ) Bool).runFrom w =
      (.ok (x.cancelled w.chain).1, { w with chain := (x.cancelled w.chain).2 }) := rfl
  rw [checkpoint, RunM.runFrom_bind_ok hcancelled]
  split <;> rfl

end Extractor

end ReplayVector
