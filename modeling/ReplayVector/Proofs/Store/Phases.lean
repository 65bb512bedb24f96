import ReplayVector.Proofs.Store.Held

/-!
# Phases of a computation

Most computations over blocks do one thing at a time: they look around and write nothing, or they
write and ask for nothing. Which of these a computation does can be seen from its form, whatever is
asked for and whatever the answers are. A computation that looks before it writes does in memory
what it does on a fixed set of blocks, and the same if its writes are kept aside.

* `Quiet`, `Blind`, `Orderly`: computations that do not write, do not ask, and ask before they write.
* `Orderly.exec`: such a run in memory.
* `Orderly.exec_buffered`: such a run whose writes are discarded.
-/

namespace ReplayVector

namespace BlockM

variable {α β : Type}

-- ---------------------------------------------------------------------------
-- Forms
-- ---------------------------------------------------------------------------

/-- The computation writes nothing. -/
def Quiet : BlockM α → Prop
  | done _ => True
  | get _ next => ∀ r, (next r).Quiet
  | has _ next => ∀ r, (next r).Quiet
  | put _ _ => False

/-- The computation asks for nothing. -/
def Blind : BlockM α → Prop
  | done _ => True
  | get _ _ => False
  | has _ _ => False
  | put _ next => ∀ r, (next r).Blind

/-- The computation asks, and after that it writes. -/
def Orderly : BlockM α → Prop
  | done _ => True
  | get _ next => ∀ r, (next r).Orderly
  | has _ next => ∀ r, (next r).Orderly
  | put _ next => ∀ r, (next r).Blind

variable {p : BlockM α} {f : Except Failure α → BlockM β} {g : α → BlockM β}

/-- What writes nothing asks before it writes. -/
theorem Quiet.orderly (h : p.Quiet) : p.Orderly := by
  induction p with
  | done r => trivial
  | get c next ih => exact fun r => ih r (h r)
  | has c next ih => exact fun r => ih r (h r)
  | put b next => exact h.elim

/-- So does what asks for nothing. -/
theorem Blind.orderly (h : p.Blind) : p.Orderly := by
  cases p with
  | done r => trivial
  | get c next => exact h.elim
  | has c next => exact h.elim
  | put b next => exact h

/-- Two computations that write nothing make up a third. -/
theorem Quiet.andThen (h : p.Quiet) (hf : ∀ r, (f r).Quiet) : (p.andThen f).Quiet := by
  induction p with
  | done r => exact hf r
  | get c next ih => exact fun r => ih r (h r)
  | has c next ih => exact fun r => ih r (h r)
  | put b next => exact h.elim

/-- So do two that ask for nothing. -/
theorem Blind.andThen (h : p.Blind) (hf : ∀ r, (f r).Blind) : (p.andThen f).Blind := by
  induction p with
  | done r => exact hf r
  | get c next => exact h.elim
  | has c next => exact h.elim
  | put b next ih => exact fun r => ih r (h r)

/-- First one that only asks. -/
theorem Quiet.orderly_andThen (h : p.Quiet) (hf : ∀ r, (f r).Orderly) :
    (p.andThen f).Orderly := by
  induction p with
  | done r => exact hf r
  | get c next ih => exact fun r => ih r (h r)
  | has c next ih => exact fun r => ih r (h r)
  | put b next => exact h.elim

/-- Last one that only writes. -/
theorem Orderly.andThen (h : p.Orderly) (hf : ∀ r, (f r).Blind) : (p.andThen f).Orderly := by
  induction p with
  | done r => exact (hf r).orderly
  | get c next ih => exact fun r => ih r (h r)
  | has c next ih => exact fun r => ih r (h r)
  | put b next => exact fun r => (h r).andThen hf

theorem quiet_pure (a : α) : (pure a : BlockM α).Quiet := trivial

theorem quiet_fail (e : Failure) : (fail e : BlockM α).Quiet := trivial

theorem quiet_ofOption (e : Failure) (o : Option α) : (ofOption e o).Quiet := by
  cases o <;> trivial

/-- Going on with a value writes nothing if neither part does. -/
theorem Quiet.bind (h : p.Quiet) (hg : ∀ a, (g a).Quiet) : (p >>= g).Quiet := by
  refine h.andThen fun r => ?_
  cases r with
  | ok a => exact hg a
  | error e => trivial

/-- It asks for nothing if neither part does. -/
theorem Blind.bind (h : p.Blind) (hg : ∀ a, (g a).Blind) : (p >>= g).Blind := by
  refine h.andThen fun r => ?_
  cases r with
  | ok a => exact hg a
  | error e => trivial

/-- An orderly computation may be led in by questions. -/
theorem Quiet.orderly_bind (h : p.Quiet) (hg : ∀ a, (g a).Orderly) : (p >>= g).Orderly := by
  refine h.orderly_andThen fun r => ?_
  cases r with
  | ok a => exact hg a
  | error e => trivial

/-- It may be followed by writes. -/
theorem Orderly.bind (h : p.Orderly) (hg : ∀ a, (g a).Blind) : (p >>= g).Orderly := by
  refine h.andThen fun r => ?_
  cases r with
  | ok a => exact hg a
  | error e => trivial

/-- Rewording a failure is no write. -/
theorem Quiet.mapFailure (h : p.Quiet) (k : Failure → Failure) : (p.mapFailure k).Quiet :=
  h.andThen fun _ => trivial

theorem Quiet.context (h : p.Quiet) (c : Cause) : (p.context c).Quiet := h.mapFailure _

theorem Quiet.summarize (h : p.Quiet) (c : Cause) : (p.summarize c).Quiet := h.mapFailure _

theorem Quiet.attempt (h : p.Quiet) : p.attempt.Quiet := h.andThen fun _ => trivial

theorem Blind.attempt (h : p.Blind) : p.attempt.Blind := h.andThen fun _ => trivial

theorem Orderly.attempt (h : p.Orderly) : p.attempt.Orderly := h.andThen fun _ => trivial

theorem Blind.context (h : p.Blind) (c : Cause) : (p.context c).Blind := h.andThen fun _ => trivial

/-- A structured value is read, and nothing is written. -/
theorem quiet_readCbor? (c : Cid) : (readCbor? c).Quiet := by
  unfold readCbor?
  split
  · trivial
  · refine Quiet.bind (fun r => trivial) fun r => ?_
    cases r with
    | none => trivial
    | some data =>
      dsimp only
      split <;> trivial

theorem quiet_readAs (k : Cbor → Option α) (c : Cid) : (readAs k c).Quiet := by
  refine (quiet_readCbor? c).bind fun v => ?_
  exact quiet_ofOption _ _

theorem blind_writeCbor (v : Cbor) : (writeCbor v).Blind := by
  intro r
  cases r <;> trivial

-- ---------------------------------------------------------------------------
-- Runs
-- ---------------------------------------------------------------------------

/-- There are no writes on any view. -/
theorem Quiet.on_snd (h : p.Quiet) (view : View) : (p.on view).2 = [] := by
  induction p with
  | done r => rfl
  | get c next ih => exact ih _ (h _)
  | has c next ih => exact ih _ (h _)
  | put b next => exact h.elim

/-- If a computation that writes nothing fails, it just fails. -/
theorem Quiet.on_of_fails (h : p.Quiet) {view : View} (hfails : p.Fails view) :
    ∃ e, p.on view = (.error e, []) := by
  obtain ⟨e, ws, hon⟩ := hfails
  have hws := h.on_snd view
  rw [hon] at hws
  obtain rfl : ws = [] := hws
  exact ⟨e, hon⟩

/-- What asks for nothing does the same whatever blocks there are. -/
theorem Blind.on_eq (h : p.Blind) (view view' : View) : p.on view = p.on view' := by
  induction p with
  | done r => rfl
  | get c next => exact h.elim
  | has c next => exact h.elim
  | put b next ih =>
    rw [on, on, ih _ (h _)]

/-- In memory it does what it does on any view, for it never looks. -/
theorem Blind.exec (h : p.Blind) (m : Memory) (view : View) :
    m.exec p = ((p.on view).1, m.putAll (p.on view).2) := by
  induction p generalizing m with
  | done r => rfl
  | get c next => exact h.elim
  | has c next => exact h.elim
  | put b next ih => exact ih _ (h _) (m.put b)

/-- A run in memory is answered from the blocks that are held at its start. -/
theorem Orderly.exec (h : p.Orderly) (m : Memory) :
    m.exec p = ((p.on m.get?).1, m.putAll (p.on m.get?).2) := by
  induction p with
  | done r => rfl
  | get c next ih => exact ih _ (h _)
  | has c next ih =>
    rw [Memory.exec_has, ← Memory.get?_isSome]
    exact ih _ (h _)
  | put b next => exact Blind.exec (p := put b next) h m m.get?

/-- In memory it ends as on the blocks held there, and leaves them alone. -/
theorem Quiet.exec (h : p.Quiet) (m : Memory) : m.exec p = ((p.on m.get?).1, m) := by
  rw [h.orderly.exec, h.on_snd]
  rfl

/-- What is given from the blocks that are held is what a run ends with. -/
theorem Gives.exec {m : Memory} {a : α} (h : p.Gives m.get? a) (hquiet : p.Quiet) :
    m.exec p = (.ok a, m) := by
  have hon : p.on m.get? = (.ok a, []) := h
  rw [hquiet.exec, hon]

/-- What a run writes that asks before it writes. -/
theorem Orderly.writes_eq (h : p.Orderly) (m : Memory) : m.writes p = (p.on m.get?).2 := by
  have hblind {q : BlockM α} (hq : q.Blind) (m : Memory) (view : View) :
      m.writes q = (q.on view).2 := by
    induction q generalizing m with
    | done r => rfl
    | get c next => exact hq.elim
    | has c next => exact hq.elim
    | put b next ih => exact congrArg (b :: ·) (ih _ (hq _) (m.put b))
  induction p with
  | done r => rfl
  | get c next ih => exact ih _ (h _)
  | has c next ih =>
    unfold Memory.writes
    rw [← Memory.get?_isSome]
    exact ih _ (h _)
  | put b next => exact hblind (q := put b next) h m m.get?

/-- What a run does after it has looked something up. -/
theorem Gives.exec_bind {m : Memory} {a : α} (h : p.Gives m.get? a) (hquiet : p.Quiet)
    (g : α → BlockM β) : m.exec (p >>= g) = m.exec (g a) ∧ m.writes (p >>= g) = m.writes (g a) := by
  have hexec := h.exec hquiet
  have hon : p.on m.get? = (.ok a, []) := h
  have hwrites : m.writes p = [] := by rw [hquiet.orderly.writes_eq, hon]
  rw [Memory.exec_bind, Memory.writes_bind hexec, hexec, hwrites]
  exact ⟨rfl, rfl⟩

/-- A run that ends well in memory says what the computation does on what was held. -/
theorem Orderly.on_of_exec (h : p.Orderly) {m m' : Memory} {a : α} (hexec : m.exec p = (.ok a, m')) :
    p.on m.get? = (.ok a, m.writes p) := by
  rw [h.exec] at hexec
  have hfst : (p.on m.get?).1 = .ok a := congrArg Prod.fst hexec
  exact Prod.ext hfst (h.writes_eq m).symm

-- ---------------------------------------------------------------------------
-- Writes kept aside
-- ---------------------------------------------------------------------------

/-- With its writes kept aside it comes to its end at once. -/
theorem Blind.aside (h : p.Blind) (writes : Memory) (view : View) :
    ∃ writes', p.aside writes = done ((p.on view).1.map (·, writes')) := by
  induction p generalizing writes with
  | done r => exact ⟨writes, rfl⟩
  | get c next => exact h.elim
  | has c next => exact h.elim
  | put b next ih => exact ih _ (h _) (writes.put b)

/-- With its writes kept aside an orderly computation writes nothing. -/
private theorem Orderly.quiet_aside (h : p.Orderly) : (p.aside .empty).Quiet := by
  induction p with
  | done r => trivial
  | get c next ih => exact fun r => ih r (h r)
  | has c next ih => exact fun r => ih _ (h _)
  | put b next =>
    -- nothing is kept aside before the first write, and after it nothing is asked
    have hblind : (put b next).Blind := h
    obtain ⟨writes', haside⟩ := hblind.aside .empty fun _ => none
    rw [haside]
    trivial

/-- Whether a block is there is found out by reading it. -/
private theorem Orderly.on_aside (h : p.Orderly) (view : View) :
    ((p.aside .empty).on view).1.map (·.1) = (p.on view).1 := by
  induction p with
  | done r => cases r <;> rfl
  | get c next ih => exact ih _ (h _)
  | has c next ih => exact ih _ (h _)
  | put b next =>
    have hblind : (put b next).Blind := h
    obtain ⟨writes', haside⟩ := hblind.aside .empty view
    rw [haside]
    cases ((put b next).on view).1 <;> rfl

/-- So it does when they are discarded. -/
theorem Orderly.quiet_buffered (h : p.Orderly) : p.buffered.Quiet := by
  rw [buffered, map_eq]
  exact h.quiet_aside.andThen fun _ => trivial

/-- If the writes of a computation are discarded, it ends as it would. -/
theorem Orderly.on_buffered (h : p.Orderly) (view : View) :
    p.buffered.on view = ((p.on view).1, []) := by
  refine Prod.ext ?_ (h.quiet_buffered.on_snd view)
  rw [buffered, on_map, h.on_aside]

/-- If the writes of a run are discarded, it ends as it would, and leaves memory alone. -/
theorem Orderly.exec_buffered (h : p.Orderly) (m : Memory) :
    m.exec p.buffered = ((m.exec p).1, m) := by
  rw [h.quiet_buffered.exec, h.on_buffered, h.exec]

end BlockM

end ReplayVector
