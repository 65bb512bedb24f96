import ReplayVector.Proofs.Store.Insists

/-!
# Surveys

A computation that asks before it writes can be taken apart: a survey, which finds out by asking
alone what the computation ends with and what it will write, and the writing, which is over when a
block is not taken. The two parts make up the computation itself, so this holds over every store. If
its writes are kept aside, what is left of the computation is the survey.

* `Orderly.eq_survey`: the survey, then the writing.
* `Orderly.aside_eq`, `Orderly.buffered_eq`: the survey alone.
* `Memory.get?_putAll`: what memory holds after blocks were put.
-/

namespace ReplayVector

namespace BlockM

variable {α : Type} {p : BlockM α}

/-- Finds out what a computation ends with and what it would write. -/
def survey : BlockM α → BlockM (Except Failure α × List Block)
  | done r => pure (r, [])
  | get c next => get c fun r => (next r).survey
  | has c next => has c fun r => (next r).survey
  | put b next => (fun x => (x.1, b :: x.2)) <$> (next (.ok ())).survey

-- ---------------------------------------------------------------------------
-- Writing alone
-- ---------------------------------------------------------------------------

theorem Blind.survey_eq (h : p.Blind) (view : View) : p.survey = pure (p.on view) := by
  induction p with
  | done r => rfl
  | get c next => exact h.elim
  | has c next => exact h.elim
  | put b next ih =>
    rw [survey, ih _ (h _)]
    rfl

/-- A computation that only writes ends in its result unless a block is not taken. -/
theorem Blind.eq_writeAll {reword : Failure → Failure} (h : p.Blind)
    (hrefuses : p.Refuses fun e => .error (reword e)) (view : View) :
    p = (writeAll (p.on view).2).mapFailure reword >>= fun _ => ofExcept (p.on view).1 := by
  induction p with
  | done r => rfl
  | get c next => exact h.elim
  | has c next => exact h.elim
  | put b next ih =>
    refine congrArg (put b) (funext fun r => ?_)
    cases r with
    | error e => exact hrefuses.1 e
    | ok u => exact ih _ (h _) hrefuses.2

theorem Blind.aside_eq (h : p.Blind) (writes : Memory) (view : View) :
    p.aside writes = ofExcept ((p.on view).1.map (·, writes.putAll (p.on view).2)) := by
  induction p generalizing writes with
  | done r => rfl
  | get c next => exact h.elim
  | has c next => exact h.elim
  | put b next ih => exact ih _ (h _) (writes.put b)

-- ---------------------------------------------------------------------------
-- Asking before writing
-- ---------------------------------------------------------------------------

theorem Orderly.quiet_survey (h : p.Orderly) : p.survey.Quiet := by
  induction p with
  | done r => trivial
  | get c next ih => exact fun r => ih r (h r)
  | has c next ih => exact fun r => ih r (h r)
  | put b next =>
    have hblind : (put b next).Blind := h
    rw [hblind.survey_eq fun _ => none]
    trivial

/-- The survey of a computation, and then its writing, is the computation. -/
theorem Orderly.eq_survey {reword : Failure → Failure} (h : p.Orderly)
    (hrefuses : p.Refuses fun e => .error (reword e)) :
    p = p.survey >>= fun x => (writeAll x.2).mapFailure reword >>= fun _ => ofExcept x.1 := by
  induction p with
  | done r => rfl
  | get c next ih => exact congrArg (get c) (funext fun r => ih r (h r) (hrefuses r))
  | has c next ih => exact congrArg (has c) (funext fun r => ih r (h r) (hrefuses r))
  | put b next =>
    have hblind : (put b next).Blind := h
    rw [hblind.survey_eq fun _ => none]
    exact hblind.eq_writeAll hrefuses fun _ => none

/-- If the writes of a computation are kept aside, its survey is left, and all that it would write
is aside at the end. -/
theorem Orderly.aside_eq {miss : Except Failure α → Prop} (h : p.Orderly)
    (hinsists : p.Insists miss) :
    p.aside .empty =
      p.survey >>= fun x => ofExcept (x.1.map (·, Memory.empty.putAll x.2)) := by
  induction p with
  | done r => rfl
  | has c next => exact hinsists.elim
  | get c next ih =>
    have hend {q : BlockM α} (hq : q.EndsIn miss) : q.Insists miss := by
      obtain ⟨r, rfl, -⟩ := hq
      trivial
    have hnext (r : Except Failure (Option Bytes)) : (next r).Insists miss := by
      match r with
      | .ok (some data) => exact hinsists.2.2 data
      | .ok none => exact hend hinsists.2.1
      | .error e => exact hend (hinsists.1 e)
    exact congrArg (get c) (funext fun r => ih r (h r) (hnext r))
  | put b next =>
    have hblind : (put b next).Blind := h
    rw [hblind.survey_eq fun _ => none]
    exact hblind.aside_eq .empty fun _ => none

/-- If the writes of a computation are discarded, its survey is left. -/
theorem Orderly.buffered_eq {miss : Except Failure α → Prop} (h : p.Orderly)
    (hinsists : p.Insists miss) : p.buffered = p.survey >>= fun x => ofExcept x.1 := by
  rw [buffered, h.aside_eq hinsists, map_bind]
  refine bind_congr fun x => ?_
  rcases x with ⟨e | a, bs⟩ <;> rfl

theorem Orderly.on_survey (h : p.Orderly) (view : View) :
    p.survey.on view = (.ok (p.on view), []) := by
  induction p with
  | done r => rfl
  | get c next ih => exact ih _ (h _)
  | has c next ih => exact ih _ (h _)
  | put b next =>
    have hblind : (put b next).Blind := h
    rw [hblind.survey_eq view]
    rfl

/-- A run in memory that keeps its writes aside leaves memory alone. -/
theorem Orderly.exec_aside {miss : Except Failure α → Prop} (h : p.Orderly)
    (hinsists : p.Insists miss) (m : Memory) :
    m.exec (p.aside .empty) =
      ((p.on m.get?).1.map (·, Memory.empty.putAll (p.on m.get?).2), m) := by
  have hgives : p.survey.Gives m.get? (p.on m.get?) := h.on_survey m.get?
  rw [h.aside_eq hinsists, (hgives.exec_bind h.quiet_survey _).1]
  rfl

end BlockM

namespace Memory

/-- Blocks that were put come before those that were held. -/
theorem get?_putAll (m : Memory) (bs : List Block) (c : Cid) :
    (m.putAll bs).get? c = ((empty.putAll bs).get? c).or (m.get? c) := by
  induction bs generalizing m with
  | nil => rfl
  | cons b bs ih =>
    rw [putAll_cons, putAll_cons, ih (m.put b), ih (empty.put b), get?_put, get?_put,
      Option.or_assoc]
    congr 1
    split <;> rfl

/-- Among written blocks without collisions, each is held after they were put, whatever was held
before. -/
theorem get?_putAll_of_free {m : Memory} {bs : List Block}
    (hfree : CollisionFree fun b => b ∈ bs) {b : Block} (hb : b ∈ bs) :
    (m.putAll bs).get? b.cid = some b.data := by
  rw [get?_putAll, get?_putAll_of_mem hfree (within_empty _) (fun _ h => h) hb]
  rfl

end Memory

end ReplayVector
