import ReplayVector.Proofs.Execution.Settlement

/-!
# Runs of transfers in memory

Applying a message looks before it writes, so a run in memory does what the blocks say that are held
at its start. If it ends well, the state after the message is held, and what it says is what the
message does to the ledger. Whether the blocks of that state are kept makes no difference to the
outcome.

* `Transfer.orderly_apply`: applying a message looks before it writes.
* `Transfer.exec_engine`: the engine in either mode.
* `Transfer.of_exec_apply`: the state after a message.
-/

namespace ReplayVector.Transfer

open TreeM
open BlockM (quiet_fail reading_quiet)

-- ---------------------------------------------------------------------------
-- Looking and writing
-- ---------------------------------------------------------------------------

theorem quiet_course (e : Execution) : Has BlockM.Quiet (course e) :=
  reading_quiet.course e fun _ => quiet_fail _

/-- Applying a message looks before it writes. -/
theorem orderly_apply (e : Execution) : (apply e).Orderly := by
  rw [apply_eq]
  refine (StateTree.quiet_load e.preroot).orderly_bind fun t => ?_
  refine (quiet_course e t).orderly_bind fun (ending, t) => ?_
  cases ending with
  | rejected code => trivial
  | settled code => exact (StateTree.orderly_write t).bind fun _ => trivial

-- ---------------------------------------------------------------------------
-- Runs
-- ---------------------------------------------------------------------------

/-- The engine ends in the same way whether or not it keeps what it writes. -/
theorem exec_engine (e : Execution) (m : Memory) :
    (m.exec (engine e)).1 = (m.exec (apply e)).1 := by
  unfold engine
  split
  · rfl
  · rw [(orderly_apply e).exec_buffered]

variable {neat : Prop} {base : StateTree.Base} {L : Ledger} {m : Memory} {e : Execution}
  {blocks : Blocks}

/-- A message that was applied in memory has been settled, and the state after it says so. -/
theorem of_exec_apply (h : StateTree.Stores neat m.get? base L e.preroot)
    (hfree : CollisionFree blocks) (hm : m.Within blocks)
    (hws : ∀ b ∈ m.writes (apply e), blocks b) {outcome : Outcome}
    (hok : (m.exec (apply e)).1 = .ok outcome) :
    ∃ s base', L.settle e = some s ∧ outcome.receipt = s.receipt ∧
      StateTree.Stores neat (m.exec (apply e)).2.get? base' (s.after L) outcome.postroot := by
  have hexec : m.exec (apply e) = (.ok outcome, (m.exec (apply e)).2) := Prod.ext hok rfl
  have hon := (orderly_apply e).on_of_exec hexec
  have hgrows := Memory.grows_exec hfree hm (p := apply e) rfl hws
  exact of_apply_ok h hon hgrows.keeps hgrows.holds

/-- A message that is settled is applied in memory, if no actor comes up and all records can be
written. -/
theorem exec_apply_isOk (h : StateTree.Stores neat m.get? base L e.preroot) {s : Settlement}
    (hsettle : L.settle e = some s)
    (hactors : ∀ id, (s.after L).actors id ≠ none → L.actors id ≠ none)
    (hwritable : ∀ id a, (s.after L).actors id = some a → ∃ v, a.toCbor? = some v) :
    ∃ outcome, (m.exec (apply e)).1 = .ok outcome ∧ outcome.receipt = s.receipt := by
  obtain ⟨outcome, ws, hon, hreceipt⟩ := apply_isOk h hsettle hactors hwritable
  refine ⟨outcome, ?_, hreceipt⟩
  rw [(orderly_apply e).exec, hon]

end ReplayVector.Transfer
