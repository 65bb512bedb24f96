import ReplayVector.Proofs.State.Reading
import ReplayVector.Proofs.Store.Steady

/-!
# Transfers and masks do not crash

Tries, registries and trees fail without crashing, whatever is read. A transfer crashes in one case:
its sequence number is the last one there is. Then it cannot be counted up.

* `StateTree.steady_write`, `StateTree.steady_mask`: trees, down to the tries they are stored in.
* `Transfer.steady_engine`: transfers.
-/

namespace ReplayVector

open BlockM

/-- Computations that do not crash may be put together. -/
theorem BlockM.reading_steady : Reading fun {_} => BlockM.Steady where
  pure := steady_pure
  because := steady_because
  bind := Steady.bind
  context := fun c h => Steady.context h c
  summarize := fun c h => Steady.summarize h c
  readAs := steady_readAs

/-- So may those that write. -/
theorem BlockM.writing_steady : Writing fun {_} => BlockM.Steady where
  pure := steady_pure
  because := steady_because
  bind := Steady.bind
  writeCbor := steady_writeCbor

-- ---------------------------------------------------------------------------
-- Tries and registries
-- ---------------------------------------------------------------------------

/-- A flush fails without a crash where a block is not taken. -/
theorem Hamt.steady_flush {β : Type} (p : Packing β) (m : Hamt β) : (m.flush p).Steady :=
  writing_steady.flush p m

/-- A registry that is cut down was read and is written without a crash. -/
theorem Registry.steady_restrict (r : Registry) (retain : List Address) :
    (r.restrict retain).Steady := by
  refine (reading_steady.loadMap r).bind fun map => ?_
  refine (reading_steady.copyEntries retain map _).bind fun pruned => ?_
  exact ((Hamt.steady_flush packing pruned).context _).bind fun _ => steady_pure _

-- ---------------------------------------------------------------------------
-- Trees
-- ---------------------------------------------------------------------------

/-- A root that is no root fails to load. -/
theorem StateRoot.steady_load (root : Cid) : (load root).Steady := by
  refine (steady_readCbor? root).bind fun r => ?_
  cases r with
  | none => exact steady_because _
  | some v => exact steady_ofOption _ _

namespace StateTree

variable (t : StateTree)

/-- What moving actors comes to: an outcome that is no crash is handed on. -/
private theorem always_moveChanged (known : List (ActorId × KnownActor)) (map : Hamt Actor) :
    (moveChanged known map).Always fun r => ∃ moved, r = .ok moved ∧ Uncrashed moved.1 := by
  induction known generalizing map with
  | nil => exact ⟨_, rfl, uncrashed_ok ()⟩
  | cons e known ih =>
    have hrest (map : Hamt Actor) (k : KnownActor) : BlockM.Always
        (fun r => ∃ moved, r = .ok moved ∧ Uncrashed moved.1) (do
          let moved ← moveChanged known map
          return (moved.1, (e.1, k) :: moved.2.1, moved.2.2)) :=
      (ih map).bind fun moved hmoved => ⟨_, rfl, hmoved⟩
    unfold moveChanged
    split
    · refine (reading_steady.set _ _ _ _).attempt.bind fun r hr => ?_
      cases r with
      | error f => exact ⟨_, rfl, uncrashed_error.mpr (uncrashed_error.mp hr)⟩
      | ok map => exact hrest map _
    · exact hrest map _

/-- A flush has a result, and in it a failure that is no crash. -/
theorem always_flush : t.flush.Always fun r => ∃ done, r = .ok done ∧ Uncrashed done.1 := by
  refine (always_moveChanged t.known t.map).bind fun moved hmoved => ?_
  have hfailed {e : Failure} (he : e ≠ .crash) :
      Uncrashed (.error (e.summarize .flushingTree) : Except Failure Cid) :=
    uncrashed_error.mpr (Failure.summarize_ne_crash he _)
  obtain ⟨moved, known, map⟩ := moved
  cases moved with
  | error e => exact ⟨_, rfl, hfailed (uncrashed_error.mp hmoved)⟩
  | ok u =>
    refine (Hamt.steady_flush Actor.packing map).attempt.bind fun r hr => ?_
    cases r with
    | error e => exact ⟨_, rfl, hfailed (uncrashed_error.mp hr)⟩
    | ok r =>
      refine (steady_writeCbor _).attempt.bind fun written hwritten => ⟨_, rfl, ?_⟩
      exact hwritten.mapError fun _ he => Failure.summarize_ne_crash he _

theorem steady_write : t.write.Steady := by
  refine t.always_flush.bind fun done hdone => ?_
  exact steady_ofExcept hdone

-- ---------------------------------------------------------------------------
-- Masks
-- ---------------------------------------------------------------------------

theorem steady_restrictRegistry (retain : List Address) (a : Actor) :
    (restrictRegistry retain a).Steady := by
  refine (steady_readCbor? a.head).bind fun r => ?_
  cases r with
  | none => exact steady_because _
  | some v =>
    exact (steady_ofOption _ _).bind fun registry => (registry.steady_restrict retain).bind
      fun smaller => (steady_writeCbor _).bind fun _ => steady_pure _

/-- The registry among the actors is cut down without a crash. -/
theorem steady_restrictAmong (retain : List Address) (found : List (ActorId × Actor)) :
    (restrictAmong retain found).Steady := by
  induction found with
  | nil => exact steady_pure _
  | cons e found ih =>
    unfold restrictAmong
    split
    · exact (steady_restrictRegistry retain _).bind fun _ => steady_pure _
    · exact ih.bind fun _ => steady_pure _

theorem steady_create (v : UInt64) : (create v).Steady := by
  unfold create
  split
  · exact ((steady_writeCbor _).bind fun _ => steady_pure _).summarize _
  · exact steady_because _

/-- Masking a state does not crash. -/
theorem steady_mask (root : Cid) (retain : List Address) : (mask root retain).Steady := by
  refine (StateRoot.steady_load root).bind fun _ => ?_
  refine (reading_steady.loadTree root).bind fun tree => ?_
  refine Steady.bind (reading_steady.select retain [] tree) fun (found, _) => ?_
  refine (steady_restrictAmong retain found).bind fun _ => ?_
  exact (steady_create _).bind fun _ => steady_write _

end StateTree

-- ---------------------------------------------------------------------------
-- Transfers
-- ---------------------------------------------------------------------------

namespace Transfer

variable {e : Execution}

theorem steady_apply (h : e.message.sequence + 1 ≠ 0) : (apply e).Steady := by
  refine reading_steady.apply e StateTree.steady_write fun hlast => ?_
  exact absurd hlast h

/-- A transfer does not crash, unless its sequence number is the last one. -/
theorem steady_engine (h : e.message.sequence + 1 ≠ 0) : (engine e).Steady := by
  unfold engine
  split
  · exact steady_apply h
  · exact (steady_apply h).buffered

end Transfer

end ReplayVector
