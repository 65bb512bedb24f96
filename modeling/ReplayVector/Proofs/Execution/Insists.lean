import ReplayVector.Proofs.Execution.Runs
import ReplayVector.Proofs.Store.Insists

/-!
# Transfers need every block they ask for

Whatever a transfer asks for is a node of the state or the registry, and without it there is no
outcome. A map that refuses a change is no exception: the tree cannot be written then.

* `StateTree.insists_write`: trees, down to the tries they are stored in.
* `Transfer.insists_engine`: transfers.
-/

namespace ReplayVector

open BlockM

/-- Computations that need every block they ask for may be put together. -/
theorem BlockM.reading_insists : Reading fun {_} => BlockM.Insists Failed where
  pure := insists_pure
  because := fun _ => insists_fail _
  bind := Insists.bind
  context := fun c h => h.context c
  summarize := fun c h => h.summarize c
  readAs := insists_readAs

/-- So may those that need every block they write to be taken. -/
theorem BlockM.writing_insists : Writing fun {_} => BlockM.Insists Failed where
  pure := insists_pure
  because := fun _ => insists_fail _
  bind := Insists.bind
  writeCbor := insists_writeCbor

/-- The reason why a block is not taken is handed on as it is. -/
theorem BlockM.writing_refuses : Writing fun {_} => BlockM.Refuses .error where
  pure := fun _ => trivial
  because := fun _ => trivial
  bind := fun h hg => h.bind hg
  writeCbor := refuses_writeCbor

-- ---------------------------------------------------------------------------
-- Trees
-- ---------------------------------------------------------------------------

namespace StateTree

variable (t : StateTree)

/-- If a block is missing, the map refuses an actor. -/
theorem insists_moveChanged (known : List (ActorId × KnownActor)) (map : Hamt Actor) :
    (moveChanged known map).Insists fun r => ∃ e moved, r = .ok (.error e, moved) := by
  induction known generalizing map with
  | nil => trivial
  | cons e known ih =>
    have hrest (map : Hamt Actor) (k : KnownActor) : BlockM.Insists
        (fun r => ∃ e moved, r = .ok (Except.error e, moved)) (do
          let moved ← moveChanged known map
          return (moved.1, (e.1, k) :: moved.2.1, moved.2.2)) := by
      refine (ih map).andThen (fun r => ?_) ?_
      · cases r <;> trivial
      · rintro _ ⟨f, moved, rfl⟩
        exact ⟨_, rfl, f, _, rfl⟩
    unfold moveChanged
    split
    · refine (reading_insists.set _ _ _ _).attempt.andThen (fun r => ?_) ?_
      · rcases r with f | f | map
        · trivial
        · trivial
        · exact hrest map _
      · rintro _ ⟨f, rfl⟩
        exact ⟨_, rfl, f, _, rfl⟩
    · exact hrest map _

/-- If a block is missing or not taken, the tree cannot be flushed. -/
theorem insists_flush : t.flush.Insists fun r => ∃ e t', r = .ok (.error e, t') := by
  refine (insists_moveChanged t.known t.map).andThen (fun r => ?_) ?_
  · rcases r with f | ⟨f | _, known, map⟩
    · trivial
    · trivial
    · refine (writing_insists.flush Actor.packing map).attempt.andThen (fun r => ?_) ?_
      · rcases r with f | f | ⟨actors, map⟩
        · trivial
        · trivial
        · refine (insists_writeCbor _).attempt.andThen (fun r => ?_) ?_
          · cases r <;> trivial
          · rintro _ ⟨f, rfl⟩
            exact ⟨_, rfl, _, _, rfl⟩
      · rintro _ ⟨f, rfl⟩
        exact ⟨_, rfl, _, _, rfl⟩
  · rintro _ ⟨f, moved, rfl⟩
    exact ⟨_, rfl, _, _, rfl⟩

/-- If a block is missing or not taken, the tree cannot be written. -/
theorem insists_write : t.write.Insists Failed := by
  refine t.insists_flush.andThen (fun r => ?_) ?_
  · cases r <;> trivial
  · rintro _ ⟨f, t', rfl⟩
    exact endsIn_failed f

/-- Blocks are not taken as long as a tree is flushed, and then it is not written. -/
theorem refuses_write : t.write.Refuses fun e => .error (e.summarize .flushingTree) := by
  rw [write, flush, bind_assoc]
  refine Refuses.bind (quiet_moveChanged t.known t.map).refuses fun x => ?_
  obtain ⟨moved, known, map⟩ := x
  cases moved with
  | error e => trivial
  | ok _ =>
    dsimp only
    rw [bind_assoc]
    refine (writing_refuses.flush Actor.packing map).attempt.andThen (fun r => ?_) fun _ => rfl
    rcases r with f | f | ⟨actors, map⟩
    · trivial
    · trivial
    · dsimp only
      rw [bind_assoc]
      refine (refuses_writeCbor _).attempt.andThen (fun r => ?_) fun _ => rfl
      rcases r with f | f | root <;> trivial

end StateTree

-- ---------------------------------------------------------------------------
-- Transfers
-- ---------------------------------------------------------------------------

namespace Transfer

/-- Without a block that it asks for, applying a message fails. -/
theorem insists_apply (e : Execution) : (apply e).Insists Failed :=
  reading_insists.apply e StateTree.insists_write fun _ => insists_fail _

/-- A block that is not taken is a tree that cannot be flushed. -/
theorem refuses_apply (e : Execution) :
    (apply e).Refuses fun f => .error (f.summarize .flushingTree) := by
  rw [apply_eq]
  refine Refuses.bind (StateTree.quiet_load _).refuses fun t => ?_
  refine Refuses.bind (quiet_course e t).refuses fun (ending, t) => ?_
  cases ending with
  | rejected code => trivial
  | settled code => exact t.refuses_write.bind fun _ => trivial

theorem insists_engine (e : Execution) : (engine e).Insists Failed := by
  unfold engine
  split
  · exact insists_apply e
  · exact (insists_apply e).buffered (orderly_apply e)

theorem orderly_engine (e : Execution) : (engine e).Orderly := by
  unfold engine
  split
  · exact orderly_apply e
  · exact (orderly_apply e).quiet_buffered.orderly

/-- Whether or not the engine keeps what it writes, it ends as applying the message does. -/
theorem on_engine (e : Execution) (view : View) : ((engine e).on view).1 = ((apply e).on view).1 := by
  unfold engine
  split
  · rfl
  · rw [(orderly_apply e).on_buffered]

end Transfer

end ReplayVector
