import ReplayVector.Proofs.State.Reading
import ReplayVector.Proofs.Store.Phases

/-!
# When states are read and written

Looking something up in a state, and changing a tree in memory, writes nothing. Writing a tree reads
what the changes concern, and then only writes.

* `BlockM.reading_quiet`: looking things up.
* `Hamt.blind_flush`: tries.
* `StateTree.quiet_load`, `StateTree.orderly_write`: trees.
* `StateTree.quiet_select`, `StateTree.orderly_restrictAmong`: masking.
-/

namespace ReplayVector

open BlockM

/-- Computations that write nothing may be put together. -/
theorem BlockM.reading_quiet : Reading fun {_} => BlockM.Quiet where
  pure := quiet_pure
  because := fun _ => quiet_fail _
  bind := Quiet.bind
  context := fun c h => h.context c
  summarize := fun c h => h.summarize c
  readAs := quiet_readAs

/-- So may computations that ask for nothing. -/
theorem BlockM.writing_blind : Writing fun {_} => BlockM.Blind where
  pure := fun _ => trivial
  because := fun _ => trivial
  bind := Blind.bind
  writeCbor := blind_writeCbor

-- ---------------------------------------------------------------------------
-- Tries
-- ---------------------------------------------------------------------------

namespace Hamt

variable {β : Type}

/-- A map is changed in memory, so nothing is written before the flush. -/
theorem quiet_set [DecidableEq β] (p : Packing β) (m : Hamt β) (key : Bytes) (value : β) :
    (m.set p key value).Quiet := reading_quiet.set p m key value

/-- A flush writes and does not look. -/
theorem blind_flush (p : Packing β) (m : Hamt β) : (m.flush p).Blind := writing_blind.flush p m

end Hamt

-- ---------------------------------------------------------------------------
-- Registries
-- ---------------------------------------------------------------------------

namespace Registry

theorem quiet_loadMap (r : Registry) : r.loadMap.Quiet := reading_quiet.loadMap r

/-- A registry is cut down by reading all it keeps, and only then writing it. -/
theorem orderly_restrict (r : Registry) (retain : List Address) : (r.restrict retain).Orderly := by
  refine r.quiet_loadMap.orderly_bind fun map => ?_
  refine Quiet.orderly_bind (reading_quiet.copyEntries retain map _) fun pruned => ?_
  exact Blind.orderly <| Blind.bind ((Hamt.blind_flush packing pruned).context _) fun (_, _) =>
    trivial

end Registry

-- ---------------------------------------------------------------------------
-- Trees
-- ---------------------------------------------------------------------------

namespace StateRoot

/-- The root of a tree is read without writing. -/
theorem quiet_load (root : Cid) : (load root).Quiet := by
  refine (quiet_readCbor? root).bind fun r => ?_
  cases r with
  | none => exact quiet_fail _
  | some v => exact quiet_ofOption _ _

end StateRoot

namespace StateTree

variable (t : StateTree)

/-- So is the tree. -/
theorem quiet_load (root : Cid) : (load root).Quiet := reading_quiet.loadTree root

/-- The actors that have changed are moved into the map in memory. -/
theorem quiet_moveChanged (known : List (ActorId × KnownActor)) (map : Hamt Actor) :
    (moveChanged known map).Quiet := by
  induction known generalizing map with
  | nil => exact quiet_pure _
  | cons e known ih =>
    unfold moveChanged
    split
    · refine (Hamt.quiet_set _ _ _ _).attempt.bind fun r => ?_
      cases r with
      | error e => exact quiet_pure _
      | ok map => exact (ih map).bind fun _ => quiet_pure _
    · exact (ih map).bind fun _ => quiet_pure _

/-- A tree reads for the actors it changes before it writes its map. -/
theorem orderly_flush : t.flush.Orderly := by
  refine (quiet_moveChanged t.known t.map).orderly_bind fun (moved, known, map) => Blind.orderly ?_
  cases moved with
  | error e => trivial
  | ok u =>
    refine (Hamt.blind_flush Actor.packing map).attempt.bind fun r => ?_
    cases r with
    | error e => trivial
    | ok r => exact (blind_writeCbor _).attempt.bind fun _ => trivial

/-- The same holds with the root that is written at last. -/
theorem orderly_write : t.write.Orderly := t.orderly_flush.bind fun _ => trivial

end StateTree

-- ---------------------------------------------------------------------------
-- Masking
-- ---------------------------------------------------------------------------

namespace StateTree

/-- Selecting actors writes nothing. -/
theorem quiet_select (retain : List Address) (found : List (ActorId × Actor)) :
    TreeM.Has BlockM.Quiet (select retain found) := reading_quiet.select retain found

/-- The registry of a tree is read before the smaller one is written. -/
theorem orderly_restrictRegistry (retain : List Address) (a : Actor) :
    (restrictRegistry retain a).Orderly := by
  refine (quiet_readCbor? a.head).orderly_bind fun v => ?_
  cases v with
  | none => exact (quiet_fail _).orderly
  | some v =>
    refine (quiet_ofOption _ _).orderly_bind fun registry => ?_
    refine (registry.orderly_restrict retain).bind fun smaller => ?_
    exact (blind_writeCbor smaller.toCbor).bind fun _ => trivial

/-- Of the actors retained at most the registry is written anew. -/
theorem orderly_restrictAmong (retain : List Address) (found : List (ActorId × Actor)) :
    (restrictAmong retain found).Orderly := by
  induction found with
  | nil => trivial
  | cons e found ih =>
    unfold restrictAmong
    split
    · exact (orderly_restrictRegistry retain e.2).bind fun _ => trivial
    · exact ih.bind fun _ => trivial

end StateTree

end ReplayVector
