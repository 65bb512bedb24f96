import ReplayVector.Extraction.Retention
import ReplayVector.Proofs.Chain.Calls

/-!
# The addresses that are retained for a message

The sender and receiver of a message come first, then the parties of the calls it makes on trial,
then the actors of the protocol. Everything is noted where it is met first, so a call that is
skipped or visited late would show in the list.

* `retainList_accessedOn`: the list in terms of the walk through the trial.
* `retainList_in_order`: complete, in order, and without repetitions.
-/

namespace ReplayVector

/-- The addresses that a message touches when it goes as it does on trial. -/
def accessedOn (message : Message) (run : TrialRun) : List Address :=
  run.trace.touched.foldl insertNew ([message.sender, message.receiver].foldl insertNew [])

/-- What is retained is what the message and the walk through its trial meet, noted in that order
and before the actors of the protocol. -/
theorem retainList_accessedOn (message : Message) (run : TrialRun) :
    retainList (accessedOn message run) =
      (message.sender :: message.receiver :: run.trace.walk ++ protocolActors).foldl insertNew [] := by
  rw [retainList, accessedOn, CallTrace.touched_eq, foldl_insertNew_foldl, ← List.foldl_append,
    ← List.foldl_append]
  rfl

/-- Whatever trial run a node reports, the list of the addresses to retain has every address once
and in the order in which it is met first: the message's own parties, those of the call it makes
and then of the subcalls from the first to the last, the actors of the protocol. It has no other
addresses, and what is retained already is retained without a change. -/
theorem retainList_in_order {m : Type → Type} [Monad m] (n : Node m) (message : Message)
    (key : TipsetKey) :
    ∃ accessed : TrialRun → List Address,
      accessedAddresses n message key =
        (do return accessed (← n.queryFor .tracingMessage (.trial message key))) ∧
      ∀ run,
        FirstOccurrences
          (message.sender :: message.receiver :: run.trace.walk ++
            [.id .system, .id .registry, .id .reward, .id .burnt])
          (retainList (accessed run)) ∧
        (∀ a, a ∈ retainList (accessed run) ↔
          a = message.sender ∨ a = message.receiver ∨
          (∃ c, run.trace.Includes c ∧ (a = c.sender ∨ a = c.receiver)) ∨
          a ∈ [Address.id .system, .id .registry, .id .reward, .id .burnt]) ∧
        retainList (retainList (accessed run)) = retainList (accessed run) := by
  refine ⟨accessedOn message, rfl, fun run => ?_⟩
  have hfirst : FirstOccurrences
      (message.sender :: message.receiver :: run.trace.walk ++ protocolActors)
      (retainList (accessedOn message run)) :=
    retainList_accessedOn message run ▸ firstOccurrences_foldl _
  refine ⟨hfirst, fun a => ?_, ?_⟩
  · have hwalk : a ∈ run.trace.walk ↔ run.trace.Involves a := run.trace.mem_walk
    rw [hfirst.mem_iff, List.cons_append, List.cons_append, List.mem_cons, List.mem_cons,
      List.mem_append, hwalk]
    rfl
  · -- the actors of the protocol are in the list after the first time
    exact foldl_insertNew_of_subset fun a ha => mem_foldl_insertNew.mpr (.inr ha)

end ReplayVector
