import ReplayVector.Chain.Lookup
import ReplayVector.State.Tree

/-!
# Masked state trees

A masked tree holds some of the actors of another one, copied as they are, and a registry that
knows only the retained addresses.
-/

namespace ReplayVector

/-- The actors that every execution touches. The first one's state lists the code of the built-in
actors, which engines read when they start. -/
def protocolActors : List Address :=
  [.id .system, .id .registry, .id .reward, .id .burnt]

/-- The addresses to retain: some addresses in order, then the protocol's actors, each once. -/
def retainList (accessed : List Address) : List Address := protocolActors.foldl insertNew accessed

namespace StateTree

/-- The actors that the given addresses resolve to, each once, in the order of the addresses.
Addresses without an actor are skipped. -/
def select : List Address → List (ActorId × Actor) → TreeM (List (ActorId × Actor))
  | [], found => return found
  | a :: rest, found => do
    match ← TreeM.resolve a with
    | none => select rest found
    | some id =>
      match ← TreeM.getActor id with
      | none => select rest found
      | some actor =>
        if (found.lookup id).isSome then select rest found
        else select rest (found ++ [(id, actor)])

/-- The registry's actor with only the retained addresses in its state. -/
def restrictRegistry (retain : List Address) (a : Actor) : BlockM Actor := do
  match ← .readCbor? a.head with
  | none => .fail (.of .missingRegistry)
  | some v =>
    let registry ← .ofOption .unworded (Registry.ofCbor? v)
    let head ← .writeCbor (← registry.restrict retain).toCbor
    return { a with head }

/-- Restricts the registry among some actors, if it is there. -/
def restrictAmong (retain : List Address) :
    List (ActorId × Actor) → BlockM (List (ActorId × Actor))
  | [] => return []
  | (id, a) :: rest => do
    if id = .registry then return (id, ← restrictRegistry retain a) :: rest
    else return (id, a) :: (← restrictAmong retain rest)

/-- Writes the tree that holds only what the given addresses stand for, and gives its root. -/
def mask (root : Cid) (retain : List Address) : BlockM Cid := do
  let version := (← StateRoot.load root).version
  let tree ← load root
  let (found, _) ← (select retain []).run tree
  let actors ← restrictAmong retain found
  let masked ← create version
  (actors.foldl (fun t (id, a) => t.setActor id a) masked).write

end StateTree

end ReplayVector
