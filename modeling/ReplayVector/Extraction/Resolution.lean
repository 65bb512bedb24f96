import ReplayVector.Chain.Node

/-!
# Locating a message

Which message an identifier names, which tipset includes it and which one executes it. Without a
hint the node is asked where the message was executed. With the identifier of a block, the tipsets
are the ones at that block's height and right above. Either way the first has to be the parent of
the second.
-/

namespace ReplayVector

/-- A message with the tipset that includes it and the tipset that executes it. -/
structure Resolved where
  message : Message
  execution : Tipset
  inclusion : Tipset
  deriving DecidableEq

namespace Resolved

/-- Finds the tipsets by asking where the message was executed. -/
def search [Monad m] (n : Node m) (c : Cid) : ExceptT Failure m (Tipset × Tipset) := do
  match ← n.queryFor .locatingMessage (.search c) with
  | none => throw (.of (.messageNotOnChain c))
  | some found =>
    let execution ← n.query (.tipset found.tipset)
    match execution.parentsKey? with
    | none => throw (.because [.noParents execution.key, .emptyTipsetKey])
    | some parents =>
      let inclusion ← n.queryFor .fetchingInclusion (.tipset parents)
      return (execution, inclusion)

/-- Finds the tipsets around a block. -/
def around [Monad m] (n : Node m) (block : Cid) : ExceptT Failure m (Tipset × Tipset) := do
  let header ← n.queryFor .gettingBlock (.block block)
  if header.height = Int64.maxValue then throw .crash
  else
    let execution ← n.queryFor .gettingExecution (.tipsetAt (header.height + 1) none)
    let inclusion ← n.queryFor .gettingInclusion (.tipsetAt header.height (some execution.key))
    return (execution, inclusion)

/-- Locates a message, with a block as a hint or without. -/
def locate [Monad m] (n : Node m) (c : Cid) (hint : Option Cid) : ExceptT Failure m Resolved := do
  let message ← n.queryFor (.fetchingMessage c) (.message c)
  let (execution, inclusion) ← match hint with
    | none => search n c
    | some block => around n block
  if inclusion.key.lists execution.parents then return { message, execution, inclusion }
  else throw (.of (.notParent inclusion.key execution.key))

end Resolved

end ReplayVector
