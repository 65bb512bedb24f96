import ReplayVector.Chain.Node

/-!
# Watching a node

A node in front of another one that records what is asked. It can fail on purpose, hide blocks,
answer trial runs by itself, and ask the run to end when it is asked a certain question.
-/

namespace ReplayVector

namespace Question

/-- The name of a question. -/
def name : {α : Type} → Question α → String
  | _, .message _ => "chain_get_message"
  | _, .search _ => "state_search_msg"
  | _, .tipset _ => "chain_get_tipset"
  | _, .tipsetAt .. => "chain_get_tipset_by_height"
  | _, .block _ => "chain_get_block"
  | _, .parentMessages _ => "chain_get_parent_messages"
  | _, .circulatingSupply _ => "state_circulating_supply"
  | _, .receipt .. => "state_get_receipt"
  | _, .networkName => "state_network_name"
  | _, .nodeVersion => "version"
  | _, .networkVersion _ => "state_network_version"
  | _, .trial .. => "state_call"
  | _, .object _ => "chain_read_obj"

/-- What a question is about, as text. -/
def arguments : {α : Type} → Question α → List String
  | _, .message c => [c.toString]
  | _, .search c => [c.toString]
  | _, .tipset key => [key.toString]
  | _, .tipsetAt height start =>
    [toString height.toInt, (start.map TipsetKey.toString).getD "head"]
  | _, .block c => [c.toString]
  | _, .parentMessages c => [c.toString]
  | _, .circulatingSupply key => [key.toString]
  | _, .receipt c key => [c.toString, key.toString]
  | _, .networkName => []
  | _, .nodeVersion => []
  | _, .networkVersion key => [key.toString]
  | _, .trial m key => [(m.cid?.map Cid.toString).getD "", key.toString]
  | _, .object c => [c.toString]

end Question

namespace Fixture

/-- What is known of a watched node, and how it gets in the way. -/
structure Watch where
  /-- The names of the questions that fail. -/
  fails : List String
  /-- The blocks of the state that are hidden. -/
  hidden : List Cid
  /-- The answer to all trial runs. -/
  trial : Option TrialRun
  /-- The name of the question that asks the run to end. -/
  cancelOn : Option String
  cancelled : Bool
  /-- The questions so far, except for blocks of the state. -/
  calls : List String
  /-- The blocks of the state that were asked for, each once. -/
  reads : List Cid

namespace Watch

/-- Nothing has happened, and nothing gets in the way. -/
def idle : Watch where
  fails := []
  hidden := []
  trial := none
  cancelOn := none
  cancelled := false
  calls := []
  reads := []

/-- Records a question. -/
def record (w : Watch) : {α : Type} → Question α → Watch
  | _, .object c => { w with reads := insertNew w.reads c }
  | _, q =>
    { w with calls := w.calls ++ [q.name ++ "(" ++ ", ".intercalate q.arguments ++ ")"] }

/-- Records a question and what comes with it. -/
def note (w : Watch) (q : Question α) : Watch :=
  let w := w.record q
  { w with cancelled := w.cancelled || w.cancelOn == some q.name }

/-- The answer that gets in the way of the node's own one. -/
def override (w : Watch) : {α : Type} → Question α → Option (Except Failure α)
  | _, .trial .. => w.trial.map .ok
  | _, .object c => if w.hidden.contains c then some (.error (.of (.unknownBlock c))) else none
  | _, _ => none

/-- The node that is watched. -/
def node [Monad m] (n : Node m) : Node (StateT Watch m) where
  ask q := do
    modify (·.note q)
    let w ← get
    if w.fails.contains q.name then
      return .error (.of (.reported ("injected failure in " ++ q.name)))
    else
      match w.override q with
      | some answer => return answer
      | none => liftM (n.ask q)

end Watch

end Fixture

end ReplayVector
