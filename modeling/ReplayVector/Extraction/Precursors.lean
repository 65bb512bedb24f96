import ReplayVector.Chain.Lookup

/-!
# The messages before a message

Which of the messages of a tipset have to be applied before one of them. Sequence numbers are
counted for each sender alone, so the messages of the same sender are often enough; the other
choice is every message that comes before.
-/

namespace ReplayVector

/-- Which earlier messages are applied first. -/
inductive PrecursorChoice where
  /-- All of them. -/
  | all
  /-- Those of the same sender. -/
  | sender
  deriving DecidableEq, Inhabited

namespace PrecursorChoice

/-- The name of a choice. -/
def name : PrecursorChoice → String
  | all => "all"
  | sender => "sender"

/-- The choice with a name. -/
def ofName? (name : String) : Option PrecursorChoice := [all, sender].find? (·.name == name)

/-- The choice takes in a message when it is made for `target`. -/
def includes (target : Message) : PrecursorChoice → NamedMessage → Bool
  | all, _ => true
  | sender, m => m.message.sender == target.sender

end PrecursorChoice

/-- Where the search for a message among others has come to. -/
structure Selection where
  /-- The selected messages in order. The last one is the wanted one if it was found. -/
  related : List NamedMessage
  found : Bool
  deriving DecidableEq

namespace Selection

/-- Everything that was selected before the wanted message. -/
def precursors (s : Selection) : List NamedMessage :=
  if s.found then s.related.dropLast else s.related

/-- The wanted message, as it stands in the list; none if it is not there. -/
def target (s : Selection) : Option NamedMessage := if s.found then s.related.getLast? else none

/-- A listed message is the wanted one if it has its identifier or its content. -/
def isTarget (c : Cid) (target : Message) (m : NamedMessage) : Bool :=
  m.cid == c || m.message == target

/-- Selects messages up to the first occurrence of the wanted one, which is selected in any case. If
it does not occur, messages of the whole list are selected. -/
def select (choice : PrecursorChoice) (c : Cid) (target : Message) :
    List NamedMessage → Selection
  | [] => ⟨[], false⟩
  | m :: ms =>
    if isTarget c target m then ⟨[m], true⟩
    else
      let s := select choice c target ms
      if choice.includes target m then { s with related := m :: s.related } else s

end Selection

end ReplayVector
