import ReplayVector.Bytes

/-!
# JSON values

A value as it stands in a text: numbers keep their spelling, objects keep the order and the
repetitions of their members. Two kinds of text that are only partly meaningful have a place too:
a string with an unpaired surrogate escape is well formed but stands for no text (`none`), and
`broken` marks the place where a text stops being JSON. With that mark, a reader of a type meets
the faults of a text in the order in which they stand there.
-/

namespace ReplayVector

/-- A JSON value as it stands in a text. -/
inductive Json where
  | null
  | bool (b : Bool)
  /-- A number, in its spelling. -/
  | number (spelling : String)
  /-- A string; `none` if an unpaired surrogate escape leaves it without a text. -/
  | string (text : Option String)
  | array (items : List Json)
  | object (members : List (Option String × Json))
  /-- Here the text stopped being JSON. -/
  | broken
  deriving Inhabited

namespace Json

mutual

/-- The value stands in a text that is JSON. -/
def wellFormed : Json → Bool
  | .array items => wellFormedItems items
  | .object members => wellFormedMembers members
  | .broken => false
  | _ => true

/-- Every item is well formed. -/
def wellFormedItems : List Json → Bool
  | [] => true
  | j :: js => j.wellFormed && wellFormedItems js

/-- Every member's value is well formed. -/
def wellFormedMembers : List (Option String × Json) → Bool
  | [] => true
  | (_, j) :: ms => j.wellFormed && wellFormedMembers ms

end

/-! ## Building values -/

/-- A string. -/
def ofString (s : String) : Json := .string (some s)

/-- A natural number. -/
def ofNat (n : Nat) : Json := .number (Nat.repr n)

/-- A whole number. -/
def ofInt (n : Int) : Json := .number (Int.repr n)

/-- An object with the given members. -/
def record (members : List (String × Json)) : Json :=
  .object (members.map fun (name, value) => (some name, value))

/-! ## Sorted members -/

/-- Adds a member to a list that is sorted by name; a name that is there already is overwritten. -/
def insertMember (name : Option String) (value : Json) :
    List (Option String × Json) → List (Option String × Json)
  | [] => [(name, value)]
  | (n, v) :: ms =>
    let key := name.getD ""
    let other := n.getD ""
    if key = other then (name, value) :: ms
    else if key < other then (name, value) :: (n, v) :: ms
    else (n, v) :: insertMember name value ms

mutual

/-- The value with the members of every object sorted by name, the last of equal names kept. -/
def sorted : Json → Json
  | .array items => .array (sortedItems items)
  | .object members => .object (sortedMembers members)
  | j => j

/-- Sorts the members of every object in a list of values. -/
def sortedItems : List Json → List Json
  | [] => []
  | j :: js => j.sorted :: sortedItems js

/-- Sorts members, from the last to the first, so that the last of equal names is kept. -/
def sortedMembers : List (Option String × Json) → List (Option String × Json)
  | [] => []
  | (name, j) :: ms =>
    let rest := sortedMembers ms
    if rest.any (fun m => m.1.getD "" == name.getD "") then rest
    else insertMember name j.sorted rest

end

end Json

end ReplayVector
