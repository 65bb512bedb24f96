import ReplayVector.Store.BlockM

/-!
# Sequences of calls of a store

A caller of a store asks for one block after the other and writes blocks in between. Here is what
it asks, what it is answered, and which blocks it has found by that.
-/

namespace ReplayVector

/-- A call of a store. -/
inductive StoreCall where
  | get (c : Cid)
  | has (c : Cid)
  | put (b : Block)

/-- A call of a store with what it was answered. -/
inductive StoreAnswer where
  | got (c : Cid) (r : Except Failure (Option Bytes))
  | had (c : Cid) (r : Except Failure Bool)
  | put (b : Block) (r : Except Failure Unit)

namespace StoreCall

variable {m : Type → Type} [Monad m]

/-- Makes a call. -/
def perform (s : BlockStore m) : StoreCall → m StoreAnswer
  | get c => return .got c (← s.get c)
  | has c => return .had c (← s.has c)
  | put b => return .put b (← s.put b)

/-- Makes calls one after the other. -/
def performAll (s : BlockStore m) (calls : List StoreCall) : m (List StoreAnswer) :=
  calls.mapM (perform s)

/-- The bytes that a call writes under an identifier. -/
def put? (k : Cid) : StoreCall → Option Bytes
  | put b => if b.cid = k then some b.data else none
  | _ => none

/-- The bytes that calls wrote last under an identifier. -/
def lastPut? (k : Cid) (calls : List StoreCall) : Option Bytes :=
  calls.reverse.findSome? (put? k)

theorem lastPut?_concat (k : Cid) (calls : List StoreCall) (call : StoreCall) :
    lastPut? k (calls ++ [call]) = (call.put? k).or (lastPut? k calls) := by
  rw [lastPut?, List.reverse_concat, List.findSome?_cons]
  cases call.put? k <;> rfl

end StoreCall

end ReplayVector
