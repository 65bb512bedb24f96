import ReplayVector.Chain.Lookup
import ReplayVector.Store.Memory

/-!
# Recording what is read

A store around another one that records, between `start` and `finish`, the identifiers of the
blocks that were found. It answers as the inner store does.
-/

namespace ReplayVector

/-- The identifiers read so far, each once; `none` while nothing is recorded. -/
structure ReadRecord where
  reads : Option (List Cid)
  deriving DecidableEq

namespace ReadRecord

/-- Nothing is recorded. -/
def off : ReadRecord := ⟨none⟩

/-- Begins a new record. -/
def start (_ : ReadRecord) : ReadRecord := ⟨some []⟩

/-- Ends the record and hands it out; it is empty if there was none. -/
def finish (r : ReadRecord) : List Cid × ReadRecord := (r.reads.getD [], off)

/-- Adds an identifier to the record, if one is kept. -/
def add (c : Cid) (r : ReadRecord) : ReadRecord := ⟨r.reads.map (insertNew · c)⟩

end ReadRecord

namespace BlockStore

/-- The store that records what the inner store finds. -/
def traced [Monad m] (s : BlockStore m) : BlockStore (StateT ReadRecord m) where
  get c := do
    let r ← s.get c
    match r with
    | .ok (some _) => modify (ReadRecord.add c)
    | _ => pure ()
    return r
  has c := do
    let r ← s.has c
    match r with
    | .ok true => modify (ReadRecord.add c)
    | _ => pure ()
    return r
  put b := s.put b

end BlockStore

end ReplayVector
