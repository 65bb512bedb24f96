import ReplayVector.Execution

/-!
# What actors see of the chain

During a replay actors see fixed randomness, no faults of other miners and no history.
-/

namespace ReplayVector.Environment

/-- The randomness of every epoch, from the chain as well as from the beacon. -/
def randomness (_ : Epoch) : Bytes := Bytes.ofString "i_am_random_____i_am_random_____"

/-- The identifier of a tipset in the past, which cannot be looked up. -/
def tipsetCid (epoch : Epoch) : Except Failure Cid := .error (.of (.tipsetLookup epoch))

/-- Whether two headers show a fault, and the gas for finding out: never, and none. -/
def consensusFault (_ _ _ : Bytes) : Bool × Nat := (false, 0)

end ReplayVector.Environment
