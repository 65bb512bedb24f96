import ReplayVector.Execution.Transfer

/-!
# Engines for trying out checks

Two engines that let a check of a run fail on purpose: one whose buffered runs report more gas, and
one that touches no block.
-/

namespace ReplayVector.Probe

/-- The engine for transfers, which reports one more unit of gas in buffered runs. -/
def drift : Engine := fun e => do
  let outcome ← Transfer.engine e
  match e.mode with
  | .writeThrough => return outcome
  | .buffered =>
    if outcome.receipt.gasUsed + 1 = 0 then .fail .crash
    else
      let receipt := { outcome.receipt with gasUsed := outcome.receipt.gasUsed + 1 }
      return { outcome with receipt }

/-- The engine that leaves the state as it is and touches no block. -/
def echo : Engine := fun e => return { receipt := .plain .ok 0, postroot := e.preroot }

end ReplayVector.Probe
