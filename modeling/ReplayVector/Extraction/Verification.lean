import ReplayVector.Chain.Message

/-!
# Comparing receipts

The receipt of an execution is compared with the one on the chain. Every difference in exit code,
return value and gas is reported; the events are not compared.
-/

namespace ReplayVector

/-- A field in which two receipts differ. -/
inductive Mismatch where
  | exitCode (expected actual : ExitCode)
  | returnData (expected actual : Bytes)
  | gasUsed (expected actual : UInt64)
  deriving DecidableEq

/-- The wording of a difference. -/
def Mismatch.message : Mismatch → String
  | exitCode expected actual => s!"exit code: expected {expected.toNat}, got {actual.toNat}"
  | returnData expected actual =>
    s!"return value: expected \"{Text.toBase64 expected}\", got \"{Text.toBase64 actual}\""
  | gasUsed expected actual => s!"gas used: expected {expected.toNat}, got {actual.toNat}"

/-- The outcome of a comparison that found no difference. -/
inductive ReceiptCheck where
  | matched
  /-- The chain has no receipt, so nothing was compared. -/
  | skipped
  deriving DecidableEq, Inhabited

namespace Receipt

/-- The fields in which two receipts differ, in a fixed order. -/
def mismatches (expected actual : Receipt) : List Mismatch :=
  (if expected.exitCode = actual.exitCode then []
    else [.exitCode expected.exitCode actual.exitCode]) ++
  (if expected.returnData = actual.returnData then []
    else [.returnData expected.returnData actual.returnData]) ++
  (if expected.gasUsed = actual.gasUsed then []
    else [.gasUsed expected.gasUsed actual.gasUsed])

/-- Compares a receipt with the one on the chain. -/
def check (expected : Option Receipt) (actual : Receipt) :
    Except (List Mismatch) ReceiptCheck :=
  match expected with
  | none => .ok .skipped
  | some expected =>
    match expected.mismatches actual with
    | [] => .ok .matched
    | ms => .error ms

end Receipt

end ReplayVector
