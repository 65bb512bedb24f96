import ReplayVector.Extraction.Verification

/-!
# What a comparison of receipts finds

A comparison lists the fields in which two receipts differ. It passes if they agree in exit code,
return value and gas.

* `Receipt.mismatches_eq_nil`: receipts between which no difference is found.
* `Receipt.check_eq_ok`, `Receipt.check_matched`, `Receipt.check_some`: what a comparison ends with.
-/

namespace ReplayVector

/-- The two receipts do differ in the field. -/
def Mismatch.isReal : Mismatch → Bool
  | exitCode expected actual => expected != actual
  | returnData expected actual => expected != actual
  | gasUsed expected actual => expected != actual

namespace Receipt

/-- The three compared fields of two receipts, in order. -/
def compared (expected actual : Receipt) : List Mismatch := [
  .exitCode expected.exitCode actual.exitCode,
  .returnData expected.returnData actual.returnData,
  .gasUsed expected.gasUsed actual.gasUsed]

/-- What is listed of two receipts are the compared fields that differ, in their order. -/
theorem mismatches_eq (expected actual : Receipt) :
    expected.mismatches actual = (expected.compared actual).filter Mismatch.isReal := by
  unfold mismatches compared
  by_cases hcode : expected.exitCode = actual.exitCode <;>
    by_cases hreturn : expected.returnData = actual.returnData <;>
      by_cases hgas : expected.gasUsed = actual.gasUsed <;>
        simp [hcode, hreturn, hgas, Mismatch.isReal, List.filter_cons]

theorem mismatches_eq_nil (expected actual : Receipt) :
    expected.mismatches actual = [] ↔
      expected.exitCode = actual.exitCode ∧ expected.returnData = actual.returnData ∧
        expected.gasUsed = actual.gasUsed := by
  rw [mismatches_eq, List.filter_eq_nil_iff]
  simp [compared, Mismatch.isReal]

/-- A comparison that passes was skipped for want of a receipt, or found no difference. -/
theorem check_eq_ok {expected : Option Receipt} {actual : Receipt} {c : ReceiptCheck}
    (h : check expected actual = .ok c) :
    (c = .skipped ↔ expected = none) ∧
      ∀ r, expected = some r → c = .matched ∧ r.mismatches actual = [] := by
  cases expected with
  | none =>
    cases h
    simp
  | some r =>
    rw [check] at h
    split at h
    · next hnil =>
      cases h
      simp [hnil]
    · cases h

/-- A comparison that finds no difference passes. -/
theorem check_matched {expected actual : Receipt} (h : expected.mismatches actual = []) :
    check (some expected) actual = .ok .matched := by
  unfold check
  dsimp only
  rw [h]

/-- A comparison that finds differences lists them. -/
theorem check_some {expected actual : Receipt} (h : expected.mismatches actual ≠ []) :
    check (some expected) actual = .error (expected.mismatches actual) := by
  rw [check]
  split
  · next hnil => exact absurd hnil h
  · rfl

end Receipt

end ReplayVector
