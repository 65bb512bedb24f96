import ReplayVector.Json.Form
import ReplayVector.TestVector

/-!
# Whole numbers in JSON

The decimal form of a whole number is a spelling that the reader of JSON text takes in full, and
the readers of numbers give the number back, both the bounded ones and the one without bounds.

* `scanNumber_repr_append`: a whole number is taken from a text up to its delimiter.
* `wholeNumber?_repr`, `readInt_repr`: its value.
-/

namespace ReplayVector.Json

/-! ## Decimal digits -/

/-- The digits of a number, as they are printed. -/
abbrev decimal (n : Nat) : List Char := Nat.toDigits 10 n

/-- A number is written in digits. -/
theorem isDigit_of_mem_decimal {n : Nat} {c : Char} (h : c ∈ decimal n) : c.isDigit = true :=
  Nat.isDigit_of_mem_toDigits (by omega) (by omega) h

theorem all_isDigit_decimal (n : Nat) : (decimal n).all Char.isDigit = true := by
  refine List.all_eq_true.mpr fun _ h => ?_
  exact isDigit_of_mem_decimal h

/-- In at least one. -/
theorem decimal_ne_nil (n : Nat) : decimal n ≠ [] := Nat.toDigits_ne_nil

/-- Printed digits have the printed value. -/
theorem foldl_decimal (n : Nat) :
    (decimal n).foldl (fun n c => 10 * n + (c.toNat - 48)) 0 = n := by
  have h := @Nat.ofDigitChars_ten_toDigits n
  rw [Nat.ofDigitChars_eq_foldl] at h
  exact h

/-- No zero leads the digits of a number but the one of zero itself. -/
theorem head?_decimal_ne {n : Nat} (h : n ≠ 0) : (decimal n).head? ≠ some '0' := by
  induction n using Nat.strongRecOn with
  | ind n ih =>
    by_cases hlt : n < 10
    · rw [decimal, Nat.toDigits_of_lt_base hlt]
      have : n = 1 ∨ n = 2 ∨ n = 3 ∨ n = 4 ∨ n = 5 ∨ n = 6 ∨ n = 7 ∨ n = 8 ∨ n = 9 := by omega
      rcases this with rfl | rfl | rfl | rfl | rfl | rfl | rfl | rfl | rfl <;> decide
    · have hdiv := ih (n / 10) (by omega) (by omega)
      rw [decimal, Nat.toDigits_of_base_le (by omega) (by omega)]
      rw [List.head?_append]
      cases hd : (Nat.toDigits 10 (n / 10)).head? with
      | none => exact absurd (List.head?_eq_none_iff.mp hd) Nat.toDigits_ne_nil
      | some c =>
        rw [decimal, hd] at hdiv
        simpa using hdiv

/-- The characters of a whole number's decimal form: a sign if it is negative, and the digits. -/
theorem toList_repr (n : Int) :
    (Int.repr n).toList = if n < 0 then '-' :: decimal n.natAbs else decimal n.natAbs := by
  cases n with
  | ofNat m => simp [Int.repr, Nat.toList_repr]
  | negSucc m =>
    have : Int.negSucc m < 0 := by omega
    simp [Int.repr, Nat.toList_repr, this]

/-! ## Scanning -/

/-- What follows a number in a text ends it. -/
def Delimits (rest : List Char) : Prop :=
  ∀ c cs, rest = c :: cs → c.isDigit = false ∧ c ≠ '.' ∧ c ≠ 'e' ∧ c ≠ 'E'

theorem delimits_nil : Delimits [] := by
  intro c cs h
  cases h

/-- A number ends before a character that could not go on with it. -/
theorem delimits_cons {c : Char} (cs : List Char)
    (h : c.isDigit = false ∧ c ≠ '.' ∧ c ≠ 'e' ∧ c ≠ 'E') : Delimits (c :: cs) := by
  intro c' cs' heq
  cases heq
  exact h

/-- All its digits are read, and no more. -/
theorem digits_append {ds rest : List Char} (hds : ∀ c ∈ ds, c.isDigit = true)
    (hrest : Delimits rest) : digits (ds ++ rest) = (ds, rest) := by
  have htake : rest.takeWhile Char.isDigit = [] ∧ rest.dropWhile Char.isDigit = rest := by
    cases rest with
    | nil => exact ⟨rfl, rfl⟩
    | cons c cs =>
      have := (hrest c cs rfl).1
      simp [this]
  rw [digits, List.takeWhile_append_of_pos hds, List.dropWhile_append_of_pos hds, htake.1,
    htake.2, List.append_nil]

/-- So is its whole part. -/
theorem scanWhole_decimal_append (n : Nat) {rest : List Char} (hrest : Delimits rest) :
    scanWhole (decimal n ++ rest) = some (decimal n, rest) := by
  have hdigits := digits_append (fun c hc => isDigit_of_mem_decimal (n := n) hc) hrest
  by_cases h0 : n = 0
  · subst h0
    have hhead : rest.head?.any Char.isDigit = false := by
      cases rest with
      | nil => rfl
      | cons c cs => simp [(hrest c cs rfl).1]
    rw [decimal, Nat.toDigits_zero, List.singleton_append, scanWhole, hhead]
    rfl
  · cases hd : decimal n with
    | nil => exact absurd hd (decimal_ne_nil n)
    | cons d ds =>
      have hne : d ≠ '0' := by
        have := head?_decimal_ne h0
        rw [hd] at this
        simpa using this
      rw [hd] at hdigits
      rw [List.cons_append, scanWhole.eq_2 _ (by rintro cs heq; cases heq; exact hne rfl),
        ← List.cons_append, digits1, hdigits]
      simp

/-- With no fraction and no exponent behind it that is all. -/
theorem scanUnsigned_decimal_append (n : Nat) {rest : List Char} (hrest : Delimits rest) :
    scanUnsigned (decimal n ++ rest) = some (decimal n, rest) := by
  have hfraction : scanFraction rest = some ([], rest) := by
    cases rest with
    | nil => rfl
    | cons c cs => exact scanFraction.eq_2 _ fun cs' heq => (hrest c cs rfl).2.1 (by cases heq; rfl)
  have hexponent : scanExponent rest = some ([], rest) := by
    cases rest with
    | nil => rfl
    | cons c cs =>
      have hc := (hrest c cs rfl).2.2
      unfold scanExponent
      simp [hc]
  rw [scanUnsigned, scanWhole_decimal_append n hrest]
  simp [hfraction, hexponent]

/-- The decimal form of a whole number is taken in full, up to what ends it. -/
theorem scanNumber_repr_append (n : Int) {rest : List Char} (hrest : Delimits rest) :
    scanNumber ((Int.repr n).toList ++ rest) = some ((Int.repr n).toList, rest) := by
  have hscan := scanUnsigned_decimal_append n.natAbs hrest
  rw [toList_repr]
  split
  · rw [List.cons_append, scanNumber, hscan]
    rfl
  · cases hd : decimal n.natAbs with
    | nil => exact absurd hd (decimal_ne_nil _)
    | cons d ds =>
      have hdigit : d.isDigit = true :=
        isDigit_of_mem_decimal (n := n.natAbs) (by rw [hd]; exact List.mem_cons_self ..)
      have hne : d ≠ '-' := by
        rintro rfl
        exact absurd hdigit (by decide)
      rw [hd] at hscan
      rw [List.cons_append, scanNumber.eq_2 _ (by rintro cs heq; cases heq; exact hne rfl),
        ← List.cons_append, hscan]

/-! ## Values -/

/-- The decimal form of a whole number stands for that number. -/
theorem wholeNumber?_repr (n : Int) : wholeNumber? (Int.repr n) = some n := by
  have hvalue : wholeNumber?.value (decimal n.natAbs) = n.natAbs := foldl_decimal n.natAbs
  rw [wholeNumber?, toList_repr]
  by_cases hneg : n < 0
  · have hne : decimal n.natAbs ≠ ['0'] := by
      intro h
      have := head?_decimal_ne (n := n.natAbs) (by omega)
      rw [h] at this
      exact this rfl
    simp only [hneg, if_true, all_isDigit_decimal, ne_eq, hne, not_false_eq_true, and_self, hvalue]
    congr 1
    omega
  · simp only [hneg, if_false]
    cases hd : decimal n.natAbs with
    | nil => exact absurd hd (decimal_ne_nil _)
    | cons d ds =>
      have hdigit : d.isDigit = true :=
        isDigit_of_mem_decimal (n := n.natAbs) (by rw [hd]; exact List.mem_cons_self ..)
      have hne : d ≠ '-' := by
        rintro rfl
        exact absurd hdigit (by decide)
      have hall := all_isDigit_decimal n.natAbs
      rw [hd] at hall hvalue
      split
      · next cs heq =>
        cases heq
        exact absurd rfl hne
      · rw [if_pos hall, hvalue]
        congr 1
        omega

end ReplayVector.Json

namespace ReplayVector.TokenAmount

open ReplayVector.Json (decimal decimal_ne_nil isDigit_of_mem_decimal foldl_decimal)

/-- Digits are read with their value, added to what has been read. -/
private theorem readDigits_of_isDigit {cs : List Char} (h : ∀ c ∈ cs, c.isDigit = true) (n : Nat) :
    readDigits cs n = some (cs.foldl (fun n c => 10 * n + (c.toNat - 48)) n) := by
  induction cs generalizing n with
  | nil => rfl
  | cons c cs ih =>
    have hc := h c (List.mem_cons_self ..)
    have hne : c ≠ '_' := by
      rintro rfl
      exact absurd hc (by decide)
    rw [readDigits.eq_3 _ _ _ hne, if_pos hc, ih fun c' hc' => h c' (List.mem_cons_of_mem _ hc')]
    rfl

/-- The digits are read as the number. -/
theorem readMagnitude_decimal (n : Nat) : readMagnitude (decimal n) = some n := by
  have hread := readDigits_of_isDigit (fun c hc => isDigit_of_mem_decimal (n := n) hc) 0
  rw [foldl_decimal] at hread
  cases hd : decimal n with
  | nil => exact absurd hd (decimal_ne_nil n)
  | cons d ds =>
    have hdigit : d.isDigit = true :=
      isDigit_of_mem_decimal (n := n) (by rw [hd]; exact List.mem_cons_self ..)
    have hplus : d ≠ '+' := by
      rintro rfl
      exact absurd hdigit (by decide)
    have hscore : d ≠ '_' := by
      rintro rfl
      exact absurd hdigit (by decide)
    rw [hd] at hread
    simp [readMagnitude, hplus, hscore, hread]

/-- The decimal form of a whole number of any size is read as that number. -/
theorem readInt_repr (n : Int) : readInt (Int.repr n).toList = some n := by
  have hread := readMagnitude_decimal n.natAbs
  have hhead (c : Char) (hc : c.isDigit = false) : (decimal n.natAbs).head? ≠ some c := by
    intro h
    have := isDigit_of_mem_decimal (List.mem_of_head? h)
    rw [hc] at this
    exact Bool.noConfusion this
  rw [Json.toList_repr]
  by_cases hneg : n < 0
  · rw [if_pos hneg, readInt, if_neg (hhead '+' (by decide)), hread]
    show some (-(n.natAbs : Int)) = some n
    congr 1
    omega
  · rw [if_neg hneg, readInt.eq_2 _ (by
      intro rest heq
      exact hhead '-' (by decide) (by rw [heq]; rfl)), hread]
    show some (n.natAbs : Int) = some n
    congr 1
    omega

end ReplayVector.TokenAmount
