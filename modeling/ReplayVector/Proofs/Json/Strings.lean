import ReplayVector.Json.Printer
import ReplayVector.Json.Reader

/-!
# Strings in JSON

The printer escapes quotes, backslashes and control characters, and the reader undoes exactly
that: a quoted text is scanned up to its own closing quote and stands for the text.

* `scanString_escaped`: the parts of an escaped text.
* `textOf_map_char`: the text they stand for.
-/

namespace ReplayVector.Json

private theorem hexValue?_hexDigit {n : Nat} (h : n < 16) :
    Bytes.hexValue? (Bytes.hexDigit n) = some n := by
  have : ∀ n : Fin 16, Bytes.hexValue? (Bytes.hexDigit n) = some n.val := by decide
  exact this ⟨n, h⟩

/-- The four digits of a control character's escape stand for its code. -/
private theorem hex4?_of_lt {n : Nat} (h : n < 0x20) :
    hex4? '0' '0' (Bytes.hexDigit (n / 16)) (Bytes.hexDigit (n % 16)) = some n := by
  have h0 : Bytes.hexValue? '0' = some 0 := by decide
  rw [hex4?, h0, hexValue?_hexDigit (by omega), hexValue?_hexDigit (by omega)]
  simp
  omega

/-- A character outside the escapes is scanned as it is. -/
private theorem scanString_cons {c : Char} (hquote : c ≠ '"') (hslash : c ≠ '\\')
    (hcontrol : ¬c.toNat < 0x20) (cs : List Char) :
    scanString (c :: cs) =
      (scanString cs).map fun (units, rest) => (Unit16.char c :: units, rest) := by
  rw [scanString.eq_5 _ _ hquote (by rintro _ _ _ _ _ rfl; exact (hslash rfl).elim)
    (by rintro _ _ rfl; exact (hslash rfl).elim)]
  rw [if_neg (by rintro (h | h); exact hcontrol h; exact hslash h)]

/-- An escape of one letter is scanned as the character it stands for. -/
private theorem scanString_unescape {l c : Char} (hu : l ≠ 'u') (h : unescape? l = some c)
    (cs : List Char) :
    scanString ('\\' :: l :: cs) =
      (scanString cs).map fun (units, rest) => (Unit16.char c :: units, rest) := by
  rw [scanString.eq_4 _ _ (by rintro _ _ _ _ _ rfl; exact (hu rfl).elim), h]
  cases scanString cs <;> rfl

/-- The printed form of a character is scanned as that character. -/
theorem scanString_escapeChar (c : Char) (cs : List Char) :
    scanString (escapeChar c ++ cs) =
      (scanString cs).map fun (units, rest) => (Unit16.char c :: units, rest) := by
  rw [escapeChar]
  split
  · next h => subst h; exact scanString_unescape (by decide) rfl cs
  split
  · next h => subst h; exact scanString_unescape (by decide) rfl cs
  split
  · next h => subst h; exact scanString_unescape (by decide) rfl cs
  split
  · next h => subst h; exact scanString_unescape (by decide) rfl cs
  split
  · next h => subst h; exact scanString_unescape (by decide) rfl cs
  split
  · next h => subst h; exact scanString_unescape (by decide) rfl cs
  split
  · next h => subst h; exact scanString_unescape (by decide) rfl cs
  split
  · next h =>
    -- the remaining control characters are written by their code
    have hunit : Unit16.ofNat c.toNat = .char c := by
      rw [Unit16.ofNat, if_neg (by omega), Char.ofNat_toNat]
    simp only [List.cons_append, List.nil_append]
    rw [scanString, hex4?_of_lt h]
    simp only [Option.bind_eq_bind, Option.bind_some, hunit]
    cases scanString cs <;> rfl
  · next hquote hslash _ _ _ _ _ hcontrol =>
    exact scanString_cons hquote hslash hcontrol cs

/-- An escaped text is scanned up to the quote after it. -/
theorem scanString_escaped (cs rest : List Char) :
    scanString (cs.flatMap escapeChar ++ '"' :: rest) = some (cs.map Unit16.char, rest) := by
  induction cs with
  | nil => rfl
  | cons c cs ih =>
    rw [List.flatMap_cons, List.append_assoc, scanString_escapeChar, ih]
    rfl

/-- Characters stand for the text they make up. -/
theorem textOf_map_char (s : String) : textOf (s.toList.map Unit16.char) = some s := by
  have hjoin : ∀ cs : List Char, joinUnits (cs.map Unit16.char) = some cs := by
    intro cs
    induction cs with
    | nil => rfl
    | cons c cs ih => rw [List.map_cons, joinUnits, ih]; rfl
  rw [textOf, hjoin]
  simp

/-- A quoted text begins with a quote, and what follows it is scanned as the text. -/
theorem scanString_quote (s : String) (rest : List Char) :
    ∃ cs, quote s ++ rest = '"' :: cs ∧
      scanString cs = some (s.toList.map Unit16.char, rest) := by
  refine ⟨s.toList.flatMap escapeChar ++ '"' :: rest, ?_, scanString_escaped _ _⟩
  simp [quote]

end ReplayVector.Json
