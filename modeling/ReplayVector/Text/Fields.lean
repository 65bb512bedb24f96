/-!
# Fields of a text

The parts of a text between separators, and the decimal numbers that such parts may hold.
-/

namespace ReplayVector.Text

/-- The parts of a text between the separators, one more than there are separators. -/
def fields (separator : Char) : List Char → List (List Char)
  | [] => [[]]
  | c :: cs =>
    if c = separator then [] :: fields separator cs
    else match fields separator cs with
      | [] => [[c]]
      | field :: rest => (c :: field) :: rest

/-- The parts of a text before and after its first separator. -/
def cut? (separator : Char) : List Char → Option (List Char × List Char)
  | [] => none
  | c :: cs =>
    if c = separator then some ([], cs)
    else (cut? separator cs).map fun (front, rest) => (c :: front, rest)

/-- Fields with separators between them. -/
def join (separator : Char) : List (List Char) → List Char
  | [] => []
  | [field] => field
  | field :: rest => field ++ separator :: join separator rest

theorem fields_ne_nil (separator : Char) (cs : List Char) : fields separator cs ≠ [] := by
  cases cs with
  | nil => simp [fields]
  | cons c cs => rw [fields]; split <;> (try split) <;> simp

/-- Joining one more field in front. -/
theorem join_cons {separator : Char} {field : List Char} {rest : List (List Char)} (h : rest ≠ []) :
    join separator (field :: rest) = field ++ separator :: join separator rest := by
  cases rest with
  | nil => exact absurd rfl h
  | cons _ _ => rfl

/-- The number that decimal digits write. -/
def digitsValue (digits : List Char) : Nat :=
  digits.foldl (fun n c => 10 * n + (c.toNat - 48)) 0

/-- Reads a decimal number below a limit; zeros and one plus sign may lead. -/
def decimal? (limit : Nat) (cs : List Char) : Option Nat :=
  let digits := match cs with
    | '+' :: rest => rest
    | _ => cs
  if digits ≠ [] ∧ digits.all Char.isDigit ∧ digitsValue digits < limit then
    some (digitsValue digits)
  else none

end ReplayVector.Text
