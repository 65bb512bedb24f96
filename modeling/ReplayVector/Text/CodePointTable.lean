import ReplayVector.Bytes
import ReplayVector.Text.Fields

/-!
# Tables over code points

A table says something of every code point from its first row on: what a row says holds up to the
next row. As text, a row is the distance from the row before, in hexadecimal, and what it says.
-/

namespace ReplayVector.Text

/-- The number that hexadecimal digits write. -/
def hexValue (cs : List Char) : Nat :=
  cs.foldl (fun n c => 16 * n + (Bytes.hexValue? c).getD 0) 0

/-- A table over code points. -/
structure CodePointTable (α : Type) where
  /-- Where each row starts and what it says, in ascending order. -/
  rows : Array (Nat × α)

namespace CodePointTable

/-- A lower-case hexadecimal digit. -/
def isHex (c : Char) : Bool := c.isDigit || ('a' ≤ c && c ≤ 'f')

/-- The rows of a text: where each starts, and the characters of what it says. -/
def readRows (text : String) : List (Nat × List Char) :=
  let spaced := text.toList.map fun c => if c = '\n' then ' ' else c
  let fields := (Text.fields ' ' spaced).filter (· ≠ [])
  let step := fun (start, rows) field =>
    let start := start + hexValue (field.takeWhile isHex)
    (start, (start, field.dropWhile isHex) :: rows)
  (fields.foldl step (0, [])).2.reverse

/-- Reads a table. -/
def read (value : List Char → α) (text : String) : CodePointTable α :=
  ⟨((readRows text).map fun (start, cs) => (start, value cs)).toArray⟩

/-- The last of the rows from `low` up to `high` that starts at a code point or before it, if
there is one; else the row before `low`. -/
def search (t : CodePointTable α) (n low high : Nat) : Option (Nat × α) :=
  if low < high then
    let middle := (low + high) / 2
    match t.rows[middle]? with
    | some row => if row.1 ≤ n then t.search n (middle + 1) high else t.search n low middle
    | none => none
  else if low = 0 then none else t.rows[low - 1]?
termination_by high - low

/-- The row that a code point is in. -/
def row? (t : CodePointTable α) (n : Nat) : Option (Nat × α) := t.search n 0 t.rows.size

end CodePointTable

end ReplayVector.Text
