import ReplayVector.Json.Reader
import ReplayVector.Address

/-!
# Reading types from JSON

A decoder reads a value of a type, inside a limited number of nested arrays and objects. A record
type is read through its list of fields: from an object, whose members may come in any order
beside foreign ones, or from an array of the fields' values in order.
-/

namespace ReplayVector

/-- What is wrong with the three parts of a tipset. -/
inductive TipsetDefect where
  | noBlocks (key : String)
  | count (key : String) (cids headers : Nat)
  | disagreement (key : String)
  | height (key : String) (claimed actual : Int)
  deriving DecidableEq, Repr

/-- The wording of a defect. -/
def TipsetDefect.message : TipsetDefect → String
  | noBlocks key => s!"tipset {key} has no blocks"
  | count key cids headers => s!"tipset {key} lists {cids} blocks but carries {headers} headers"
  | disagreement key => s!"blocks of tipset {key} disagree on height or parents"
  | height key claimed actual =>
    s!"tipset {key} claims height {claimed} but its blocks are at {actual}"

namespace Json

/-- Why a text or value is not of a type. -/
inductive Refusal where
  /-- Not JSON, or not of the shape of the type. -/
  | malformed
  | badAddress (text : String) (defect : Address.Defect)
  | emptyKey
  | badTipset (defect : TipsetDefect)
  deriving DecidableEq, Repr

/-- The wording of a refusal; shapes have none. -/
def Refusal.message? : Refusal → Option String
  | malformed => none
  | badAddress text defect => some s!"invalid address {text}: {defect.message}"
  | emptyKey => some "tipset key must not be empty"
  | badTipset defect => some defect.message

/-- A reader of a type, inside a number of levels of arrays and objects. -/
abbrev Decoder (α : Type u) := Nat → Json → Except Refusal α

/-- The number of levels of arrays and objects that a text may nest, plus one. -/
def nesting : Nat := 128

/-- Reads a type from a text that holds one value and nothing else. -/
def decode {α : Type u} (d : Decoder α) (s : String) : Except Refusal α := do
  let (j, rest) := read s
  let a ← d nesting j
  if rest = some [] then .ok a else .error .malformed

/-! ## Simple types -/

/-- Reads a text. -/
def text : Decoder String := fun _ j =>
  match j with
  | .string (some s) => .ok s
  | _ => .error .malformed

/-- The number that a spelling of a whole number stands for; fractions, exponents and a negative
zero are not whole numbers. -/
def wholeNumber? (spelling : String) : Option Int :=
  match spelling.toList with
  | '-' :: cs => if cs.all Char.isDigit ∧ cs ≠ ['0'] then some (-(value cs : Int)) else none
  | cs => if cs.all Char.isDigit then some (value cs) else none
where
  value (cs : List Char) : Nat := cs.foldl (fun n c => 10 * n + (c.toNat - 48)) 0

/-- Reads a whole number between bounds, the upper one excluded. -/
def intBetween (low high : Int) : Decoder Int := fun _ j =>
  match j with
  | .number spelling =>
    match wholeNumber? spelling with
    | some n => if low ≤ n ∧ n < high then .ok n else .error .malformed
    | none => .error .malformed
  | _ => .error .malformed

/-- Reads a 64-bit number without sign. -/
def uint64 : Decoder UInt64 := fun depth j => do
  let n ← intBetween 0 (2 ^ 64) depth j
  return n.toNat.toUInt64

/-- Reads a 32-bit number without sign. -/
def uint32 : Decoder UInt32 := fun depth j => do
  let n ← intBetween 0 (2 ^ 32) depth j
  return n.toNat.toUInt32

/-- Reads a 64-bit number with sign. -/
def int64 : Decoder Int64 := fun depth j => do
  let n ← intBetween (-2 ^ 63) (2 ^ 63) depth j
  return n.toInt64

/-- Reads a value, or `null` for none. -/
def optional (d : Decoder α) : Decoder (Option α) := fun depth j =>
  match j with
  | .null => .ok none
  | j => (d depth j).map some

/-- Enters an array or object: one level less is left. -/
def enter (depth : Nat) : Except Refusal Nat :=
  if depth ≤ 1 then .error .malformed else .ok (depth - 1)

/-- Reads an array. -/
def list (d : Decoder α) : Decoder (List α) := fun depth j =>
  match j with
  | .array items => do
    let depth ← enter depth
    items.mapM (d depth)
  | _ => .error .malformed

/-- Reads an array, or `null` for the empty list. -/
def nullableList (d : Decoder α) : Decoder (List α) := fun depth j =>
  match j with
  | .null => .ok []
  | j => list d depth j

/-- Reads an array of exactly one item. -/
def single (d : Decoder α) : Decoder α := fun depth j =>
  match j with
  | .array [a] => do d (← enter depth) a
  | _ => .error .malformed

/-! ## Records -/

/-- A field of a record: its name and the decoder of its value. -/
structure Field (α : Type) where
  name : String
  decoder : Decoder α

/-- The fields of a record, in order. -/
inductive Fields : List Type → Type 1 where
  | nil : Fields []
  | cons {α : Type} {ts : List Type} (field : Field α) (rest : Fields ts) : Fields (α :: ts)

/-- What has been read of the fields of a record. -/
def Slots : List Type → Type
  | [] => Unit
  | t :: ts => Option t × Slots ts

/-- Nothing has been read. -/
def Slots.empty : (ts : List Type) → Slots ts
  | [] => ()
  | _ :: ts => (none, Slots.empty ts)

namespace Fields

/-- Reads one member of an object. A repeated field is refused, a foreign member only has to be
well formed. -/
def readMember : {ts : List Type} → Fields ts → Nat → String → Json → Slots ts →
    Except Refusal (Slots ts)
  | _, .nil, _, _, j, slots => if j.wellFormed then .ok slots else .error .malformed
  | _, .cons field rest, depth, name, j, (slot, slots) =>
    if name = field.name then
      match slot with
      | some _ => .error .malformed
      | none => do return (some (← field.decoder depth j), slots)
    else do return (slot, ← rest.readMember depth name j slots)

/-- Reads the members of an object in their order. -/
def readMembers (fields : Fields ts) (depth : Nat) :
    List (Option String × Json) → Slots ts → Except Refusal (Slots ts)
  | [], slots => .ok slots
  | (none, _) :: _, _ => .error .malformed
  | (some name, j) :: ms, slots => do
    fields.readMembers depth ms (← fields.readMember depth name j slots)

/-- Reads the items of an array as the fields' values in order; the last ones may be missing. -/
def readItems : {ts : List Type} → Fields ts → Nat → List Json → Except Refusal (Slots ts)
  | ts, _, _, [] => .ok (Slots.empty ts)
  | _, .nil, _, _ :: _ => .error .malformed
  | _, .cons field rest, depth, j :: js => do
    let a ← field.decoder depth j
    return (some a, ← rest.readItems depth js)

/-- Reads the fields of a record from an object or an array. -/
def read (fields : Fields ts) : Decoder (Slots ts) := fun depth j =>
  match j with
  | .object members => do fields.readMembers (← enter depth) members (Slots.empty ts)
  | .array items => do fields.readItems (← enter depth) items
  | _ => .error .malformed

end Fields

/-- A field that has to be there. -/
def required (slot : Option α) : Except Refusal α :=
  match slot with
  | some a => .ok a
  | none => .error .malformed

/-! ## Any value -/

/-- The least whole number that is too large for a binary floating-point number of 64 bits: it
rounds to `2 ^ 1024`. -/
def floatLimit : Nat := (2 ^ 54 - 1) * 2 ^ 970

/-- The whole number that the digits among some characters write. -/
def digitsValue (cs : List Char) : Nat :=
  (cs.filter Char.isDigit).foldl (fun n c => 10 * n + (c.toNat - 48)) 0

/-- A number, in its spelling, is small enough for a binary floating-point number. -/
def inFloatRange (spelling : String) : Bool :=
  let isMark (c : Char) := c = 'e' || c = 'E'
  let mantissa := spelling.toList.takeWhile (!isMark ·)
  let exponent := (spelling.toList.dropWhile (!isMark ·)).drop 1
  let fraction := ((mantissa.dropWhile (· != '.')).drop 1).length
  let value := digitsValue mantissa
  if value = 0 ∨ exponent.head? = some '-' then true
  else if digitsValue exponent > 400 + fraction then false
  else Nat.blt (value * 10 ^ digitsValue exponent) (floatLimit * 10 ^ fraction)

mutual

/-- Checks a value whatever its type: every string has a text, every number is in range, and the
nesting stays inside the limit. -/
def checkAny (depth : Nat) : Json → Bool
  | .null => true
  | .bool _ => true
  | .number spelling => inFloatRange spelling
  | .string text => text.isSome
  | .array items => decide (1 < depth) && checkItems (depth - 1) items
  | .object members => decide (1 < depth) && checkMembers (depth - 1) members
  | .broken => false

/-- Checks the items of an array. -/
def checkItems (depth : Nat) : List Json → Bool
  | [] => true
  | j :: js => checkAny depth j && checkItems depth js

/-- Checks the members of an object. -/
def checkMembers (depth : Nat) : List (Option String × Json) → Bool
  | [] => true
  | (name, j) :: ms => name.isSome && checkAny depth j && checkMembers depth ms

end

/-- Reads any value; members of objects are sorted by name. -/
def any : Decoder Json := fun depth j =>
  if checkAny depth j then .ok j.sorted else .error .malformed

end Json

end ReplayVector
