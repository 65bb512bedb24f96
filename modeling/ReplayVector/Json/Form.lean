import ReplayVector.Json.Decoder
import ReplayVector.Json.Printer
import ReplayVector.Cid
import ReplayVector.TokenAmount

/-!
# How types are written in JSON

A form is a way to write a type as a JSON value and to read it back. This module has the forms of
the simple types and of lists, optional values and pairs: bytes are padded base 64, amounts are
decimal strings, identifiers are objects with the one member `/`, and an empty list is `null`.

Beside its form a type may have samples, values together with the JSON they are written as.
`Json.Form.agrees` checks such a pair in both directions.
-/

namespace ReplayVector.Json

/-- How a type is written in JSON and read from it. -/
structure Form (α : Type) where
  toJson : α → Json
  decoder : Decoder α

namespace Form

/-- The text of a value. -/
def print (f : Form α) (a : α) : String := (f.toJson a).compact

/-- Reads a text that holds one value. -/
def parse (f : Form α) (s : String) : Except Refusal α := decode f.decoder s

/-- Numbers of 32 bits without sign. -/
def uint32 : Form UInt32 := { toJson := fun n => ofNat n.toNat, decoder := Json.uint32 }

/-- Numbers of 64 bits without sign. -/
def uint64 : Form UInt64 := { toJson := fun n => ofNat n.toNat, decoder := Json.uint64 }

/-- Numbers of 64 bits with sign. -/
def int64 : Form Int64 := { toJson := fun n => ofInt n.toInt, decoder := Json.int64 }

/-- Texts. -/
def string : Form String := { toJson := ofString, decoder := text }

/-- Byte strings in padded base 64; `null` is read as the empty one. -/
def bytes : Form Bytes where
  toJson bs := ofString (Text.toBase64 bs)
  decoder depth j := do
    match ← optional text depth j with
    | none => .ok []
    | some s =>
      match Text.ofBase64? s with
      | some bs => .ok bs
      | none => .error .malformed

/-- Byte strings of at most `n` bytes. -/
def bytesUpTo (n : Nat) : Form (Bytes.UpTo n) where
  toJson bs := bytes.toJson bs.val
  decoder depth j := do
    match Bytes.upTo? n (← bytes.decoder depth j) with
    | some bs => .ok bs
    | none => .error .malformed

/-- Addresses, as their texts. -/
def address : Form Address where
  toJson a := ofString a.toString
  decoder depth j := do
    let s ← text depth j
    match Address.ofString s with
    | .ok a => .ok a
    | .error defect => .error (.badAddress s defect)

/-- Amounts, as decimal texts. -/
def tokenAmount : Form TokenAmount where
  toJson a := ofString a.toString
  decoder depth j := do
    match TokenAmount.ofString? (← text depth j) with
    | some a => .ok a
    | none => .error .malformed

/-- The text of an identifier. -/
def cidText : Decoder Cid := fun depth j => do
  match Cid.ofString? (← text depth j) with
  | some c => .ok c
  | none => .error .malformed

/-- The one field of an identifier. -/
def cidFields : Fields [Cid] := .cons ⟨"/", cidText⟩ .nil

/-- Identifiers, as objects with the member `/`. -/
def cid : Form Cid where
  toJson c := record [("/", ofString c.toString)]
  decoder depth j := do
    let (slash, ()) ← cidFields.read depth j
    required slash

/-- Lists; the empty one is `null`. -/
def list (f : Form α) : Form (List α) where
  toJson
    | [] => .null
    | as => .array (as.map f.toJson)
  decoder := nullableList f.decoder

/-- Lists; the empty one is an empty array, and `null` is refused. -/
def array (f : Form α) : Form (List α) where
  toJson as := .array (as.map f.toJson)
  decoder := Json.list f.decoder

/-- Optional values; none is `null`. -/
def option (f : Form α) : Form (Option α) where
  toJson
    | none => .null
    | some a => f.toJson a
  decoder := optional f.decoder

/-- A value alone in an array. -/
def single (f : Form α) : Form α where
  toJson a := .array [f.toJson a]
  decoder := Json.single f.decoder

/-- Two values in an array. -/
def pair (f : Form α) (g : Form β) : Form (α × β) where
  toJson p := .array [f.toJson p.1, g.toJson p.2]
  decoder depth j :=
    match j with
    | .array (a :: b :: rest) => do
      let depth ← enter depth
      let a ← f.decoder depth a
      let b ← g.decoder depth b
      if rest.isEmpty then .ok (a, b) else .error .malformed
    | .array [a] => do
      let depth ← enter depth
      let _ ← f.decoder depth a
      .error .malformed
    | _ => .error .malformed

/-- Any JSON value, the members of objects sorted. -/
def any : Form Json := { toJson := fun j => j, decoder := Json.any }

/-! ## Samples -/

/-- A value is written as the given JSON, up to the order of members, and read back from it. -/
def agrees [DecidableEq α] (f : Form α) (j : Json) (a : α) : Bool :=
  (f.toJson a).sorted.compact == j.sorted.compact &&
    match f.decoder nesting j.sorted with
    | .ok b => decide (b = a)
    | .error _ => false

def addressSamples : List (Json × Address) :=
  [(ofString "f00", .id 0), (ofString "f01234", .id 1234)]

def tokenAmountSamples : List (Json × TokenAmount) :=
  [(ofString "1", 1), (ofString "1000000000000000000000", .ofWhole 1000)]

def bytesSamples : List (Json × Bytes) :=
  [(ofString "aGVsbG8gd29ybGQh", Bytes.ofString "hello world!")]

/-- The JSON of the identifier of no data, held inline. -/
def emptyCidJson : Json := record [("/", ofString "baeaaaaa")]

def cidSamples : List (Json × Cid) := [(emptyCidJson, default)]

end Form

end ReplayVector.Json
