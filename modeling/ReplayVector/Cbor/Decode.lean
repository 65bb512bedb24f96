import ReplayVector.Cbor

/-!
# Reading structured data

Longer heads than needed are accepted. Refused are lengths left open, numbers of 16-bit floating
point, tags other than the one for links, simple values other than the booleans and null, keys
that are no text or repeat, text that is not UTF-8, bytes after the value, and nesting beyond
`Cbor.nesting` levels. Entries of maps are brought into the order of their keys' bytes.
-/

namespace ReplayVector.Cbor

/-- How deep values may nest; every value counts. -/
def nesting : Nat := 128

/-- The head of an item: its kind, the low five bits of its first byte, its number, the rest. -/
structure Head where
  kind : Nat
  low : Nat
  number : Nat
  rest : Bytes

/-- Reads the head of an item. -/
def readHead? : Bytes → Option Head
  | [] => none
  | b :: bs =>
    let kind := b.toNat / 32
    let low := b.toNat % 32
    let long (width : Nat) : Option Head :=
      (Bytes.take? width bs).map fun (n, rest) => ⟨kind, low, Bytes.toNatBE n, rest⟩
    if low < 24 then some ⟨kind, low, low, bs⟩
    else if low = 24 then long 1
    else if low = 25 then long 2
    else if low = 26 then long 4
    else if low = 27 then long 8
    else none

/-- Reads a byte string of a length given by a head. -/
def readBytes? (h : Head) : Option (Bytes × Bytes) := Bytes.take? h.number h.rest

/-- Reads a text of a length given by a head. -/
def readText? (h : Head) : Option (String × Bytes) := do
  let (bs, rest) ← readBytes? h
  return (← Bytes.toString? bs, rest)

/-- Reads a key: a text, or a byte string that is one. -/
def readKey? (bs : Bytes) : Option (String × Bytes) := do
  let h ← readHead? bs
  if h.kind = 2 ∨ h.kind = 3 then readText? h else none

/-- Reads a link after its tag: a byte string of a zero and an identifier. -/
def readLink? (bs : Bytes) : Option (Cid × Bytes) := do
  let h ← readHead? bs
  if h.kind ≠ 2 then none else
  let (content, rest) ← readBytes? h
  match content with
  | 0 :: bs => (Cid.ofBytes? bs).map fun (c, _) => (c, rest)
  | _ => none

/-- Widens the bits of a 32-bit floating-point number to 64 bits. -/
def widenFloat (bits : UInt32) : UInt64 := (Float32.ofBits bits).toFloat.toBits

/-- Reads a number of values. -/
def readItems? (value : Bytes → Option (Cbor × Bytes)) :
    Nat → Bytes → Option (List Cbor × Bytes)
  | 0, bs => some ([], bs)
  | n + 1, bs => do
    let (v, bs) ← value bs
    let (vs, rest) ← readItems? value n bs
    return (v :: vs, rest)

/-- Reads a number of entries. -/
def readEntries? (value : Bytes → Option (Cbor × Bytes)) :
    Nat → Bytes → Option (List (String × Cbor) × Bytes)
  | 0, bs => some ([], bs)
  | n + 1, bs => do
    let (k, bs) ← readKey? bs
    let (v, bs) ← value bs
    let (es, rest) ← readEntries? value n bs
    return ((k, v) :: es, rest)

/-- Puts an entry into entries sorted by key; `none` if the key is there already. -/
def insertKeyed? (k : String) (v : Cbor) :
    List (String × Cbor) → Option (List (String × Cbor))
  | [] => some [(k, v)]
  | (k', v') :: es =>
    if k = k' then none
    else if k < k' then some ((k, v) :: (k', v') :: es)
    else (insertKeyed? k v es).map ((k', v') :: ·)

/-- Entries in the order of their keys; `none` if a key repeats. -/
def sortEntries? : List (String × Cbor) → Option (List (String × Cbor))
  | [] => some []
  | (k, v) :: es => do insertKeyed? k v (← sortEntries? es)

/-- Reads the value at the front of a byte string, nested in at most the given number of levels. -/
def readValue? : Nat → Bytes → Option (Cbor × Bytes)
  | 0, _ => none
  | depth + 1, bs => do
    let h ← readHead? bs
    match h.kind with
    | 0 => some (.int h.number, h.rest)
    | 1 => some (.int (-1 - (h.number : Int)), h.rest)
    | 2 => (readBytes? h).map fun (bs, rest) => (.bytes bs, rest)
    | 3 => (readText? h).map fun (s, rest) => (.text s, rest)
    | 4 => (readItems? (readValue? depth) h.number h.rest).map fun (vs, rest) => (.list vs, rest)
    | 5 => do
      let (es, rest) ← readEntries? (readValue? depth) h.number h.rest
      return (.map (← sortEntries? es), rest)
    | 6 =>
      if h.number = 42 then (readLink? h.rest).map fun (c, rest) => (.link c, rest) else none
    | _ =>
      match h.low with
      | 20 => some (.bool false, h.rest)
      | 21 => some (.bool true, h.rest)
      | 22 => some (.null, h.rest)
      | 26 => some (.float (widenFloat h.number.toUInt32), h.rest)
      | 27 => some (.float h.number.toUInt64, h.rest)
      | _ => none

/-- Reads a byte string that is one value and nothing else. -/
def decode? (bs : Bytes) : Option Cbor :=
  match readValue? nesting bs with
  | some (v, []) => some v
  | _ => none

end ReplayVector.Cbor
