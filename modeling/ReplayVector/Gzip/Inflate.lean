import ReplayVector.Bytes

/-!
# Inflating

The compressed format inside a gzip member: blocks of stored bytes, or of literals and copies of
earlier output under a prefix code that is fixed or stands before the block. Bits are taken from
the low end of each byte.
-/

namespace ReplayVector.Inflate

/-! ## Bits -/

/-- The input that is left: the bits of a byte already begun, and the bytes after it. -/
structure Source where
  bits : List Bool
  bytes : Bytes

/-- The bits of a byte, the lowest first. -/
def bitsOf (b : UInt8) : List Bool := (List.range 8).map fun i => b.toNat.testBit i

/-- How decompression stops before its end. -/
inductive Stop where
  /-- The input ended; this is the output so far. -/
  | short (output : Array UInt8)
  | corrupt

/-- The next bit. -/
def Source.bit? (s : Source) : Option (Bool × Source) :=
  match s.bits, s.bytes with
  | b :: bits, bytes => some (b, ⟨bits, bytes⟩)
  | [], [] => none
  | [], b :: bytes =>
    match bitsOf b with
    | [] => none
    | b :: bits => some (b, ⟨bits, bytes⟩)

/-- The number in the next `n` bits, the lowest first. -/
def Source.number? : Nat → Source → Option (Nat × Source)
  | 0, s => some (0, s)
  | n + 1, s => do
    let (b, s) ← s.bit?
    let (rest, s) ← s.number? n
    return (b.toNat + 2 * rest, s)

/-- How many bits are left. -/
def Source.size (s : Source) : Nat := s.bits.length + 8 * s.bytes.length

/-- Reads a number of bits, or stops with the output so far. -/
def number (out : Array UInt8) (n : Nat) (s : Source) : Except Stop (Nat × Source) :=
  match s.number? n with
  | some r => .ok r
  | none => .error (.short out)

/-! ## Prefix codes -/

/-- A prefix code in which shorter words come first and words of one length are consecutive:
how many words there are of each length from one on, and the symbols in the order of their
words. -/
structure Code where
  counts : List Nat
  symbols : Array Nat

/-- The longest word of a code. -/
def maxLength : Nat := 15

/-- The code in which each symbol has a word of the given length, zero for none. A code of more
than one word has to use up all words. -/
def Code.ofLengths? (lengths : List Nat) : Option Code :=
  let counts := (List.range maxLength).map fun i => lengths.count (i + 1)
  let symbols := (List.range maxLength).flatMap fun i =>
    (lengths.zipIdx.filter (·.1 == i + 1)).map (·.2)
  if symbols.length > 1 ∧ kraft counts ≠ 2 ^ maxLength then none
  else some ⟨counts, symbols.toArray⟩
where
  /-- The share of all words of the greatest length that begin with a word of the code. -/
  kraft (counts : List Nat) : Nat :=
    (counts.zipIdx.map fun (n, i) => n * 2 ^ (maxLength - 1 - i)).sum

/-- Reads a word of the code bit by bit. -/
def symbolFrom (code : Code) (out : Array UInt8) :
    List Nat → (word first index : Nat) → Source → Except Stop (Nat × Source)
  | [], _, _, _, _ => .error .corrupt
  | n :: counts, word, first, index, s => do
    let (b, s) ← number out 1 s
    let word := 2 * word + b
    if word < first + n then
      match code.symbols[index + (word - first)]? with
      | some symbol => .ok (symbol, s)
      | none => .error .corrupt
    else symbolFrom code out counts word (2 * (first + n)) (index + n) s

/-- Reads a symbol. -/
def symbol (code : Code) (out : Array UInt8) (s : Source) : Except Stop (Nat × Source) :=
  symbolFrom code out code.counts 0 0 0 s

/-! ## Blocks -/

/-- The least length or distance of each symbol, and how many bits are added to it. -/
def ranges (groups : List (Nat × Nat)) (first : Nat) : Array (Nat × Nat) :=
  (groups.foldl (fun (acc : List (Nat × Nat) × Nat) (n, extra) =>
    (List.replicate n extra).foldl (fun (acc, base) extra => (acc ++ [(base, extra)], base + 2 ^ extra))
      acc) ([], first)).1.toArray

/-- Lengths of copies, by symbol less 257; the last one has a symbol of its own. -/
def lengthRanges : Array (Nat × Nat) :=
  (ranges [(8, 0), (4, 1), (4, 2), (4, 3), (4, 4), (4, 5)] 3).push (258, 0)

/-- Distances of copies, by symbol. -/
def distanceRanges : Array (Nat × Nat) :=
  ranges ((4, 0) :: (List.range 13).map fun i => (2, i + 1)) 1

/-- Repeats earlier output byte by byte. -/
def copy (distance : Nat) : Nat → Array UInt8 → Array UInt8
  | 0, out => out
  | n + 1, out => copy distance n (out.push (out[out.size - distance]?.getD 0))

/-- Reads a number from the range of a symbol. -/
def ranged (table : Array (Nat × Nat)) (symbol : Nat) (out : Array UInt8) (s : Source) :
    Except Stop (Nat × Source) := do
  match table[symbol]? with
  | none => .error .corrupt
  | some (base, extra) =>
    let (n, s) ← number out extra s
    return (base + n, s)

/-- Reads literals and copies to the end of a block. -/
def compressed (literals distances : Code) :
    (fuel : Nat) → Array UInt8 → Source → Except Stop (Array UInt8 × Source)
  | 0, _, _ => .error .corrupt
  | fuel + 1, out, s => do
    let (sym, s) ← symbol literals out s
    if sym < 256 then compressed literals distances fuel (out.push sym.toUInt8) s
    else if sym = 256 then return (out, s)
    else
      let (length, s) ← ranged lengthRanges (sym - 257) out s
      let (sym, s) ← symbol distances out s
      let (distance, s) ← ranged distanceRanges sym out s
      if distance > out.size then .error .corrupt
      else compressed literals distances fuel (copy distance length out) s

/-- Reads the lengths of the words of two codes, which are themselves written in a code. -/
def lengths (code : Code) (out : Array UInt8) (total : Nat) :
    (fuel : Nat) → Array Nat → Source → Except Stop (Array Nat × Source)
  | 0, _, _ => .error .corrupt
  | fuel + 1, found, s => do
    if found.size = total then return (found, s)
    else if found.size > total then .error .corrupt
    else
      let (sym, s) ← symbol code out s
      if sym < 16 then lengths code out total fuel (found.push sym) s
      else
        let (base, extra) := if sym = 16 then (3, 2) else if sym = 17 then (3, 3) else (11, 7)
        let (n, s) ← number out extra s
        match if sym = 16 then found.back? else some 0 with
        | none => .error .corrupt
        | some length =>
          lengths code out total fuel (found ++ Array.replicate (base + n) length) s

/-- The order in which the lengths of the words for lengths are written. -/
def lengthOrder : List Nat := [16, 17, 18, 0, 8, 7, 9, 6, 10, 5, 11, 4, 12, 3, 13, 2, 14, 1, 15]

/-- Reads a number of three-bit numbers. -/
def triples (out : Array UInt8) : Nat → Source → Except Stop (List Nat × Source)
  | 0, s => .ok ([], s)
  | n + 1, s => do
    let (x, s) ← number out 3 s
    let (xs, s) ← triples out n s
    return (x :: xs, s)

/-- A code of the given lengths, or the end of decompression. -/
def codeOf (lengths : List Nat) : Except Stop Code :=
  match Code.ofLengths? lengths with
  | some code => .ok code
  | none => .error .corrupt

/-- Reads the two codes that stand before a block. -/
def ownCodes (out : Array UInt8) (s : Source) : Except Stop (Code × Code × Source) := do
  let (literalCount, s) ← number out 5 s
  let (distanceCount, s) ← number out 5 s
  let (lengthCount, s) ← number out 4 s
  let (given, s) ← triples out (lengthCount + 4) s
  let byOrder := lengthOrder.zip given
  let code ← codeOf ((List.range 19).map fun i => (byOrder.lookup i).getD 0)
  let total := literalCount + 257 + (distanceCount + 1)
  if literalCount > 29 ∨ distanceCount > 29 then .error .corrupt
  else
    let (found, s) ← lengths code out total (total + 1) #[] s
    let found := found.toList
    return (← codeOf (found.take (literalCount + 257)), ← codeOf (found.drop (literalCount + 257)), s)

/-- The lengths of the words of the fixed codes. -/
def fixedLengths : List Nat × List Nat :=
  (List.replicate 144 8 ++ List.replicate 112 9 ++ List.replicate 24 7 ++ List.replicate 8 8,
    List.replicate 32 5)

/-- Reads a stored block: its length twice, the second time inverted, and its bytes. -/
def stored (out : Array UInt8) (bytes : Bytes) : Except Stop (Array UInt8 × Bytes) :=
  match bytes with
  | l0 :: l1 :: n0 :: n1 :: rest =>
    if Bytes.toNatLE [l0, l1] + Bytes.toNatLE [n0, n1] ≠ 0xffff then .error .corrupt
    else
      match Bytes.take? (Bytes.toNatLE [l0, l1]) rest with
      | some (data, rest) => .ok (out ++ data.toArray, rest)
      | none => .error (.short (out ++ rest.toArray))
  | _ => .error (.short out)

/-- Reads blocks up to the last one. -/
def blocks : (fuel : Nat) → Array UInt8 → Source → Except Stop (Array UInt8 × Bytes)
  | 0, _, _ => .error .corrupt
  | fuel + 1, out, s => do
    let (last, s) ← number out 1 s
    let (kind, s) ← number out 2 s
    let (out, s) ←
      if kind = 0 then do
        let (out, bytes) ← stored out s.bytes
        pure (out, (⟨[], bytes⟩ : Source))
      else if kind = 1 then do
        compressed (← codeOf fixedLengths.1) (← codeOf fixedLengths.2) (s.size + 1) out s
      else if kind = 2 then do
        let (literals, distances, s) ← ownCodes out s
        compressed literals distances (s.size + 1) out s
      else .error .corrupt
    if last = 1 then return (out, s.bytes) else blocks fuel out s

/-- Decompresses what a byte string begins with; the rest follows it. -/
def run (bytes : Bytes) : Except Stop (Array UInt8 × Bytes) :=
  blocks (8 * bytes.length + 1) #[] ⟨[], bytes⟩

end ReplayVector.Inflate
