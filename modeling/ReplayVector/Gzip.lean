import ReplayVector.Gzip.Inflate

/-!
# Compressed byte strings

A compressed byte string is a sequence of members. Each has a header, compressed data, a checksum
of the data and its length. `Gzip.pack` writes one member and stores the data as it is;
`Gzip.unpack` reads members up to the end of the string.
-/

/-! ## The checksum: the cyclic redundancy check of 32 bits, bit by bit -/

namespace ReplayVector.Checksum

/-- Divides by the polynomial for one bit. -/
def step (r : UInt32) : UInt32 := if r &&& 1 = 1 then (r >>> 1) ^^^ 0xedb88320 else r >>> 1

/-- Takes in one byte. -/
def addByte (r : UInt32) (b : UInt8) : UInt32 := Nat.repeat step 8 (r ^^^ b.toUInt32)

/-- The checksum of a byte string. -/
def crc32 (bs : Bytes) : UInt32 := bs.foldl addByte 0xffffffff ^^^ 0xffffffff

end ReplayVector.Checksum

namespace ReplayVector.Gzip

/-- The two bytes every member begins with. -/
def magic : Bytes := [0x1f, 0x8b]

/-- The string is a compressed one. -/
def isPacked (bs : Bytes) : Bool := magic.isPrefixOf bs

/-! ## Writing -/

/-- The header of a member that names nothing. -/
def header : Bytes := magic ++ [8, 0, 0, 0, 0, 0, 0, 0xff]

/-- The most bytes that a stored block takes. -/
def storedLimit : Nat := 0xffff

/-- The stored block of some bytes. -/
def storedBlock (last : Bool) (data : Bytes) : Bytes :=
  (if last then 1 else 0) :: Bytes.ofNatLE 2 data.length ++
    Bytes.ofNatLE 2 (0xffff - data.length) ++ data

/-- The stored blocks of some bytes; the last one is marked. -/
def storedBlocks (data : Bytes) : Bytes :=
  if _h : data.length ≤ storedLimit then storedBlock true data
  else storedBlock false (data.take storedLimit) ++ storedBlocks (data.drop storedLimit)
termination_by data.length
decreasing_by
  simp only [storedLimit, List.length_drop] at *
  omega

/-- The checksum and the length of some bytes. -/
def trailer (data : Bytes) : Bytes :=
  Bytes.ofNatLE 4 (Checksum.crc32 data).toNat ++ Bytes.ofNatLE 4 data.length

/-- One member that holds some bytes. -/
def pack (data : Bytes) : Bytes := header ++ storedBlocks data ++ trailer data

/-! ## Reading -/

/-- The bytes after the zero that ends a name or comment. -/
def skipText? : Bytes → Option Bytes
  | [] => none
  | b :: bs => if b = 0 then some bs else skipText? bs

/-- The bytes after a field that begins with its length. -/
def skipExtra? (bs : Bytes) : Option Bytes := do
  let (size, bs) ← Bytes.take? 2 bs
  let (_, rest) ← Bytes.take? (Bytes.toNatLE size) bs
  return rest

/-- Skips a part of a header that a flag announces. -/
def skipIf (flags : UInt8) (mask : UInt8) (skip : Bytes → Option Bytes) (bs : Bytes) :
    Option Bytes :=
  if flags &&& mask = 0 then some bs else skip bs

/-- The bytes after the header of a member. -/
def afterHeader? (bs : Bytes) : Option Bytes := do
  let (front, bs) ← Bytes.take? 10 bs
  match front with
  | 0x1f :: 0x8b :: 8 :: flags :: _ =>
    let bs ← skipIf flags 4 skipExtra? bs
    let bs ← skipIf flags 8 skipText? bs
    let bs ← skipIf flags 16 skipText? bs
    skipIf flags 2 (fun bs => (Bytes.take? 2 bs).map (·.2)) bs
  | _ => none

/-- What comes out of a compressed byte string: the bytes up to its first fault, and whether it
is without fault. -/
structure Unpacked where
  data : Bytes
  sound : Bool

/-- Reads members, at most `fuel` of them. -/
def members : (fuel : Nat) → Bytes → Unpacked
  | 0, _ => ⟨[], false⟩
  | fuel + 1, bs =>
    match afterHeader? bs with
    | none => ⟨[], false⟩
    | some bs =>
      match Inflate.run bs with
      | .error (.short out) => ⟨out.toList, false⟩
      | .error .corrupt => ⟨[], false⟩
      | .ok (out, bs) =>
        let data := out.toList
        match Bytes.take? 8 bs with
        | none => ⟨data, false⟩
        | some (ending, rest) =>
          if ending ≠ trailer data then ⟨data, false⟩
          else if rest.isEmpty then ⟨data, true⟩
          else
            let more := members fuel rest
            ⟨data ++ more.data, more.sound⟩

/-- Reads the members of a compressed byte string. -/
def unpack (bs : Bytes) : Unpacked := members bs.length bs

end ReplayVector.Gzip
