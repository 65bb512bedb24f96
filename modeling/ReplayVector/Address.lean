import ReplayVector.Bytes.Varint
import ReplayVector.Hash.Blake2
import ReplayVector.Text.BaseEncoding
import ReplayVector.Text.Fields

/-!
# Addresses of actors

An actor is named by its ID, by a hash of its public key or creation, by a public key, or by a
name that another actor manages for it. An address has a byte form and a text form; the text ends
in a checksum, except for IDs, and begins with a letter for the network, which carries no meaning
here: a text is read as one of the main network and then as one of the test network, and the main
network's letter is written.
-/

namespace ReplayVector

/-- The number of an actor. -/
abbrev ActorId := UInt64

/-- The name of an actor. -/
inductive Address where
  | id (id : ActorId)
  /-- The hash of a secp256k1 public key. -/
  | secp256k1 (hash : Bytes.Sized 20)
  /-- The hash of an actor's creation. -/
  | actor (hash : Bytes.Sized 20)
  /-- A BLS public key. -/
  | bls (key : Bytes.Sized 48)
  /-- A name given out by the actor that manages the namespace. -/
  | delegated (namespaceId : ActorId) (subaddress : Bytes.UpTo 54)
  deriving DecidableEq

namespace Address

instance : Inhabited Address := ⟨.id 0⟩

/-- The number that distinguishes the kinds of address. -/
def protocol : Address → Nat
  | id _ => 0
  | secp256k1 _ => 1
  | actor _ => 2
  | bls _ => 3
  | delegated _ _ => 4

/-- The ID, if the address is one. -/
def id? : Address → Option ActorId
  | id i => some i
  | _ => none

/-- The address of a secp256k1 public key. -/
def ofPublicKey (key : Bytes) : Address := secp256k1 (Bytes.resize 20 (Hash.blake2b 20 key))

/-! ## Bytes -/

/-- The bytes after the protocol number. -/
def payload : Address → Bytes
  | id i => Varint.encode i.toNat
  | secp256k1 h => h.val
  | actor h => h.val
  | bls k => k.val
  | delegated n s => Varint.encode n.toNat ++ s.val

/-- The protocol number and the payload. -/
def toBytes (a : Address) : Bytes := a.protocol.toUInt8 :: a.payload

/-- Reads the byte form of an address. -/
def ofBytes? : Bytes → Option Address
  | [] => none
  | [_] => none
  | p :: bs =>
    match p.toNat with
    | 0 => (Varint.decodeAll? bs).map id
    | 1 => (Bytes.sized? 20 bs).map secp256k1
    | 2 => (Bytes.sized? 20 bs).map actor
    | 3 => (Bytes.sized? 48 bs).map bls
    | 4 => do
      let (n, rest) ← Varint.decode? bs
      let sub ← Bytes.upTo? 54 rest
      return delegated n sub
    | _ => none

/-! ## Text -/

/-- The checksum that ends the text of an address. -/
def checksum (bytes : Bytes) : Bytes := Hash.blake2b 4 bytes

/-- The base 32 text of the bytes, followed by a checksum of the address. -/
def checked (a : Address) (bytes : Bytes) : List Char :=
  Text.base32.encode (bytes ++ checksum a.toBytes)

/-- The text after the network letter. -/
def body : Address → List Char
  | id i => '0' :: (Nat.repr i.toNat).toList
  | a@(delegated n s) => '4' :: (Nat.repr n.toNat).toList ++ 'f' :: checked a s.val
  | a => (Nat.repr a.protocol).toList ++ checked a a.payload

/-- The text of an address, with the main network's letter. -/
def toString (a : Address) : String := String.ofList ('f' :: a.body)

instance : ToString Address := ⟨toString⟩

/-- What is wrong with the text of an address. -/
inductive Defect where
  | length
  | network
  | protocol
  | payload
  | payloadLength (n : Nat)
  | encoding
  | checksum
  deriving DecidableEq, Repr

/-- The wording of a defect. -/
def Defect.message : Defect → String
  | length => "Invalid address length"
  | network => "Unknown address network"
  | protocol => "Unknown address protocol"
  | payload => "Invalid address payload"
  | payloadLength n => "Invalid payload length: " ++ Nat.repr n
  | encoding => "Decoding for address failed"
  | checksum => "Invalid address checksum"

/-- Reads a decimal number below `2 ^ 64`; zeros and one plus sign may lead. -/
def readId (cs : List Char) : Except Defect ActorId :=
  match Text.decimal? (2 ^ 64) cs with
  | some n => .ok n.toUInt64
  | none => .error .payload

/-- Reads a decimal number written in at most twenty characters. -/
def readShortId (cs : List Char) : Except Defect ActorId :=
  if (String.ofList cs).utf8ByteSize > 20 then .error .length else readId cs

/-- Reads base 32 text and checks the checksum at its end, which also covers `head`. -/
def readChecked (head : Bytes) (cs : List Char) : Except Defect Bytes :=
  match Text.base32.decode cs with
  | none => .error .encoding
  | some bytes =>
    if bytes.length < 4 then .error .length
    else
      let data := bytes.take (bytes.length - 4)
      if checksum (head ++ data) = bytes.drop (bytes.length - 4) then .ok data
      else .error .checksum

/-- Reads the payload of a hash or key of `n` bytes. -/
def readSized (n : Nat) (make : Bytes.Sized n → Address) (protocol : UInt8) (cs : List Char) :
    Except Defect Address := do
  let data ← readChecked [protocol] cs
  match Bytes.sized? n data with
  | some data => .ok (make data)
  | none => .error .payload

/-- Reads a namespace, the letter that ends it, and a name inside it. -/
def readDelegated (cs : List Char) : Except Defect Address :=
  match cs.dropWhile (· != 'f') with
  | [] => .error .payload
  | _ :: rest => do
    let n ← readShortId (cs.takeWhile (· != 'f'))
    let sub ← readChecked (4 :: Varint.encode n.toNat) rest
    match Bytes.upTo? 54 sub with
    | some sub => .ok (delegated n sub)
    | none => .error (.payloadLength sub.length)

/-- Reads the text after the network letter. -/
def readBody : List Char → Except Defect Address
  | '0' :: cs => (readShortId cs).map id
  | '1' :: cs => readSized 20 secp256k1 1 cs
  | '2' :: cs => readSized 20 actor 2 cs
  | '3' :: cs => readSized 48 bls 3 cs
  | '4' :: cs => readDelegated cs
  | _ => .error .protocol

/-- The networks whose addresses are read. -/
inductive Network where
  | main
  | test
  deriving DecidableEq

/-- The network with the given letter. -/
def Network.ofLetter? : Char → Option Network
  | 'f' => some main
  | 't' => some test
  | _ => none

/-- Reads the text of an address, and says which network it is of. -/
def readText (s : String) : Except Defect (Network × Address) :=
  if s.utf8ByteSize < 3 ∨ s.utf8ByteSize > 138 then .error .length
  else match s.toList with
    | [] => .error .network
    | letter :: cs =>
      match Network.ofLetter? letter with
      | none => .error .network
      | some network => (readBody cs).map fun a => (network, a)

/-- Reads the text of an address of one network. The networks are compared last. -/
def readIn (network : Network) (s : String) : Except Defect Address := do
  let (found, a) ← readText s
  if found = network then .ok a else .error .network

/-- Reads the text of an address of the main network or else of the test network; if it is of
neither, it is said why it is not of the latter. -/
def ofString (s : String) : Except Defect Address :=
  match readIn .main s with
  | .ok a => .ok a
  | .error _ => readIn .test s

end Address

end ReplayVector
