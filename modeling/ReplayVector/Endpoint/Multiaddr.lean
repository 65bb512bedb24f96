import ReplayVector.Endpoint.Ip
import ReplayVector.Hash.Multihash
import ReplayVector.Text.Multibase
import ReplayVector.Text.Percent

/-!
# Addresses in layers

A multiaddress names the layers of protocols that lead to a service, from the network up. Its text
is a slash before each layer's name, and another before its argument if the protocol takes one.
Layers that this library has no use for are checked as strictly as the others and kept as written.
-/

namespace ReplayVector

/-- Which addresses a domain name is looked up for. -/
inductive DnsKind where
  | any
  | v4
  | v6
  /-- The name stands for a whole multiaddress. -/
  | addr
  deriving DecidableEq, Repr

namespace DnsKind

/-- All kinds. -/
def all : List DnsKind := [any, v4, v6, addr]

/-- The name of the protocol. -/
def name : DnsKind → String
  | any => "dns"
  | v4 => "dns4"
  | v6 => "dns6"
  | addr => "dnsaddr"

end DnsKind

/-- One layer of an address. -/
inductive Layer where
  | ip4 (address : Ipv4)
  | ip6 (address : Ipv6)
  | dns (kind : DnsKind) (name : String)
  | tcp (port : UInt16)
  | http
  | https
  /-- A WebSocket at a path. -/
  | ws (path : String)
  /-- A WebSocket over TLS at a path. -/
  | wss (path : String)
  /-- Another protocol and its argument, as they were written. -/
  | other (name : String) (argument : Option String)
  deriving DecidableEq

/-- The layers that lead to a service, from the network up. -/
structure Multiaddr where
  layers : List Layer
  deriving DecidableEq

namespace Layer

/-! ## Arguments of protocols without a layer of their own -/

/-- The multihash that a byte string is, with nothing after it. -/
def multihash? (bs : Bytes) : Option Multihash :=
  match Multihash.ofBytes? bs with
  | some (h, []) => some h
  | _ => none

/-- The name of a peer: in base 58 a SHA-256 digest, or a key of at most 42 bytes itself. -/
def isPeer (cs : List Char) : Bool :=
  match (Text.decodeDigits Text.base58Symbols cs).bind multihash? with
  | some h =>
    h.code == Multihash.sha256Code ||
      (h.code == Multihash.identityCode && h.digest.val.length ≤ 42)
  | none => false

/-- The digest of a certificate. -/
def isCertificate (cs : List Char) : Bool :=
  ((Text.Multibase.decode (String.ofList cs)).bind multihash?).isSome

/-- A number below a limit. -/
def isNumber (limit : Nat) (cs : List Char) : Bool := (Text.decimal? limit cs).isSome

/-- A text whose percent-encoded bytes are UTF-8. -/
def percentText? (cs : List Char) : Option String :=
  Bytes.toString? (Text.percentDecode (Bytes.ofString (String.ofList cs)))

/-- The capital form of a letter, where that is ASCII. -/
def capital (c : Char) : List Char :=
  match c with
  | 'ı' => ['I']
  | 'ſ' => ['S']
  | 'ß' => ['S', 'S']
  | 'ﬀ' => ['F', 'F']
  | 'ﬁ' => ['F', 'I']
  | 'ﬂ' => ['F', 'L']
  | 'ﬃ' => ['F', 'F', 'I']
  | 'ﬄ' => ['F', 'F', 'L']
  | 'ﬅ' => ['S', 'T']
  | 'ﬆ' => ['S', 'T']
  | c => [c.toUpper]

/-- The name of a hidden service, of the given number of base 32 letters of either case, and a
port. -/
def isOnion (letters : Nat) (cs : List Char) : Bool :=
  match Text.fields ':' (cs.flatMap capital) with
  | [name, port] =>
    (String.ofList name).utf8ByteSize == letters && isNumber (2 ^ 16) port &&
      (Text.base32.decode (name.map Char.toLower)).isSome
  | _ => false

/-- A destination in base 64, with minus and tilde for the symbols that are not alphanumeric. -/
def isDestination (cs : List Char) : Bool :=
  let symbols := cs.map fun c => if c = '-' then '+' else if c = '~' then '/' else c
  (Text.BitAlphabet.decode { bits := 6, symbols := Text.base64Symbols } symbols).isSome

/-- The protocols that take no argument and have no layer of their own. -/
def bareNames : List String :=
  ["tls", "udt", "utp", "quic", "quic-v1", "webtransport", "p2p-websocket-star", "p2p-stardust",
   "p2p-webrtc-star", "webrtc-direct", "webrtc", "p2p-webrtc-direct", "p2p-circuit", "noise"]

/-- The protocols that take an argument and have no layer of their own, and what they take. -/
def otherNames : List (String × (List Char → Bool)) :=
  [("udp", isNumber (2 ^ 16)), ("dccp", isNumber (2 ^ 16)), ("sctp", isNumber (2 ^ 16)),
   ("ipcidr", isNumber (2 ^ 8)), ("memory", isNumber (2 ^ 64)),
   ("ip6zone", fun _ => true), ("unix", fun _ => true), ("sni", fun _ => true),
   ("http-path", fun cs => (percentText? cs).isSome),
   ("p2p", isPeer), ("certhash", isCertificate), ("onion", isOnion 16), ("onion3", isOnion 56),
   ("garlic64", isDestination), ("garlic32", fun cs => (Text.base32.decode cs).isSome)]

/-! ## Text -/

/-- The layer of a protocol that takes no argument. -/
def bare? (name : List Char) : Option Layer :=
  match String.ofList name with
  | "http" => some http
  | "https" => some https
  | "ws" => some (ws "/")
  | "wss" => some (wss "/")
  | name => if name ∈ bareNames then some (other name none) else none

/-- The layer of a protocol with an argument. -/
def withArgument? (name argument : List Char) : Option Layer :=
  match String.ofList name with
  | "ip4" => (Ipv4.ofChars? argument).map ip4
  | "ip6" => (Ipv6.ofChars? argument).map ip6
  | "dns" => some (dns .any (String.ofList argument))
  | "dns4" => some (dns .v4 (String.ofList argument))
  | "dns6" => some (dns .v6 (String.ofList argument))
  | "dnsaddr" => some (dns .addr (String.ofList argument))
  | "tcp" => (Text.decimal? (2 ^ 16) argument).map fun n => tcp n.toUInt16
  | "x-parity-ws" => (percentText? argument).map ws
  | "x-parity-wss" => (percentText? argument).map wss
  | name =>
    (otherNames.lookup name).bind fun accepts =>
      if accepts argument then some (other name (some (String.ofList argument))) else none

/-- The characters that may not stand in one part of a path. -/
def reserved : List Char := " \"#<>?\x60\x7b\x7d/%".toList

/-- The texts of a layer, between slashes. -/
def parts : Layer → List (List Char)
  | ip4 a => ["ip4".toList, a.toChars]
  | ip6 a => ["ip6".toList, a.toChars]
  | dns kind name => [kind.name.toList, name.toList]
  | tcp port => ["tcp".toList, (Nat.repr port.toNat).toList]
  | http => ["http".toList]
  | https => ["https".toList]
  | ws path =>
    if path = "/" then ["ws".toList]
    else ["x-parity-ws".toList, Text.percentEncode reserved path.toList]
  | wss path =>
    if path = "/" then ["wss".toList]
    else ["x-parity-wss".toList, Text.percentEncode reserved path.toList]
  | other name none => [name.toList]
  | other name (some argument) => [name.toList, argument.toList]

/-- Reads the layers that a sequence of parts writes. -/
def ofParts? : List (List Char) → Option (List Layer)
  | [] => some []
  | [name] => (bare? name).map ([·])
  | name :: argument :: rest =>
    match bare? name with
    | some layer => (ofParts? (argument :: rest)).map (layer :: ·)
    | none => do
      let layer ← withArgument? name argument
      let layers ← ofParts? rest
      return layer :: layers

end Layer

namespace Multiaddr

/-- The text of an address. -/
def toChars (a : Multiaddr) : List Char :=
  (a.layers.flatMap Layer.parts).flatMap ('/' :: ·)

instance : ToString Multiaddr := ⟨fun a => String.ofList a.toChars⟩

/-- Reads an address: nothing, or parts with a slash before each. -/
def ofChars? (cs : List Char) : Option Multiaddr :=
  match Text.fields '/' cs with
  | [] :: parts => (Layer.ofParts? parts).map (⟨·⟩)
  | _ => none

end Multiaddr

end ReplayVector
