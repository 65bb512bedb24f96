import ReplayVector.Endpoint.Multiaddr
import ReplayVector.Endpoint.Url
import ReplayVector.Failure

/-!
# Endpoints

An endpoint says where a node is and what to show there: a multiaddress that a URL can express,
and a token if the node asks for one. As text the token stands before the address, with a colon
between them.
-/

namespace ReplayVector

namespace Multiaddr

/-- The scheme of a layer. -/
def scheme? : Layer → Option Scheme
  | .http => some .http
  | .https => some .https
  | .ws path => if path = "/" then some .ws else none
  | .wss path => if path = "/" then some .wss else none
  | _ => none

/-- The URL of a service, on a port if one is named, at a host. What stands where the name of a
host belongs is read as a part of the URL. -/
def urlAt? (scheme : Scheme) (port : Option UInt16) : Layer → Option Url
  | .ip4 a => some (Url.root scheme (.ipv4 a) port)
  | .ip6 a => some (Url.root scheme (.ipv6 a) port)
  | .dns _ name =>
    Url.ofChars? scheme (name.toList ++ port.elim [] fun p => ':' :: (Nat.repr p.toNat).toList)
  | _ => none

/-- The URL that a multiaddress expresses: of a host, perhaps a port, and a scheme. -/
def url? (a : Multiaddr) : Option Url :=
  match a.layers with
  | [host, .tcp port, last] => (scheme? last).bind fun s => urlAt? s (some port) host
  | [host, last] => (scheme? last).bind fun s => urlAt? s none host
  | _ => none

end Multiaddr

/-- Where a node is, and the token to show there. -/
structure Endpoint where
  address : Multiaddr
  url : Url
  token : Option String := none
  deriving DecidableEq

namespace Endpoint

/-- The text of an endpoint. -/
def toString (e : Endpoint) : String :=
  String.ofList ((e.token.elim [] fun t => t.toList ++ [':']) ++ e.address.toChars)

instance : ToString Endpoint := ⟨toString⟩

/-- Reads an address, and a token before the first colon if there is one. -/
def ofString (s : String) : Except Failure Endpoint :=
  let (token, host) := match Text.cut? ':' s.toList with
    | some (token, host) => (some (String.ofList token), host)
    | none => (none, s.toList)
  match Multiaddr.ofChars? host with
  | none => .error (.of (.badMultiaddr (String.ofList host)))
  | some address =>
    match address.url? with
    | none => .error (.of .noUrl)
    | some url => .ok { address, url, token }

/-- Where a node is if nothing says so. -/
def default : String := "/ip4/127.0.0.1/tcp/1234/http"

/-- The endpoint that the bytes of an environment variable name, or the usual one if it is not
set. -/
def ofVariable (value : Option Bytes) : Except Failure Endpoint :=
  match value with
  | none => ofString default
  | some bytes =>
    match Bytes.toString? bytes with
    | none => .error .unworded
    | some text => withContext .badApiVariable (ofString text)

end Endpoint

end ReplayVector
