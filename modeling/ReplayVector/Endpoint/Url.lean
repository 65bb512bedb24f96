import ReplayVector.Endpoint.Domain
import ReplayVector.Endpoint.Ip
import ReplayVector.Text.Percent

/-!
# Locations of services

A URL has a scheme, a host and a port, and may name a user, a path, a query and a fragment. Reading
is as lenient as that of browsers: backslashes stand for slashes, tabs and line ends do not count,
user, path, query and fragment are encoded where needed, hosts are written in their ASCII form,
and a host whose last part is a number is an internet address in one of its many spellings.
-/

namespace ReplayVector

/-- How a service is reached. -/
inductive Scheme where
  | http
  | https
  /-- A WebSocket. -/
  | ws
  /-- A WebSocket over TLS. -/
  | wss
  deriving DecidableEq, Repr

namespace Scheme

def name : Scheme → String
  | http => "http"
  | https => "https"
  | ws => "ws"
  | wss => "wss"

/-- The port of a service if none is named. -/
def defaultPort : Scheme → UInt16
  | http | ws => 80
  | https | wss => 443

/-- One connection stays open for all requests. -/
def isWebSocket : Scheme → Bool
  | ws | wss => true
  | http | https => false

end Scheme

/-- The host of a service. -/
inductive Host where
  | ipv4 (address : Ipv4)
  | ipv6 (address : Ipv6)
  /-- A domain name in its ASCII form. -/
  | domain (name : String)
  deriving DecidableEq

namespace Host

/-- The text of a host. -/
def toChars : Host → List Char
  | ipv4 a => a.toChars
  | ipv6 a => '[' :: a.toHexChars ++ [']']
  | domain name => name.toList

/-! ## Numbers as hosts -/

/-- The base that the first characters of a number announce, and its digits. -/
def splitBase : List Char → Nat × List Char
  | '0' :: 'x' :: cs => (16, cs)
  | '0' :: 'X' :: cs => (16, cs)
  | '0' :: c :: cs => (8, c :: cs)
  | cs => (10, cs)

/-- Reads a number in base 8, 10 or 16. -/
def number? (cs : List Char) : Option Nat :=
  if cs = [] then none else
  let (base, digits) := splitBase cs
  (digits.mapM Bytes.hexValue?).bind fun ds =>
    if ds.all (· < base) then some (ds.foldl (fun n d => base * n + d) 0) else none

/-- The parts of a name; a dot may end it. -/
def parts (name : List Char) : List (List Char) :=
  match (Text.fields '.' name).reverse with
  | [] :: p :: ps => (p :: ps).reverse
  | ps => ps.reverse

/-- The last part of a name is a number. -/
def endsInNumber (name : List Char) : Bool :=
  match (parts name).getLast? with
  | none => false
  | some [] => false
  | some last => last.all Char.isDigit || (number? last).isSome

/-- The address that numbers write: each but the last is one byte, and the last is the rest. -/
def ofNumbers? (ns : List Nat) : Option Ipv4 :=
  match ns.reverse with
  | [] => none
  | last :: front =>
    if ns.length ≤ 4 ∧ front.all (· < 256) ∧ last < 256 ^ (5 - ns.length) then
      some (Ipv4.ofNat (front.reverse.foldl (fun n b => 256 * n + b) 0 * 256 ^ (5 - ns.length) + last))
    else none

/-! ## Reading -/

/-- Reads a host: an address in brackets, an address in numbers, or a domain name. -/
def ofChars? (cs : List Char) : Option Host :=
  match cs with
  | '[' :: rest =>
    if rest.getLast? = some ']' then (Ipv6.ofChars? rest.dropLast).map ipv6 else none
  | _ => do
    let text ← Bytes.toString? (Text.percentDecode (Bytes.ofString (String.ofList cs)))
    let name ← Domain.toAscii? text.toList
    if name = [] then none
    else if endsInNumber name then do
      let ns ← (parts name).mapM number?
      return ipv4 (← ofNumbers? ns)
    else return domain (String.ofList name)

end Host

/-- The location of a service. -/
structure Url where
  scheme : Scheme
  username : List Char := []
  password : List Char := []
  host : Host
  /-- The port, unless it is that of the scheme. -/
  port : Option UInt16 := none
  /-- The parts of the path, a slash before each. -/
  path : List (List Char) := [[]]
  query : Option (List Char) := none
  fragment : Option (List Char) := none
  deriving DecidableEq

namespace Url

/-! ## Text -/

/-- The user and the password before a host. -/
def userText (u : Url) : List Char :=
  if u.username = [] ∧ u.password = [] then []
  else u.username ++ (if u.password = [] then [] else ':' :: u.password) ++ ['@']

/-- The text of a URL. -/
def toChars (u : Url) : List Char :=
  u.scheme.name.toList ++ "://".toList ++ u.userText ++ u.host.toChars ++
    (u.port.elim [] fun p => ':' :: (Nat.repr p.toNat).toList) ++
    u.path.flatMap ('/' :: ·) ++
    (u.query.elim [] ('?' :: ·)) ++ (u.fragment.elim [] ('#' :: ·))

instance : ToString Url := ⟨fun u => String.ofList u.toChars⟩

/-- A port as a URL keeps it. -/
def keptPort (scheme : Scheme) (port : UInt16) : Option UInt16 :=
  if port = scheme.defaultPort then none else some port

/-- The root of a service at a host, on a port if one is named. -/
def root (scheme : Scheme) (host : Host) (port : Option UInt16) : Url :=
  { scheme, host, port := port.bind (keptPort scheme) }

/-! ## Reading -/

/-- The characters that are encoded in a fragment. -/
def fragmentSet : List Char := " \"<>\x60".toList
/-- The characters that are encoded in a query. -/
def querySet : List Char := " \"#<>'".toList
/-- The characters that are encoded in a path. -/
def pathSet : List Char := fragmentSet ++ "#?\x7b\x7d".toList
/-- The characters that are encoded in the names of users and in passwords. -/
def userSet : List Char := pathSet ++ "/:;=@[\\]^|".toList

/-- The characters that end a host. -/
def endsAuthority (c : Char) : Bool := c == '/' || c == '\\' || c == '?' || c == '#'

/-- The characters before the first colon that is not in brackets, and those after it if there is
one. -/
def cutPort (inside : Bool) : List Char → List Char × Option (List Char)
  | [] => ([], none)
  | c :: cs =>
    if c = ':' ∧ ¬ inside then ([], some cs)
    else
      let inside := if c = '[' then true else if c = ']' then false else inside
      let (front, port) := cutPort inside cs
      (c :: front, port)

/-- Reads a port: nothing, or a number. -/
def port? (cs : List Char) : Option (Option UInt16) :=
  if cs = [] then some none
  else if cs.all Char.isDigit ∧ Text.digitsValue cs < 65536 then
    some (some (Text.digitsValue cs).toUInt16)
  else none

/-- Cuts a text before its last `@`, if there is one. -/
def cutUser (cs : List Char) : Option (List Char) × List Char :=
  let host := (cs.reverse.takeWhile (· != '@')).reverse
  if host.length = cs.length then (none, cs)
  else (some (cs.take (cs.length - host.length - 1)), host)

/-- A part of a path that names the directory itself. -/
def isDot (part : List Char) : Bool :=
  [".", "%2e"].contains (String.ofList (part.map Char.toLower))

/-- A part of a path that names the directory above. -/
def isDoubleDot (part : List Char) : Bool :=
  ["..", ".%2e", "%2e.", "%2e%2e"].contains (String.ofList (part.map Char.toLower))

/-- The path that parts lead to from the directory `above`, whose parts are given backwards. -/
def resolve (above : List (List Char)) : List (List Char) → List (List Char)
  | [] => above.reverse
  | [part] =>
    if isDoubleDot part then ([] :: above.drop 1).reverse
    else if isDot part then ([] :: above).reverse
    else (part :: above).reverse
  | part :: rest =>
    if isDoubleDot part then resolve (above.drop 1) rest
    else if isDot part then resolve above rest
    else resolve (part :: above) rest

/-- The parts of a path, of which the first character is a slash or backslash if there is one. -/
def readPath (cs : List Char) : List (List Char) :=
  let cs := cs.map fun c => if c = '\\' then '/' else c
  resolve [] ((Text.fields '/' (cs.drop 1)).map (Text.percentEncode pathSet))

/-- Reads what follows `://`. Spaces and controls at the end, tabs and line ends do not count. -/
def ofChars? (scheme : Scheme) (cs : List Char) : Option Url := do
  let cs := (cs.reverse.dropWhile (·.toNat ≤ 0x20)).reverse
  let cs := cs.filter fun c => c ≠ '\t' ∧ c ≠ '\n' ∧ c ≠ '\r'
  let cs := cs.dropWhile fun c => c == '/' || c == '\\'
  let (user, authority) := cutUser (cs.takeWhile (! endsAuthority ·))
  let (host, port) := cutPort false authority
  let host ← Host.ofChars? host
  let port ← (port.elim (some none) port?)
  let (username, password) := match user with
    | none => ([], [])
    | some user => ((Text.cut? ':' user).getD (user, []))
  let rest := cs.dropWhile (! endsAuthority ·)
  let (rest, fragment) := match Text.cut? '#' rest with
    | some (front, back) => (front, some back)
    | none => (rest, none)
  let (path, query) := match Text.cut? '?' rest with
    | some (front, back) => (front, some back)
    | none => (rest, none)
  return {
    root scheme host port with
    username := Text.percentEncode userSet username
    password := Text.percentEncode userSet password
    path := readPath path
    query := query.map (Text.percentEncode querySet)
    fragment := fragment.map (Text.percentEncode fragmentSet) }

/-- The URL with another path. -/
def withPath (u : Url) (path : List String) : Url := { u with path := path.map String.toList }

end Url

end ReplayVector
