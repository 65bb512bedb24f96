import ReplayVector.Rpc.Connection

/-!
# Messages of HTTP

A request is a head of lines and a body whose length the head gives. A response has a status in its
first line; its body is as long as the head says, comes in chunks that each begin with their
length, or ends where the connection ends.
-/

namespace ReplayVector.Rpc.Http

/-- The end of a line. -/
def lineEnd : Bytes := [13, 10]

/-- Two ends of lines: the end of a head. -/
def headEnd : Bytes := lineEnd ++ lineEnd

/-- The parts of a byte string before and after the first occurrence of a mark. -/
def cutAt? (mark : Bytes) : Bytes → Option (Bytes × Bytes)
  | [] => none
  | bs@(b :: rest) =>
    if mark.isPrefixOf bs then some ([], bs.drop mark.length)
    else (cutAt? mark rest).map fun (front, back) => (b :: front, back)

/-! ## Requests -/

/-- The host of a service, with its port if that is not the usual one. -/
def hostOf (u : Url) : String :=
  String.ofList (u.host.toChars ++ u.port.elim [] fun p => ':' :: (Nat.repr p.toNat).toList)

/-- The path and the query of a URL. -/
def targetOf (u : Url) : String :=
  String.ofList (u.path.flatMap ('/' :: ·) ++ u.query.elim [] ('?' :: ·))

/-- The lines that every request to a service begins with. -/
def headLines (verb : String) (s : Service) : List String :=
  [s!"{verb} {targetOf s.url} HTTP/1.1", s!"host: {hostOf s.url}"] ++
    (s.authorization.elim [] fun text => [s!"authorization: {text}"])

/-- The bytes of a head. -/
def head (lines : List String) : Bytes :=
  lines.flatMap (fun line => Bytes.ofString line ++ lineEnd) ++ lineEnd

/-- The request that posts a message and asks to end the connection after the response. -/
def post (s : Service) (message : String) : Bytes :=
  let body := Bytes.ofString message
  head (headLines "POST" s ++
    ["content-type: application/json", "accept: application/json",
     s!"content-length: {body.length}", "connection: close"]) ++ body

/-! ## Responses -/

/-- The head of a response: its status, and its headers with their names in small letters. -/
structure Head where
  status : Nat
  headers : List (String × String)
  deriving DecidableEq

namespace Head

/-- A line of a head as a name and a value. -/
def readHeader? (line : List Char) : Option (String × String) :=
  (Text.cut? ':' line).map fun (name, value) =>
    ((String.ofList (name.map Char.toLower)), (String.ofList value).trimAscii.toString)

/-- Reads a head. -/
def ofBytes? (bs : Bytes) : Option Head := do
  let text ← Bytes.toString? bs
  match Text.fields '\n' (text.toList.filter (· ≠ '\r')) with
  | [] => none
  | first :: lines =>
    match Text.fields ' ' first with
    | _ :: status :: _ =>
      return { status := ← Text.decimal? 1000 status, headers := lines.filterMap readHeader? }
    | _ => none

/-- The request was carried out. -/
def isSuccess (h : Head) : Bool := 200 ≤ h.status && h.status < 300

end Head

/-- The bytes of at most `fuel` chunks; the last one is empty. -/
def readChunks? : Nat → Bytes → Option Bytes
  | 0, _ => none
  | fuel + 1, bs => do
    let (line, rest) ← cutAt? lineEnd bs
    let digits := (line.map fun b => Char.ofNat b.toNat).takeWhile fun c => (Bytes.hexValue? c).isSome
    let size := digits.foldl (fun n c => 16 * n + (Bytes.hexValue? c).getD 0) 0
    if digits = [] then none
    else if size = 0 then some []
    else
      let (chunk, rest) ← Bytes.take? size rest
      return chunk ++ (← readChunks? fuel (rest.drop lineEnd.length))

/-- The body of a response that has ended. -/
def bodyOf? (h : Head) (rest : Bytes) : Option Bytes :=
  if h.headers.lookup "transfer-encoding" = some "chunked" then readChunks? rest.length rest
  else
    match h.headers.lookup "content-length" with
    | some length =>
      (Text.decimal? (2 ^ 64) length.toList).bind fun n => (Bytes.take? n rest).map (·.1)
    | none => some rest

/-- The text of the body of a successful response. -/
def readResponse? (bs : Bytes) : Option String := do
  let (front, rest) ← cutAt? headEnd bs
  let h ← Head.ofBytes? front
  if h.isSuccess then (bodyOf? h rest).bind Bytes.toString? else none

end ReplayVector.Rpc.Http
