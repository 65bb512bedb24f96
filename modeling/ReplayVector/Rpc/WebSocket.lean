import ReplayVector.Rpc.Http
import ReplayVector.Text.BaseEncoding

/-!
# Messages over a WebSocket

The connection is opened by a request that names a key, and carries frames after it. A message is
one frame or several; the frames of a client are combined with a mask. Between the frames of a
message others may ask for a sign of life or announce the end.
-/

namespace ReplayVector.Rpc.WebSocket

/-! ## Opening -/

/-- The request that opens a connection. -/
def opening (s : Service) (key : Bytes) : Bytes :=
  Http.head (Http.headLines "GET" s ++
    ["connection: Upgrade", "upgrade: websocket", "sec-websocket-version: 13",
     s!"sec-websocket-key: {Text.toBase64 key}"])

/-- The bytes after the head of a response that opens a connection. -/
def opened? (bs : Bytes) : Option Bytes := do
  let (front, rest) ← Http.cutAt? Http.headEnd bs
  let h ← Http.Head.ofBytes? front
  if h.status = 101 then some rest else none

/-! ## Frames -/

/-- What a frame is for. -/
inductive Kind where
  /-- The message of the frame before goes on. -/
  | more
  | text
  | binary
  | close
  /-- Asks for a sign of life. -/
  | ping
  /-- Gives a sign of life. -/
  | pong
  deriving DecidableEq, Repr

namespace Kind

/-- The number of a kind. -/
def code : Kind → UInt8
  | more => 0
  | text => 1
  | binary => 2
  | close => 8
  | ping => 9
  | pong => 10

/-- The kind with a number. -/
def ofCode? (n : UInt8) : Option Kind :=
  [more, text, binary, close, ping, pong].find? (·.code == n)

end Kind

/-- A frame. -/
structure Frame where
  kind : Kind
  /-- The message ends with this frame. -/
  isLast : Bool
  payload : Bytes
  deriving DecidableEq

namespace Frame

/-- Combines bytes with a mask, which is used over and over. -/
def combine (mask : Bytes) (bs : Bytes) : Bytes :=
  bs.zipIdx.map fun (b, i) => b ^^^ mask.getD (i % 4) 0

/-- The length of a payload in as few bytes as possible, and the bit that announces a mask. -/
def lengthBytes (n : Nat) : Bytes :=
  if n < 126 then [n.toUInt8 ||| 128]
  else if n < 65536 then (126 ||| 128) :: Bytes.ofNatBE 2 n
  else (127 ||| 128) :: Bytes.ofNatBE 8 n

/-- The bytes of a frame of a client. -/
def encode (mask : Bytes.Sized 4) (f : Frame) : Bytes :=
  (f.kind.code ||| if f.isLast then 128 else 0) :: lengthBytes f.payload.length ++ mask.val ++
    combine mask.val f.payload

/-- Reads the length that a number of bytes gives, or the length itself. -/
def readLength? (n : Nat) (bs : Bytes) : Option (Nat × Bytes) :=
  if n < 126 then some (n, bs)
  else (Bytes.take? (if n = 126 then 2 else 8) bs).map fun (front, rest) =>
    (Bytes.toNatBE front, rest)

/-- What the front of a byte string says about a frame of a server. -/
inductive Decoded where
  | frame (f : Frame) (rest : Bytes)
  /-- The string ends inside the frame. -/
  | incomplete
  /-- No frame of a server begins like this. -/
  | invalid
  deriving DecidableEq

/-- Reads the frame at the front of a byte string. -/
def decode : Bytes → Decoded
  | first :: second :: bs =>
    match Kind.ofCode? (first &&& 15) with
    | none => .invalid
    | some kind =>
      if second ≥ 128 then .invalid
      else
        match (readLength? second.toNat bs).bind fun (n, bs) => Bytes.take? n bs with
        | none => .incomplete
        | some (payload, rest) => .frame { kind, isLast := first ≥ 128, payload } rest
  | _ => .incomplete

end Frame

end ReplayVector.Rpc.WebSocket
