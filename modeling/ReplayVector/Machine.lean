import ReplayVector.Program
import ReplayVector.Rpc.Connection
import ReplayVector.Rpc.WebSocket
import Std.Async.DNS
import Std.Async.Signal
import Std.Async.TCP

/-!
# The machine that the program runs on

The disk, the network and the interrupts of the machine as the program sees them. What fails is
reported as a failure without a wording, because the program says what it was doing. Services over
TLS cannot be reached.
-/

namespace ReplayVector.Machine

open Std.Async

/-- The result of an action, if it succeeds. -/
def attempt (action : IO α) : IO (Option α) := do
  try return some (← action) catch _ => return none

/-- The action succeeds. -/
def succeeds (action : IO Unit) : IO Bool := return (← attempt action).isSome

def toArray (bs : Bytes) : ByteArray := ⟨bs.toArray⟩

/-! ## Files -/

/-- Creates an empty file with a new name in a directory; gives up after some tries. -/
def newFile (directory : Path) : Nat → IO (Option Path)
  | 0 => return none
  | tries + 1 => do
    let name := ".tmp" ++ Bytes.toHex (← IO.getRandomBytes 4).toList
    let path : Path := ⟨directory.parts ++ [name]⟩
    match ← attempt (IO.FS.Handle.mk path.toString .writeNew) with
    | some _ => return some path
    | none => newFile directory tries

/-- The disk. -/
def disk : Disk IO where
  createDirectories p := succeeds (IO.FS.createDirAll p.toString)
  createTemporary p := newFile p 100
  write p bs := succeeds do
    let file ← IO.FS.Handle.mk p.toString .append
    file.write (toArray bs)
    file.flush
  sync _ := return true
  rename p q := succeeds (IO.FS.rename p.toString q.toString)
  remove p := discard (attempt (IO.FS.removeFile p.toString))

/-- Where documents go. -/
def output : Output IO where
  disk
  print bs := succeeds do
    let out ← IO.getStdout
    out.write (toArray bs)
    out.flush

/-! ## Services -/

/-- The addresses of a host on a port. -/
def addresses (port : UInt16) : Host → IO (List Std.Net.SocketAddress)
  | .ipv4 a =>
    return (Std.Net.IPv4Addr.ofString (toString a)).toList.map fun addr => .v4 { addr, port }
  | .ipv6 a =>
    return (Std.Net.IPv6Addr.ofString (toString a)).toList.map fun addr => .v6 { addr, port }
  | .domain name => do
    let found ← (DNS.getAddrInfo name (Nat.repr port.toNat)).block
    return found.toList.map fun
      | .v4 addr => .v4 { addr, port }
      | .v6 addr => .v6 { addr, port }

/-- Connects to the first of some addresses that can be reached. -/
def connectFirst : List Std.Net.SocketAddress → IO (Option TCP.Socket.Client)
  | [] => return none
  | address :: rest => do
    let client ← TCP.Socket.Client.mk
    if ← succeeds (client.connect address).block then return some client
    else connectFirst rest

/-- Connects to a service without TLS. -/
def connect (u : Url) : IO (Option TCP.Socket.Client) := do
  if u.scheme = .https ∨ u.scheme = .wss then return none
  match ← attempt (addresses (u.port.getD u.scheme.defaultPort) u.host) with
  | some found => connectFirst found
  | none => return none

/-- The next bytes from a connection; none at its end. -/
def receive (client : TCP.Socket.Client) : IO (Option Bytes) := do
  match ← attempt (client.recv? 65536).block with
  | some (some bytes) => return some bytes.toList
  | _ => return none

/-- All bytes from a connection up to its end, the latest parts first. -/
partial def receiveAll (client : TCP.Socket.Client) (parts : List Bytes) : IO (List Bytes) := do
  match ← receive client with
  | some part => receiveAll client (part :: parts)
  | none => return parts

/-- Sends bytes over a connection. -/
def send (client : TCP.Socket.Client) (bs : Bytes) : IO Bool :=
  succeeds (client.send (toArray bs)).block

/-- The text of a result, or a failure without a wording. -/
def orFailure (result : Option String) : Except Failure String :=
  match result with
  | some text => .ok text
  | none => .error .unworded

/-- A connection that makes each call by a request of its own. -/
def requests (s : Service) : Connection IO where
  call method parameters := do
    match ← connect s.url with
    | none => return .error .unworded
    | some client =>
      if ← send client (Rpc.Http.post s (Rpc.callMessage 0 method parameters)) then
        let parts ← receiveAll client []
        return orFailure ((Rpc.Http.readResponse? parts.reverse.flatten).bind Rpc.resultOf?)
      else return .error .unworded

/-! ## WebSockets -/

/-- A connection that is open, the bytes from it that have not been looked at, and the number of
the next call. -/
structure Socket where
  client : TCP.Socket.Client
  pending : IO.Ref Bytes
  number : IO.Ref Nat

namespace Socket

/-- Sends a frame under a new mask. -/
def sendFrame (s : Socket) (f : Rpc.WebSocket.Frame) : IO Bool := do
  let mask := Bytes.resize 4 (← IO.getRandomBytes 4).toList
  send s.client (f.encode mask)

/-- The next frame. -/
partial def nextFrame (s : Socket) : IO (Option Rpc.WebSocket.Frame) := do
  match Rpc.WebSocket.Frame.decode (← s.pending.get) with
  | .frame f rest =>
    s.pending.set rest
    return some f
  | .invalid => return none
  | .incomplete =>
    match ← receive s.client with
    | some more =>
      s.pending.modify (· ++ more)
      s.nextFrame
    | none => return none

/-- The next message, of which a part has been received. -/
partial def nextMessage (s : Socket) (received : Bytes) : IO (Option String) := do
  match ← s.nextFrame with
  | none => return none
  | some f =>
    match f.kind with
    | .close => return none
    | .pong => s.nextMessage received
    | .ping =>
      let _ ← s.sendFrame { f with kind := .pong }
      s.nextMessage received
    | _ =>
      let received := received ++ f.payload
      if f.isLast then return Bytes.toString? received else s.nextMessage received

/-- The connection that a socket makes. -/
def connection (s : Socket) : Connection IO where
  call method parameters := do
    let number ← s.number.modifyGet fun n => (n, n + 1)
    let payload := Bytes.ofString (Rpc.callMessage number method parameters)
    if ← s.sendFrame { kind := .text, isLast := true, payload } then
      return orFailure ((← s.nextMessage []).bind Rpc.resultOf?)
    else return .error .unworded

end Socket

/-- Receives the head that opens a socket, and gives the bytes after it. -/
partial def receiveOpening (client : TCP.Socket.Client) (received : Bytes) : IO (Option Bytes) := do
  if (Rpc.Http.cutAt? Rpc.Http.headEnd received).isSome then
    return Rpc.WebSocket.opened? received
  else
    match ← receive client with
    | some more => receiveOpening client (received ++ more)
    | none => return none

/-- Opens a socket to a service. -/
def openSocket (s : Service) : IO (Except Failure (Connection IO)) := do
  match ← connect s.url with
  | none => return .error .unworded
  | some client =>
    let key := (← IO.getRandomBytes 16).toList
    if ← send client (Rpc.WebSocket.opening s key) then
      match ← receiveOpening client [] with
      | some rest =>
        let socket : Socket :=
          { client, pending := ← IO.mkRef rest, number := ← IO.mkRef 0 }
        return .ok socket.connection
      | none => return .error .unworded
    else return .error .unworded

/-- The network. -/
def network : Network IO := { requests, openSocket }

/-! ## Interrupts -/

/-- Tells from now on whether the program has been interrupted. -/
def watchInterrupts : IO (IO Bool) := do
  match ← attempt (do (← Signal.Waiter.mk .sigint false).wait) with
  | some task => return IO.hasFinished task
  | none => return pure false

end ReplayVector.Machine
