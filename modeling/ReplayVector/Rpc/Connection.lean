import ReplayVector.Endpoint
import ReplayVector.Rpc.Method

/-!
# Nodes at the other end of a connection

A connection carries calls to a node: the name of a method and the text of its parameters one way,
the text of a result the other way. A node is reached at an endpoint: over HTTP each call goes its
own way, while a WebSocket has to be opened first. There a call travels as an object that names the
method and a number for the call, and the answer as an object with the result or an error.
-/

namespace ReplayVector

/-- A way to have methods called, with the effects of a monad. -/
structure Connection (m : Type → Type) where
  /-- Calls a method with the text of its parameters, and gives the text of the result. -/
  call : (method parameters : String) → m (Except Failure String)

/-- The answer that the text of a result stands for. -/
def Question.readResult (q : Question α) (result : Except Failure String) : Except Failure α :=
  withContext (.callFailed q.method) do
    match q.resultForm.parse (← result) with
    | .ok a => .ok a
    | .error refusal => .error (.of (.refused refusal))

/-- The node at the other end of a connection. -/
def Connection.node [Monad m] (c : Connection m) : Node m where
  ask q := do return q.readResult (← c.call q.method q.parameterText)

/-- Where the calls to a node go, and the header that shows a token there. -/
structure Service where
  url : Url
  authorization : Option String
  deriving DecidableEq

/-- The path of the interface below the root of a service. -/
def Service.path : List String := ["rpc", "v0"]

/-- Headers hold no control characters except for tabs. -/
def Service.isHeader (s : String) : Bool :=
  s.toList.all fun c => c = '\t' || (c.toNat ≥ 0x20 && c.toNat ≠ 0x7f)

/-- The service at an endpoint. -/
def Endpoint.service (e : Endpoint) : Except Failure Service :=
  let url := e.url.withPath Service.path
  match e.token with
  | none => .ok { url, authorization := none }
  | some token =>
    let header := "Bearer " ++ token
    if Service.isHeader header then .ok { url, authorization := some header }
    else .error (.of .badToken)

/-- How services are reached, with the effects of a monad. -/
structure Network (m : Type → Type) where
  /-- A connection that makes each call by itself. -/
  requests : Service → Connection m
  /-- Opens a connection that stays open. -/
  openSocket : Service → m (Except Failure (Connection m))

/-- A network in which nothing can be reached. -/
def Network.unreachable [Monad m] : Network m where
  requests _ := { call := fun _ _ => return .error .unworded }
  openSocket _ := return .error .unworded

/-- Connects to the node at an endpoint. -/
def Network.connect [Monad m] (network : Network m) (e : Endpoint) :
    m (Except Failure (Connection m)) := do
  match e.service with
  | .error f => return .error f
  | .ok service =>
    if service.url.scheme.isWebSocket then
      return withContext (.connecting (toString service.url)) (← network.openSocket service)
    else return .ok (network.requests service)

/-! ## Calls and results as messages -/

namespace Rpc

/-- The message of a call. -/
def callMessage (number : Nat) (method parameters : String) : String :=
  let front := Json.record [
    ("jsonrpc", .ofString "2.0"), ("id", .ofNat number), ("method", .ofString method)]
  String.ofList front.compactChars.dropLast ++ ",\"params\":" ++ parameters ++ "\x7d"

/-- The text of the result in the message of an answer; `none` if there is no result. -/
def resultOf? (message : String) : Option String :=
  match Json.read message with
  | (.object members, some []) =>
    (members.lookup (some "result")).bind fun j =>
      if j.wellFormed then some j.compact else none
  | _ => none

end Rpc

end ReplayVector
