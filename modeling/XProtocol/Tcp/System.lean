import XProtocol.Async.Among
import XProtocol.Tcp.Client
import XProtocol.Tcp.Server
import XProtocol.Wire.Pieces

/-! The TCP client and the TCP server, together.

A task serves each connection that the client opens, and all of them share the handler.
Between the two sides stands a transport that loses nothing, and nothing fails: the client
reads what the task of the connection has written, however it is cut up, and finds the end
of the file only where the task has ended (`faultless`). A task waits until a message has
come in, and then does everything it asks for (`serve`). What becomes of a task whose
connection the client has dropped plays no part: it finds the end of the file, for ever. -/
namespace XProtocol.Tcp
open Async
open Json (Bytes Value Codec)
open Wire

/-- What is asked of the client, and the uuids that the request gets. -/
structure Asked where
  service : String
  method : String
  payload : Value
  requestId : String
  correlationId : String

def Asked.request (a : Asked) : ServiceRequest :=
  .new a.requestId a.correlationId a.service a.method a.payload

structure Joint (σ : Type) where
  client : Client TcpClient
  /-- The handler's state. -/
  handler : σ
  /-- The task of each connection. -/
  session : ConnId → Session σ Unit Unit
  /-- How many of the bytes on a connection its task has read. -/
  seen : ConnId → Nat
  /-- The requests that the handler was called with, and its responses. -/
  answered : List (ServiceRequest × ServiceResponse)

/-- The task has ended. -/
def finished {σ : Type} (s : Session σ Unit Unit) : Bool :=
  match s.phase with
  | .finished _ => true
  | _ => false

namespace Joint
variable {σ : Type}

def conn (j : Joint σ) (c : ConnId) : Conn := j.client.net.conns c

/-- What is on its way to the task. -/
def coming (j : Joint σ) (c : ConnId) : Bytes := (j.conn c).written.drop (j.seen c)

/-- What the task has written. -/
def replied (j : Joint σ) (c : ConnId) : Bytes := encodeAll (j.session c).link.sent

end Joint

section
variable {σ : Type}

/-- Nothing fails, and the client reads what was written. The n-th request gets the uuids of the n-th call. -/
def faultless (calls : List Asked) (j : Joint σ) : NetOp TcpClient.Fields → Choice → Bool
  | .net (.read c _), .arrive got => decide ((j.conn c).taken ++ got <+: j.replied c)
  | .net (.read c _), .fail _ got text =>
    finished (j.session c) && decide ((j.conn c).taken ++ got = j.replied c) && decide (text = "early eof")
  | .net (.read ..), _ => false
  | .net (.newRequest ..), .uuids requestId correlationId =>
    decide ((calls[(j.client.net.created 0).length]?).map (fun a => (a.requestId, a.correlationId)) =
      some (requestId, correlationId))
  | _, .go => true
  | _, _ => false

/-- The client's side. -/
def machine (calls : List Asked) : Machine (NetWith TcpClient.Fields) (Joint σ) Choice where
  perform t o choice j :=
    if faultless calls j o choice then
      (TcpClient.machine.perform t o choice j.client).map fun x => (x.1, { j with client := x.2 })
    else none

variable (S : Codec) (H : ServiceHandler σ)

/-- Where the server runs: nothing fails as it writes. -/
def site : Site σ := { codec := S, handler := H, flush := fun _ => none }

/-- The task of `c` behind the message it reads next, with the handler as it is. -/
def Joint.next (j : Joint σ) (c : ConnId) (r : Read) : Session σ Unit Unit :=
  let s := j.session c
  let link := { s.link with handler := j.handler }
  ({ s with link } : Session σ Unit Unit).step (TcpServer.handleConnection (site S H)) (.inTime r.result)

/-- The task of `c` has done what it was asked for. -/
def Joint.turn (j : Joint σ) (c : ConnId) (r : Read) : Joint σ :=
  let s := j.next S H c r
  let requests := s.link.handled.drop (j.session c).link.handled.length
  let session := Function.update j.session c s
  let seen := Function.update j.seen c ((j.conn c).written.length - r.rest.length)
  { j with
    handler := s.link.handler, session, seen
    answered := j.answered ++ requests.map fun request => (request, (H.handle request j.handler).1) }

/-- The server's side: the task of `c` reads a message. -/
def serve (c : ConnId) (j : Joint σ) : Option (Joint σ) :=
  if c < j.client.net.opened ∧ finished (j.session c) = false then
    match readMessage (j.coming c) with
    | .short => none
    | r => some (j.turn S H c r)
  else none

/-- A client and a server that have not met. -/
def Joint.start (s₀ : σ) : Joint σ where
  client := ⟨.new, .empty⟩
  handler := s₀
  session _ := .accepted s₀ ()
  seen _ := 0
  answered := []

abbrev System (σ α : Type) := Scene (NetWith TcpClient.Fields) (Joint σ) α

/-- A new client, and the calls it is going to make. -/
def start (s₀ : σ) (calls : List Asked) : System σ (List (Result ServiceResponse)) where
  world := .start s₀
  program := Program.inTurn (calls.map fun a => (TcpClient.call S a.service a.method a.payload).run)

/-- The client waits in `read_message`, the task of the same connection does, too, and
nothing is on its way between them. -/
def Deadlocked {α : Type} (s : System σ α) : Prop :=
  ∃ c timed k, s.program = .perform (.net (.read c timed)) k ∧
    readMessage (s.world.conn c).ahead = .short ∧ finished (s.world.session c) = false ∧
    s.world.coming c = [] ∧ (s.world.conn c).taken = s.world.replied c

end

end XProtocol.Tcp
