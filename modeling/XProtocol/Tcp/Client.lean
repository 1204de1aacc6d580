import XProtocol.Net

/-! The TCP client.

`connect` greets on one connection and stores another. `call` greets again on the
stored one, each time, and reads one message without looking at it. Nothing here runs
under a timer. -/
namespace XProtocol
open Json (Value Codec)
open Wire

structure TcpClient where
  connected : Bool
  sessionId : Option String
  stream : Option ConnId

namespace TcpClient

def new : TcpClient := { connected := false, sessionId := none, stream := none }

inductive Op where
  | connected
  | setConnected (b : Bool)
  | setSession (s : Option String)
  | stream
  | setStream (s : Option ConnId)

/-- The client's own fields. -/
abbrev Fields : Async.Interface where
  Op := Op
  Ret
    | .connected => Bool
    | .stream => Option ConnId
    | _ => Unit

def perform : (o : Op) → Choice → TcpClient → Option (Fields.Ret o × TcpClient)
  | .connected, .go, client => some (client.connected, client)
  | .setConnected b, .go, client => some ((), { client with connected := b })
  | .setSession s, .go, client => some ((), { client with sessionId := s })
  | .stream, .go, client => some (client.stream, client)
  | .setStream s, .go, client => some ((), { client with stream := s })
  | _, _, _ => none

def machine : Async.Machine (NetWith Fields) (Client TcpClient) Choice := Client.machine fun _ => perform

/-! ### The methods -/

abbrev Code := XProtocol.Code Fields

def own (o : Op) : Code (Fields.Ret o) := @XProtocol.Code.own Fields o

section Methods
variable (S : Codec)

def handshake (serviceName : String) : HandshakeRequest :=
  { clientId := "protocol-tcp-client", serviceName, capabilities := ["json"] }

/-- `TcpStream::connect(&self.addr).await?`. -/
def dial : Code ConnId := do
  match ← .net (.connect false) with
  | .inTime (.ok c) => return c
  | .inTime (.error text) => throw (.ofIo text)
  -- There is no timer here.
  | .elapsed => throw .timeout

def connect : Code Unit := do
  let c ← dial
  .split c
  .write c msgHandshake (S.toVec (handshake "client"))
  let f ← .read c
  if f.msgType ≠ msgHandshakeAck then
    throw (.protocol "invalid handshake response")
  let response : HandshakeResponse ← .decode S f.payload
  if !response.success then
    throw (.protocol "handshake rejected")
  own (.setSession (some response.sessionId))
  own (.setConnected true)
  let c ← dial
  own (.setStream (some c))

/-- The exchange of `call`, on the stored stream. -/
def exchange (c : ConnId) (service method : String) (payload : Value) : Code ServiceResponse := do
  .split c
  .write c msgHandshake (S.toVec (handshake service))
  let _ ← .read c
  let svcRequest ← .newRequest service method payload
  .write c msgRequest (S.toVec svcRequest)
  let f ← .read c
  if f.msgType ≠ msgResponse then
    own (.setConnected false)
    throw (.protocol "invalid response type")
  .decode S f.payload

def call (service method : String) (payload : Value) : Code ServiceResponse := do
  if !(← own .connected) then
    connect S
  match ← own .stream with
  | some c => exchange S c service method payload
  | none => throw .connectionClosed

/-- What `call` does once the client is connected. -/
def callBehind (service method : String) (payload : Value) : Code ServiceResponse := do
  match ← own .stream with
  | some c => exchange S c service method payload
  | none => throw .connectionClosed

def close : Code Unit := do
  own (.setConnected false)
  own (.setSession none)
  own (.setStream none)

end Methods

/-- What the user of a client asks for. -/
inductive Job where
  | connect
  | call (service method : String) (payload : Value)
  | close

inductive Outcome where
  | done (r : Result Unit)
  | reply (r : Result ServiceResponse)

def Job.task (S : Codec) : Job → Async.Program (NetWith Fields) Outcome
  | .connect => Outcome.done <$> (TcpClient.connect S).run
  | .call service method payload => Outcome.reply <$> (TcpClient.call S service method payload).run
  | .close => Outcome.done <$> TcpClient.close.run

/-- A new client, and what is asked of it. -/
def start (S : Codec) (jobs : List Job) : Async.Config (NetWith Fields) (Client TcpClient) Outcome :=
  ⟨⟨.new, .empty⟩, jobs.map (Job.task S)⟩

end TcpClient

end XProtocol
