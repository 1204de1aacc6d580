import XProtocol.Net
import XProtocol.Schema
import XProtocol.Streaming

/-! The Unix-socket client.

Its methods take the client by exclusive reference, so that one runs at a time and
the lock around the stream never makes one wait; reading the stream or setting it
is an operation, and a point at which the future may be dropped. A connection
enters `stream` at the end of `connect`, after the handshake; before that only
`connect` knows it. Every request drops the stream when it fails. -/
namespace XProtocol
open Json (Bytes Value Codec toValue)
open Wire

structure UdsClient where
  stream : Option ConnId
  connected : Bool
  sessionId : Option String

namespace UdsClient

def new : UdsClient := { stream := none, connected := false, sessionId := none }

def isConnected (client : UdsClient) : Bool := client.connected

inductive Op where
  | stream
  | setStream (s : Option ConnId)
  | setConnected (b : Bool)
  | setSession (s : Option String)
  | panic

/-- The client's own fields. -/
abbrev Fields : Async.Interface where
  Op := Op
  Ret
    | .stream => Option ConnId
    | .panic => Empty
    | _ => Unit

def perform : (o : Op) → Choice → UdsClient → Option (Fields.Ret o × UdsClient)
  | .stream, .go, client => some (client.stream, client)
  | .setStream s, .go, client => some ((), { client with stream := s })
  | .setConnected b, .go, client => some ((), { client with connected := b })
  | .setSession s, .go, client => some ((), { client with sessionId := s })
  | _, _, _ => none

def machine : Async.Machine (NetWith Fields) (Client UdsClient) Choice :=
  Client.machine fun _ => perform

/-! ### The methods -/

abbrev Code := XProtocol.Code Fields

def own (o : Op) : Code (Fields.Ret o) := @XProtocol.Code.own Fields o

theorem meets_own {G : Type} {D : Async.Discipline (NetWith Fields) G} {R : G → ProtocolError → Prop}
    {g : G} (o : Op) (Q : G → Fields.Ret o → Prop) :
    Async.Meets D (own o) Q R g ↔
      D.demand g (.own o) ∧ ∀ r g', D.move g (.own o) r g' → Q g' r :=
  @Code.meets_own Fields G D R g o Q

def getStream : Code (Option ConnId) := own .stream
def setStream (s : Option ConnId) : Code Unit := own (.setStream s)
def setConnected (b : Bool) : Code Unit := own (.setConnected b)
def setSession (s : Option String) : Code Unit := own (.setSession s)

/-- A panic: the future never completes. -/
def panic {α : Type} : Code α := do
  nomatch ← own .panic

section Methods
variable (S : Codec)

def handshake (clientId serviceName : String) : HandshakeRequest :=
  { clientId, serviceName, capabilities := ["json"] }

/-- `timeout(connect_timeout, UnixStream::connect(..)).await.map_err(|_| Timeout)??`. -/
def dial : Code ConnId := do
  match ← .net (.connect true) with
  | .inTime (.ok c) => return c
  | .inTime (.error text) => throw (.ofIo text)
  | .elapsed => throw .timeout

def connect (S : Codec) : Code Unit := do
  let c ← dial
  .split c
  .write c msgHandshake (S.toVec (handshake "protocol-client" "client"))
  let f ← .readTimed c
  if f.msgType ≠ msgHandshakeAck then
    throw (.protocol "invalid handshake response")
  let response : HandshakeResponse ← .decode S f.payload
  if !response.success then
    throw (.protocol "handshake rejected")
  setSession (some response.sessionId)
  setConnected true
  setStream (some c)

/-- The stream, for one exchange: `stream.lock().await.as_mut().ok_or(ConnectionClosed)?`. -/
def held : Code ConnId := do
  match ← getStream with
  | some c => return c
  | none => throw .connectionClosed

/-- What the three requests share: connect first if there is no stream, and drop the
stream after a failure. -/
def request {α : Type} (S : Codec) (exchange : Code α) : Code α := do
  if (← getStream).isNone then
    connect S
  try
    exchange
  catch e =>
    setConnected false
    setStream none
    throw e

def doCallInternal (service method : String) (payload : Value) : Code ServiceResponse := do
  let c ← held
  .split c
  let svcRequest ← .newRequest service method payload
  .write c msgRequest (S.toVec svcRequest)
  let f ← .readTimed c
  if f.msgType ≠ msgResponse then
    throw (.protocol "invalid response type")
  .decode S f.payload

def call (service method : String) (payload : Value) : Code ServiceResponse :=
  request S (doCallInternal S service method payload)

/-- The messages of a stream until its end, `none` when `fuel` of them did not reach it. -/
def receiveStream (c : ConnId) : (fuel : Nat) → List StreamMessage → Code (Option (List StreamMessage))
  | 0, _ => return none
  | fuel + 1, messages => do
    let f ← .readTimed c
    if f.msgType = msgStreamStart then
      receiveStream c fuel messages
    else if f.msgType = msgStreamChunk then
      let msg : StreamMessage ← .decode S f.payload
      receiveStream c fuel (messages ++ [msg])
    else if f.msgType = msgStreamEnd then
      let finish : StreamResponse ← .decode S f.payload
      if finish.status.startsWith "error" then
        throw (.protocol finish.status)
      return some messages
    else if f.msgType = msgError then
      let err : Value ← .decode S f.payload
      throw (.protocol (S.text err))
    else
      throw (.protocol s!"unexpected message type: {f.msgType}")

def doCallStreamingInternal (service method : String) (payload : Value) (mode : StreamMode)
    (fuel : Nat) : Code (Option (List StreamMessage)) := do
  let c ← held
  .split c
  match payload.assign "stream_mode" (.string mode.asStr) with
  | none => panic
  | some requestPayload =>
    let svcRequest ← .newRequest service method requestPayload
    .write c msgStreamRequest (S.toVec svcRequest)
    receiveStream S c fuel []

def callStreaming (service method : String) (payload : Value) (mode : StreamMode) (fuel : Nat) :
    Code (Option (List StreamMessage)) :=
  request S (doCallStreamingInternal S service method payload mode fuel)

def doGetSchemaInternal : Code ServiceSchema := do
  let c ← held
  .split c
  .write c msgSchemaRequest []
  let f ← .readTimed c
  if f.msgType ≠ msgSchemaResponse then
    throw (.protocol "expected schema response")
  .decode S f.payload

def getSchema : Code ServiceSchema := request S (doGetSchemaInternal S)

def close : Code Unit := do
  setConnected false
  setSession none
  setStream none

end Methods

/-- What the user of a client asks for. -/
inductive Job where
  | connect
  | call (service method : String) (payload : Value)
  | callStreaming (service method : String) (payload : Value) (mode : StreamMode) (fuel : Nat)
  | getSchema
  | close

inductive Outcome where
  | done (r : Result Unit)
  | reply (r : Result ServiceResponse)
  | stream (r : Result (Option (List StreamMessage)))
  | schema (r : Result ServiceSchema)

def Job.task (S : Codec) : Job → Async.Program (NetWith Fields) Outcome
  | .connect => Outcome.done <$> (UdsClient.connect S).run
  | .call service method payload => Outcome.reply <$> (UdsClient.call S service method payload).run
  | .callStreaming service method payload mode fuel =>
    Outcome.stream <$> (UdsClient.callStreaming S service method payload mode fuel).run
  | .getSchema => Outcome.schema <$> (UdsClient.getSchema S).run
  | .close => Outcome.done <$> UdsClient.close.run

/-- A new client, and what is asked of it. -/
def start (S : Codec) (jobs : List Job) : Async.Config (NetWith Fields) (Client UdsClient) Outcome :=
  ⟨⟨.new, .empty⟩, jobs.map (Job.task S)⟩

end UdsClient

end XProtocol
