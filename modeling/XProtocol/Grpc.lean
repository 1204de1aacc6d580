import XProtocol.Error
import XProtocol.Handler
import XProtocol.Json.Text

/-! The gRPC service.

Its client and its server translate between the messages of the protocol and those of gRPC,
whose payload is the text of a value. tonic is behind a parameter: within the limits of the
two sides it delivers what it is given (`Tonic`). A `Call` is answered as the handler answers
it; the two methods that stream have answers without a message in it, whatever they are asked.
So a method delivers exactly if it is asked nothing that it would have to stream
(`delivered_iff`). -/
namespace XProtocol
open Json (Bytes Value Codec)

/-! ### The messages -/

structure Metadata where
  headers : List (String × String)

structure GrpcServiceRequest where
  requestId : String
  correlationId : String
  serviceName : String
  method : String
  payload : Bytes
  topic : Option String
  metadata : Option Metadata
  timestamp : Int

structure GrpcServiceResponse where
  requestId : String
  correlationId : String
  status : String
  payload : Bytes
  error : Option String
  errorCode : Option String
  timestamp : Int

namespace Grpc

inductive Code where
  | invalidArgument
  | internal
  | outOfRange
  deriving DecidableEq

/-- `tonic::Status`. -/
structure Status where
  code : Code
  message : String

abbrev Answer (α : Type) := Except Status α

structure GrpcServerConfig where
  maxMessageSize : Nat

def maxMessageSize : Nat := 4 * 1024 * 1024

def GrpcServerConfig.default : GrpcServerConfig := { maxMessageSize := Grpc.maxMessageSize }

/-! ### tonic -/

/-- What a client gets of a stream: its messages, and how it ends. -/
abbrev Received := List GrpcServiceResponse × Answer Unit

/-- The messages in front of the first error. -/
def received : List (Answer GrpcServiceResponse) → Received
  | [] => ([], .ok ())
  | .error status :: _ => ([], .error status)
  | .ok response :: rest => (response :: (received rest).1, (received rest).2)

/-- The same of a method's answer. -/
def receivedOf : Answer (List (Answer GrpcServiceResponse)) → Received
  | .ok items => received items
  | .error status => ([], .error status)

/-- A message of that length is within the limit of both sides. -/
def Fits (client server : GrpcServerConfig) (len : Nat) : Prop :=
  len ≤ client.maxMessageSize ∧ len ≤ server.maxMessageSize

/-- tonic, between a client and a server: it delivers messages unchanged within the size limit. A
method takes the requests and the state of its server. -/
structure Tonic where
  /-- The length of a message, encoded. -/
  requestLen : GrpcServiceRequest → Nat
  responseLen : GrpcServiceResponse → Nat
  statusText : Status → String
  unary {σ : Type} (client server : GrpcServerConfig)
    (method : GrpcServiceRequest → σ → Answer GrpcServiceResponse × σ) :
    GrpcServiceRequest → σ → Answer GrpcServiceResponse × σ
  serverStreaming {σ : Type} (client server : GrpcServerConfig)
    (method : GrpcServiceRequest → σ → Answer (List (Answer GrpcServiceResponse)) × σ) :
    GrpcServiceRequest → σ → Received × σ
  streaming {σ : Type} (client server : GrpcServerConfig)
    (method : List GrpcServiceRequest → σ → Answer (List (Answer GrpcServiceResponse)) × σ) :
    List GrpcServiceRequest → σ → Received × σ
  unary_delivers {σ : Type} (client server : GrpcServerConfig)
    (method : GrpcServiceRequest → σ → Answer GrpcServiceResponse × σ) (request : GrpcServiceRequest) (s : σ)
    (hrequest : Fits client server (requestLen request))
    (hresponse : ∀ response, (method request s).1 = .ok response → Fits client server (responseLen response)) :
    unary client server method request s = method request s
  serverStreaming_delivers {σ : Type} (client server : GrpcServerConfig)
    (method : GrpcServiceRequest → σ → Answer (List (Answer GrpcServiceResponse)) × σ)
    (request : GrpcServiceRequest)
    (s : σ) (hrequest : Fits client server (requestLen request))
    (hresponses : ∀ items, (method request s).1 = .ok items → ∀ response, .ok response ∈ items →
      Fits client server (responseLen response)) :
    serverStreaming client server method request s = (receivedOf (method request s).1, (method request s).2)
  streaming_delivers {σ : Type} (client server : GrpcServerConfig)
    (method : List GrpcServiceRequest → σ → Answer (List (Answer GrpcServiceResponse)) × σ)
    (requests : List GrpcServiceRequest) (s : σ) (hrequests : ∀ m ∈ requests, Fits client server (requestLen m))
    (hresponses : ∀ items, (method requests s).1 = .ok items → ∀ response, .ok response ∈ items →
      Fits client server (responseLen response)) :
    streaming client server method requests s = (receivedOf (method requests s).1, (method requests s).2)

/-! ### The server -/

namespace GrpcServiceWrapper
variable {σ : Type} (S : Codec) (handler : ServiceHandler σ) (now : Int)

def internalRequest (req : GrpcServiceRequest) (payload : Value) : ServiceRequest :=
  { requestId := req.requestId, correlationId := req.correlationId, serviceName := req.serviceName,
    method := req.method, payload, topic := req.topic }

def grpcResponse (response : ServiceResponse) : GrpcServiceResponse :=
  { requestId := response.requestId, correlationId := response.correlationId, status := response.status,
    payload := S.toVec response.payload, error := response.error, errorCode := none, timestamp := now }

def call (req : GrpcServiceRequest) (s : σ) : Answer GrpcServiceResponse × σ :=
  match (S.fromSlice req.payload : Option Value) with
  | none => (.error ⟨.invalidArgument, s!"invalid payload: {S.message req.payload}"⟩, s)
  | some payload =>
    let (response, s) := handler.handle (internalRequest req payload) s
    (.ok (grpcResponse S now response), s)

def callStream (_request : List GrpcServiceRequest) (s : σ) : Answer (List (Answer GrpcServiceResponse)) × σ :=
  (.ok [], s)

def callServerStream (_request : GrpcServiceRequest) (s : σ) : Answer (List (Answer GrpcServiceResponse)) × σ :=
  (.ok [], s)

end GrpcServiceWrapper

/-! ### The client -/

namespace GrpcClient
variable {σ : Type} (T : Tonic) (S : Codec) (now : Int)

def grpcRequest (request : ServiceRequest) : GrpcServiceRequest :=
  { requestId := request.requestId, correlationId := request.correlationId, serviceName := request.serviceName,
    method := request.method, payload := S.toVec request.payload, topic := request.topic, metadata := none,
    timestamp := now }

def internalResponse (resp : GrpcServiceResponse) (payload : Value) : ServiceResponse :=
  { requestId := resp.requestId, correlationId := resp.correlationId, status := resp.status, payload,
    error := resp.error }

/-- `method` is what the server does on a `Call`. -/
def call (client server : GrpcServerConfig) (method : GrpcServiceRequest → σ → Answer GrpcServiceResponse × σ)
    (request : ServiceRequest) (s : σ) : Result ServiceResponse × σ :=
  match T.unary client server method (grpcRequest S now request) s with
  | (.error status, s) => (.error (.connectionFailed (T.statusText status)), s)
  | (.ok resp, s) =>
    match (S.fromSlice resp.payload : Option Value) with
    | none => (.error (.encoding (S.message resp.payload)), s)
    | some payload => (.ok (internalResponse resp payload), s)

end GrpcClient

/-! ### What a method delivers -/

/-- What a handler has answered: the requests, and its responses. -/
abbrev Log := List (ServiceRequest × ServiceResponse)

/-- The same handler, and what it has answered. -/
def logged {σ : Type} (handler : ServiceHandler σ) : ServiceHandler (σ × Log) where
  serviceName := handler.serviceName
  onHandshake request x := ((handler.onHandshake request x.1).1, (handler.onHandshake request x.1).2, x.2)
  handle request x :=
    ((handler.handle request x.1).1, (handler.handle request x.1).2,
      x.2 ++ [(request, (handler.handle request x.1).1)])

/-- What a client asks for. -/
inductive Rpc where
  | call (request : ServiceRequest)
  | callStream (requests : List GrpcServiceRequest)
  | callServerStream (request : GrpcServiceRequest)

/-- The message asks for `request`. -/
def Asks (S : Codec) (m : GrpcServiceRequest) (request : ServiceRequest) : Prop :=
  ∃ payload, S.fromSlice m.payload = some payload ∧ request = GrpcServiceWrapper.internalRequest m payload

/-- The message tells of `response`. -/
def Tells (S : Codec) (m : GrpcServiceResponse) (response : ServiceResponse) : Prop :=
  ∃ payload, S.fromSlice m.payload = some payload ∧ response = GrpcClient.internalResponse m payload

/-- Each of the requests was handled once, and each response to them was sent. -/
def Streamed (S : Codec) (requests : List GrpcServiceRequest) (before after : Log)
    (responses : List GrpcServiceResponse) : Prop :=
  ∃ calls asked told, after = before ++ calls ∧
    List.Forall₂ (Asks S) requests asked ∧ (calls.map Prod.fst).Perm asked ∧
      List.Forall₂ (Tells S) responses told ∧ (calls.map Prod.snd).Perm told

section
variable {σ : Type} (T : Tonic) (S : Codec) (client server : GrpcServerConfig) (handler : ServiceHandler σ)
  (asked answered : Int) (x : σ × Log)

/-- The messages are within the limit. -/
def Rpc.Fits : Rpc → Prop
  | .call request => Grpc.Fits client server (T.requestLen (GrpcClient.grpcRequest S asked request)) ∧
    Grpc.Fits client server (T.responseLen (GrpcServiceWrapper.grpcResponse S answered
      (handler.handle request x.1).1))
  | .callStream requests => ∀ m ∈ requests, Grpc.Fits client server (T.requestLen m)
  | .callServerStream request => Grpc.Fits client server (T.requestLen request)

/-- A call is answered as the handler answers that request, and a stream that ends with `OK` has
delivered its requests and their responses. -/
def Rpc.Delivered : Rpc → Prop
  | .call request =>
    GrpcClient.call T S asked client server (GrpcServiceWrapper.call S (logged handler) answered) request x =
      (.ok (handler.handle request x.1).1,
        (handler.handle request x.1).2, x.2 ++ [(request, (handler.handle request x.1).1)])
  | .callStream requests =>
    let (got, x') := T.streaming client server GrpcServiceWrapper.callStream requests x
    got.2 = .ok () → Streamed S requests x.2 x'.2 got.1
  | .callServerStream request =>
    let (got, x') := T.serverStreaming client server GrpcServiceWrapper.callServerStream request x
    got.2 = .ok () → Streamed S [request] x.2 x'.2 got.1

/-- Nothing is asked for that would have to be streamed. -/
def Rpc.Unstreamed : Rpc → Prop
  | .call _ => True
  | .callStream requests => requests = []
  | .callServerStream _ => False

end

section
variable {σ : Type} {T : Tonic} {S : Codec} {client server : GrpcServerConfig} {handler : ServiceHandler σ}
  {asked answered : Int} {x : σ × Log}

/-- The server reads the request that the client was given. -/
theorem internalRequest_grpcRequest (request : ServiceRequest) :
    GrpcServiceWrapper.internalRequest (GrpcClient.grpcRequest S asked request) request.payload = request := rfl

/-- The client reads the response that the server was given. -/
theorem internalResponse_grpcResponse (response : ServiceResponse) :
    GrpcClient.internalResponse (GrpcServiceWrapper.grpcResponse S answered response) response.payload = response := rfl

variable (S handler asked answered) in
/-- The server answers what it is asked as the handler does. -/
theorem wrapper_call (request : ServiceRequest) (s : σ) :
    GrpcServiceWrapper.call S handler answered (GrpcClient.grpcRequest S asked request) s =
      (.ok (GrpcServiceWrapper.grpcResponse S answered (handler.handle request s).1),
        (handler.handle request s).2) := by
  have hpayload : S.fromSlice (GrpcClient.grpcRequest S asked request).payload = some request.payload :=
    S.fromSlice_toVec request.payload
  simp only [GrpcServiceWrapper.call, hpayload, internalRequest_grpcRequest]

/-- **A call is answered as the handler answers the request.** -/
theorem call_answered (request : ServiceRequest) (s : σ)
    (hrequest : Fits client server (T.requestLen (GrpcClient.grpcRequest S asked request)))
    (hresponse : Fits client server
      (T.responseLen (GrpcServiceWrapper.grpcResponse S answered (handler.handle request s).1))) :
    GrpcClient.call T S asked client server (GrpcServiceWrapper.call S handler answered) request s =
      (.ok (handler.handle request s).1, (handler.handle request s).2) := by
  have hwrapper := wrapper_call S handler asked answered request s
  have hdelivers := T.unary_delivers client server (GrpcServiceWrapper.call S handler answered)
    (GrpcClient.grpcRequest S asked request) s hrequest fun response h => by
      rw [hwrapper] at h
      cases h
      exact hresponse
  rw [hwrapper] at hdelivers
  have hpayload : S.fromSlice (GrpcServiceWrapper.grpcResponse S answered (handler.handle request s).1).payload =
      some (handler.handle request s).1.payload := S.fromSlice_toVec _
  simp only [GrpcClient.call, hdelivers, hpayload, internalResponse_grpcResponse]

/-- What is streamed behind requests that nobody has looked at: they are none. -/
theorem streamed_nothing {requests : List GrpcServiceRequest} {log : Log} :
    Streamed S requests log log [] ↔ requests = [] := by
  constructor
  · rintro ⟨calls, asked, told, hlog, hasked, hperm, -⟩
    obtain rfl : calls = [] := by simpa using hlog
    obtain rfl : asked = [] := List.nil_perm.mp hperm
    cases hasked
    rfl
  · rintro rfl
    exact ⟨[], [], [], by simp, .nil, .nil, .nil, .nil⟩

/-- **A method delivers exactly if nothing would have to be streamed.** -/
theorem delivered_iff (rpc : Rpc) (hfits : rpc.Fits T S client server handler asked answered x) :
    rpc.Delivered T S client server handler asked answered x ↔ rpc.Unstreamed := by
  cases rpc with
  | call request => exact iff_of_true (call_answered request x hfits.1 hfits.2) trivial
  | callStream requests =>
    have hdelivers := T.streaming_delivers client server GrpcServiceWrapper.callStream requests x hfits
      fun items h response hresponse => by
        cases h
        cases hresponse
    simp only [Rpc.Delivered, hdelivers]
    exact (forall_prop_of_true rfl).trans streamed_nothing
  | callServerStream request =>
    have hdelivers := T.serverStreaming_delivers client server GrpcServiceWrapper.callServerStream request x hfits
      fun items h response hresponse => by
        cases h
        cases hresponse
    simp only [Rpc.Delivered, hdelivers]
    exact (forall_prop_of_true rfl).trans (streamed_nothing.trans (iff_of_false (List.cons_ne_nil _ _) id))

end

/-! ### A tonic to run against -/

instance (client server : GrpcServerConfig) (len : Nat) : Decidable (Fits client server len) :=
  inferInstanceAs (Decidable (len ≤ client.maxMessageSize ∧ len ≤ server.maxMessageSize))

def tooLarge : Status := ⟨.outOfRange, "message length too large"⟩

/-- An answer whose message has to be within the limit. -/
def limited (client server : GrpcServerConfig) (responseLen : GrpcServiceResponse → Nat) :
    Answer GrpcServiceResponse → Answer GrpcServiceResponse
  | .ok response => if Fits client server (responseLen response) then .ok response else .error tooLarge
  | .error status => .error status

theorem limited_of_fits {client server : GrpcServerConfig} {responseLen : GrpcServiceResponse → Nat}
    {answer : Answer GrpcServiceResponse}
    (h : ∀ response, answer = .ok response → Fits client server (responseLen response)) :
    limited client server responseLen answer = answer := by
  cases answer with
  | ok response => exact if_pos (h response rfl)
  | error status => rfl

/-- The same of a stream. -/
def limitedAll (client server : GrpcServerConfig) (responseLen : GrpcServiceResponse → Nat) :
    Answer (List (Answer GrpcServiceResponse)) → Answer (List (Answer GrpcServiceResponse))
  | .ok items => .ok (items.map (limited client server responseLen))
  | .error status => .error status

theorem limitedAll_of_fits {client server : GrpcServerConfig} {responseLen : GrpcServiceResponse → Nat}
    {answer : Answer (List (Answer GrpcServiceResponse))}
    (h : ∀ items, answer = .ok items → ∀ response, .ok response ∈ items →
      Fits client server (responseLen response)) :
    limitedAll client server responseLen answer = answer := by
  cases answer with
  | error status => rfl
  | ok items =>
    refine congrArg Except.ok ((List.map_congr_left fun item hitem => ?_).trans (List.map_id items))
    exact limited_of_fits fun response hresponse => h items rfl response (hresponse ▸ hitem)

/-- A request that is too large is not delivered, nor is a response. -/
def Tonic.plain : Tonic where
  requestLen m := m.payload.length
  responseLen m := m.payload.length
  statusText := Status.message
  unary client server method request s :=
    if Fits client server request.payload.length then
      (limited client server (·.payload.length) (method request s).1, (method request s).2)
    else (.error tooLarge, s)
  serverStreaming client server method request s :=
    if Fits client server request.payload.length then
      (receivedOf (limitedAll client server (·.payload.length) (method request s).1), (method request s).2)
    else (([], .error tooLarge), s)
  streaming client server method requests s :=
    if ∀ m ∈ requests, Fits client server m.payload.length then
      (receivedOf (limitedAll client server (·.payload.length) (method requests s).1), (method requests s).2)
    else (([], .error tooLarge), s)
  unary_delivers client server method request s hrequest hresponse := by
    rw [if_pos hrequest, limited_of_fits hresponse]
  serverStreaming_delivers client server method request s hrequest hresponses := by
    rw [if_pos hrequest, limitedAll_of_fits hresponses]
  streaming_delivers client server method requests s hrequests hresponses := by
    rw [if_pos hrequests, limitedAll_of_fits hresponses]

namespace Sample
open Json.Text (compact)

/-- Everything succeeds, with what was sent. -/
def echo : ServiceHandler Nat := FnServiceHandler.new "echo" (fun r => .success r r.payload) toString

def say : ServiceRequest := .new "a" "b" "echo" "say" .null

/-- One call, of which the theorem speaks. -/
theorem say_delivered : (Rpc.call say).Fits Tonic.plain compact .default .default echo 0 0 (0, []) ∧
    (Rpc.call say).Delivered Tonic.plain compact .default .default echo 0 0 (0, []) := by
  have hfits : (Rpc.call say).Fits Tonic.plain compact .default .default echo 0 0 (0, []) :=
    ⟨⟨by decide +kernel, by decide +kernel⟩, by decide +kernel, by decide +kernel⟩
  exact ⟨hfits, (delivered_iff _ hfits).mpr trivial⟩

/-- A request that is streamed is answered `OK`, and no handler has seen it. -/
theorem said_to_nobody : (Rpc.callStream [GrpcClient.grpcRequest compact 0 say]).Fits Tonic.plain compact .default
      .default echo 0 0 (0, []) ∧
    ¬ (Rpc.callStream [GrpcClient.grpcRequest compact 0 say]).Delivered Tonic.plain compact .default .default echo 0 0
      (0, []) := by
  have hlen : Fits .default .default (GrpcClient.grpcRequest compact 0 say).payload.length :=
    ⟨by decide +kernel, by decide +kernel⟩
  have hfits : ∀ m ∈ [GrpcClient.grpcRequest compact 0 say], Fits .default .default m.payload.length :=
    List.forall_mem_singleton.mpr hlen
  refine ⟨hfits, fun h => ?_⟩
  simp only [Rpc.Delivered, Tonic.plain, if_pos hfits] at h
  exact List.cons_ne_nil _ _ (streamed_nothing.mp (h rfl))

end Sample

end Grpc

end XProtocol
