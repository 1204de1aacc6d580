import XProtocol.Auth.RateLimit
import XProtocol.Schema
import XProtocol.Serving
import XProtocol.Streaming

/-! The Unix-socket server's connection task.

Beside the connection the task counts its requests on the metrics and tells the
webhooks about them, where there are any, and asks the rate limiter once. What it
asks about metrics and webhooks never changes what it does on the connection. -/
namespace XProtocol
open Json (Bytes Value toValue)
open Wire

structure RateLimitConfig where
  maxRequests : Nat
  windowSecs : Nat

structure ServerConfig where
  maxRequestSize : Nat
  webhookUrl : Option String
  enableStreaming : Bool
  enableSchemaIntrospection : Bool
  rateLimit : RateLimitConfig

namespace ServerConfig

/-- `Default`. -/
def default : ServerConfig where
  maxRequestSize := 16 * 1024 * 1024
  webhookUrl := none
  enableStreaming := true
  enableSchemaIntrospection := true
  rateLimit := { maxRequests := 1000, windowSecs := 60 }

/-- The rate limiter `run_with_config` shares between the connections, in nanoseconds. -/
def rateLimiter (config : ServerConfig) : RateLimiter :=
  .new config.rateLimit.maxRequests (config.rateLimit.windowSecs * 10 ^ 9)

end ServerConfig

namespace UdsServer

/-- What a webhook is told. -/
inductive Notice where
  | requestReceived (requestId serviceName method : String)
  | responseSent (requestId serviceName status : String)

/-- What the server keeps aside. -/
structure Watch where
  now : Nat
  limiter : RateLimiter
  /-- The calls of `request_start`, and what `request_end` was told. -/
  started : Nat
  ended : List Bool
  notices : List Notice

def Watch.fresh (now : Nat) (limiter : RateLimiter) : Watch :=
  { now, limiter, started := 0, ended := [], notices := [] }

/-- How a server is set up: its configuration, and whether it has webhooks and metrics. -/
structure Setup where
  config : ServerConfig
  webhookService : Bool
  metrics : Bool

def validateRequest (request : ServiceRequest) : Bool :=
  if request.serviceName.isEmpty || request.serviceName.utf8ByteSize > 256 then false
  else if request.method.isEmpty || request.method.utf8ByteSize > 256 then false
  else if request.requestId.isEmpty || request.requestId.utf8ByteSize > 128 then false
  else true

def errorBody (text : String) : Value := .object [("error", .string text)]

def streamMode (request : ServiceRequest) : StreamMode :=
  (((request.payload.get "stream_mode").bind Value.asStr).bind StreamMode.fromStr).getD .result

def startBody (request : ServiceRequest) : Value :=
  .object [("mode", .string (streamMode request).asStr), ("request_id", .string request.requestId),
    ("status", .string "streaming")]

def endBody (response : ServiceResponse) : Value :=
  .object [("payload", response.payload), ("request_id", .string response.requestId),
    ("status", .string response.status)]

variable {σ : Type} (E : Site σ) (setup : Setup)

/-! ### The task -/

/-- What the server keeps once the webhooks, if there are any, have been told. -/
def Watch.noted (w : Watch) (setup : Setup) (notice : Notice) : Watch :=
  if setup.webhookService then { w with notices := w.notices ++ [notice] } else w

def notify (notice : Notice) : Serving σ Watch Unit := Serving.modifyAside fun w => w.noted setup notice

def requestStart : Serving σ Watch Unit :=
  Serving.modifyAside fun w => if setup.metrics then { w with started := w.started + 1 } else w

def requestEnd (success : Bool) : Serving σ Watch Unit :=
  Serving.modifyAside fun w => if setup.metrics then { w with ended := w.ended ++ [success] } else w

/-- `rate_limiter.check(&client_id)`. -/
def checkRate (clientId : String) : Serving σ Watch Bool := do
  let w ← Serving.getAside
  let (admitted, limiter) := w.limiter.check w.now clientId
  Serving.modifyAside fun w => { w with limiter }
  return admitted

def writeError (text : String) : Serving σ Watch Unit :=
  Serving.write E msgError (E.codec.toVec (errorBody text))

/-- The handshake; what it leaves for the loop is the client's name. -/
def greet (f : Frame) : Serving σ Watch String := do
  if f.msgType ≠ msgHandshake then
    throw (.protocol "expected handshake")
  if f.payload.length > setup.config.maxRequestSize then
    throw (.invalidMessage
      s!"handshake payload too large: {f.payload.length} > {setup.config.maxRequestSize}")
  let handshakeRequest : HandshakeRequest ← Serving.decode E f.payload
  let clientId := handshakeRequest.clientId
  notify setup (.requestReceived clientId E.handler.serviceName "handshake")
  if !(← checkRate clientId) then
    writeError E "rate limit exceeded"
    throw (.resourceExhausted "rate limit exceeded")
  let response ← Serving.onHandshake E handshakeRequest
  Serving.write E msgHandshakeAck (E.codec.toVec response)
  return clientId

/-- The arm of `MSG_REQUEST`. -/
def serveRequest (clientId : String) (f : Frame) : Serving σ Watch Flow := do
  requestStart setup
  notify setup (.requestReceived clientId E.handler.serviceName (toString f.msgType))
  match (E.codec.fromSlice f.payload : Option ServiceRequest) with
  | none =>
    requestEnd setup false
    writeError E s!"invalid request: {E.codec.message f.payload}"
    return .next
  | some request =>
    if !validateRequest request then
      requestEnd setup false
      writeError E "invalid request format"
      return .next
    else
      let response ← Serving.handle E request
      Serving.write E msgResponse (E.codec.toVec response)
      requestEnd setup (response.status == "success")
      notify setup (.responseSent response.requestId E.handler.serviceName response.status)
      return .next

/-- The arm of `MSG_STREAM_REQUEST`. -/
def serveStream (f : Frame) : Serving σ Watch Flow := do
  let request : ServiceRequest ← Serving.decode E f.payload
  Serving.write E msgStreamStart (E.codec.toVec (startBody request))
  let response ← Serving.handle E request
  Serving.write E msgStreamEnd (E.codec.toVec (endBody response))
  return .next

/-- One turn of the loop; a read error and the timer both end it. -/
def serve (clientId : String) : Timed (Result Frame) → Serving σ Watch Flow
  | .inTime (.ok f) => do
    if f.payload.length > setup.config.maxRequestSize then
      writeError E s!"payload too large: {f.payload.length} > {setup.config.maxRequestSize}"
      return .next
    else if f.msgType = msgRequest then
      serveRequest E setup clientId f
    else if f.msgType = msgStreamRequest then
      if setup.config.enableStreaming then serveStream E f else return .next
    else if f.msgType = msgPing then
      Serving.write E msgPong []
      return .next
    else if f.msgType = msgSchemaRequest then
      if setup.config.enableSchemaIntrospection then
        Serving.write E msgSchemaResponse (E.codec.toVec (ServiceSchema.new E.handler.serviceName "1.0"))
      return .next
    else if f.msgType = msgClose then
      return .stop
    else
      return .next
  | _ => return .stop

/-- `handle_connection_with_config`. -/
def handleConnectionWithConfig : Service σ Watch String :=
  { greet := greet E setup, serve := serve E setup }

/-! ### What a reading asks -/

def errorFrame (text : String) : Frame := ⟨msgError, E.codec.toVec (errorBody text)⟩

def ask : Timed (Result Frame) → Ask
  | .inTime (.ok f) =>
    if f.payload.length > setup.config.maxRequestSize then
      .answer (errorFrame E s!"payload too large: {f.payload.length} > {setup.config.maxRequestSize}")
    else if f.msgType = msgRequest then
      match (E.codec.fromSlice f.payload : Option ServiceRequest) with
      | none => .answer (errorFrame E s!"invalid request: {E.codec.message f.payload}")
      | some request =>
        if !validateRequest request then .answer (errorFrame E "invalid request format")
        else .service none request fun response => ⟨msgResponse, E.codec.toVec response⟩
    else if f.msgType = msgStreamRequest then
      if setup.config.enableStreaming then
        match (E.codec.fromSlice f.payload : Option ServiceRequest) with
        | none => .leave
        | some request =>
          .service (some ⟨msgStreamStart, E.codec.toVec (startBody request)⟩) request
            fun response => ⟨msgStreamEnd, E.codec.toVec (endBody response)⟩
      else .pass
    else if f.msgType = msgPing then .answer ⟨msgPong, []⟩
    else if f.msgType = msgSchemaRequest then
      if setup.config.enableSchemaIntrospection then
        .answer ⟨msgSchemaResponse, E.codec.toVec (ServiceSchema.new E.handler.serviceName "1.0")⟩
      else .pass
    else if f.msgType = msgClose then .leave
    else .pass
  | _ => .leave

variable {E setup}

theorem serveRequest_turn (clientId : String) (f : Frame) (l : Link σ Watch) :
    Turn ((serveRequest E setup clientId f).exec l)
      (l.line.after E (match (E.codec.fromSlice f.payload : Option ServiceRequest) with
        | none => .answer (errorFrame E s!"invalid request: {E.codec.message f.payload}")
        | some request =>
          if !validateRequest request then .answer (errorFrame E "invalid request format")
          else .service none request fun response => ⟨msgResponse, E.codec.toVec response⟩)) := by
  unfold serveRequest
  refine turn_modifyAside (turn_modifyAside ?_)
  cases (E.codec.fromSlice f.payload : Option ServiceRequest) with
  | none => exact turn_modifyAside (turn_write rests_next _ msgError _)
  | some request =>
    by_cases hvalid : validateRequest request
    · simp only [hvalid, Bool.not_true, Bool.false_eq_true, if_false]
      exact turn_handle (fun _ => rests_modifyAside (rests_modifyAside rests_next _) _) _ request
        msgResponse E.codec.toVec
    · simp only [hvalid, Bool.not_false, if_true]
      exact turn_modifyAside (turn_write rests_next _ msgError _)

theorem serveStream_turn (f : Frame) (l : Link σ Watch) :
    Turn ((serveStream E f).exec l)
      (l.line.after E (match (E.codec.fromSlice f.payload : Option ServiceRequest) with
        | none => .leave
        | some request =>
          .service (some ⟨msgStreamStart, E.codec.toVec (startBody request)⟩) request
            fun response => ⟨msgStreamEnd, E.codec.toVec (endBody response)⟩)) := by
  unfold serveStream
  rw [Serving.exec_bind, Serving.exec_decode]
  cases (E.codec.fromSlice f.payload : Option ServiceRequest) with
  | none => exact ⟨by simp [Link.after], rfl⟩
  | some request =>
    exact turn_write_handle (fun l => turn_handle (fun _ => rests_next) l request msgStreamEnd _) l
      msgStreamStart _

theorem loops (clientId : String) :
    (handleConnectionWithConfig E setup).Loops E clientId (ask E setup) := by
  intro h l
  show Turn ((serve E setup clientId h).exec l) _
  unfold serve ask
  split
  · next f =>
    by_cases hsize : f.payload.length > setup.config.maxRequestSize
    · rw [if_pos hsize, if_pos hsize]
      exact turn_write rests_next l msgError _
    rw [if_neg hsize, if_neg hsize]
    by_cases hrequest : f.msgType = msgRequest
    · rw [if_pos hrequest, if_pos hrequest]
      exact serveRequest_turn clientId f l
    rw [if_neg hrequest, if_neg hrequest]
    by_cases hstream : f.msgType = msgStreamRequest
    · rw [if_pos hstream, if_pos hstream]
      by_cases henabled : setup.config.enableStreaming
      · rw [if_pos henabled, if_pos henabled]
        exact serveStream_turn f l
      · rw [if_neg henabled, if_neg henabled]
        exact rests_next l
    rw [if_neg hstream, if_neg hstream]
    by_cases hping : f.msgType = msgPing
    · rw [if_pos hping, if_pos hping]
      exact turn_write rests_next l msgPong []
    rw [if_neg hping, if_neg hping]
    by_cases hschema : f.msgType = msgSchemaRequest
    · rw [if_pos hschema, if_pos hschema]
      by_cases henabled : setup.config.enableSchemaIntrospection
      · rw [if_pos henabled, if_pos henabled]
        exact turn_write rests_next l msgSchemaResponse _
      · rw [if_neg henabled, if_neg henabled]
        exact rests_next l
    rw [if_neg hschema, if_neg hschema]
    by_cases hclose : f.msgType = msgClose
    · rw [if_pos hclose, if_pos hclose]
      exact turn_stop l
    · rw [if_neg hclose, if_neg hclose]
      exact rests_next l
  · exact turn_stop l

variable (E setup)

/-- The answer to a handshake that goes through, and the handler's state behind it. -/
def opened (f : Frame) (s : σ) (w : Watch) : Option (HandshakeResponse × σ) :=
  if f.msgType ≠ msgHandshake then none
  else if f.payload.length > setup.config.maxRequestSize then none
  else match (E.codec.fromSlice f.payload : Option HandshakeRequest) with
    | none => none
    | some request => if (w.limiter.check w.now request.clientId).1 then E.opening request s else none

@[simp] theorem noted_limiter (w : Watch) (notice : Notice) :
    (w.noted setup notice).limiter = w.limiter := by
  unfold Watch.noted
  split <;> rfl

@[simp] theorem noted_now (w : Watch) (notice : Notice) : (w.noted setup notice).now = w.now := by
  unfold Watch.noted
  split <;> rfl

theorem exec_checkRate (clientId : String) (l : Link σ Watch) :
    (checkRate clientId).exec l = (.ok (l.aside.limiter.check l.aside.now clientId).1,
      { l with aside := { l.aside with limiter := (l.aside.limiter.check l.aside.now clientId).2 } }) :=
  rfl

theorem greets : (handleConnectionWithConfig E setup).Greets E (opened E setup) := by
  intro f s w
  show Greeted E ((greet E setup f).exec _) _
  unfold greet opened
  by_cases htype : f.msgType ≠ msgHandshake
  · simp only [if_pos htype]
    exact ⟨_, _, rfl, rfl⟩
  simp only [if_neg htype]
  by_cases hsize : f.payload.length > setup.config.maxRequestSize
  · simp only [if_pos hsize]
    exact ⟨_, _, rfl, rfl⟩
  simp only [if_neg hsize]
  rw [Serving.exec_bind, Serving.exec_decode]
  cases (E.codec.fromSlice f.payload : Option HandshakeRequest) with
  | none => exact ⟨_, _, rfl, rfl⟩
  | some request =>
    simp only [Option.elim_some]
    rw [Serving.exec_bind, notify, Serving.exec_modifyAside]
    simp only
    rw [Serving.exec_bind, exec_checkRate]
    simp only [Link.fresh, noted_limiter, noted_now]
    cases (w.limiter.check w.now request.clientId).1 with
    | true => exact greeted_opening request s _ request.clientId
    | false =>
      simp only [Bool.not_false, if_true, Bool.false_eq_true, if_false]
      exact greeted_refusal (fun _ => ⟨_, rfl⟩) msgError _ s _

end UdsServer

end XProtocol
