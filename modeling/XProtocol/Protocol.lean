import XProtocol.Json.Value

/-! The messages of the protocol, and their derived (de)serialization.

`ServiceRequest.new` draws its two ids from `uuid`; here they are arguments. -/
namespace XProtocol
open Json

structure HandshakeRequest where
  clientId : String
  serviceName : String
  capabilities : List String

structure HandshakeResponse where
  serverId : String
  sessionId : String
  success : Bool
  encoding : String

structure ServiceRequest where
  requestId : String
  correlationId : String
  serviceName : String
  method : String
  payload : Value
  topic : Option String

structure ServiceResponse where
  requestId : String
  correlationId : String
  status : String
  payload : Value
  error : Option String

def ServiceRequest.new (requestId correlationId service method : String) (payload : Value) :
    ServiceRequest :=
  { requestId, correlationId, serviceName := service, method, payload, topic := none }

def ServiceRequest.withTopic (r : ServiceRequest) (topic : String) : ServiceRequest :=
  { r with topic := some topic }

def ServiceResponse.success (request : ServiceRequest) (payload : Value) : ServiceResponse :=
  { requestId := request.requestId, correlationId := request.correlationId, status := "success",
    payload, error := none }

def ServiceResponse.fail (request : ServiceRequest) (err : String) : ServiceResponse :=
  { requestId := request.requestId, correlationId := request.correlationId, status := "error",
    payload := .null, error := some err }

/-! ### Derived serialization -/

instance : Serde HandshakeRequest where
  toValue r := .object [("client_id", toValue r.clientId), ("service_name", toValue r.serviceName),
    ("capabilities", toValue r.capabilities)]
  ofValue v := do
    match ← structFields ["client_id", "service_name", "capabilities"] v with
    | [clientId, serviceName, capabilities] =>
      return { clientId := ← requiredField clientId, serviceName := ← requiredField serviceName,
               capabilities := ← requiredField capabilities }
    | _ => none
  ofValue_toValue r := by simp [structFields, fieldOnce, requiredField]

instance : Serde HandshakeResponse where
  toValue r := .object [("server_id", toValue r.serverId), ("session_id", toValue r.sessionId),
    ("success", toValue r.success), ("encoding", toValue r.encoding)]
  ofValue v := do
    match ← structFields ["server_id", "session_id", "success", "encoding"] v with
    | [serverId, sessionId, success, encoding] =>
      return { serverId := ← requiredField serverId, sessionId := ← requiredField sessionId,
               success := ← requiredField success, encoding := ← requiredField encoding }
    | _ => none
  ofValue_toValue r := by simp [structFields, fieldOnce, requiredField]

theorem optionalField_toValue (s : Option String) : optionalField (some (toValue s)) = some s := by
  cases s <;> rfl

instance : Serde ServiceRequest where
  toValue r := .object [("request_id", toValue r.requestId),
    ("correlation_id", toValue r.correlationId), ("service_name", toValue r.serviceName),
    ("method", toValue r.method), ("payload", toValue r.payload), ("topic", toValue r.topic)]
  ofValue v := do
    match ← structFields
      ["request_id", "correlation_id", "service_name", "method", "payload", "topic"] v with
    | [requestId, correlationId, serviceName, method, payload, topic] =>
      return { requestId := ← requiredField requestId, correlationId := ← requiredField correlationId,
               serviceName := ← requiredField serviceName, method := ← requiredField method,
               payload := ← requiredField payload, topic := ← optionalField topic }
    | _ => none
  ofValue_toValue r := by simp [structFields, fieldOnce, requiredField, optionalField_toValue]

instance : Serde ServiceResponse where
  toValue r := .object [("request_id", toValue r.requestId),
    ("correlation_id", toValue r.correlationId), ("status", toValue r.status),
    ("payload", toValue r.payload), ("error", toValue r.error)]
  ofValue v := do
    match ← structFields ["request_id", "correlation_id", "status", "payload", "error"] v with
    | [requestId, correlationId, status, payload, error] =>
      return { requestId := ← requiredField requestId, correlationId := ← requiredField correlationId,
               status := ← requiredField status, payload := ← requiredField payload,
               error := ← optionalField error }
    | _ => none
  ofValue_toValue r := by simp [structFields, fieldOnce, requiredField, optionalField_toValue]

end XProtocol
