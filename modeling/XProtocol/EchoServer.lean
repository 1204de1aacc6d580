import XProtocol.Client.Pairing
import XProtocol.Handler
import XProtocol.Json.Text

/-! A server to run clients against.

It accepts every handshake, answers a request with success and no payload, and a
ping with a pong. Its response is shorter than the request it answers, so that it
can always be written. -/
namespace XProtocol.EchoServer
open Json
open Json.Text (compact print printString printFields print_ne)
open Wire

def ack : Frame := ⟨msgHandshakeAck, compact.toVec (ServiceHandler.acceptHandshake "echo" "session")⟩

def response (r : ServiceRequest) : Frame := ⟨msgResponse, compact.toVec (ServiceResponse.success r .null)⟩

def pong : Frame := ⟨msgPong, []⟩

def peer : Peer where
  answers _ _ f :=
    if f.msgType = msgHandshake then [ack]
    else if f.msgType = msgPing then [pong]
    else if f.msgType = msgRequest then
      match (compact.fromSlice f.payload : Option ServiceRequest) with
      | some r => [response r]
      | none => []
    else []

theorem answers_request (c : ConnId) (before : List Frame) (r : ServiceRequest) :
    peer.answers c before ⟨msgRequest, compact.toVec r⟩ = [response r] := by
  simp [peer, msgRequest, msgHandshake, msgPing]

/-- The response names the request, and leaves its service, method and payload out. -/
theorem response_shorter (r : ServiceRequest) :
    (compact.toVec (ServiceResponse.success r .null)).length ≤ (compact.toVec r).length := by
  have hpayload := List.length_pos_iff.mpr (print_ne r.payload)
  have htopic := List.length_pos_iff.mpr (print_ne (toValue r.topic))
  show (print (.object [("request_id", .string r.requestId), ("correlation_id", .string r.correlationId),
      ("status", .string "success"), ("payload", .null), ("error", .null)])).length ≤
    (print (.object [("request_id", .string r.requestId), ("correlation_id", .string r.correlationId),
      ("service_name", .string r.serviceName), ("method", .string r.method), ("payload", r.payload),
      ("topic", toValue r.topic)])).length
  simp only [print, printFields, List.length_append, List.length_cons, List.length_nil,
    show (printString "status").length = 8 by decide, show (printString "success").length = 9 by decide,
    show (printString "payload").length = 9 by decide, show (printString "error").length = 7 by decide,
    show (printString "service_name").length = 14 by decide,
    show (printString "method").length = 8 by decide, show (printString "topic").length = 7 by decide]
  omega

theorem response_fits {r : ServiceRequest} (h : Fits ⟨msgRequest, compact.toVec r⟩) : Fits (response r) :=
  Nat.le_trans (Nat.add_le_add_left (response_shorter r) 2) h

theorem peer_echoes : peer.Echoes compact where
  greets c before payload g hg := by
    obtain rfl := List.mem_singleton.mp (show g ∈ [ack] from hg)
    exact ⟨rfl, by decide⟩
  echoes c before r h := ⟨_, answers_request c before r, response_fits h, rfl⟩

end XProtocol.EchoServer
