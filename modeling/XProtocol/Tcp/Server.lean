import XProtocol.Serving

/-! The TCP server's connection task. -/
namespace XProtocol
open Json (Bytes toValue)
open Wire

namespace TcpServer
variable {σ : Type} (E : Site σ)

/-- The handshake. -/
def greet (f : Frame) : Serving σ Unit Unit := do
  if f.msgType ≠ msgHandshake then
    throw (.protocol "expected handshake")
  let request : HandshakeRequest ← Serving.decode E f.payload
  let response ← Serving.onHandshake E request
  Serving.write E msgHandshakeAck (E.codec.toVec response)
  return ()

/-- One turn of the loop. There is no timer. -/
def serve (_ : Unit) : Timed (Result Frame) → Serving σ Unit Flow
  | .inTime (.ok f) => do
    if f.msgType = msgRequest then
      let request : ServiceRequest ← Serving.decode E f.payload
      let response ← Serving.handle E request
      Serving.write E msgResponse (E.codec.toVec response)
      return .next
    else if f.msgType = msgPing then
      Serving.write E msgPong []
      return .next
    else if f.msgType = msgClose then
      return .stop
    else
      return .next
  | .inTime (.error .connectionClosed) => return .stop
  | _ => return .next

/-- `handle_connection`. -/
def handleConnection : Service σ Unit Unit := { greet := greet E, serve := serve E }

/-- What a reading asks of the loop. -/
def ask : Timed (Result Frame) → Ask
  | .inTime (.ok f) =>
    if f.msgType = msgRequest then
      match (E.codec.fromSlice f.payload : Option ServiceRequest) with
      | some request => .service none request fun response => ⟨msgResponse, E.codec.toVec response⟩
      | none => .leave
    else if f.msgType = msgPing then .answer ⟨msgPong, []⟩
    else if f.msgType = msgClose then .leave
    else .pass
  | .inTime (.error .connectionClosed) => .leave
  | _ => .pass

theorem loops : (handleConnection E).Loops E () (ask E) := by
  intro h l
  show Turn ((serve E () h).exec l) _
  unfold serve ask
  split
  · next f =>
    by_cases hrequest : f.msgType = msgRequest
    · rw [if_pos hrequest, if_pos hrequest, Serving.exec_bind, Serving.exec_decode]
      cases (E.codec.fromSlice f.payload : Option ServiceRequest) with
      | none => exact ⟨by simp [Link.after], rfl⟩
      | some request => exact turn_handle (fun _ => rests_next) l request msgResponse E.codec.toVec
    rw [if_neg hrequest, if_neg hrequest]
    by_cases hping : f.msgType = msgPing
    · rw [if_pos hping, if_pos hping]
      exact turn_write rests_next l msgPong []
    rw [if_neg hping, if_neg hping]
    by_cases hclose : f.msgType = msgClose
    · rw [if_pos hclose, if_pos hclose]
      exact turn_stop l
    · rw [if_neg hclose, if_neg hclose]
      exact rests_next l
  · exact turn_stop l
  · exact rests_next l

/-- The answer to a handshake that goes through, and the handler's state behind it. -/
def opened (f : Frame) (s : σ) (_ : Unit) : Option (HandshakeResponse × σ) :=
  if f.msgType ≠ msgHandshake then none
  else match (E.codec.fromSlice f.payload : Option HandshakeRequest) with
    | none => none
    | some request => E.opening request s

theorem greets : (handleConnection E).Greets E (opened E) := by
  intro f s _
  show Greeted E ((greet E f).exec _) _
  unfold greet opened
  by_cases htype : f.msgType ≠ msgHandshake
  · simp only [if_pos htype]
    exact ⟨_, _, rfl, rfl⟩
  simp only [if_neg htype]
  rw [Serving.exec_bind, Serving.exec_decode]
  cases (E.codec.fromSlice f.payload : Option HandshakeRequest) with
  | none => exact ⟨_, _, rfl, rfl⟩
  | some request => exact greeted_opening request s () ()

end TcpServer

end XProtocol
