import XProtocol.Protocol

/-! Service handlers.

A handler's calls always return, and may keep state from one call to the next: `σ` is that
state. A server with many connections may have them share it (`UdsServer.Hub`). To its clients
a server is a peer, which answers on a connection from what it has read there (`UdsServer.peer`):
what they are told is told of handlers that share nothing among connections. -/
namespace XProtocol

structure ServiceHandler (σ : Type) where
  serviceName : String
  onHandshake : HandshakeRequest → σ → HandshakeResponse × σ
  handle : ServiceRequest → σ → ServiceResponse × σ

/-- The default `on_handshake` accepts everyone; `sessionId` is a fresh uuid. -/
def ServiceHandler.acceptHandshake (serviceName sessionId : String) : HandshakeResponse :=
  { serverId := serviceName, sessionId, success := true, encoding := "json" }

/-- `FnServiceHandler`: a function of the request, behind the default handshake. The
state is the supply of uuids. -/
def FnServiceHandler.new (name : String) (handler : ServiceRequest → ServiceResponse)
    (uuid : Nat → String) : ServiceHandler Nat where
  serviceName := name
  onHandshake _ n := (ServiceHandler.acceptHandshake name (uuid n), n + 1)
  handle r n := (handler r, n)

end XProtocol
