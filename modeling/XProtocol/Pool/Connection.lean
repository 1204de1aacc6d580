import XProtocol.Net

/-! The pool of bare connections.

Idle streams are kept by a library. Which of them it hands out, or that it hands out
none and a new connection is opened, the environment chooses; a stream that was handed
out is not idle. A call puts its stream back whatever came of it. -/
namespace XProtocol
open Json (Value Codec)
open Wire

structure ConnectionPoolMetrics where
  totalRequests : Nat
  connectionsCreated : Nat
  connectionsReused : Nat
  poolHits : Nat
  poolMisses : Nat
  connectionsEvicted : Nat

structure UdsConnectionPool where
  idle : List ConnId
  connectionId : Nat
  metrics : ConnectionPoolMetrics

namespace UdsConnectionPool

def new : UdsConnectionPool where
  idle := []
  connectionId := 0
  metrics :=
    { totalRequests := 0, connectionsCreated := 0, connectionsReused := 0, poolHits := 0, poolMisses := 0,
      connectionsEvicted := 0 }

inductive Counter where
  | totalRequests
  | connectionsCreated
  | connectionsReused
  | poolHits
  | poolMisses
  | connectionsEvicted

inductive Op where
  | get
  | put (c : ConnId)
  | add (counter : Counter)

abbrev Fields : Async.Interface where
  Op := Op
  Ret
    | .get => Option ConnId
    | _ => Unit

def count (m : ConnectionPoolMetrics) : Counter → ConnectionPoolMetrics
  | .totalRequests => { m with totalRequests := m.totalRequests + 1 }
  | .connectionsCreated => { m with connectionsCreated := m.connectionsCreated + 1 }
  | .connectionsReused => { m with connectionsReused := m.connectionsReused + 1 }
  | .poolHits => { m with poolHits := m.poolHits + 1 }
  | .poolMisses => { m with poolMisses := m.poolMisses + 1 }
  | .connectionsEvicted => { m with connectionsEvicted := m.connectionsEvicted + 1 }

def perform : (o : Op) → Choice → UdsConnectionPool → Option (Fields.Ret o × UdsConnectionPool)
  | .get, .pick none, pool => some (none, pool)
  | .get, .pick (some c), pool =>
    if c ∈ pool.idle then some (some c, { pool with idle := pool.idle.erase c }) else none
  | .put c, .go, pool =>
    some ((), { pool with idle := pool.idle ++ [c], connectionId := pool.connectionId + 1 })
  | .add counter, .go, pool => some ((), { pool with metrics := count pool.metrics counter })
  | _, _, _ => none

def machine : Async.Machine (NetWith Fields) (Client UdsConnectionPool) Choice :=
  Client.machine fun _ => perform

/-! ### The methods -/

abbrev Code := XProtocol.Code Fields

def own (o : Op) : Code (Fields.Ret o) := @XProtocol.Code.own Fields o

section Methods
variable (S : Codec)

/-- A stream: an idle one, or a new one. -/
def checkout : Code ConnId := do
  match ← own .get with
  | some c =>
    own (.add .poolHits)
    own (.add .connectionsReused)
    return c
  | none =>
    own (.add .poolMisses)
    own (.add .connectionsCreated)
    match ← .net (.connect false) with
    | .inTime (.ok c) => return c
    | .inTime (.error text) =>
      own (.add .connectionsEvicted)
      throw (.connectionFailed text)
    -- There is no timer here.
    | .elapsed => throw .timeout

def doCall (c : ConnId) (service method : String) (payload : Value) : Code ServiceResponse := do
  .split c
  let request ← .newRequest service method payload
  .write c msgRequest (S.toVec request)
  let f ← .read c
  if f.msgType ≠ msgResponse then
    throw (.protocol s!"invalid response type: expected {msgResponse}, got {f.msgType}")
  .decode S f.payload

def call (service method : String) (payload : Value) : Code ServiceResponse := do
  own (.add .totalRequests)
  let c ← checkout
  let result ← monadLift (doCall S c service method payload).run
  own (.put c)
  .ofResult result

end Methods

/-- A new pool, and the calls of its users. -/
def start (S : Codec) (calls : List (String × String × Value)) :
    Async.Config (NetWith Fields) (Client UdsConnectionPool) (Result ServiceResponse) :=
  ⟨⟨.new, .empty⟩, calls.map fun x => (call S x.1 x.2.1 x.2.2).run⟩

end UdsConnectionPool

end XProtocol
