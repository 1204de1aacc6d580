import XProtocol.Client.Uds

/-! Clients behind a mutex, as the pools share them.

A process has many clients, each behind an async mutex of its own; they have the
connections in common. A method of the shared client takes the mutex, runs the
client's method and gives the mutex back. Its future may be dropped where it
waits: for the mutex, or at one of the points where the client's method waits;
then the mutex is given back, and the client stays as it was at that point. -/
namespace XProtocol
open Async (Program Interface)
open Json (Value Codec)

namespace SharedUdsClient

inductive Op where
  | lock
  | unlock
  | inner (o : NetOp UdsClient.Fields)

abbrev Calls : Interface where
  Op := Op
  Ret
    | .lock => Unit
    | .unlock => Unit
    | .inner o => (NetWith UdsClient.Fields).Ret o

/-- `self.inner.lock().await`, a method of the client, and the end of the guard. -/
def locked {α : Type} (method : UdsClient.Code α) : Program Calls (Result α) := do
  let _ ← Program.op (E := Calls) .lock
  let r ← method.run.embed (F := Calls) Op.inner fun _ r => r
  let _ ← Program.op (E := Calls) .unlock
  return r

section Methods
variable (S : Codec)

def call (service method : String) (payload : Value) : Program Calls (Result ServiceResponse) :=
  locked (UdsClient.call S service method payload)

def callStreaming (service method : String) (payload : Value) (mode : StreamMode) (fuel : Nat) :
    Program Calls (Result (Option (List StreamMessage))) :=
  locked (UdsClient.callStreaming S service method payload mode fuel)

def getSchema : Program Calls (Result ServiceSchema) := locked (UdsClient.getSchema S)

def close : Program Calls (Result Unit) := locked UdsClient.close

end Methods

/-- The operations at which a future may be dropped. -/
def suspends : Op → Bool
  | .lock => true
  | .inner (.net (.connect _)) => true
  | .inner (.net (.write ..)) => true
  | .inner (.net (.read ..)) => true
  | .inner (.own .stream) => true
  | .inner (.own (.setStream _)) => true
  | _ => false

end SharedUdsClient

/-- The clients of a process, the task that holds each one's mutex, and the connections. -/
structure Clients where
  client : Nat → UdsClient
  holder : Nat → Option Nat
  net : Net

namespace Clients
open SharedUdsClient (Op Calls)

def new : Clients := { client := fun _ => .new, holder := fun _ => none, net := .empty }

def setHolder (w : Clients) (i : Nat) (t : Option Nat) : Clients :=
  let holder := Function.update w.holder i t
  { w with holder }

def setClient (w : Clients) (i : Nat) (u : UdsClient) : Clients :=
  let client := Function.update w.client i u
  { w with client }

/-- One operation of task `t` on client `i`. -/
def perform (t i : Nat) : (o : Op) → Choice → Clients → Option (Calls.Ret o × Clients)
  | .lock, .go, w => if w.holder i = none then some ((), w.setHolder i (some t)) else none
  | .unlock, .go, w => some ((), w.setHolder i none)
  | .inner (.net o), choice, w =>
    (w.net.perform t i o choice).map fun x => (x.1, { w with net := x.2 })
  | .inner (.own o), choice, w =>
    (UdsClient.perform o choice (w.client i)).map fun x => (x.1, w.setClient i x.2)
  | _, _, _ => none

/-- Task `t` is dropped at an operation on client `i`. -/
def abandon (t i : Nat) (o : Op) (out : Nat) (got : Json.Bytes) (w : Clients) : Clients :=
  let w := if w.holder i = some t then w.setHolder i none else w
  match o with
  | .inner (.net o) => { w with net := Net.abandon o out got w.net }
  | _ => w

end Clients

end XProtocol
