import XProtocol.Async.Machine
import XProtocol.Protocol
import XProtocol.Wire

/-! Connections, and what a client does with them.

A connection is what has gone out on it and what has been taken off it, as bytes.
A `BufReader` may take more than the message it is asked for; `ahead` is what the
current reader holds back, and it is lost with the reader. Nothing is said about
the peer: what arrives, and when, the environment chooses, and a hypothesis about
a server is a hypothesis about these choices (`Peer.lean`).

The environment also chooses where an operation fails or a timer fires, and how
far a message had come by then: a write that ends early leaves part of a frame on
the connection, and a read that ends early has taken part of one off it. -/
namespace XProtocol
open Json (Bytes Value Codec Deserialize)
open Wire (Frame)

abbrev ConnId := Nat

/-- What the environment decides about one operation. -/
inductive Choice where
  /-- It goes through. -/
  | go
  /-- The two uuids a new request draws. -/
  | uuids (requestId correlationId : String)
  /-- The clock shows `now`. -/
  | clock (now : Nat)
  /-- A pool of connections hands out `c`, or none. -/
  | pick (c : Option Nat)
  /-- The bytes `got` have arrived. -/
  | arrive (got : Bytes)
  /-- An I/O error, after `out` bytes of a message went out or `got` came in. -/
  | fail (out : Nat) (got : Bytes) (text : String)
  /-- The timer of the operation fires. -/
  | elapse (got : Bytes)
  /-- The future that waits here is dropped. -/
  | drop (out : Nat) (got : Bytes)

/-- A future is dropped. -/
def Choice.isDrop : Choice → Bool
  | .drop .. => true
  | _ => false

/-- Task `t` goes through `n` operations that leave nothing to choose. -/
def goes (t n : Nat) : List (Nat × Choice) := List.replicate n (t, .go)

/-- A message on a connection, as its client sees it: offered to the socket, or read off it. -/
inductive Event where
  | sent (f : Frame)
  | received (f : Frame)
  deriving DecidableEq

/-- The messages among them that were sent. -/
def sentIn (log : List Event) : List Frame := log.filterMap fun
  | .sent f => some f
  | .received _ => none

structure Conn where
  /-- The client that opened it. -/
  owner : Nat
  written : Bytes
  taken : Bytes
  ahead : Bytes
  log : List Event

namespace Conn

def fresh (owner : Nat) : Conn := { owner, written := [], taken := [], ahead := [], log := [] }

/-- A message is written, and `bytes` of it go out. -/
def send (conn : Conn) (f : Frame) (bytes : Bytes) : Conn :=
  { conn with written := conn.written ++ bytes, log := conn.log ++ [.sent f] }

/-- `got` is taken off the socket, and the reader holds `ahead` of it back. -/
def take (conn : Conn) (got ahead : Bytes) : Conn :=
  { conn with taken := conn.taken ++ got, ahead }

/-- A message is read. -/
def receive (conn : Conn) (f : Frame) : Conn := { conn with log := conn.log ++ [.received f] }

/-- A new reader: what the last one held back is gone. -/
def split (conn : Conn) : Conn := { conn with ahead := [] }

end Conn

/-- The bytes that come in with a choice. -/
def Choice.got : Choice → Bytes
  | .arrive got | .fail _ got _ | .elapse got | .drop _ got => got
  | _ => []

/-- The connections of a process, and the requests its tasks have created. -/
structure Net where
  opened : Nat
  conns : ConnId → Conn
  created : Nat → List ServiceRequest

namespace Net

def empty : Net := { opened := 0, conns := fun _ => .fresh 0, created := fun _ => [] }

def modify (n : Net) (c : ConnId) (f : Conn → Conn) : Net :=
  let conns := Function.update n.conns c (f (n.conns c))
  { n with conns }

/-- A new connection. -/
def dial (n : Net) (owner : Nat) : Net :=
  let conns := Function.update n.conns n.opened (.fresh owner)
  { n with conns, opened := n.opened + 1 }

def create (n : Net) (t : Nat) (r : ServiceRequest) : Net :=
  let created := Function.update n.created t (n.created t ++ [r])
  { n with created }

inductive Op where
  /-- `connect`, under a timer or not. -/
  | connect (timed : Bool)
  /-- A `BufReader` and a `BufWriter` around the two halves. -/
  | split (c : ConnId)
  /-- `write_message`. -/
  | write (c : ConnId) (msgType : UInt8) (payload : Bytes)
  /-- `read_message`, under a timer or not. -/
  | read (c : ConnId) (timed : Bool)
  /-- `ServiceRequest::new`. -/
  | newRequest (service method : String) (payload : Value)

abbrev Op.Ret : Op → Type
  | .connect _ => Timed (Except String ConnId)
  | .split _ => Unit
  | .write .. => Result Unit
  | .read .. => Timed (Result Frame)
  | .newRequest .. => ServiceRequest

/-- One operation of task `t`, for the client `owner`. -/
def perform (t owner : Nat) : (o : Op) → Choice → Net → Option (o.Ret × Net)
  | .connect _, .go, n => some (.inTime (.ok n.opened), n.dial owner)
  | .connect _, .fail _ _ text, n => some (.inTime (.error text), n)
  | .connect true, .elapse _, n => some (.elapsed, n)
  | .split c, .go, n => some ((), n.modify c Conn.split)
  | .write c msgType payload, choice, n =>
    match Wire.writeMessage msgType payload with
    | .error e => some (.error e, n)
    | .ok bytes =>
      match choice with
      | .go => some (.ok (), n.modify c (·.send ⟨msgType, payload⟩ bytes))
      | .fail out _ text =>
        some (.error (.ofIo text), n.modify c (·.send ⟨msgType, payload⟩ (bytes.take out)))
      | _ => none
  | .read c timed, choice, n =>
    match choice with
    | .arrive got =>
      match Wire.readMessage ((n.conns c).ahead ++ got) with
      | .message f rest => some (.inTime (.ok f), n.modify c fun conn => (conn.take got rest).receive f)
      | .invalid len rest =>
        some (.inTime (Wire.Read.invalid len rest).result, n.modify c (·.take got rest))
      | .short => none
    | .fail _ got text =>
      if Wire.readMessage ((n.conns c).ahead ++ got) = .short then
        some (.inTime (.error (.ofIo text)), n.modify c (·.take got []))
      else none
    | .elapse got =>
      if timed ∧ Wire.readMessage ((n.conns c).ahead ++ got) = .short then
        some (.elapsed, n.modify c (·.take got []))
      else none
    | _ => none
  | .newRequest service method payload, .uuids requestId correlationId, n =>
    let request := ServiceRequest.new requestId correlationId service method payload
    some (request, n.create t request)
  | _, _, _ => none

/-- What is left of an operation whose future is dropped. -/
def abandon : Op → (out : Nat) → (got : Bytes) → Net → Net
  | .write c msgType payload, out, _, n =>
    match Wire.writeMessage msgType payload with
    | .error _ => n
    | .ok bytes => n.modify c (·.send ⟨msgType, payload⟩ (bytes.take out))
  | .read c _, _, got, n => n.modify c (·.take got [])
  | _, _, _, n => n

/-! ### What an operation changes -/

section Frames
variable (n : Net) (c d : ConnId) (f : Conn → Conn)

@[simp] theorem modify_self : (n.modify c f).conns c = f (n.conns c) := Function.update_self ..

theorem modify_other (h : d ≠ c) : (n.modify c f).conns d = n.conns d := Function.update_of_ne h ..

@[simp] theorem modify_opened : (n.modify c f).opened = n.opened := rfl

@[simp] theorem modify_created : (n.modify c f).created = n.created := rfl

@[simp] theorem create_conns (t : Nat) (r : ServiceRequest) : (n.create t r).conns = n.conns := rfl

@[simp] theorem create_created_self (t : Nat) (r : ServiceRequest) :
    (n.create t r).created t = n.created t ++ [r] := Function.update_self ..

@[simp] theorem create_opened (t : Nat) (r : ServiceRequest) : (n.create t r).opened = n.opened := rfl

@[simp] theorem dial_conns_self (owner : Nat) : (n.dial owner).conns n.opened = .fresh owner :=
  Function.update_self ..

theorem dial_conns_other (owner : Nat) (h : d ≠ n.opened) : (n.dial owner).conns d = n.conns d :=
  Function.update_of_ne h ..

@[simp] theorem dial_opened (owner : Nat) : (n.dial owner).opened = n.opened + 1 := rfl

@[simp] theorem dial_created (owner : Nat) : (n.dial owner).created = n.created := rfl

end Frames

/-! ### What an operation can do -/

section Inversion
variable {t owner : Nat} {n n' : Net} {c : ConnId} {choice : Choice}

theorem perform_connect {timed : Bool} {r : Timed (Except String ConnId)}
    (h : n.perform t owner (.connect timed) choice = some (r, n')) :
    (r = .inTime (.ok n.opened) ∧ n' = n.dial owner) ∨ ((∀ d, r ≠ .inTime (.ok d)) ∧ n' = n) := by
  cases timed <;> cases choice <;> simp [perform] at h <;> obtain ⟨rfl, rfl⟩ := h <;> simp

theorem perform_split {r : Unit} (h : n.perform t owner (.split c) choice = some (r, n')) :
    n' = n.modify c Conn.split := by
  cases choice <;> simp [perform] at h
  exact h.symm

theorem perform_write {msgType : UInt8} {payload : Bytes} {r : Result Unit}
    (h : n.perform t owner (.write c msgType payload) choice = some (r, n')) :
    (¬ Wire.Fits ⟨msgType, payload⟩ ∧ r = .error (.invalidMessage "message too large") ∧ n' = n) ∨
    (Wire.Fits ⟨msgType, payload⟩ ∧ r = .ok () ∧
      n' = n.modify c (·.send ⟨msgType, payload⟩ (Wire.encode ⟨msgType, payload⟩))) ∨
    (Wire.Fits ⟨msgType, payload⟩ ∧ (∃ text, r = .error (.ofIo text)) ∧
      ∃ out, n' = n.modify c (·.send ⟨msgType, payload⟩ ((Wire.encode ⟨msgType, payload⟩).take out))) := by
  simp only [perform] at h
  by_cases hf : Wire.Fits ⟨msgType, payload⟩
  · rw [Wire.writeMessage_of_fits hf] at h
    cases choice <;> simp at h <;> obtain ⟨rfl, rfl⟩ := h
    · exact .inr (.inl ⟨hf, rfl, rfl⟩)
    · exact .inr (.inr ⟨hf, ⟨_, rfl⟩, _, rfl⟩)
  · rw [Wire.writeMessage_of_not_fits hf] at h
    simp only [Option.some.injEq, Prod.mk.injEq] at h
    exact .inl ⟨hf, h.1.symm, h.2.symm⟩

theorem perform_read {timed : Bool} {r : Timed (Result Frame)}
    (h : n.perform t owner (.read c timed) choice = some (r, n')) :
    (∃ f rest, Wire.readMessage ((n.conns c).ahead ++ choice.got) = .message f rest ∧
      r = .inTime (.ok f) ∧ n' = n.modify c fun conn => (conn.take choice.got rest).receive f) ∨
    ((∀ f, r ≠ .inTime (.ok f)) ∧ ∃ ahead, n' = n.modify c (·.take choice.got ahead)) := by
  cases choice with
  | arrive got =>
    simp only [perform] at h
    simp only [Choice.got]
    cases hr : Wire.readMessage ((n.conns c).ahead ++ got) with
    | message f rest =>
      simp only [hr, Option.some.injEq, Prod.mk.injEq] at h
      obtain ⟨rfl, rfl⟩ := h
      exact .inl ⟨f, rest, rfl, rfl, rfl⟩
    | invalid len rest =>
      simp only [hr, Option.some.injEq, Prod.mk.injEq] at h
      obtain ⟨rfl, rfl⟩ := h
      exact .inr ⟨by simp [Wire.Read.result], rest, rfl⟩
    | short => simp [hr] at h
  | fail out got text =>
    simp only [perform, Option.ite_none_right_eq_some, Option.some.injEq, Prod.mk.injEq] at h
    obtain ⟨-, rfl, rfl⟩ := h
    exact .inr ⟨by simp, [], rfl⟩
  | elapse got =>
    simp only [perform, Option.ite_none_right_eq_some, Option.some.injEq, Prod.mk.injEq] at h
    obtain ⟨-, rfl, rfl⟩ := h
    exact .inr ⟨by simp, [], rfl⟩
  | _ => simp [perform] at h

theorem perform_newRequest {service method : String} {payload : Value} {r : ServiceRequest}
    (h : n.perform t owner (.newRequest service method payload) choice = some (r, n')) :
    n' = n.create t r := by
  cases choice <;> simp [perform] at h
  obtain ⟨rfl, rfl⟩ := h
  rfl

/-- Only `connect` opens a connection. -/
theorem perform_opened {o : Op} {r : o.Ret} (ho : ∀ timed, o ≠ .connect timed)
    (h : n.perform t owner o choice = some (r, n')) : n'.opened = n.opened := by
  cases o with
  | connect timed => exact absurd rfl (ho timed)
  | split c => rw [perform_split h, modify_opened]
  | write c msgType payload =>
    rcases perform_write h with ⟨-, -, rfl⟩ | ⟨-, -, rfl⟩ | ⟨-, -, out, rfl⟩ <;> rfl
  | read c timed => rcases perform_read h with ⟨f, rest, -, -, rfl⟩ | ⟨-, ahead, rfl⟩ <;> rfl
  | newRequest service method payload => rw [perform_newRequest h, create_opened]

end Inversion

end Net

/-! ### Clients

A client is its own fields beside the connections. `Own` is its interface to the
fields, and `NetWith Own` all that its code may do. -/

inductive NetOp (Own : Async.Interface) where
  | net (o : Net.Op)
  | own (o : Own.Op)

/-- The network, and a client's own fields. -/
abbrev NetWith (Own : Async.Interface) : Async.Interface where
  Op := NetOp Own
  Ret
    | .net o => o.Ret
    | .own o => Own.Ret o

/-- A client's code. -/
abbrev Code (Own : Async.Interface) (α : Type) := ExceptT ProtocolError (Async.Program (NetWith Own)) α

namespace Code
variable {Own : Async.Interface} {α : Type}

def net (o : Net.Op) : Code Own o.Ret := monadLift (Async.Program.op (E := NetWith Own) (.net o))

def own (o : Own.Op) : Code Own (Own.Ret o) := monadLift (Async.Program.op (E := NetWith Own) (.own o))

/-- `result?`. -/
def ofResult (r : Result α) : Code Own α := ExceptT.mk (pure r)

/-- `result.map_err(|_| Timeout)??`. -/
def inTime (r : Timed (Result α)) : Code Own α :=
  match r with
  | .inTime r => ofResult r
  | .elapsed => throw .timeout

/-- `serde_json::from_slice(payload)?`. -/
def decode [Deserialize α] (S : Codec) (payload : Bytes) : Code Own α :=
  match S.fromSlice payload with
  | some a => pure a
  | none => throw (.ofJson (S.message payload))

def split (c : ConnId) : Code Own Unit := net (.split c)

/-- `write_message(..).await?`. -/
def write (c : ConnId) (msgType : UInt8) (payload : Bytes) : Code Own Unit := do
  ofResult (← net (.write c msgType payload))

/-- `timeout(.., read_message(..)).await.map_err(|_| Timeout)??`. -/
def readTimed (c : ConnId) : Code Own Frame := do
  inTime (← net (.read c true))

/-- `read_message(..).await?`. -/
def read (c : ConnId) : Code Own Frame := do
  inTime (← net (.read c false))

def newRequest (service method : String) (payload : Value) : Code Own ServiceRequest :=
  net (.newRequest service method payload)

/-! What each of these owes, under any discipline. -/

/-- What an operation under a timer owes: without an answer in time, what a timeout owes. -/
def EndsInTime {G : Type} (Q : G → α → Prop) (R : G → ProtocolError → Prop) (g : G) :
    Timed (Result α) → Prop
  | .inTime r => Async.Ends Q R g r
  | .elapsed => R g .timeout

section Meets
open Async
variable {G : Type} {D : Discipline (NetWith Own) G} {R : G → ProtocolError → Prop} {g : G}

theorem meets_net (o : Net.Op) (Q : G → o.Ret → Prop) :
    Meets D (net o : Code Own o.Ret) Q R g ↔
      D.demand g (.net o) ∧ ∀ r g', D.move g (.net o) r g' → Q g' r := meets_lift

theorem meets_own (o : Own.Op) (Q : G → Own.Ret o → Prop) :
    Meets D (own o : Code Own (Own.Ret o)) Q R g ↔
      D.demand g (.own o) ∧ ∀ r g', D.move g (.own o) r g' → Q g' r := meets_lift

theorem meets_ofResult (r : Result α) (Q : G → α → Prop) :
    Meets D (ofResult r : Code Own α) Q R g ↔ Ends Q R g r := Iff.rfl

theorem meets_inTime (r : Timed (Result α)) (Q : G → α → Prop) :
    Meets D (inTime r : Code Own α) Q R g ↔ EndsInTime Q R g r := by
  cases r <;> rfl

theorem meets_decode [Deserialize α] (S : Codec) (payload : Bytes) (Q : G → α → Prop) :
    Meets D (decode S payload : Code Own α) Q R g ↔
      Ends Q R g ((S.fromSlice payload).elim (.error (.ofJson (S.message payload))) .ok) := by
  unfold decode
  cases (S.fromSlice payload : Option α) <;> rfl

theorem meets_write (c : ConnId) (msgType : UInt8) (payload : Bytes) (Q : G → Unit → Prop) :
    Meets D (write c msgType payload : Code Own Unit) Q R g ↔
      D.demand g (.net (.write c msgType payload)) ∧
        ∀ r g', D.move g (.net (.write c msgType payload)) r g' → Ends Q R g' r := by
  unfold write
  rw [meets_bind]
  exact meets_net (.write c msgType payload) _

theorem meets_readTimed (c : ConnId) (Q : G → Frame → Prop) :
    Meets D (readTimed c : Code Own Frame) Q R g ↔
      D.demand g (.net (.read c true)) ∧
        ∀ r g', D.move g (.net (.read c true)) r g' → EndsInTime Q R g' r := by
  unfold readTimed
  simp only [meets_bind, meets_inTime]
  exact meets_net (.read c true) _

theorem meets_read (c : ConnId) (Q : G → Frame → Prop) :
    Meets D (read c : Code Own Frame) Q R g ↔
      D.demand g (.net (.read c false)) ∧
        ∀ r g', D.move g (.net (.read c false)) r g' → EndsInTime Q R g' r := by
  unfold read
  simp only [meets_bind, meets_inTime]
  exact meets_net (.read c false) _

end Meets

end Code

/-- A client and the connections of its process. -/
structure Client (F : Type) where
  fields : F
  net : Net

namespace Client
variable {Own : Async.Interface} {F : Type}

/-- A client's machine, from what its operations do to its own fields. -/
def machine (own : Nat → (o : Own.Op) → Choice → F → Option (Own.Ret o × F)) :
    Async.Machine (NetWith Own) (Client F) Choice where
  perform t
    | .net o, choice, w => (w.net.perform t 0 o choice).map fun x => (x.1, { w with net := x.2 })
    | .own o, choice, w => (own t o choice w.fields).map fun x => (x.1, { w with fields := x.2 })

end Client

end XProtocol
