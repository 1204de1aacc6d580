import XProtocol.Net

/-! The reconnecting client.

Its methods take the client by shared reference, so that any number of them may run
at once. Three locks stand between them: the async mutexes `lock` and `stream`, and
the lock around `state`, which blocks a thread. The state is read and written for a
statement at a time, but a read guard may also be kept (`guardState`, `dropState`).
A writer first asks (`queueWrite`); from then on no reader comes in, and it writes
once the last guard is gone.

A method gives its locks back wherever it ends: a guard is dropped on every way out
(`released`). -/
namespace XProtocol
open Async (Program Interface)
open Json (Bytes Value Codec)
open Wire

inductive ConnectionState where
  | disconnected
  | connecting
  | connected
  | reconnecting
  | failed
  deriving DecidableEq

structure ConnectionStats where
  totalRequests : Nat
  successfulRequests : Nat
  failedRequests : Nat
  reconnectionAttempts : Nat
  reconnectionSuccesses : Nat
  lastConnectedAt : Nat
  lastRequestAt : Nat

namespace ConnectionStats

def new : ConnectionStats :=
  { totalRequests := 0, successfulRequests := 0, failedRequests := 0, reconnectionAttempts := 0,
    reconnectionSuccesses := 0, lastConnectedAt := 0, lastRequestAt := 0 }

def recordRequest (s : ConnectionStats) (now : Nat) (success : Bool) : ConnectionStats :=
  let s := { s with totalRequests := s.totalRequests + 1 }
  let s := if success then { s with successfulRequests := s.successfulRequests + 1 }
    else { s with failedRequests := s.failedRequests + 1 }
  { s with lastRequestAt := now }

def recordReconnect (s : ConnectionStats) (now : Nat) (success : Bool) : ConnectionStats :=
  let s := { s with reconnectionAttempts := s.reconnectionAttempts + 1 }
  if success then { s with reconnectionSuccesses := s.reconnectionSuccesses + 1, lastConnectedAt := now }
  else s

end ConnectionStats

/-- Durations are in nanoseconds. -/
structure ConnectionConfig where
  maxReconnectAttempts : Nat
  reconnectDelay : Nat

structure ReliableUdsClient where
  state : ConnectionState
  /-- The tasks that hold a read guard of `state`, and those that wait to write it. -/
  readers : List Nat
  writers : List Nat
  stream : Option ConnId
  /-- The tasks that hold the mutexes. -/
  streamLock : Option Nat
  lock : Option Nat
  stats : ConnectionStats
  connectedAt : Option Nat
  lastRequestAt : Option Nat

namespace ReliableUdsClient

def new : ReliableUdsClient :=
  { state := .disconnected, readers := [], writers := [], stream := none, streamLock := none, lock := none,
    stats := .new, connectedAt := none, lastRequestAt := none }

inductive Op where
  | lock
  | unlock
  | lockStream
  | unlockStream
  /-- The stream behind its guard. -/
  | stream
  | setStream (s : Option ConnId)
  /-- `state.read()`, for a statement. -/
  | readState
  /-- `state.read()`, kept. -/
  | guardState
  | dropState
  /-- `state.write()`: the request for it, and the write. -/
  | queueWrite
  | writeState (s : ConnectionState)
  | sleep (nanos : Nat)
  | recordRequest (success : Bool)
  | recordReconnect (success : Bool)
  | stampConnected
  | clearConnected
  | stampRequest
  | panic

abbrev Fields : Interface where
  Op := Op
  Ret
    | .stream => Option ConnId
    | .readState => ConnectionState
    | .guardState => ConnectionState
    | .panic => Empty
    | _ => Unit

def perform (t : Nat) : (o : Op) → Choice → ReliableUdsClient → Option (Fields.Ret o × ReliableUdsClient)
  | .lock, .go, u => if u.lock = none then some ((), { u with lock := some t }) else none
  | .unlock, .go, u => some ((), { u with lock := none })
  | .lockStream, .go, u => if u.streamLock = none then some ((), { u with streamLock := some t }) else none
  | .unlockStream, .go, u => some ((), { u with streamLock := none })
  | .stream, .go, u => some (u.stream, u)
  | .setStream s, .go, u => some ((), { u with stream := s })
  | .readState, .go, u => if u.writers = [] then some (u.state, u) else none
  | .guardState, .go, u =>
    if u.writers = [] then some (u.state, { u with readers := t :: u.readers }) else none
  | .dropState, .go, u => some ((), { u with readers := u.readers.erase t })
  | .queueWrite, .go, u => some ((), { u with writers := t :: u.writers })
  | .writeState s, .go, u =>
    if u.readers = [] then some ((), { u with state := s, writers := u.writers.erase t }) else none
  | .sleep _, .go, u => some ((), u)
  | .recordRequest success, .clock now, u => some ((), { u with stats := u.stats.recordRequest now success })
  | .recordReconnect success, .clock now, u =>
    some ((), { u with stats := u.stats.recordReconnect now success })
  | .stampConnected, .clock now, u => some ((), { u with connectedAt := some now })
  | .clearConnected, .go, u => some ((), { u with connectedAt := none })
  | .stampRequest, .clock now, u => some ((), { u with lastRequestAt := some now })
  | _, _, _ => none

def machine : Async.Machine (NetWith Fields) (Client ReliableUdsClient) Choice := Client.machine perform

/-- The operations at which a method is suspended and its thread goes on with another task. -/
def awaits : NetOp Fields → Bool
  | .net (.connect _) => true
  | .net (.write ..) => true
  | .net (.read ..) => true
  | .own .lock => true
  | .own .lockStream => true
  | .own (.sleep _) => true
  | _ => false

/-! ### The methods -/

abbrev Code := XProtocol.Code Fields

def own (o : Op) : Code (Fields.Ret o) := @XProtocol.Code.own Fields o

def isConnected : Code Bool := return (← own .readState) = .connected

/-- `*self.state.write() = s`. -/
def writeState (s : ConnectionState) : Code Unit := do
  own .queueWrite
  own (.writeState s)

/-- `*self.stream.lock().await = s`. -/
def putStream (s : Option ConnId) : Code Unit := do
  own .lockStream
  own (.setStream s)
  own .unlockStream

/-- A panic unwinds: it gives `lock` back, and the future never completes. -/
def panic {α : Type} : Code α := do
  own .unlock
  nomatch ← own .panic

/-- The rest of a method that holds both mutexes: they are given back where it ends. -/
def released {α : Type} (body : Code α) : Code α := do
  let r ← monadLift body.run
  own .unlockStream
  own .unlock
  .ofResult r

section Methods
variable (S : Codec) (config : ConnectionConfig)

/-- The first block of `connect`: whether another task is found to have connected. The
guard is kept over the sleep. -/
def awaitOther : Code Bool := do
  let state ← own .guardState
  if state = .connecting then
    own (.sleep (100 * 10 ^ 6))
    let state ← own .readState
    own .dropState
    return state = .connected
  else
    own .dropState
    return false

/-- The end of `connect` and of a reconnection. -/
def established (c : ConnId) : Code Unit := do
  putStream (some c)
  writeState .connected
  own .stampConnected
  own (.recordReconnect true)

def connect : Code Unit := do
  if ← awaitOther then
    return ()
  own .lock
  let state ← own .guardState
  own .dropState
  if state = .connected ∨ state = .connecting then
    own .unlock
  else
    writeState .connecting
    match ← .net (.connect true) with
    | .inTime (.ok c) =>
      established c
      own .unlock
    | .inTime (.error text) =>
      writeState .failed
      own (.recordReconnect false)
      own .unlock
      throw (.connectionFailed text)
    | .elapsed =>
      writeState .failed
      own (.recordReconnect false)
      own .unlock
      throw .timeout

def disconnect : Code Unit := do
  putStream none
  writeState .disconnected
  own .clearConnected

/-- What `call` does on a reply it cannot use. -/
def giveUp {α : Type} (e : ProtocolError) : Code α := do
  own (.recordRequest false)
  putStream none
  writeState .disconnected
  throw e

/-- The exchange of `call`, behind both mutexes. -/
def exchange (c : ConnId) (service method : String) (payload : Value) : Code ServiceResponse := do
  .split c
  let request ← .newRequest service method payload
  .write c msgRequest (S.toVec request)
  match ← .net (.read c true) with
  | .elapsed =>
    own (.recordRequest false)
    throw .timeout
  | .inTime r =>
    let f ← .ofResult r
    if f.msgType = msgError then
      let error : Value ← .decode S f.payload
      giveUp (.server (((error.get "message").bind Value.asStr).getD "Unknown error"))
    else if f.msgType ≠ msgResponse then
      giveUp (.protocol s!"Unexpected message type: {f.msgType}")
    else
      let response : ServiceResponse ← .decode S f.payload
      own (.recordRequest true)
      own .stampRequest
      return response

def call (service method : String) (payload : Value) : Code ServiceResponse := do
  if !(← isConnected) then
    connect
  own .lock
  own .lockStream
  match ← own .stream with
  | some c => released (exchange S c service method payload)
  | none => released do
    writeState .disconnected
    throw .connectionClosed

/-- What `call` does once the client is connected. -/
def callBehind (S : Codec) (service method : String) (payload : Value) : Code ServiceResponse := do
  own .lock
  own .lockStream
  match ← own .stream with
  | some c => released (exchange S c service method payload)
  | none => released do
    writeState .disconnected
    throw .connectionClosed

def ping : Code Unit := do
  if !(← isConnected) then
    throw .connectionClosed
  own .lock
  own .lockStream
  match ← own .stream with
  | some c => released (.write c msgPing [])
  | none => released (throw .connectionClosed)

/-- The largest `Duration`. -/
def maxDuration : Nat := (2 ^ 64 - 1) * 10 ^ 9 + 999999999

/-- The attempts of `reconnect` from the given one on: whether one of them succeeded. -/
def attempts (config : ConnectionConfig) : (left attempt : Nat) → Code Bool
  | 0, _ => return false
  | left + 1, attempt => do
    writeState .reconnecting
    putStream none
    match ← .net (.connect true) with
    | .inTime (.ok c) =>
      established c
      return true
    | .inTime (.error _) | .elapsed =>
      let delay := config.reconnectDelay * (attempt + 1)
      if delay > maxDuration then
        panic
      own (.sleep (min delay (30 * 10 ^ 9)))
      attempts config left (attempt + 1)

def reconnect : Code Unit := do
  own .lock
  if ← attempts config config.maxReconnectAttempts 0 then
    own .unlock
  else
    writeState .failed
    own (.recordReconnect false)
    own .unlock
    throw (.connectionFailed s!"Failed to reconnect after {config.maxReconnectAttempts} attempts")

def ensureConnected : Code Unit := do
  if !(← isConnected) then
    connect

/-- What a task asks of the client. -/
inductive Job where
  | connect
  | ensureConnected
  | call (service method : String) (payload : Value)
  | ping
  | disconnect
  | reconnect

inductive Outcome where
  | done (r : Result Unit)
  | reply (r : Result ServiceResponse)

def Job.task : Job → Program (NetWith Fields) Outcome
  | .connect => Outcome.done <$> ReliableUdsClient.connect.run
  | .ensureConnected => Outcome.done <$> ReliableUdsClient.ensureConnected.run
  | .call service method payload => Outcome.reply <$> (ReliableUdsClient.call S service method payload).run
  | .ping => Outcome.done <$> ReliableUdsClient.ping.run
  | .disconnect => Outcome.done <$> ReliableUdsClient.disconnect.run
  | .reconnect => Outcome.done <$> (ReliableUdsClient.reconnect config).run

/-- A new client, and the tasks that share it. -/
def start (jobs : List Job) : Async.Config (NetWith Fields) (Client ReliableUdsClient) Outcome :=
  ⟨⟨.new, .empty⟩, jobs.map (Job.task S config)⟩

end Methods

/-! ### Stretches of runs -/

/-- Task `t` gets connected; nobody else moves. -/
def connects (t : Nat) : List (Nat × Choice) := goes t 13 ++ [(t, .clock 1), (t, .clock 1)] ++ goes t 1

/-- Task `t` sends the request of its call, which gets the id `id`. -/
def asks (t : Nat) (id : String) : List (Nat × Choice) := goes t 5 ++ [(t, .uuids id id)] ++ goes t 1

def patient : ConnectionConfig := { maxReconnectAttempts := 5, reconnectDelay := 10 ^ 9 }

def say : Job := .call "echo" "say" .null

end ReliableUdsClient

end XProtocol
