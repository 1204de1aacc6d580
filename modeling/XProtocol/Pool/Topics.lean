import Mathlib.Data.List.Permutation
import XProtocol.Async.RwLock
import XProtocol.Pool.Uds

/-! The pool with a client for every topic.

A call without a topic goes to the default pool. A call with one looks its topic's client
up, under the write lock of the table and making the client if there is none yet, and
calls it under a mutex of its own. Who waits for the write lock keeps later readers out. The items of a batch are tasks of their own; their text
is that of a call. `close` closes the default pool, and then, under a read lock, the
topics' clients in the order in which the table happens to have them. -/
namespace XProtocol
open Async (Program Interface RwLock)
open Json (Value Codec)

structure TopicBasedPool where
  defaultPool : UdsClientPool
  /-- The topics and their clients. -/
  topicClients : List (String × Nat)
  /-- The lock of the table. -/
  lock : RwLock
  /-- Who has the guard of the mutex around a client. -/
  guards : Nat → Option Nat

namespace TopicBasedPool

inductive Op where
  /-- An operation of a method of the default pool. -/
  | default (o : UdsClientPool.Op)
  /-- The `write()` and the `read()` of `topic_clients`, and the drops of their guards. -/
  | table (use : RwLock.Use)
  /-- `entry(topic).or_insert_with(..).clone()`. -/
  | entry (topic : String)
  /-- The clients of the table, in the order of its iteration. -/
  | iter
  /-- `client.lock()`. -/
  | lock (client : Nat)
  | unlock (client : Nat)
  /-- An operation of a client's method. -/
  | on (client : Nat) (o : SharedUdsClient.Op)

abbrev Calls : Interface where
  Op := Op
  Ret
    | .default o => UdsClientPool.Calls.Ret o
    | .entry _ => Nat
    | .iter => List Nat
    | .on _ o => SharedUdsClient.Calls.Ret o
    | _ => Unit

/-! ### The methods -/

abbrev Code (α : Type) := ExceptT ProtocolError (Program Calls) α

def op (o : Op) : Code (Calls.Ret o) := monadLift (@Program.op Calls o)

/-- A method of the default pool. -/
def onDefault {α : Type} (method : UdsClientPool.Code α) : Code α :=
  ExceptT.mk (method.run.embed (F := Calls) Op.default fun _ r => r)

/-- A method of a client. -/
def onClient {α : Type} (client : Nat) (method : Program SharedUdsClient.Calls (Result α)) : Code (Result α) :=
  monadLift (method.embed (F := Calls) (Op.on client) fun _ r => r)

section Methods
variable (S : Codec) (maxConcurrent : Nat)

def callSerial (service method : String) (payload : Value) (topic : String) : Code ServiceResponse := do
  op (.table .claim)
  op (.table .write)
  let client ← op (.entry topic)
  op (.table .endWrite)
  op (.lock client)
  let result ← onClient client (SharedUdsClient.call S service method payload)
  op (.unlock client)
  ExceptT.mk (pure result)

def callWithTopic (service method : String) (payload : Value) (topic : Option String) : Code ServiceResponse :=
  let byDefault := onDefault (UdsClientPool.call S maxConcurrent service method payload)
  match topic with
  | some topic => if topic.isEmpty then byDefault else callSerial S service method payload topic
  | none => byDefault

def call (service method : String) (payload : Value) : Code ServiceResponse :=
  callWithTopic S maxConcurrent service method payload none

def callWithTopics (requests : List (String × String × Value × Option String)) : List (Code ServiceResponse) :=
  requests.map fun x => callWithTopic S maxConcurrent x.1 x.2.1 x.2.2.1 x.2.2.2

/-- The loop of `close`. -/
def closeClients : List Nat → Code Unit
  | [] => pure ()
  | client :: rest => do
    op (.lock client)
    let _ ← onClient client SharedUdsClient.close
    op (.unlock client)
    closeClients rest

def close : Code Unit := do
  onDefault UdsClientPool.close
  op (.table .read)
  let clients ← op .iter
  closeClients clients
  op (.table .endRead)

end Methods

/-! ### The pool as a machine -/

def new (maxConcurrent : Nat) : TopicBasedPool :=
  { defaultPool := .new maxConcurrent, topicClients := [], lock := .free, guards := fun _ => none }

def setGuard (p : TopicBasedPool) (client : Nat) (t : Option Nat) : TopicBasedPool :=
  let guards := Function.update p.guards client t
  { p with guards }

/-- A new client for `topic`. -/
def insert (p : TopicBasedPool) (topic : String) : TopicBasedPool :=
  let born := p.defaultPool.born
  { p with
    topicClients := p.topicClients ++ [(topic, born)]
    defaultPool := { p.defaultPool with born := born + 1 } }

/-- An operation of task `t` on the table and its clients' mutexes. -/
def performTopics (t : Nat) : (o : Op) → Choice → TopicBasedPool → Option (Calls.Ret o × TopicBasedPool)
  | .table use, .go, p => (p.lock.use t use).map fun lock => ((), { p with lock })
  | .entry topic, .go, p =>
    match p.topicClients.lookup topic with
    | some client => some (client, p)
    | none => some (p.defaultPool.born, p.insert topic)
  -- The order of the iteration is not specified: the environment numbers it.
  | .iter, .pick (some k), p => (p.topicClients.map Prod.snd).permutations[k]?.map fun clients => (clients, p)
  | .lock client, .go, p => if p.guards client = none then some ((), p.setGuard client (some t)) else none
  | .unlock client, .go, p => some ((), p.setGuard client none)
  | _, _, _ => none

/-- The pool, and the clients of the process. -/
structure World where
  pool : TopicBasedPool
  clients : Clients

def machine : Async.Machine Calls World Choice where
  perform t
    | .default o, choice, w =>
      (UdsClientPool.machine.perform t o choice ⟨w.pool.defaultPool, w.clients⟩).map fun x =>
        (x.1, ⟨{ w.pool with defaultPool := x.2.pool }, x.2.clients⟩)
    | .on client o, choice, w =>
      (w.clients.perform t client o choice).map fun x => (x.1, { w with clients := x.2 })
    | o, choice, w => (performTopics t o choice w.pool).map fun x => (x.1, { w with pool := x.2 })

/-- What the callers of a pool ask for. -/
inductive Job where
  | call (service method : String) (payload : Value) (topic : Option String)
  | batch (requests : List (String × String × Value × Option String))
  | close

inductive Outcome where
  | reply (r : Result ServiceResponse)
  | closed

/-- The tasks of a job: one for a call, one for each item of a batch. -/
def Job.tasks (S : Codec) (maxConcurrent : Nat) : Job → List (Program Calls Outcome)
  | .call service method payload topic =>
    [Outcome.reply <$> (callWithTopic S maxConcurrent service method payload topic).run]
  | .batch requests => (callWithTopics S maxConcurrent requests).map fun p => Outcome.reply <$> p.run
  | .close => [(fun _ => Outcome.closed) <$> TopicBasedPool.close.run]

/-- A new pool, and what its callers are going to ask. -/
def start (S : Codec) (maxConcurrent : Nat) (jobs : List Job) : Async.Config Calls World Outcome :=
  ⟨⟨.new maxConcurrent, .new⟩, jobs.flatMap (Job.tasks S maxConcurrent)⟩

end TopicBasedPool

end XProtocol
