import XProtocol.Client.Shared

/-! The pool of Unix-socket clients.

A call waits for a permit, takes an idle client or makes one, and puts it back after a
response, and after an error that says that the connection is gone; after any other error
the client is dropped. `createdClients` counts the clients that were made while it was
below `maxPoolSize`; a call that finds it there looks for an idle client three times more,
and makes one all the same. An item of a batch does not look again. The items of a batch
are tasks of their own here; that they share one only takes runs away.

The semaphore is never closed. A call drops a client that does not go back into the pool
before it gives back its permit; an item of a batch still has such a client when it gives
back its permit, and drops it at its end. On a runtime of several threads other tasks run
between the two. -/
namespace XProtocol
open Async (Program Interface)
open Json (Value Codec)

/-- How many values a `usize` has. -/
def usizeSize : Nat := 2 ^ 64

/-- `fetch_add(1)` on a `usize`, which wraps around. -/
def usizeSucc (n : Nat) : Nat := if n + 1 = usizeSize then 0 else n + 1

/-- `fetch_sub(1)` on a `usize`. -/
def usizePred (n : Nat) : Nat := if n = 0 then usizeSize - 1 else n - 1

structure UdsClientPool where
  permits : Nat
  poolLock : Option Nat
  pool : List Nat
  createdClients : Nat
  /-- How many clients have been made. -/
  born : Nat

namespace UdsClientPool

inductive Op where
  /-- `semaphore.acquire()`: whether there was a permit. -/
  | acquire
  /-- `drop(permit)`. -/
  | release
  | lockPool
  | unlockPool
  | pop
  | len
  | push (client : Nat)
  /-- The client goes out of scope. -/
  | discard (client : Nat)
  | idle
  | clear
  /-- `created_clients.fetch_add(1)`: the count before. -/
  | addCreated
  | subCreated
  | resetCreated
  | newClient
  | sleep
  /-- An operation of a client's method. -/
  | on (client : Nat) (o : SharedUdsClient.Op)

abbrev Calls : Interface where
  Op := Op
  Ret
    | .acquire => Bool
    | .pop => Option Nat
    | .len => Nat
    | .idle => List Nat
    | .addCreated => Nat
    | .newClient => Nat
    | .on _ o => SharedUdsClient.Calls.Ret o
    | _ => Unit

/-! ### The methods -/

abbrev Code (α : Type) := ExceptT ProtocolError (Program Calls) α

def op (o : Op) : Code (Calls.Ret o) := monadLift (@Program.op Calls o)

/-- `pool.lock().await.pop()`. -/
def takeIdle : Code (Option Nat) := do
  op .lockPool
  let client ← op .pop
  op .unlockPool
  return client

/-- The `while retries > 0` of `get_or_create_client`. -/
def retry : (retries : Nat) → Code Nat
  | 0 => op .newClient
  | retries + 1 => do
    match ← takeIdle with
    | some client => return client
    | none =>
      op .sleep
      retry retries

section Methods
variable (S : Codec) (maxPoolSize : Nat)

def getOrCreateClient : Code Nat := do
  match ← takeIdle with
  | some client => return client
  | none =>
    let created ← op .addCreated
    if created < maxPoolSize then
      op .newClient
    else
      op .subCreated
      retry 3

/-- Whether a client goes back into the pool after this result. -/
def shouldPool : Result ServiceResponse → Bool
  | .ok _ => true
  | .error .connectionClosed => true
  | .error (.connectionFailed _) => true
  | .error _ => false

/-- `let mut pool = self.pool.lock().await; if pool.len() < .. { pool.push(client) }`: the client that
is left, if there is no room. -/
def putBack (client : Nat) : Code (Option Nat) := do
  op .lockPool
  if (← op .len) < maxPoolSize then
    op (.push client)
    op .unlockPool
    return none
  else
    op .unlockPool
    return some client

def returnClient (client : Nat) (result : Result ServiceResponse) : Code Unit := do
  if shouldPool result then
    match ← putBack maxPoolSize client with
    | none => return ()
    | some client => op (.discard client)
  else
    op (.discard client)

/-- `client.call(..).await`. -/
def clientCall (client : Nat) (service method : String) (payload : Value) : Code (Result ServiceResponse) :=
  monadLift ((SharedUdsClient.call S service method payload).embed (Op.on client) fun _ r => r : Program Calls _)

def call (service method : String) (payload : Value) : Code ServiceResponse := do
  if !(← op .acquire) then
    throw (.resourceExhausted "pool exhausted")
  let client ← getOrCreateClient maxPoolSize
  let result ← clientCall S client service method payload
  returnClient maxPoolSize client result
  op .release
  ExceptT.mk (pure result)

/-- The client of an item of a batch: an idle one, or a new one, counted or not. -/
def itemClient : Code Nat := do
  match ← takeIdle with
  | some client => return client
  | none =>
    let created ← op .addCreated
    if created < maxPoolSize then
      op .newClient
    else
      op .subCreated
      op .newClient

/-- The end of an item's scope, with the client that is left in it. -/
def leave : Option Nat → Code Unit
  | none => pure ()
  | some client => op (.discard client)

/-- An item of a batch. -/
def callItem (service method : String) (payload : Value) : Code ServiceResponse := do
  if !(← op .acquire) then
    throw (.resourceExhausted "pool exhausted")
  let client ← itemClient maxPoolSize
  let result ← clientCall S client service method payload
  let left ← if shouldPool result then putBack maxPoolSize client else pure (some client)
  op .release
  leave left
  ExceptT.mk (pure result)

def callBatch (requests : List (String × String × Value)) : List (Code ServiceResponse) :=
  requests.map fun x => callItem S maxPoolSize x.1 x.2.1 x.2.2

def closeClients : List Nat → Code Unit
  | [] => pure ()
  | client :: rest => do
    let _ ← monadLift (SharedUdsClient.close.embed (Op.on client) fun _ r => r : Program Calls _)
    closeClients rest

def close : Code Unit := do
  op .lockPool
  let clients ← op .idle
  closeClients clients
  op .clear
  op .resetCreated
  op .unlockPool

end Methods

/-! ### The pool as a machine -/

def new (maxConcurrent : Nat) : UdsClientPool :=
  { permits := maxConcurrent, poolLock := none, pool := [], createdClients := 0, born := 0 }

/-- What the pool reports as its clients. -/
def pooledCount (p : UdsClientPool) : Nat := p.createdClients

/-- An operation of task `t` on the pool itself. -/
def performPool (t : Nat) : (o : Op) → Choice → UdsClientPool → Option (Calls.Ret o × UdsClientPool)
  | .acquire, .go, p => if p.permits = 0 then none else some (true, { p with permits := p.permits - 1 })
  | .release, .go, p => some ((), { p with permits := p.permits + 1 })
  | .lockPool, .go, p => if p.poolLock = none then some ((), { p with poolLock := some t }) else none
  | .unlockPool, .go, p => some ((), { p with poolLock := none })
  | .pop, .go, p => some (p.pool.getLast?, { p with pool := p.pool.dropLast })
  | .len, .go, p => some (p.pool.length, p)
  | .push client, .go, p => some ((), { p with pool := p.pool ++ [client] })
  | .discard _, .go, p => some ((), p)
  | .idle, .go, p => some (p.pool, p)
  | .clear, .go, p => some ((), { p with pool := [] })
  | .addCreated, .go, p => some (p.createdClients, { p with createdClients := usizeSucc p.createdClients })
  -- Behind a `resetCreated` this may go below zero.
  | .subCreated, .go, p => some ((), { p with createdClients := usizePred p.createdClients })
  | .resetCreated, .go, p => some ((), { p with createdClients := 0 })
  | .newClient, .go, p => some (p.born, { p with born := p.born + 1 })
  | .sleep, .go, p => some ((), p)
  | _, _, _ => none

/-- The pool, and the clients of the process. -/
structure World where
  pool : UdsClientPool
  clients : Clients

def machine : Async.Machine Calls World Choice where
  perform t
    | .on client o, choice, w =>
      (w.clients.perform t client o choice).map fun x => (x.1, { w with clients := x.2 })
    | o, choice, w => (performPool t o choice w.pool).map fun x => (x.1, { w with pool := x.2 })

/-- What the callers of a pool ask for. -/
inductive Job where
  | call (service method : String) (payload : Value)
  | batch (requests : List (String × String × Value))
  | close

inductive Outcome where
  | reply (r : Result ServiceResponse)
  | closed

/-- The tasks of a job: one for a call, one for each item of a batch. -/
def Job.tasks (S : Codec) (maxPoolSize : Nat) : Job → List (Program Calls Outcome)
  | .call service method payload => [Outcome.reply <$>
    (UdsClientPool.call S maxPoolSize service method payload).run]
  | .batch requests => (callBatch S maxPoolSize requests).map fun p => Outcome.reply <$> p.run
  | .close => [(fun _ => Outcome.closed) <$> UdsClientPool.close.run]

/-- `with_max_pool_size`, and what the callers are going to ask. -/
def start (S : Codec) (maxConcurrent maxPoolSize : Nat) (jobs : List Job) : Async.Config Calls World Outcome :=
  ⟨⟨.new maxConcurrent, .new⟩, jobs.flatMap (Job.tasks S maxPoolSize)⟩

end UdsClientPool

end XProtocol
