import XProtocol.CircuitBreaker
import XProtocol.Client.Shared

/-! The production pool.

A call passes the shutdown flag and the breaker, waits for a permit, takes an idle
client or makes a new one, runs the client's call under a timer, and puts the client
back whatever the outcome. The timer drops the call where it waits.

Everything a call does to the pool is one operation (`Op`). The items of a batch run
the same steps, each as a task of its own: they are polled together, so that they
interleave like tasks. How long a timeout is plays no part: the timer may fire
whenever the call waits. -/
namespace XProtocol
open Async (Program Interface)
open Json (Value Codec)

namespace ProductionPool

inductive Counter where
  | totalRequests
  | successfulRequests
  | failedRequests
  | timeoutErrors
  | activeRequests
  deriving DecidableEq

inductive Op where
  | shuttingDown
  | shutDown
  | canExecute
  | recordSuccess
  | recordFailure
  | add (counter : Counter)
  | sub (counter : Counter)
  /-- `semaphore.acquire()`: whether there was a permit; not if the semaphore is closed. -/
  | acquire
  | release
  | closeSemaphore
  | lockPool
  | unlockPool
  | pop
  | push (client : Nat)
  | idle
  | clear
  | newClient
  /-- An operation of a client's call, under the timer of the call. -/
  | timed (client : Nat) (o : SharedUdsClient.Op)
  | plain (client : Nat) (o : SharedUdsClient.Op)

abbrev Calls : Interface where
  Op := Op
  Ret
    | .shuttingDown => Bool
    | .canExecute => Result Unit
    | .acquire => Bool
    | .pop => Option Nat
    | .idle => List Nat
    | .newClient => Nat
    | .timed _ o => Option (SharedUdsClient.Calls.Ret o)
    | .plain _ o => SharedUdsClient.Calls.Ret o
    | _ => Unit

/-! ### The methods -/

abbrev Code (α : Type) := ExceptT ProtocolError (Program Calls) α

def op (o : Op) : Code (Calls.Ret o) := monadLift (@Program.op Calls o)

section Methods
variable (S : Codec)

/-- `timeout(.., client.call(..)).await`: nothing if the timer fired first. -/
def timedCall (client : Nat) (service method : String) (payload : Value) :
    Program Calls (Option (Result ServiceResponse)) :=
  (SharedUdsClient.call S service method payload).droppable (Op.timed client) fun _ r => r

/-- What a call makes of the outcome. -/
def settle : Option (Result ServiceResponse) → Code ServiceResponse
  | some (.ok response) => do
    op .recordSuccess
    op (.add .successfulRequests)
    return response
  | some (.error e) => do
    op .recordFailure
    op (.add .failedRequests)
    throw e
  | none => do
    op .recordFailure
    op (.add .timeoutErrors)
    op (.add .failedRequests)
    throw .timeout

def callWithTimeout (service method : String) (payload : Value) : Code ServiceResponse := do
  if ← op .shuttingDown then
    throw (.server "pool is shutting down")
  let admitted ← op .canExecute
  ExceptT.mk (pure admitted)
  op (.add .totalRequests)
  op (.add .activeRequests)
  if !(← op .acquire) then
    op (.sub .activeRequests)
    throw (.resourceExhausted "pool exhausted")
  op .lockPool
  let client ← match ← op .pop with
    | some client => pure client
    | none => op .newClient
  op .unlockPool
  let result ← monadLift (timedCall S client service method payload)
  op .lockPool
  op (.push client)
  op .unlockPool
  op .release
  op (.sub .activeRequests)
  settle result

/-- The items of a batch, each of which goes through the steps of a call. -/
def callBatchWithTimeout (requests : List (String × String × Value)) : List (Code ServiceResponse) :=
  requests.map fun x => callWithTimeout S x.1 x.2.1 x.2.2

def closeClients : List Nat → Code Unit
  | [] => pure ()
  | client :: rest => do
    let _ ← monadLift (SharedUdsClient.close.embed (Op.plain client) fun _ r => r : Program Calls _)
    closeClients rest

def close : Code Unit := do
  op .shutDown
  op .closeSemaphore
  op .lockPool
  let clients ← op .idle
  closeClients clients
  op .clear
  op .unlockPool

end Methods

end ProductionPool

/-! ### The pool as a machine -/

structure PoolMetrics where
  totalRequests : Nat
  successfulRequests : Nat
  failedRequests : Nat
  circuitBreakerOpens : Nat
  timeoutErrors : Nat
  activeRequests : Nat

def PoolMetrics.zero : PoolMetrics :=
  { totalRequests := 0, successfulRequests := 0, failedRequests := 0, circuitBreakerOpens := 0,
    timeoutErrors := 0, activeRequests := 0 }

/-- The pool beside its clients. -/
structure PoolState where
  permits : Nat
  semaphoreClosed : Bool
  poolLock : Option Nat
  clientPool : List Nat
  breaker : CircuitBreaker
  metrics : PoolMetrics
  shutdown : Bool
  /-- How many clients have been made. -/
  born : Nat

structure PoolConfig where
  maxConcurrent : Nat
  circuitBreakerThreshold : Nat
  circuitBreakerTimeout : Nat

structure ProductionPool where
  pool : PoolState
  clients : Clients

namespace ProductionPool

def withConfig (config : PoolConfig) : ProductionPool where
  pool :=
    { permits := config.maxConcurrent, semaphoreClosed := false, poolLock := none, clientPool := [],
      breaker := (CircuitBreaker.new config.circuitBreakerThreshold).withTimeout
        config.circuitBreakerTimeout
      metrics := .zero, shutdown := false, born := 0 }
  clients := .new

def count (m : PoolMetrics) (f : Nat → Nat) : Counter → PoolMetrics
  | .totalRequests => { m with totalRequests := f m.totalRequests }
  | .successfulRequests => { m with successfulRequests := f m.successfulRequests }
  | .failedRequests => { m with failedRequests := f m.failedRequests }
  | .timeoutErrors => { m with timeoutErrors := f m.timeoutErrors }
  | .activeRequests => { m with activeRequests := f m.activeRequests }

/-- An operation of task `t` on the pool itself. -/
def performPool (t : Nat) : (o : Op) → Choice → PoolState → Option (Calls.Ret o × PoolState)
  | .shuttingDown, .go, p => some (p.shutdown, p)
  | .shutDown, .go, p => some ((), { p with shutdown := true })
  | .canExecute, .clock now, p =>
    let (answer, breaker) := p.breaker.canExecute now
    some (answer, { p with breaker })
  | .recordSuccess, .go, p => some ((), { p with breaker := p.breaker.recordSuccess })
  | .recordFailure, .clock now, p => some ((), { p with breaker := p.breaker.recordFailure now })
  | .add counter, .go, p => some ((), { p with metrics := count p.metrics (· + 1) counter })
  | .sub counter, .go, p => some ((), { p with metrics := count p.metrics (· - 1) counter })
  | .acquire, .go, p =>
    if p.semaphoreClosed then some (false, p)
    else if p.permits = 0 then none
    else some (true, { p with permits := p.permits - 1 })
  | .release, .go, p => some ((), { p with permits := p.permits + 1 })
  | .closeSemaphore, .go, p => some ((), { p with semaphoreClosed := true })
  | .lockPool, .go, p => if p.poolLock = none then some ((), { p with poolLock := some t }) else none
  | .unlockPool, .go, p => some ((), { p with poolLock := none })
  | .pop, .go, p => some (p.clientPool.getLast?, { p with clientPool := p.clientPool.dropLast })
  | .push client, .go, p => some ((), { p with clientPool := p.clientPool ++ [client] })
  | .idle, .go, p => some (p.clientPool, p)
  | .clear, .go, p => some ((), { p with clientPool := [] })
  | .newClient, .go, p => some (p.born, { p with born := p.born + 1 })
  | _, _, _ => none

def machine : Async.Machine Calls ProductionPool Choice where
  perform t
    | .timed client o, .drop out got, w =>
      if SharedUdsClient.suspends o then
        some (none, { w with clients := w.clients.abandon t client o out got })
      else none
    | .timed client o, choice, w =>
      (w.clients.perform t client o choice).map fun x => (some x.1, { w with clients := x.2 })
    | .plain client o, choice, w =>
      (w.clients.perform t client o choice).map fun x => (x.1, { w with clients := x.2 })
    | o, choice, w => (performPool t o choice w.pool).map fun x => (x.1, { w with pool := x.2 })

section
variable {t client : Nat} {o : SharedUdsClient.Op} {choice : Choice} {w w' : ProductionPool}

/-- An operation of a client's call leaves the pool alone. -/
theorem timed_pool {r : Calls.Ret (.timed client o)}
    (h : machine.perform t (.timed client o) choice w = some (r, w')) : w'.pool = w.pool := by
  cases choice with
  | drop out got =>
    obtain ⟨-, heq⟩ := Option.ite_none_right_eq_some.mp h
    cases heq
    rfl
  | _ =>
    obtain ⟨x, -, heq⟩ := Option.map_eq_some_iff.mp h
    cases heq
    rfl

theorem plain_pool {r : Calls.Ret (.plain client o)}
    (h : machine.perform t (.plain client o) choice w = some (r, w')) : w'.pool = w.pool := by
  obtain ⟨x, -, heq⟩ := Option.map_eq_some_iff.mp h
  cases heq
  rfl

end

/-- What the callers of a pool ask for. -/
inductive Job where
  | call (service method : String) (payload : Value)
  | batch (requests : List (String × String × Value))
  | close

/-- What a caller gets: a reply, or the end of `close`. -/
inductive Outcome where
  | reply (r : Result ServiceResponse)
  | closed

/-- The tasks of a job: one for a call, one for each item of a batch. -/
def Job.tasks (S : Codec) : Job → List (Program Calls Outcome)
  | .call service method payload => [Outcome.reply <$> (callWithTimeout S service method payload).run]
  | .batch requests => (callBatchWithTimeout S requests).map fun p => Outcome.reply <$> p.run
  | .close => [(fun _ => Outcome.closed) <$> ProductionPool.close.run]

/-- A new pool, and what its callers are going to ask of it. -/
def start (S : Codec) (config : PoolConfig) (jobs : List Job) :
    Async.Config Calls ProductionPool Outcome :=
  ⟨.withConfig config, jobs.flatMap (Job.tasks S)⟩

/-! ### Calls, and `close` -/

def Job.isCall : Job → Bool
  | .close => false
  | _ => true

/-- Task `t` is a call, or an item of a batch. -/
def isCall (S : Codec) (jobs : List Job) (t : Nat) : Bool :=
  ((jobs.flatMap fun job => (job.tasks S).map fun _ => job.isCall)[t]?).getD false

/-- Task `t` is a call that has made a step in the run `ls` to `s`, and has not returned. -/
def InProgress (S : Codec) (jobs : List Job) (ls : List (Nat × Choice))
    (s : Async.Config Calls ProductionPool Outcome) (t : Nat) : Prop :=
  isCall S jobs t = true ∧ t ∈ ls.map Prod.fst ∧ s.returned t = none

theorem isCall_lt {S : Codec} (config : PoolConfig) {jobs : List Job} {t : Nat} (h : isCall S jobs t = true) :
    t < (start S config jobs).tasks.length := by
  have hlength : (jobs.flatMap fun job => (job.tasks S).map fun _ => job.isCall).length =
      (start S config jobs).tasks.length := by
    simp [start, List.length_flatMap]
  rw [← hlength]
  by_contra hge
  rw [isCall, List.getElem?_eq_none (Nat.le_of_not_lt hge)] at h
  cases h

theorem start_tasks {S : Codec} {config : PoolConfig} {jobs : List Job} {t : Nat} {p : Program Calls Outcome}
    (h : (start S config jobs).tasks[t]? = some p) :
    (isCall S jobs t = true ∧ ∃ service method payload,
      p = Outcome.reply <$> (callWithTimeout S service method payload).run) ∨
    (isCall S jobs t = false ∧ p = (fun _ => Outcome.closed) <$> ProductionPool.close.run) := by
  let entries := jobs.flatMap fun job => (job.tasks S).map fun p => (job.isCall, p)
  have htasks : (start S config jobs).tasks = entries.map Prod.snd := by
    simp [start, entries, List.map_flatMap, Function.comp_def]
  have hroles : isCall S jobs t = ((entries.map Prod.fst)[t]?).getD false := by
    simp [isCall, entries, List.map_flatMap, Function.comp_def]
  rw [htasks, List.getElem?_map, Option.map_eq_some_iff] at h
  obtain ⟨⟨b, p⟩, hentry, rfl⟩ := h
  have hb : isCall S jobs t = b := by simp [hroles, hentry]
  obtain ⟨job, -, hmem⟩ := List.mem_flatMap.mp (List.mem_of_getElem? hentry)
  obtain ⟨q, hq, heq⟩ := List.mem_map.mp hmem
  cases heq
  rw [hb]
  cases job with
  | call service method payload =>
    obtain rfl := List.mem_singleton.mp hq
    exact .inl ⟨rfl, service, method, payload, rfl⟩
  | batch requests =>
    simp only [Job.tasks, callBatchWithTimeout, List.map_map, List.mem_map] at hq
    obtain ⟨⟨service, method, payload⟩, -, rfl⟩ := hq
    exact .inl ⟨rfl, service, method, payload, rfl⟩
  | close => exact .inr ⟨rfl, List.mem_singleton.mp hq⟩

end ProductionPool

end XProtocol
