import XProtocol.Client.Once
import XProtocol.Pool.Answers
import XProtocol.Pool.Production

/-! No pool sends a request twice.

A call of a pool asks its client once, and never again: not when the client has come out
of the idle list with a connection that is gone, not when the timer fires while the request
is being written. So on all connections of the process, the requests with an id are no
more than the calls that drew it (`requests_once`), in each of the three pools. -/
namespace XProtocol
open Async
open Json (Value Codec)

/-- On all connections, the requests with an id are no more than those that were created with it. -/
def Clients.Once (S : Codec) (count : Nat) (w : Clients) : Prop :=
  ∀ id, w.net.requests S id ≤ w.net.creations id count

theorem Sparing.once {S : Codec} {count : Nat} {w : Clients} {γ : Nat → Draft} (h : Sparing S count w.net γ) :
    w.Once S count := fun id => (Nat.le_add_right ..).trans (h id)

namespace UdsClientPool

section
variable (S : Codec)

/-- What a pool's code owes at an operation. -/
def owesDraft (g : Draft) : Op → Prop
  | .on _ o => g.owes S o
  | _ => True

def movesDraft (g : Draft) : (o : Op) → Calls.Ret o → Draft
  | .on _ o, r => g.moved o r
  | _, _ => g

/-- The discipline of those who write a request once, through a pool. -/
abbrev sparing : Discipline Calls Draft := owing (owesDraft S) movesDraft

end

variable {S : Codec} {m count : Nat}

/-- An operation on the pool itself is owed nothing. -/
theorem op_once {o : Op} (ho : o.onPool = true) : AlwaysMeets (sparing S) (op o) :=
  alwaysMeets_op fun g => by
    cases o with
    | on client o => cases ho
    | _ => exact trivial

theorem onClient_once {α : Type} {p : Program SharedUdsClient.Calls α} (client : Nat)
    (hp : Always (XProtocol.sparing S) p) :
    Always (sparing S) (p.embed (F := Calls) (Op.on client) fun _ r => r) := by
  have hdemand (g : Draft) (o : SharedUdsClient.Op) (h : g.owes S o) : owesDraft S g (.on client o) := h
  have hmove (g : Draft) (o : SharedUdsClient.Op) (r : SharedUdsClient.Calls.Ret o) (g' : Draft)
      (h : g' = movesDraft g (.on client o) r) : g' = g.moved o r := h
  exact always_embed id hdemand hmove hp

theorem takeIdle_once : AlwaysMeets (sparing S) takeIdle :=
  alwaysMeets_bind (op_once rfl) fun _ => alwaysMeets_bind (op_once rfl) fun client =>
    alwaysMeets_bind (op_once rfl) fun _ => alwaysMeets_pure client

theorem retry_once (retries : Nat) : AlwaysMeets (sparing S) (retry retries) := by
  induction retries with
  | zero => exact op_once rfl
  | succ retries ih =>
    refine alwaysMeets_bind takeIdle_once fun client => ?_
    cases client with
    | some client => exact alwaysMeets_pure client
    | none => exact alwaysMeets_bind (op_once rfl) fun _ => ih

theorem getOrCreateClient_once : AlwaysMeets (sparing S) (getOrCreateClient m) := by
  refine alwaysMeets_bind takeIdle_once fun client => ?_
  cases client with
  | some client => exact alwaysMeets_pure client
  | none =>
    refine alwaysMeets_bind (op_once rfl) fun created => ?_
    split
    · exact op_once rfl
    · exact alwaysMeets_bind (op_once rfl) fun _ => retry_once 3

theorem itemClient_once : AlwaysMeets (sparing S) (itemClient m) := by
  refine alwaysMeets_bind takeIdle_once fun client => ?_
  cases client with
  | some client => exact alwaysMeets_pure client
  | none =>
    refine alwaysMeets_bind (op_once rfl) fun created => ?_
    split
    · exact op_once rfl
    · exact alwaysMeets_bind (op_once rfl) fun _ => op_once rfl

theorem putBack_once (client : Nat) : AlwaysMeets (sparing S) (putBack m client) := by
  refine alwaysMeets_bind (op_once rfl) fun _ => alwaysMeets_bind (op_once rfl) fun n => ?_
  split
  · exact alwaysMeets_bind (op_once rfl) fun _ => alwaysMeets_bind (op_once rfl) fun _ =>
      alwaysMeets_pure none
  · exact alwaysMeets_bind (op_once rfl) fun _ => alwaysMeets_pure (some client)

theorem returnClient_once (client : Nat) (result : Result ServiceResponse) :
    AlwaysMeets (sparing S) (returnClient m client result) := by
  unfold returnClient
  split
  · refine alwaysMeets_bind (putBack_once client) fun left => ?_
    cases left with
    | none => exact alwaysMeets_pure ()
    | some client => exact op_once rfl
  · exact op_once rfl

theorem clientCall_once (client : Nat) (service method : String) (payload : Value) :
    AlwaysMeets (sparing S) (clientCall S client service method payload) :=
  alwaysMeets_lift (onClient_once client (call_once service method payload))

theorem pool_call_once (service method : String) (payload : Value) :
    AlwaysMeets (sparing S) (call S m service method payload) := by
  refine alwaysMeets_bind (op_once rfl) fun permit => ?_
  cases permit with
  | false => exact alwaysMeets_throw _
  | true =>
    exact alwaysMeets_bind getOrCreateClient_once fun client => alwaysMeets_bind (clientCall_once client service method payload) fun result =>
      alwaysMeets_bind (returnClient_once client result) fun _ => alwaysMeets_bind (op_once rfl) fun _ =>
        alwaysMeets_mk result

theorem callItem_once (service method : String) (payload : Value) :
    AlwaysMeets (sparing S) (callItem S m service method payload) := by
  refine alwaysMeets_bind (op_once rfl) fun permit => ?_
  cases permit with
  | false => exact alwaysMeets_throw _
  | true =>
    refine alwaysMeets_bind itemClient_once fun client =>
      alwaysMeets_bind (clientCall_once client service method payload) fun result => ?_
    have hend (left : Option Nat) : AlwaysMeets (sparing S) (do
        op .release
        leave left
        ExceptT.mk (pure result)) := by
      refine alwaysMeets_bind (op_once rfl) fun _ => ?_
      cases left with
      | none => exact alwaysMeets_bind (alwaysMeets_pure ()) fun _ => alwaysMeets_mk result
      | some client => exact alwaysMeets_bind (op_once rfl) fun _ => alwaysMeets_mk result
    split
    · exact alwaysMeets_bind (putBack_once client) hend
    · exact alwaysMeets_bind (alwaysMeets_pure _) hend

theorem closeClients_once (clients : List Nat) : AlwaysMeets (sparing S) (closeClients clients) := by
  induction clients with
  | nil => exact alwaysMeets_pure ()
  | cons client rest ih =>
    exact alwaysMeets_bind (alwaysMeets_lift (onClient_once client shared_close_once)) fun _ => ih

theorem pool_close_once : AlwaysMeets (sparing S) close :=
  alwaysMeets_bind (op_once rfl) fun _ => alwaysMeets_bind (op_once rfl) fun clients =>
    alwaysMeets_bind (closeClients_once clients) fun _ => alwaysMeets_bind (op_once rfl) fun _ =>
      alwaysMeets_bind (op_once rfl) fun _ => op_once rfl

theorem tasks_once {job : Job} : ∀ p ∈ job.tasks S m, Always (sparing S) p := by
  intro p hp
  cases job with
  | call service method payload =>
    obtain rfl := List.mem_singleton.mp hp
    exact always_map (pool_call_once service method payload) _
  | batch requests =>
    obtain ⟨item, hitem, rfl⟩ := List.mem_map.mp hp
    obtain ⟨x, -, rfl⟩ := List.mem_map.mp hitem
    exact always_map (callItem_once x.1 x.2.1 x.2.2) _
  | close =>
    obtain rfl := List.mem_singleton.mp hp
    exact always_map pool_close_once _

/-- What a pool's operation does to the clients, it does as an operation of a client. -/
theorem sparing_upheld : Upheld machine (sparing S) (fun _ t _ _ => t < count)
    fun w γ => Sparing S count w.clients.net γ := by
  intro w γ t o choice r w' h hd ht hstep
  refine ⟨_, rfl, ?_⟩
  cases o with
  | on client o =>
    obtain ⟨⟨r', v⟩, hv, heq⟩ := Option.map_eq_some_iff.mp hstep
    obtain ⟨rfl, rfl⟩ := Prod.mk.inj heq
    exact h.perform ht hd hv
  | _ =>
    obtain ⟨⟨r', p⟩, -, heq⟩ := Option.map_eq_some_iff.mp hstep
    obtain ⟨rfl, rfl⟩ := Prod.mk.inj heq
    simp only [movesDraft, Function.update_eq_self]
    exact h

/-- **No request of a pool goes out twice**, whatever the calls, the batches and `close` do, and
in whatever order. -/
theorem requests_once (S : Codec) (n m : Nat) (jobs : List Job) (run : List (Nat × Choice)) :
    (start S n m jobs).Throughout machine (fun s => s.world.clients.Once S (start S n m jobs).tasks.length) run := by
  have htasks : ∀ p ∈ (start S n m jobs).tasks, Always (sparing S) p := by
    intro p hp
    obtain ⟨job, -, hp⟩ := List.mem_flatMap.mp hp
    exact tasks_once p hp
  refine Config.throughout_mono ?_ (throughout_always sparing_upheld (Config.along_tasks _ run) (sparing_new S _) htasks)
  rintro s ⟨γ, h⟩
  exact h.once

end UdsClientPool

/-! ### The production pool -/

namespace ProductionPool

section
variable (S : Codec)

def owesDraft (g : Draft) : Op → Prop
  | .timed _ o | .plain _ o => g.owes S o
  | _ => True

/-- Who is dropped has no draft: it has no next operation. -/
def movesDraft (g : Draft) : (o : Op) → Calls.Ret o → Draft
  | .timed _ o, some r => g.moved o r
  | .timed _ _, none => none
  | .plain _ o, r => g.moved o r
  | _, _ => g

abbrev sparing : Discipline Calls Draft := owing (owesDraft S) movesDraft

end

/-- The operation is on the pool itself. -/
def Op.onPool : Op → Bool
  | .timed .. | .plain .. => false
  | _ => true

variable {S : Codec} {count : Nat}

theorem op_once {o : Op} (ho : o.onPool = true) : AlwaysMeets (sparing S) (op o) :=
  alwaysMeets_op fun g => by
    cases o with
    | timed client o | plain client o => cases ho
    | _ => exact trivial

theorem timedCall_once (client : Nat) (service method : String) (payload : Value) :
    Always (sparing S) (timedCall S client service method payload) := by
  have hdemand (g : Draft) (o : SharedUdsClient.Op) (h : g.owes S o) : owesDraft S g (.timed client o) := h
  have hmove (g : Draft) (o : SharedUdsClient.Op) (r : Option (SharedUdsClient.Calls.Ret o)) (g' : Draft)
      (b : SharedUdsClient.Calls.Ret o) (h : g' = movesDraft g (.timed client o) r) (hb : r = some b) :
      g' = g.moved o b := by
    subst hb
    exact h
  exact always_droppable id hdemand hmove (call_once service method payload)

theorem settle_once (result : Option (Result ServiceResponse)) : AlwaysMeets (sparing S) (settle result) := by
  rcases result with _ | (e | response)
  · exact alwaysMeets_bind (op_once rfl) fun _ => alwaysMeets_bind (op_once rfl) fun _ =>
      alwaysMeets_bind (op_once rfl) fun _ => alwaysMeets_throw _
  · exact alwaysMeets_bind (op_once rfl) fun _ => alwaysMeets_bind (op_once rfl) fun _ => alwaysMeets_throw e
  · exact alwaysMeets_bind (op_once rfl) fun _ => alwaysMeets_bind (op_once rfl) fun _ => alwaysMeets_pure response

theorem callWithTimeout_once (service method : String) (payload : Value) :
    AlwaysMeets (sparing S) (callWithTimeout S service method payload) := by
  have hclient (client : Nat) : AlwaysMeets (sparing S) (do
      op .unlockPool
      let result ← monadLift (timedCall S client service method payload)
      op .lockPool
      op (.push client)
      op .unlockPool
      op .release
      op (.sub .activeRequests)
      settle result) :=
    alwaysMeets_bind (op_once rfl) fun _ =>
      alwaysMeets_bind (alwaysMeets_lift (timedCall_once client service method payload)) fun result =>
        alwaysMeets_bind (op_once rfl) fun _ => alwaysMeets_bind (op_once rfl) fun _ =>
          alwaysMeets_bind (op_once rfl) fun _ => alwaysMeets_bind (op_once rfl) fun _ =>
            alwaysMeets_bind (op_once rfl) fun _ => settle_once result
  refine alwaysMeets_bind (op_once rfl) fun down => ?_
  cases down with
  | true => exact alwaysMeets_throw _
  | false =>
  refine alwaysMeets_bind (op_once rfl) fun admitted => alwaysMeets_bind (alwaysMeets_mk admitted) fun _ =>
    alwaysMeets_bind (op_once rfl) fun _ => alwaysMeets_bind (op_once rfl) fun _ =>
      alwaysMeets_bind (op_once rfl) fun permit => ?_
  cases permit with
  | false => exact alwaysMeets_bind (op_once rfl) fun _ => alwaysMeets_throw _
  | true =>
  refine alwaysMeets_bind (op_once rfl) fun _ => alwaysMeets_bind (op_once rfl) fun idle => ?_
  cases idle with
  | some client => exact alwaysMeets_bind (alwaysMeets_pure client) hclient
  | none => exact alwaysMeets_bind (op_once rfl) hclient

theorem closeClients_once (clients : List Nat) : AlwaysMeets (sparing S) (closeClients clients) := by
  have hdemand (client : Nat) (g : Draft) (o : SharedUdsClient.Op) (h : g.owes S o) :
      owesDraft S g (.plain client o) := h
  have hmove (client : Nat) (g : Draft) (o : SharedUdsClient.Op) (r : SharedUdsClient.Calls.Ret o) (g' : Draft)
      (h : g' = movesDraft g (.plain client o) r) : g' = g.moved o r := h
  induction clients with
  | nil => exact alwaysMeets_pure ()
  | cons client rest ih =>
    exact alwaysMeets_bind (alwaysMeets_lift (always_embed id (hdemand client) (hmove client) shared_close_once))
      fun _ => ih

theorem close_once : AlwaysMeets (sparing S) close :=
  alwaysMeets_bind (op_once rfl) fun _ => alwaysMeets_bind (op_once rfl) fun _ => alwaysMeets_bind (op_once rfl) fun _ =>
    alwaysMeets_bind (op_once rfl) fun clients => alwaysMeets_bind (closeClients_once clients) fun _ =>
      alwaysMeets_bind (op_once rfl) fun _ => op_once rfl

theorem tasks_once {job : Job} : ∀ p ∈ job.tasks S, Always (sparing S) p := by
  intro p hp
  cases job with
  | call service method payload =>
    obtain rfl := List.mem_singleton.mp hp
    exact always_map (callWithTimeout_once service method payload) _
  | batch requests =>
    obtain ⟨item, hitem, rfl⟩ := List.mem_map.mp hp
    obtain ⟨x, -, rfl⟩ := List.mem_map.mp hitem
    exact always_map (callWithTimeout_once x.1 x.2.1 x.2.2) _
  | close =>
    obtain rfl := List.mem_singleton.mp hp
    exact always_map close_once _

theorem sparing_upheld : Upheld machine (sparing S) (fun _ t _ _ => t < count)
    fun w γ => Sparing S count w.clients.net γ := by
  intro w γ t o choice r w' h hd ht hstep
  refine ⟨_, rfl, ?_⟩
  cases o with
  | timed client o =>
    cases choice with
    | drop out got =>
      obtain ⟨-, heq⟩ := Option.ite_none_right_eq_some.mp hstep
      cases heq
      exact h.abandon ht hd out got
    | _ =>
      obtain ⟨⟨r', v⟩, hv, heq⟩ := Option.map_eq_some_iff.mp hstep
      obtain ⟨rfl, rfl⟩ := Prod.mk.inj heq
      exact h.perform ht hd hv
  | plain client o =>
    obtain ⟨⟨r', v⟩, hv, heq⟩ := Option.map_eq_some_iff.mp hstep
    obtain ⟨rfl, rfl⟩ := Prod.mk.inj heq
    exact h.perform ht hd hv
  | _ =>
    obtain ⟨⟨r', p⟩, -, heq⟩ := Option.map_eq_some_iff.mp hstep
    obtain ⟨rfl, rfl⟩ := Prod.mk.inj heq
    simp only [movesDraft, Function.update_eq_self]
    exact h

/-- What the tasks of a run have drawn up but not sent is accounted for. -/
theorem sparing_throughout (S : Codec) (config : PoolConfig) (jobs : List Job) (run : List (Nat × Choice)) :
    (start S config jobs).Throughout machine
      (fun s => ∃ γ, Sparing S (start S config jobs).tasks.length s.world.clients.net γ) run := by
  refine throughout_always sparing_upheld (Config.along_tasks _ run) (sparing_new S _) fun p hp => ?_
  obtain ⟨job, -, hp⟩ := List.mem_flatMap.mp hp
  exact tasks_once p hp

/-- **No request of the production pool goes out twice**, wherever the timers drop the calls. -/
theorem dropped_requests_once (S : Codec) (config : PoolConfig) (jobs : List Job) (run : List (Nat × Choice)) :
    (start S config jobs).Throughout machine
      (fun s => s.world.clients.Once S (start S config jobs).tasks.length) run := by
  refine Config.throughout_mono ?_ (sparing_throughout S config jobs run)
  rintro s ⟨γ, h⟩
  exact h.once

end ProductionPool

/-! ### The pool with topics -/

namespace TopicBasedPool

section
variable (S : Codec)

def owesDraft (g : Draft) : Op → Prop
  | .default o => UdsClientPool.owesDraft S g o
  | .on _ o => g.owes S o
  | _ => True

def movesDraft (g : Draft) : (o : Op) → Calls.Ret o → Draft
  | .default o, r => UdsClientPool.movesDraft g o r
  | .on _ o, r => g.moved o r
  | _, _ => g

abbrev sparing : Discipline Calls Draft := owing (owesDraft S) movesDraft

end

variable {S : Codec} {m count : Nat}

theorem op_once {o : Op} (ho : o.onTable = true) : AlwaysMeets (sparing S) (op o) :=
  alwaysMeets_op fun g => by
    cases o with
    | default o | on client o => cases ho
    | _ => exact trivial

theorem onDefault_once {α : Type} {p : UdsClientPool.Code α} (hp : AlwaysMeets (UdsClientPool.sparing S) p) :
    AlwaysMeets (sparing S) (onDefault p) := by
  have hdemand (g : Draft) (o : UdsClientPool.Op) (h : UdsClientPool.owesDraft S g o) :
      owesDraft S g (.default o) := h
  have hmove (g : Draft) (o : UdsClientPool.Op) (r : UdsClientPool.Calls.Ret o) (g' : Draft)
      (h : g' = movesDraft g (.default o) r) : g' = UdsClientPool.movesDraft g o r := h
  exact always_embed id hdemand hmove hp

theorem onClient_once {α : Type} {p : Program SharedUdsClient.Calls (Result α)} (client : Nat)
    (hp : Always (XProtocol.sparing S) p) : AlwaysMeets (sparing S) (onClient client p) := by
  have hdemand (g : Draft) (o : SharedUdsClient.Op) (h : g.owes S o) : owesDraft S g (.on client o) := h
  have hmove (g : Draft) (o : SharedUdsClient.Op) (r : SharedUdsClient.Calls.Ret o) (g' : Draft)
      (h : g' = movesDraft g (.on client o) r) : g' = g.moved o r := h
  exact alwaysMeets_lift (always_embed id hdemand hmove hp)

theorem callSerial_once (service method : String) (payload : Value) (topic : String) :
    AlwaysMeets (sparing S) (callSerial S service method payload topic) :=
  alwaysMeets_bind (op_once rfl) fun _ => alwaysMeets_bind (op_once rfl) fun _ =>
    alwaysMeets_bind (op_once rfl) fun client => alwaysMeets_bind (op_once rfl) fun _ =>
      alwaysMeets_bind (op_once rfl) fun _ =>
        alwaysMeets_bind (onClient_once client (call_once service method payload)) fun result =>
          alwaysMeets_bind (op_once rfl) fun _ => alwaysMeets_mk result

theorem callWithTopic_once (service method : String) (payload : Value) (topic : Option String) :
    AlwaysMeets (sparing S) (callWithTopic S m service method payload topic) := by
  have hdefault : AlwaysMeets (sparing S) (onDefault (UdsClientPool.call S m service method payload)) :=
    onDefault_once (UdsClientPool.pool_call_once service method payload)
  unfold callWithTopic
  cases topic with
  | none => exact hdefault
  | some topic =>
    by_cases hempty : topic.isEmpty
    · simp only [hempty, if_true]
      exact hdefault
    · simp only [hempty]
      exact callSerial_once service method payload topic

theorem closeClients_once (clients : List Nat) : AlwaysMeets (sparing S) (closeClients clients) := by
  induction clients with
  | nil => exact alwaysMeets_pure ()
  | cons client rest ih =>
    exact alwaysMeets_bind (op_once rfl) fun _ => alwaysMeets_bind (onClient_once client shared_close_once) fun _ =>
      alwaysMeets_bind (op_once rfl) fun _ => ih

theorem close_once : AlwaysMeets (sparing S) close :=
  alwaysMeets_bind (onDefault_once UdsClientPool.pool_close_once) fun _ => alwaysMeets_bind (op_once rfl) fun _ =>
    alwaysMeets_bind (op_once rfl) fun clients => alwaysMeets_bind (closeClients_once clients) fun _ => op_once rfl

theorem role_once (role : Role) : Always (sparing S) (role.task S m) := by
  cases role with
  | request service method payload topic => exact always_map (callWithTopic_once service method payload topic) _
  | close => exact always_map close_once _

theorem sparing_upheld : Upheld machine (sparing S) (fun _ t _ _ => t < count)
    fun w γ => Sparing S count w.clients.net γ := by
  intro w γ t o choice r w' h hd ht hstep
  cases o with
  | default o =>
    obtain ⟨⟨r', v⟩, hv, heq⟩ := Option.map_eq_some_iff.mp hstep
    obtain ⟨rfl, rfl⟩ := Prod.mk.inj heq
    exact UdsClientPool.sparing_upheld ⟨w.pool.defaultPool, w.clients⟩ γ t o choice r' v h hd ht hv
  | on client o =>
    obtain ⟨⟨r', v⟩, hv, heq⟩ := Option.map_eq_some_iff.mp hstep
    obtain ⟨rfl, rfl⟩ := Prod.mk.inj heq
    exact ⟨_, rfl, h.perform ht hd hv⟩
  | _ =>
    obtain ⟨⟨r', p⟩, -, heq⟩ := Option.map_eq_some_iff.mp hstep
    obtain ⟨rfl, rfl⟩ := Prod.mk.inj heq
    refine ⟨_, rfl, ?_⟩
    simp only [movesDraft, Function.update_eq_self]
    exact h

/-- **No request of the pool with topics goes out twice**, through whichever of its lanes it goes. -/
theorem topic_requests_once (S : Codec) (n : Nat) (jobs : List Job) (run : List (Nat × Choice)) :
    (start S n jobs).Throughout machine (fun s => s.world.clients.Once S (start S n jobs).tasks.length) run := by
  have htasks : ∀ p ∈ (start S n jobs).tasks, Always (sparing S) p := by
    intro p hp
    rw [start_tasks] at hp
    obtain ⟨role, -, rfl⟩ := List.mem_map.mp hp
    exact role_once role
  refine Config.throughout_mono ?_ (throughout_always sparing_upheld (Config.along_tasks _ run) (sparing_new S _) htasks)
  rintro s ⟨γ, h⟩
  exact h.once

end TopicBasedPool

end XProtocol
