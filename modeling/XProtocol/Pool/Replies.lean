import XProtocol.Client.Sharing
import XProtocol.EchoServer
import XProtocol.Pool.Production

/-! Whose reply a call of the production pool returns.

A client that is put back after a timeout keeps its stream, and on the stream the
exchange of the dropped call may still be open: the next call on that client reads
the late reply as its own. Where no timeout fires with an exchange open, every
response names the request of the call that returns it (`replies_paired`); one
timeout at the wrong point is enough to break it (`late_reply_returned`). -/
namespace XProtocol.ProductionPool
open Async
open Json (Value Codec)
open SharedUdsClient (Knows Paired)
open Wire

section
variable (S : Codec)

def demand (k : Knows) : Op → Prop
  | .timed client o => SharedUdsClient.demand S client k o
  | .plain client o => SharedUdsClient.demand S client k o
  | _ => True

def move (k : Knows) : (o : Op) → Calls.Ret o → Knows → Prop
  | .timed client o, some r, k' => SharedUdsClient.move S client k o r k'
  | .timed _ _, none, k' => k' = { k with inside := none }
  | .plain client o, r, k' => SharedUdsClient.move S client k o r k'
  | _, _, k' => k' = k

/-- The discipline of a pool's callers: on a client, that of the client's callers. -/
def calling : Discipline Calls Knows := ⟨demand S, move S⟩

/-- The operation is on the pool itself. -/
def OnPool : Op → Bool
  | .timed .. | .plain .. => false
  | _ => true

variable {S} in
theorem demand_onPool {o : Op} (h : OnPool o = true) (k : Knows) : demand S k o := by
  cases o <;> trivial

variable {S} in
theorem move_onPool {o : Op} (h : OnPool o = true) {k k' : Knows} {r : Calls.Ret o} :
    move S k o r k' ↔ k' = k := by
  cases o <;> first | rfl | cases h

/-! ### The text of a call -/

/-- An operation on the pool itself leaves the knowledge alone. -/
theorem op_meets {o : Op} (ho : OnPool o = true) {α : Type} {f : Calls.Ret o → Code α}
    {Q : Knows → α → Prop} {R : Knows → ProtocolError → Prop} {k : Knows}
    (h : ∀ r, Meets (calling S) (f r) Q R k) : Meets (calling S) (op o >>= f) Q R k := by
  refine meets_bind.mpr (meets_lift.mpr ((safe_op ..).mpr ⟨demand_onPool ho k, fun r k' hm => ?_⟩))
  obtain rfl := (move_onPool ho).mp hm
  exact h r

theorem timedCall_safe (client : Nat) (made : List ServiceRequest) (service method : String)
    (payload : Value) :
    Safe (calling S) (timedCall S client service method payload)
      (fun k a => k.inside = none ∧ ∀ response, a = some (.ok response) →
        ∃ q, k.made = made ++ [q] ∧ response.requestId = q.requestId) ⟨none, made⟩ := by
  have hmove (g k : Knows) (o : SharedUdsClient.Op) (r : Option (SharedUdsClient.Calls.Ret o)) (k' : Knows)
      (b : SharedUdsClient.Calls.Ret o) (hgk : g = k) (_ : SharedUdsClient.demand S client g o)
      (hm : move S k (.timed client o) r k') (hr : r = some b) :
      ∃ g', SharedUdsClient.move S client g o b g' ∧ g' = k' := by
    subst hgk hr
    exact ⟨k', hm, rfl⟩
  have hdrop (g k : Knows) (o : SharedUdsClient.Op) (r : Option (SharedUdsClient.Calls.Ret o)) (k' : Knows)
      (_ : g = k) (_ : SharedUdsClient.demand S client g o) (hm : move S k (.timed client o) r k')
      (hr : r = none) : k'.inside = none := by
    subst hr
    obtain rfl : k' = { k with inside := none } := hm
    rfl
  refine safe_mono (safe_embed_droppable (fun _ _ _ h hd => h ▸ hd) hmove hdrop
    (SharedUdsClient.call_safe S client made service method payload) rfl) (fun k a ha => ?_)
  cases a with
  | none => exact ⟨ha.2 rfl, nofun⟩
  | some r =>
    obtain ⟨_, rfl, hout, hok⟩ := ha.1 r rfl
    exact ⟨hout, fun response hr => hok response (Option.some.inj hr)⟩

/-- What a call makes of an outcome: the response, or an error. -/
theorem settle_meets {result : Option (Result ServiceResponse)} {k : Knows}
    {Q : Knows → ServiceResponse → Prop} (h : ∀ response, result = some (.ok response) → Q k response) :
    Meets (calling S) (settle result) Q (fun _ _ => True) k := by
  match result, h with
  | some (.ok response), h =>
    exact op_meets S (by rfl) fun _ => op_meets S (by rfl) fun _ => h response rfl
  | some (.error e), _ =>
    exact op_meets S (by rfl) fun _ => op_meets S (by rfl) fun _ => trivial
  | none, _ =>
    exact op_meets S (by rfl) fun _ => op_meets S (by rfl) fun _ => op_meets S (by rfl) fun _ => trivial

/-- A call that returns a response has made one request, and the response names it. -/
theorem callWithTimeout_meets (service method : String) (payload : Value) :
    Meets (calling S) (callWithTimeout S service method payload)
      (fun k response => ∃ q, k.made = [q] ∧ response.requestId = q.requestId) (fun _ _ => True)
      ⟨none, []⟩ := by
  unfold callWithTimeout
  refine op_meets S (by rfl) fun stopping => ?_
  split
  · trivial
  refine op_meets S (by rfl) fun admitted => ?_
  rw [meets_bind, meets_mk]
  cases admitted with
  | error e => trivial
  | ok _ =>
  refine op_meets S (by rfl) fun _ => op_meets S (by rfl) fun _ => op_meets S (by rfl) fun permit => ?_
  split
  · exact op_meets S (by rfl) fun _ => trivial
  refine op_meets S (by rfl) fun _ => op_meets S (by rfl) fun popped => ?_
  -- From here on the task has a client, and what follows does not depend on where it is from.
  have hcall (client : Nat) : Meets (calling S) (do
      op .unlockPool
      let result ← monadLift (timedCall S client service method payload)
      op .lockPool
      op (.push client)
      op .unlockPool
      op .release
      op (.sub .activeRequests)
      settle result)
      (fun k response => ∃ q, k.made = [q] ∧ response.requestId = q.requestId) (fun _ _ => True)
      ⟨none, []⟩ := by
    refine op_meets S (by rfl) fun _ => ?_
    rw [meets_bind, meets_lift]
    refine safe_mono (timedCall_safe S client [] service method payload) fun k result hr => ?_
    refine op_meets S (by rfl) fun _ => op_meets S (by rfl) fun _ => op_meets S (by rfl) fun _ =>
      op_meets S (by rfl) fun _ => op_meets S (by rfl) fun _ => ?_
    exact settle_meets S hr.2
  cases popped with
  | some client => exact hcall client
  | none => exact op_meets S (by rfl) fun client => hcall client

theorem closeClients_meets (clients : List Nat) {k : Knows} (hk : k.inside = none) :
    Meets (calling S) (closeClients clients) (fun k _ => k.inside = none) (fun _ _ => True) k := by
  induction clients generalizing k with
  | nil => exact hk
  | cons client rest ih =>
    obtain ⟨_, made⟩ := k
    subst hk
    unfold closeClients
    rw [meets_bind, meets_lift]
    refine safe_mono (safe_embed (fun _ _ _ h hd => h ▸ hd) ?_
      (SharedUdsClient.close_safe S client made) rfl) fun k _ h => ?_
    · rintro g _ o r k' rfl - hm
      exact ⟨k', hm, rfl⟩
    · obtain ⟨_, rfl, hout⟩ := h
      exact ih hout

theorem close_meets :
    Meets (calling S) close (fun _ _ => True) (fun _ _ => True) ⟨none, []⟩ := by
  unfold close
  refine op_meets S (by rfl) fun _ => op_meets S (by rfl) fun _ => op_meets S (by rfl) fun _ =>
    op_meets S (by rfl) fun clients => ?_
  rw [meets_bind]
  refine meets_mono (closeClients_meets S clients rfl) (fun k _ _ => ?_) fun _ _ h => h
  exact op_meets S (by rfl) fun _ => meets_lift.mpr ((safe_op ..).mpr ⟨trivial, fun _ _ _ => trivial⟩)

/-- What a task ends with: a response names the one request the task has made. -/
def Answered (k : Knows) (a : Outcome) : Prop :=
  ∀ response, a = .reply (.ok response) → ∃ q, k.made = [q] ∧ response.requestId = q.requestId

theorem reply_safe {p : Code ServiceResponse}
    (h : Meets (calling S) p (fun k response => ∃ q, k.made = [q] ∧ response.requestId = q.requestId)
      (fun _ _ => True) ⟨none, []⟩) :
    Safe (calling S) (Outcome.reply <$> p.run) Answered ⟨none, []⟩ := by
  refine safe_map h (fun k response hr response' ha => ?_) fun k e _ response ha => by cases ha
  obtain rfl : response = response' := by simpa using ha
  exact hr

theorem tasks_safe (job : Job) {p : Program Calls Outcome} (hp : p ∈ job.tasks S) :
    Safe (calling S) p Answered ⟨none, []⟩ := by
  cases job with
  | call service method payload =>
    obtain rfl := List.mem_singleton.mp hp
    exact reply_safe S (callWithTimeout_meets S service method payload)
  | batch requests =>
    simp only [Job.tasks, callBatchWithTimeout, List.map_map, List.mem_map] at hp
    obtain ⟨⟨service, method, payload⟩, -, rfl⟩ := hp
    exact reply_safe S (callWithTimeout_meets S service method payload)
  | close =>
    obtain rfl := List.mem_singleton.mp hp
    exact safe_map (close_meets S) (fun _ _ _ _ ha => by cases ha) fun _ _ _ _ ha => by cases ha

end

/-! ### Runs -/

/-- What a read takes off a connection is the peer's. -/
def Serves (P : Peer) (w : ProductionPool) (_ : Nat) : Op → Choice → Prop
  | .timed _ o, choice => SharedUdsClient.Delivers P w.clients o choice
  | .plain _ o, choice => SharedUdsClient.Delivers P w.clients o choice
  | _, _ => True

instance (P : Peer) (w : ProductionPool) (t : Nat) (o : Op) (choice : Choice) :
    Decidable (Serves P w t o choice) :=
  match o with
  | .timed _ o | .plain _ o => inferInstanceAs (Decidable (SharedUdsClient.Delivers P w.clients o choice))
  | .shuttingDown | .shutDown | .canExecute | .recordSuccess | .recordFailure | .add _ | .sub _
  | .acquire | .release | .closeSemaphore | .lockPool | .unlockPool | .pop | .push _ | .idle | .clear
  | .newClient => isTrue trivial

/-- The timer of a call does not fire while an exchange is open on the stream that
its client keeps: from the first byte of a request until its reply has been read,
or the stream been dropped. -/
def FiresAtRest (P : Peer) (w : ProductionPool) (_ : Nat) : Op → Choice → Prop
  | .timed client o, .drop out _ => SharedUdsClient.Unbroken P w.clients client o out
  | _, _ => True

theorem firesAtRest_of_no_drop {P : Peer} {w : ProductionPool} {t : Nat} {o : Op} {choice : Choice}
    (h : choice.isDrop = false) : FiresAtRest P w t o choice := by
  cases choice with
  | drop => cases h
  | _ => cases o <;> trivial

/-- **One operation keeps every client paired.** -/
theorem machine_upholds {S : Codec} {P : Peer} (echo : P.Echoes S) :
    Upheld machine (calling S) (fun w t o c => Serves P w t o c ∧ FiresAtRest P w t o c)
      fun w γ => Paired S P w.clients γ := by
  intro w γ t o choice r w' hp hd hmeets hstep
  have honPool (ho : OnPool o = true) (h : w'.clients = w.clients) :
      ∃ k, (calling S).move (γ t) o r k ∧ Paired S P w'.clients (Function.update γ t k) := by
    refine ⟨γ t, (move_onPool ho).mpr rfl, ?_⟩
    rw [h, Function.update_eq_self]
    exact hp
  cases o with
  | timed client o =>
    cases choice with
    | drop out got =>
      simp only [machine, Option.ite_none_right_eq_some, Option.some.injEq, Prod.mk.injEq] at hstep
      obtain ⟨-, rfl, rfl⟩ := hstep
      exact ⟨_, rfl, SharedUdsClient.abandon_upholds hp hd hmeets.1 hmeets.2⟩
    | _ =>
      obtain ⟨⟨r', v⟩, hv, heq⟩ := Option.map_eq_some_iff.mp hstep
      obtain ⟨rfl, rfl⟩ := Prod.mk.inj heq
      exact SharedUdsClient.perform_upholds echo hp hd hmeets.1 hv
  | plain client o =>
    obtain ⟨⟨r', v⟩, hv, heq⟩ := Option.map_eq_some_iff.mp hstep
    obtain ⟨rfl, rfl⟩ := Prod.mk.inj heq
    exact SharedUdsClient.perform_upholds echo hp hd hmeets.1 hv
  | _ =>
    obtain ⟨⟨r', p'⟩, -, heq⟩ := Option.map_eq_some_iff.mp hstep
    obtain ⟨rfl, rfl⟩ := Prod.mk.inj heq
    exact honPool rfl rfl

/-- **Where no timer fires with an exchange open, every response a caller gets names
the request its own call made.** -/
theorem replies_paired (S : Codec) (P : Peer) (echo : P.Echoes S) (config : PoolConfig) (jobs : List Job)
    (run : List (Nat × Choice)) (s : Config Calls ProductionPool Outcome)
    (hrun : (start S config jobs).run machine run = some s)
    (hserver : (start S config jobs).Along machine (Config.Performs (Serves P)) run)
    (htimers : (start S config jobs).Along machine (Config.Performs (FiresAtRest P)) run)
    (t : Nat) (response : ServiceResponse) (hreturned : s.returned t = some (.reply (.ok response))) :
    ∃ r, s.world.clients.net.created t = [r] ∧ response.requestId = r.requestId := by
  have hkept : Kept (calling S) (fun w γ => Paired S P w.clients γ) (fun _ => Answered)
      (start S config jobs) := by
    refine ⟨fun _ => ⟨none, []⟩, Paired.new S P, fun t p hp => ?_⟩
    obtain ⟨job, -, hjob⟩ := List.mem_flatMap.mp (List.mem_of_getElem? hp)
    exact tasks_safe S job hjob
  obtain ⟨γ, hpaired, hanswered⟩ :=
    (run_safe (machine_upholds echo) hrun (Config.along_performs_and hserver htimers) hkept).returned hreturned
  obtain ⟨q, hmade, hid⟩ := hanswered response rfl
  exact ⟨q, (hpaired.made t).symm.trans hmade, hid⟩

/-! ### Two runs against the echo server -/

open EchoServer (peer ack response)
open Json.Text (compact)

/-- Task `t` gets as far as the first read of its first call: a new client, a new connection,
the handshake, and a request with the id `id`. -/
def begins (t : Nat) (id : String) : List (Nat × Choice) :=
  goes t 1 ++ [(t, .clock 0)] ++ goes t 12 ++ [(t, .arrive (encode ack))] ++ goes t 5 ++
    [(t, .uuids id id)] ++ goes t 1

/-- The answer to a call with the id `id`. -/
def reply (id : String) : Choice := .arrive (encode (response (.new id id "echo" "say" .null)))

/-- One call, answered. -/
def oneCall : List (Nat × Choice) := begins 0 "a" ++ [(0, reply "a")] ++ goes 0 8

/-- The timer of the first call fires while its answer is on the way; the second call
takes the client over, and reads that answer. -/
def lateReply : List (Nat × Choice) :=
  begins 0 "a" ++ [(0, .drop 0 [])] ++ goes 0 5 ++ [(0, .clock 1)] ++ goes 0 2 ++
    goes 1 1 ++ [(1, .clock 2)] ++ goes 1 10 ++ [(1, .uuids "b" "b")] ++ goes 1 1 ++
    [(1, reply "a")] ++ goes 1 8

def small : PoolConfig := { maxConcurrent := 1, circuitBreakerThreshold := 5, circuitBreakerTimeout := 30000 }

def say : Job := .call "echo" "say" .null

/-- The id in the response task `t` has returned. -/
def returnedId (s : Config Calls ProductionPool Outcome) (t : Nat) : Option String :=
  match s.returned t with
  | some (.reply (.ok response)) => some response.requestId
  | _ => none

theorem returnedId_eq_some {s : Config Calls ProductionPool Outcome} {t : Nat} {id : String}
    (h : returnedId s t = some id) :
    ∃ response, s.returned t = some (.reply (.ok response)) ∧ response.requestId = id := by
  unfold returnedId at h
  split at h
  · next response hr => exact ⟨response, hr, Option.some.inj h⟩
  · cases h

/-- One answered call, of which the theorem speaks. -/
theorem replies_paired_oneCall :
    ∃ s response r, (start compact small [say]).run machine oneCall = some s ∧
      s.returned 0 = some (.reply (.ok response)) ∧
      s.world.clients.net.created 0 = [r] ∧ response.requestId = r.requestId := by
  have hend : ((start compact small [say]).run machine oneCall).bind (returnedId · 0) = some "a" := by
    decide +kernel
  obtain ⟨s, hrun, hid⟩ := Option.bind_eq_some_iff.mp hend
  obtain ⟨response, hreturned, -⟩ := returnedId_eq_some hid
  have hserver := Config.along_of_checks
    (show (start compact small [say]).checks machine (Serves peer) oneCall = true by decide +kernel)
  have hnoTimer := Config.along_of_checks
    (show (start compact small [say]).checks machine (fun _ _ _ c => c.isDrop = false) oneCall = true by
      decide +kernel)
  have htimers : (start compact small [say]).Along machine (Config.Performs (FiresAtRest peer)) oneCall :=
    Config.along_mono (fun _ _ h o k hp => firesAtRest_of_no_drop (h o k hp)) hnoTimer
  obtain ⟨r, hcreated, hpaired⟩ := replies_paired compact peer EchoServer.peer_echoes small [say] oneCall s
    hrun hserver htimers 0 response hreturned
  exact ⟨s, response, r, hrun, hreturned, hcreated, hpaired⟩

/-- **After a timeout the next call on the client returns the reply to the call before it.** -/
theorem late_reply_returned :
    ¬ ∀ (S : Codec) (P : Peer), P.Echoes S → ∀ (config : PoolConfig) (jobs : List Job)
        (run : List (Nat × Choice)) (s : Config Calls ProductionPool Outcome),
      (start S config jobs).run machine run = some s →
      (start S config jobs).Along machine (Config.Performs (Serves P)) run →
      ∀ (t : Nat) (response : ServiceResponse), s.returned t = some (.reply (.ok response)) →
        ∃ r, s.world.clients.net.created t = [r] ∧ response.requestId = r.requestId := by
  intro h
  have hend : ((start compact small [say, say]).run machine lateReply).bind (fun s =>
      (returnedId s 1).map fun id => (id, (s.world.clients.net.created 1).map (·.requestId))) =
        some ("a", ["b"]) := by
    decide +kernel
  obtain ⟨s, hrun, hs⟩ := Option.bind_eq_some_iff.mp hend
  obtain ⟨id, hid, heq⟩ := Option.map_eq_some_iff.mp hs
  obtain ⟨rfl, hmade⟩ := Prod.mk.inj heq
  obtain ⟨response, hreturned, hresponse⟩ := returnedId_eq_some hid
  obtain ⟨r, hcreated, hpaired⟩ := h compact peer EchoServer.peer_echoes small [say, say] lateReply s hrun
    (Config.along_of_checks (by decide +kernel)) 1 response hreturned
  rw [hcreated, List.map_singleton, ← hpaired, hresponse] at hmade
  revert hmade
  decide

end XProtocol.ProductionPool
