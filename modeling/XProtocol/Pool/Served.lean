import XProtocol.Pool.Once
import XProtocol.Server.Calls

/-! Calls of a pool, served.

The server passes a request to its handler for a message that it has read, and each
message once; the messages it reads were sent; and a request is sent once. So over all
connections of the pool the handler is called with a request no more often than it was
created (`handlings_le`), and a call that returns a response has had its request handled,
on one connection: exactly once, if no other request has its id (`calls_handled_once`). -/
namespace XProtocol
open Async
open Json (Value Codec)
open Wire

/-- Requests that come each from a reading of its own are no more than the readings like them. -/
theorem Sourced.countP_le {Q : Timed (Result Frame) → ServiceRequest → Prop} {hs : List (Timed (Result Frame))}
    {requests : List ServiceRequest} (h : Sourced Q hs requests) {p : ServiceRequest → Bool}
    {q : Timed (Result Frame) → Bool} (hpq : ∀ h request, Q h request → p request = true → q h = true) :
    requests.countP p ≤ hs.countP q := by
  obtain ⟨sources, hsub, hall⟩ := h
  refine Nat.le_trans ?_ hsub.countP_le
  clear hsub
  induction hall with
  | nil => exact Nat.le_refl 0
  | @cons h request sources requests hq _ ih =>
    rw [List.countP_cons, List.countP_cons]
    by_cases hp : p request = true
    · rw [if_pos hp, if_pos (hpq h request hq hp)]
      exact Nat.succ_le_succ ih
    · rw [if_neg hp]
      exact Nat.le_add_right_of_le ih

namespace UdsServer
variable {σ : Type}

section
variable (E : Site σ) (setup : Setup) (start : ConnId → σ × Watch) (n : Net)

/-- The server's session on the connection `c`, as far as a client has written. -/
def sessionAt (c : ConnId) : Session σ Watch String :=
  (Session.accepted (start c).1 (start c).2).heard (handleConnectionWithConfig E setup) (frames (n.conns c).written)

/-- The state in which the handler of the connection `c` is behind some messages. It is the connection's own: what
is said with it is said of handlers that share nothing among connections. -/
def handlerBehind (c : ConnId) (before : List Frame) : σ :=
  ((Session.accepted (start c).1 (start c).2).heard (handleConnectionWithConfig E setup) before).link.handler

/-- How often the handler is called with a request with the id `id`, on all connections. -/
def handlings (id : String) : Nat :=
  total n.opened (fun requests : List ServiceRequest => requests.countP (·.requestId = id))
    fun c => (sessionAt E setup start n c).link.handled

end

variable {E : Site σ} {setup : Setup} {start : ConnId → σ × Watch} {n : Net} {c : ConnId}

/-- A message is read that carries a request with the id. -/
def brings (S : Codec) (id : String) : Timed (Result Frame) → Bool
  | .inTime (.ok f) => carries S id f
  | _ => false

/-- What is handled was carried by a message. -/
theorem handled_carried (id : String) (s : σ) (w : Watch) (fs : List Frame) :
    ((Session.accepted s w).heard (handleConnectionWithConfig E setup) fs).link.handled.countP (·.requestId = id) ≤
      fs.countP (carries E.codec id) := by
  have hsourced := sourced_run (Q := fun h request => ∃ f, h = .inTime (.ok f) ∧ f.isRequest = true ∧
      E.codec.fromSlice f.payload = some request) (greets E setup) (fun clientId => loops clientId)
    (fun h before request reply hask => by
      obtain ⟨f, rfl, -, hdecoded, ⟨htype, -⟩ | ⟨htype, -⟩⟩ := ask_service hask <;>
        exact ⟨f, rfl, by simp [Frame.isRequest, htype], hdecoded⟩)
    s w (fs.map fun f => .inTime (.ok f))
  have hcount := hsourced.countP_le (p := (·.requestId = id)) (q := brings E.codec id)
    fun h request hq hid => by
      obtain ⟨f, rfl, htype, hdecoded⟩ := hq
      simpa [brings, carries, htype, hdecoded] using hid
  rw [List.countP_map] at hcount
  exact hcount

/-- **No more requests are handled than were sent.** -/
theorem handlings_le (hwired : ∀ c, Wired (n.conns c)) (id : String) :
    handlings E setup start n id ≤ n.requests E.codec id := by
  have hconn (c : Nat) : (sessionAt E setup start n c).link.handled.countP (·.requestId = id) ≤
      (n.conns c).requests E.codec id :=
    (handled_carried id ..).trans (hwired c).sublist.countP_le
  unfold handlings Net.requests total
  exact Finset.sum_le_sum fun c _ => hconn c

/-- What was handled behind some messages stays handled behind more. -/
theorem handled_heard (s : σ) (w : Watch) {fs : List Frame} (hfs : fs ≠ []) {more : List Frame} (hmore : fs <+: more) :
    ((Session.accepted s w).heard (handleConnectionWithConfig E setup) fs).link.handled <+:
      ((Session.accepted s w).heard (handleConnectionWithConfig E setup) more).link.handled := by
  obtain ⟨rest, rfl⟩ := hmore
  rw [show (Session.accepted s w).heard (handleConnectionWithConfig E setup) (fs ++ rest) =
    ((Session.accepted s w).heard (handleConnectionWithConfig E setup) fs).heard (handleConnectionWithConfig E setup)
      rest by simp [Session.heard, Session.run, List.foldl_append]]
  rcases Session.heard_cases (A := handleConnectionWithConfig E setup) s w fs with hnil | ⟨clientId, l, hl⟩ | hover
  · exact absurd hnil hfs
  · rw [hl]
    exact Service.Loops.handled_run (loops clientId) _ l
  · rw [show ((Session.accepted s w).heard (handleConnectionWithConfig E setup) fs).heard _ rest = _ from
      Session.run_finished hover _]

variable (E setup) in
/-- A message that asks for a call is answered with an error, or its request is handled. -/
theorem ask_call {f : Frame} (htype : f.msgType = msgRequest) :
    (∃ text, ask E setup (.inTime (.ok f)) = .answer (errorFrame E text)) ∨
      ∃ request, E.codec.fromSlice f.payload = some request ∧
        ask E setup (.inTime (.ok f)) = .service none request fun response => ⟨msgResponse, E.codec.toVec response⟩ := by
  simp only [ask, if_pos htype]
  split_ifs
  · exact .inl ⟨_, rfl⟩
  · cases (E.codec.fromSlice f.payload : Option ServiceRequest) with
    | none => exact .inl ⟨_, rfl⟩
    | some request =>
      by_cases hvalid : validateRequest request
      · exact .inr ⟨request, rfl, by simp [hvalid]⟩
      · exact .inl ⟨"invalid request format", by simp [hvalid]⟩

/-- **A request that was answered with a response was handled**, and the response is what the handler
made of it. -/
theorem answered_handled {request : ServiceRequest} {body : Json.Bytes}
    (h : SharedUdsClient.Answered (peer E setup start) n ⟨msgRequest, E.codec.toVec request⟩ [⟨msgResponse, body⟩]) :
    ∃ c < n.opened, ∃ before, before ++ [⟨msgRequest, E.codec.toVec request⟩] <+: frames (n.conns c).written ∧
      request ∈ (sessionAt E setup start n c).link.handled ∧
      body = E.codec.toVec (E.handler.handle request (handlerBehind E setup start c before)).1 := by
  obtain ⟨c, before, hout, hans⟩ := h
  have hmem : (⟨msgResponse, body⟩ : Frame) ∈
      (peer E setup start).answers c before ⟨msgRequest, E.codec.toVec request⟩ := hans ▸ List.mem_singleton_self _
  rcases Session.heard_cases (A := handleConnectionWithConfig E setup) (start c).1 (start c).2 before
    with rfl | ⟨clientId, l, hl⟩ | hover
  · rw [peer, Service.peer_first] at hmem
    rcases greet_sent ⟨msgRequest, E.codec.toVec request⟩ (start c).1 (start c).2 with h | ⟨g, h, -, hother⟩ <;>
      rw [h] at hmem
    · cases hmem
    · rw [← List.mem_singleton.mp hmem] at hother
      exact absurd hother (by simp [msgResponse, msgHandshakeAck, msgError])
  · rw [peer, Service.peer_looping (fun clientId => loops clientId) _ hl] at hmem
    have hcall := ask_call E setup (f := ⟨msgRequest, E.codec.toVec request⟩) rfl
    rcases hcall with ⟨text, hask⟩ | ⟨request', hdecoded, hask⟩ <;> rw [hask] at hmem
    · obtain heq : (⟨msgResponse, body⟩ : Frame) = errorFrame E text := (mem_writes hmem).1
      exact absurd (congrArg Frame.msgType heq) (by simp [errorFrame, msgResponse, msgError])
    · obtain rfl : request = request' := Option.some.inj ((Json.Codec.fromSlice_toVec _ _).symm.trans hdecoded)
      have hbody : body = E.codec.toVec (E.handler.handle request l.handler).1 := by
        have hreply : (⟨msgResponse, body⟩ : Frame) ∈
          if Writable E l.sent.length (responseFrame E (E.handler.handle request l.handler).1)
          then [responseFrame E (E.handler.handle request l.handler).1] else [] := hmem
        rw [List.mem_ite_nil_right, List.mem_singleton] at hreply
        exact congrArg Frame.payload hreply.2
      have hstate : handlerBehind E setup start c before = l.handler := by rw [handlerBehind, hl]
      refine ⟨c, hout.opened, before, hout.frames, ?_, hstate ▸ hbody⟩
      refine (handled_heard (start c).1 (start c).2 (by simp) hout.frames).subset ?_
      have hloops : (handleConnectionWithConfig E setup).Loops E clientId (ask E setup) := loops clientId
      obtain ⟨l', hline, hstep⟩ := Service.Loops.step hloops l
        (.inTime (.ok ⟨msgRequest, E.codec.toVec request⟩))
      have hhandled : l'.handled = l.handled ++ [request] := by
        rw [show l'.handled = l'.line.handled from rfl, hline, hask, after_handled]
        rfl
      have hlink : ((Session.accepted (start c).1 (start c).2).heard (handleConnectionWithConfig E setup)
          (before ++ [⟨msgRequest, E.codec.toVec request⟩])).link = l' := by
        rw [Session.heard_snoc, hl]
        rcases hstep with ⟨-, hstep⟩ | ⟨-, r, hstep⟩ <;> rw [hstep]
      rw [hlink, hhandled]
      exact List.mem_append_right _ (List.mem_singleton_self _)
  · rw [peer, Service.peer_finished _ hover] at hmem
    cases hmem

variable (E setup start) in
/-- The call that task `t` made has had its request handled on the connection on which it was sent, and got what
the handler made of it there, behind the messages before. The handler was called with no other request with that
id, if nobody else created one. -/
def Handled (n : Net) (count t : Nat) (call : Call) (response : ServiceResponse) : Prop :=
  ∃ requestId correlationId,
    let request := ServiceRequest.new requestId correlationId call.service call.method call.payload
    n.created t = [request] ∧
      (∃ c < n.opened, ∃ before, before ++ [⟨msgRequest, E.codec.toVec request⟩] <+: frames (n.conns c).written ∧
        request ∈ (sessionAt E setup start n c).link.handled ∧
        response = (E.handler.handle request (handlerBehind E setup start c before)).1) ∧
      ((∀ u < count, u ≠ t → ∀ other ∈ n.created u, other.requestId ≠ requestId) →
        handlings E setup start n requestId = 1)

/-- A call that got a response was handled, and once. -/
theorem handled_of_replied {count t : Nat} {call : Call} {response : ServiceResponse} (ht : t < count)
    (honce : ∀ id, handlings E setup start n id ≤ n.creations id count)
    (h : UdsClient.RepliedBy E.codec (fun request => n.created t = [request])
      (SharedUdsClient.Answered (peer E setup start) n)
      (.call call.service call.method call.payload) (.reply (.ok response))) :
    Handled E setup start n count t call response := by
  obtain ⟨requestId, correlationId, body, hmade, hans, hbody⟩ := h
  obtain ⟨c, hc, before, hsent, hmem, rfl⟩ := answered_handled hans
  refine ⟨requestId, correlationId, hmade, ⟨c, hc, before, hsent, hmem, ?_⟩, fun hother => Nat.le_antisymm ?_ ?_⟩
  · exact Option.some.inj (hbody.symm.trans (Json.Codec.fromSlice_toVec _ _))
  · refine (honce requestId).trans (Nat.le_of_eq ?_)
    refine (total_alone ht fun u hu hut => ?_).trans (by rw [hmade]; simp [ServiceRequest.new])
    exact List.countP_eq_zero.mpr fun other hmem => by simpa using hother u hu hut other hmem
  · refine Nat.le_trans ?_ (le_total hc)
    exact List.countP_pos_iff.mpr ⟨_, hmem, by simp [ServiceRequest.new]⟩

end UdsServer

/-! ### The pools and their server -/

section Pools
open UdsServer (Setup Watch peer peer_whole handlings handlings_le Handled handled_of_replied)
open SharedUdsClient (Party Apart)

theorem returned_lt {E : Interface} {W α : Type} {s : Config E W α} {t : Nat} {a : α} (h : s.returned t = some a) :
    t < s.tasks.length := by
  by_contra hge
  rw [Config.returned, List.getElem?_eq_none (Nat.le_of_not_lt hge)] at h
  cases h

variable {σ : Type} {E : Site σ} {setup : Setup} {accepts : ConnId → σ × Watch} {w : Clients} {γ : Nat → Party}
  {count t : Nat}

theorem handlings_created (hapart : Apart (peer E setup accepts) w γ) (honce : w.Once E.codec count) (id : String) :
    handlings E setup accepts w.net id ≤ w.net.creations id count :=
  (handlings_le hapart.wired id).trans (honce id)

/-- What a call knows that has returned tells that it was handled. -/
theorem handled_of_known (hapart : Apart (peer E setup accepts) w γ) (honce : w.Once E.codec count) (ht : t < count)
    {call : Call} {response : ServiceResponse}
    (h : UdsClient.RepliedBy E.codec (fun request => (γ t).made = [request])
      (((γ t).grasp .calm).Told (peer E setup accepts)) (.call call.service call.method call.payload)
      (.reply (.ok response))) :
    Handled E setup accepts w.net count t call response :=
  handled_of_replied ht (handlings_created hapart honce)
    (h.mono (fun _ hmade => (hapart.made t).symm.trans hmade) fun _ _ => hapart.answered)

/-- What the task asks its client for. -/
def UdsClientPool.Role.asked : UdsClientPool.Role → Option Call
  | .call service method payload | .item service method payload => some ⟨service, method, payload⟩
  | .close => none

def TopicBasedPool.Role.asked : TopicBasedPool.Role → Option Call
  | .request service method payload _ => some ⟨service, method, payload⟩
  | .close => none

end Pools

namespace UdsClientPool
open UdsServer (Setup Watch peer peer_whole handlings Handled)

/-- **The server handles a request of the pool once.** No request is handled more often than it was
created, and a call that returns a response has had its own handled: once, if nobody else drew its id. -/
theorem calls_handled_once {σ : Type} (E : Site σ) (setup : Setup) (accepts : ConnId → σ × Watch) (n m : Nat)
    (jobs : List Job) (run : List (Nat × Choice)) (s : Config Calls World Outcome)
    (hrun : (start E.codec n m jobs).run machine run = some s)
    (hcandid : (start E.codec n m jobs).Along machine (Config.Performs (Candid (peer E setup accepts))) run) :
    (∀ id, handlings E setup accepts s.world.clients.net id ≤ s.world.clients.net.creations id s.tasks.length) ∧
    ∀ t role call response, (jobs.flatMap Job.roles)[t]? = some role → role.asked = some call →
      s.returned t = some (.reply (.ok response)) →
      Handled E setup accepts s.world.clients.net s.tasks.length t call response := by
  have hwhole : (peer E setup accepts).Whole := peer_whole
  have hkept := run_answers E.codec hwhole n m jobs run s hrun hcandid
  have honce := Config.throughout_last (requests_once E.codec n m jobs run) hrun
  rw [← Config.run_length hrun] at honce
  refine ⟨fun id => ?_, fun t role call response hrole hasked hreturned => ?_⟩
  · obtain ⟨γ, hapart, -⟩ := hkept
    exact handlings_created hapart honce id
  · obtain ⟨γ, hapart, hreplied⟩ := hkept.returned hreturned
    cases role with
    | call service method payload | item service method payload =>
      cases hasked
      exact handled_of_known hapart honce (returned_lt hreturned) (hreplied _ hrole)
    | close => cases hasked

/-! Two calls; the second looks for a client, waits, and finds the one that the first has put back. -/

section Sample
open Json.Text (compact)
open UdsServer.Sample (site setup watch greeting)
open UdsServer (responseFrame)

def ping : Call := ⟨"echo", "ping", .null⟩

def pong (id : String) : Frame :=
  responseFrame site (.success (.new id id ping.service ping.method ping.payload) .null)

/-- Task `t` creates its request, sends it and reads the response. -/
def asks (t : Nat) (id : String) : List (Nat × Choice) :=
  [(t, .uuids id id)] ++ goes t 1 ++ [(t, .arrive (encode (pong id)))]

def waited : List (Nat × Choice) :=
  goes 0 11 ++ goes 1 10 ++ [(0, .arrive (encode greeting))] ++ goes 0 5 ++ asks 0 "a" ++ goes 0 6 ++
    goes 1 7 ++ asks 1 "b" ++ goes 1 6

def responseOf (s : Config Calls World Outcome) (t : Nat) : Option ServiceResponse :=
  match s.returned t with
  | some (.reply (.ok response)) => some response
  | _ => none

theorem responseOf_eq_some {s : Config Calls World Outcome} {t : Nat} {response : ServiceResponse}
    (h : responseOf s t = some response) : s.returned t = some (.reply (.ok response)) := by
  unfold responseOf at h
  split at h
  · next response' hr => rw [hr, Option.some.inj h]
  · cases h

theorem calls_handled_once_waited : ∃ s response,
    (start compact 2 1 [.call "echo" "ping" .null, .call "echo" "ping" .null]).run machine waited = some s ∧
      s.returned 1 = some (.reply (.ok response)) ∧
      Handled site setup (fun _ => (0, watch)) s.world.clients.net s.tasks.length 1 ping response := by
  have hend : (((start compact 2 1 [.call "echo" "ping" .null, .call "echo" "ping" .null]).run machine waited).bind
      (responseOf · 1)).isSome = true := by
    decide +kernel
  obtain ⟨response, hresponse⟩ := Option.isSome_iff_exists.mp hend
  obtain ⟨s, hrun, hs⟩ := Option.bind_eq_some_iff.mp hresponse
  have hreturned := responseOf_eq_some hs
  exact ⟨s, response, hrun, hreturned, (calls_handled_once site setup (fun _ => (0, watch)) 2 1 _ waited s hrun
    (Config.along_of_checks (by decide +kernel))).2 1 (.call "echo" "ping" .null) ping response rfl rfl hreturned⟩

end Sample

end UdsClientPool

namespace TopicBasedPool
open UdsServer (Setup Watch peer peer_whole handlings Handled)

/-- **So it does for the pool with topics**, whether a request goes through its topic's client or through
the default pool. -/
theorem topics_handled_once {σ : Type} (E : Site σ) (setup : Setup) (accepts : ConnId → σ × Watch) (n : Nat)
    (jobs : List Job) (run : List (Nat × Choice)) (s : Config Calls World Outcome)
    (hrun : (start E.codec n jobs).run machine run = some s)
    (hcandid : (start E.codec n jobs).Along machine (Config.Performs (Candid (peer E setup accepts))) run) :
    (∀ id, handlings E setup accepts s.world.clients.net id ≤ s.world.clients.net.creations id s.tasks.length) ∧
    ∀ t role call response, (jobs.flatMap Job.roles)[t]? = some role → role.asked = some call →
      s.returned t = some (.reply (.ok response)) →
      Handled E setup accepts s.world.clients.net s.tasks.length t call response := by
  have hwhole : (peer E setup accepts).Whole := peer_whole
  have hkept := run_answers E.codec hwhole n jobs run s hrun hcandid
  have honce := Config.throughout_last (topic_requests_once E.codec n jobs run) hrun
  rw [← Config.run_length hrun] at honce
  refine ⟨fun id => ?_, fun t role call response hrole hasked hreturned => ?_⟩
  · obtain ⟨γ, hapart, -⟩ := hkept
    exact handlings_created hapart honce id
  · obtain ⟨γ, hapart, hreplied⟩ := hkept.returned hreturned
    cases role with
    | request service method payload topic =>
      cases hasked
      exact handled_of_known hapart honce (returned_lt hreturned) (hreplied _ hrole)
    | close => cases hasked

/-! A call of a topic, and one without. -/

section Sample
open Json.Text (compact)
open UdsServer.Sample (site setup watch greeting)
open UdsClientPool (ping asks)

def jobs : List Job := [.call "echo" "ping" .null (some "news"), .call "echo" "ping" .null none]

def lanes : List (Nat × Choice) :=
  goes 0 10 ++ goes 1 11 ++ [(0, .arrive (encode greeting)), (1, .arrive (encode greeting))] ++ goes 0 5 ++
    asks 0 "a" ++ goes 0 2 ++ goes 1 5 ++ asks 1 "b" ++ goes 1 6

def responseOf (s : Config Calls World Outcome) (t : Nat) : Option ServiceResponse :=
  match s.returned t with
  | some (.reply (.ok response)) => some response
  | _ => none

theorem responseOf_eq_some {s : Config Calls World Outcome} {t : Nat} {response : ServiceResponse}
    (h : responseOf s t = some response) : s.returned t = some (.reply (.ok response)) := by
  unfold responseOf at h
  split at h
  · next response' hr => rw [hr, Option.some.inj h]
  · cases h

theorem topics_handled_once_lanes : ∃ s response, (start compact 1 jobs).run machine lanes = some s ∧
    s.returned 0 = some (.reply (.ok response)) ∧
      Handled site setup (fun _ => (0, watch)) s.world.clients.net s.tasks.length 0 ping response := by
  have hend : (((start compact 1 jobs).run machine lanes).bind (responseOf · 0)).isSome = true := by
    decide +kernel
  obtain ⟨response, hresponse⟩ := Option.isSome_iff_exists.mp hend
  obtain ⟨s, hrun, hs⟩ := Option.bind_eq_some_iff.mp hresponse
  have hreturned := responseOf_eq_some hs
  exact ⟨s, response, hrun, hreturned, (topics_handled_once site setup (fun _ => (0, watch)) 1 jobs lanes s hrun
    (Config.along_of_checks (by decide +kernel))).2 0 (.request "echo" "ping" .null (some "news")) ping response
      rfl rfl hreturned⟩

end Sample

end TopicBasedPool

end XProtocol
