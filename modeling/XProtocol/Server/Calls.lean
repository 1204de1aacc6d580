import XProtocol.Client.Undisturbed
import XProtocol.Server.Streams

/-! Calls, end to end.

When nothing goes wrong, a client and a server are no more than the handler applied to
one request after another (`calls_served`): the calls return its responses, in order,
and it is called with the requests the client made and with nothing else, behind one
handshake. The two meet in the peer that the server's session is: the session behind a
handshake and some requests loops with the handler's state there (`heard_calls`), so that
it answers the next request with the handler's response. -/
namespace XProtocol
open Async
open Json (Value Codec)
open Wire

/-! ### A handler, one request after another -/

section
variable {σ : Type} (H : ServiceHandler σ)

def ServiceHandler.serve : σ → List ServiceRequest → List ServiceResponse
  | _, [] => []
  | s, request :: rest => (H.handle request s).1 :: serve (H.handle request s).2 rest

/-- The handler's state behind the requests. -/
def ServiceHandler.behind (s : σ) (requests : List ServiceRequest) : σ :=
  requests.foldl (fun s request => (H.handle request s).2) s

theorem behind_snoc (s : σ) (requests : List ServiceRequest) (request : ServiceRequest) :
    H.behind s (requests ++ [request]) = (H.handle request (H.behind s requests)).2 := List.foldl_append ..

theorem serve_append (s : σ) (requests rest : List ServiceRequest) :
    H.serve s (requests ++ rest) = H.serve s requests ++ H.serve (H.behind s requests) rest := by
  induction requests generalizing s with
  | nil => rfl
  | cons request requests ih => exact congrArg _ (ih _)

end

/-- What is asked of a client. -/
structure Call where
  service : String
  method : String
  payload : Value

/-- The call makes the request, with two uuids, which have 36 bytes each. -/
def Call.Makes (call : Call) (request : ServiceRequest) : Prop :=
  ∃ requestId correlationId, requestId.utf8ByteSize = 36 ∧ correlationId.utf8ByteSize = 36 ∧
    request = .new requestId correlationId call.service call.method call.payload

/-- The names are there, and have 256 bytes at most. -/
def Call.Named (call : Call) : Prop :=
  (call.service ≠ "" ∧ call.service.utf8ByteSize ≤ 256) ∧ call.method ≠ "" ∧ call.method.utf8ByteSize ≤ 256

namespace UdsServer
open UdsClient (hello undisturbed Standing)

theorem valid_of_makes {call : Call} {request : ServiceRequest} (hnamed : call.Named)
    (hmakes : call.Makes request) : Valid request := by
  obtain ⟨requestId, correlationId, hid, -, rfl⟩ := hmakes
  refine ⟨hnamed.1, hnamed.2, ?_, ?_⟩
  · rintro (rfl : requestId = "")
    exact nomatch hid
  · show requestId.utf8ByteSize ≤ 128
    omega

theorem valid_of_made {calls : List Call} {requests : List ServiceRequest}
    (hnamed : ∀ call ∈ calls, call.Named) (hmade : calls.Forall₂ Call.Makes requests) :
    ∀ request ∈ requests, Valid request := by
  induction hmade with
  | nil => exact nofun
  | cons hmakes _ ih =>
    rw [List.forall_mem_cons] at hnamed ⊢
    exact ⟨valid_of_makes hnamed.1 hmakes, ih hnamed.2⟩

section
variable {σ : Type} (E : Site σ) (setup : Setup) (s₀ : σ) (w₀ : Watch)

def requestFrame (request : ServiceRequest) : Frame := ⟨msgRequest, E.codec.toVec request⟩

def responseFrame (response : ServiceResponse) : Frame := ⟨msgResponse, E.codec.toVec response⟩

/-- The handler's answer to the client's handshake, and its state behind it. -/
def welcome : HandshakeResponse × σ :=
  E.handler.onHandshake (UdsClient.handshake "protocol-client" "client") s₀

/-- Nothing is in the way of the calls: the server has the default configuration, nothing fails as it
writes, the limiter admits the client and the handler accepts it, and every frame fits. -/
structure Favourable (calls : List Call) (requests : List ServiceRequest) : Prop where
  config : setup.config = .default
  flush : ∀ n, E.flush n = none
  rate : (w₀.limiter.check w₀.now "protocol-client").1 = true
  accepted : (welcome E s₀).1.success = true
  hello : Fits (hello E.codec)
  ack : Fits (E.ack (welcome E s₀).1)
  named : ∀ call ∈ calls, call.Named
  made : calls.Forall₂ Call.Makes requests
  asked : ∀ request ∈ requests, Fits (requestFrame E request)
  answered : ∀ response ∈ E.handler.serve (welcome E s₀).2 requests, Fits (responseFrame E response)

/-- The server's session on the client's connection `c`, as far as the client has written. -/
def sessionOf (w : Client UdsClient) (c : ConnId) : Session σ Watch String :=
  (Session.accepted s₀ w₀).heard (handleConnectionWithConfig E setup) (frames (w.net.conns c).written)

/-- Every call has returned the handler's response to its request; the handler was called with the
requests, in order; and on each connection one handshake went out, and the requests behind it. -/
structure Served (requests : List ServiceRequest)
    (s : Config (NetWith UdsClient.Fields) (Client UdsClient) (List (Result ServiceResponse))) : Prop where
  results : s.returned 0 = some ((E.handler.serve (welcome E s₀).2 requests).map .ok)
  handled : (sessionOf E setup s₀ w₀ s.world 0).link.handled = requests
  opened : s.world.net.opened ≤ 1
  handshake : ∀ c < s.world.net.opened,
    frames (s.world.net.conns c).written = UdsClient.hello E.codec :: requests.map (requestFrame E)

variable {E setup s₀ w₀}

theorem writable_of_fits (hflush : ∀ n, E.flush n = none) (n : Nat) {f : Frame} (hf : Fits f) :
    Writable E n f := by
  rw [Writable, Site.refusal, writeMessage_of_fits hf]
  simp [hflush]

theorem payload_length (hconfig : setup.config = .default) {f : Frame} (hf : Fits f) :
    f.payload.length ≤ setup.config.maxRequestSize := by
  rw [hconfig]
  exact Nat.le_trans (Nat.le_add_left _ 2) hf

namespace Favourable
variable {calls : List Call} {requests : List ServiceRequest}

theorem opens (h : Favourable E setup s₀ w₀ calls requests) :
    opened E setup (UdsClient.hello E.codec) s₀ w₀ = some (welcome E s₀) := by
  have hsize := payload_length h.config h.hello
  unfold opened
  rw [if_neg (by simp [UdsClient.hello]), if_neg (Nat.not_lt.mpr hsize)]
  rw [show (E.codec.fromSlice (UdsClient.hello E.codec).payload : Option HandshakeRequest) =
    some (UdsClient.handshake "protocol-client" "client") from Json.Codec.fromSlice_toVec _ _]
  simp only [UdsClient.handshake, h.rate, if_true]
  exact if_pos (writable_of_fits h.flush 0 h.ack)

theorem valid (h : Favourable E setup s₀ w₀ calls requests) : ∀ request ∈ requests, Valid request :=
  valid_of_made h.named h.made

/-- A request of the client's is passed to the handler. -/
theorem asks (h : Favourable E setup s₀ w₀ calls requests) {request : ServiceRequest}
    (hmem : request ∈ requests) :
    ask E setup (.inTime (.ok (requestFrame E request))) = .service none request (responseFrame E) :=
  ask_request (payload_length h.config (h.asked request hmem)) rfl (Json.Codec.fromSlice_toVec _ _)
    (h.valid request hmem)

theorem response_fits (h : Favourable E setup s₀ w₀ calls requests) {done : List ServiceRequest}
    {request : ServiceRequest} (hdone : done ++ [request] <+: requests) :
    Fits (responseFrame E (E.handler.handle request (E.handler.behind (welcome E s₀).2 done)).1) := by
  obtain ⟨rest, rfl⟩ := hdone
  refine h.answered _ ?_
  rw [serve_append, serve_append]
  simp [ServiceHandler.serve]

/-- **Behind a handshake and some requests the session loops**, with the handler's state there. -/
theorem heard_calls (h : Favourable E setup s₀ w₀ calls requests) {done : List ServiceRequest}
    (hdone : done <+: requests) :
    ∃ clientId l, (Session.accepted s₀ w₀).heard (handleConnectionWithConfig E setup)
        (UdsClient.hello E.codec :: done.map (requestFrame E)) = ⟨.looping clientId, l⟩ ∧
      l.handler = E.handler.behind (welcome E s₀).2 done ∧ l.handled = done := by
  induction done using List.reverseRecOn with
  | nil =>
    obtain ⟨clientId, w, hstep⟩ := (greets E setup).opens h.opens
    exact ⟨clientId, _, hstep, rfl, rfl⟩
  | append_singleton done request ih =>
    obtain ⟨clientId, l, hheard, hhandler, hhandled⟩ := ih ((List.prefix_append _ _).trans hdone)
    have hmem : request ∈ requests := hdone.subset (by simp)
    have hwritable := writable_of_fits h.flush l.sent.length (h.response_fits hdone)
    have hafter : l.line.after E (.service none request (responseFrame E)) =
        (true, { handler := (E.handler.handle request l.handler).2, handled := l.handled ++ [request],
                 sent := l.sent ++ [responseFrame E (E.handler.handle request l.handler).1], aside := () }) := by
      rw [← hhandler] at hwritable
      exact if_pos hwritable
    have hloops : (handleConnectionWithConfig E setup).Loops E clientId (ask E setup) := loops clientId
    obtain ⟨l', hline, ⟨-, hstep⟩ | ⟨hstop, -⟩⟩ := hloops.step l (.inTime (.ok (requestFrame E request)))
    · rw [h.asks hmem, hafter] at hline
      refine ⟨clientId, l', ?_, ?_, ?_⟩
      · rw [List.map_append, ← List.cons_append, List.map_singleton, Session.heard_snoc, hheard, hstep]
      · rw [behind_snoc, ← hhandler]
        exact congrArg Link.handler hline
      · rw [← hhandled]
        exact congrArg Link.handled hline
    · rw [h.asks hmem, hafter] at hstop
      exact nomatch hstop

/-! ### What the client is answered -/

theorem greeting (h : Favourable E setup s₀ w₀ calls requests) (c : ConnId) :
    (peer E setup fun _ => (s₀, w₀)).answers c [] (UdsClient.hello E.codec) = [E.ack (welcome E s₀).1] := by
  obtain ⟨clientId, w, hstep⟩ := (greets E setup).opens h.opens
  show ((Session.accepted s₀ w₀).step (handleConnectionWithConfig E setup)
    (.inTime (.ok (UdsClient.hello E.codec)))).link.sent.drop 0 = _
  rw [hstep]
  rfl

theorem answers (h : Favourable E setup s₀ w₀ calls requests) {done : List ServiceRequest}
    {request : ServiceRequest} (hdone : done ++ [request] <+: requests) (c : ConnId) :
    (peer E setup fun _ => (s₀, w₀)).answers c (UdsClient.hello E.codec :: done.map (requestFrame E))
        (requestFrame E request) =
      [responseFrame E (E.handler.handle request (E.handler.behind (welcome E s₀).2 done)).1] := by
  obtain ⟨clientId, l, hheard, hhandler, -⟩ := h.heard_calls ((List.prefix_append _ _).trans hdone)
  rw [peer, Service.peer_looping (fun clientId => loops clientId) _ hheard,
    h.asks (hdone.subset (by simp)), Link.writes]
  simp only [Link.line_handler, hhandler]
  exact if_pos (writable_of_fits h.flush _ (h.response_fits hdone))

variable (E setup s₀ w₀) in
/-- The client behind the calls that made `done`. -/
def Reached (done : List ServiceRequest) (w : Client UdsClient) : Prop :=
  (done = [] ∧ w = ⟨.new, .empty⟩) ∨
  (Standing (peer E setup fun _ => (s₀, w₀)) w 0 (UdsClient.hello E.codec :: done.map (requestFrame E)) ∧
    w.net.opened = 1 ∧ w.net.created 0 = done)

/-- **One call returns the handler's response to its request.** -/
theorem call_served (h : Favourable E setup s₀ w₀ calls requests) {done : List ServiceRequest}
    {request : ServiceRequest} {call : Call} (hdone : done ++ [request] <+: requests)
    (hmakes : call.Makes request) {w : Client UdsClient} (hw : Reached E setup s₀ w₀ done w) :
    Safe (undisturbed (peer E setup fun _ => (s₀, w₀)) requests)
      (UdsClient.call E.codec call.service call.method call.payload).run
      (fun w' result =>
        result = .ok (E.handler.handle request (E.handler.behind (welcome E s₀).2 done)).1 ∧
          Reached E setup s₀ w₀ (done ++ [request]) w') w := by
  obtain ⟨requestId, correlationId, -, -, hrequest⟩ := hmakes
  have hnext : requests[done.length]? = some request := by
    obtain ⟨rest, rfl⟩ := hdone
    simp
  -- the exchange, on a connection that was greeted and has answered `done`
  have hexchange (w : Client UdsClient)
      (hstanding : Standing (peer E setup fun _ => (s₀, w₀)) w 0
        (UdsClient.hello E.codec :: done.map (requestFrame E)))
      (hopened : w.net.opened = 1) (hcreated : w.net.created 0 = done) :
      Meets (undisturbed (peer E setup fun _ => (s₀, w₀)) requests)
        (UdsClient.doCallInternal E.codec call.service call.method call.payload)
        (fun w' response =>
          response = (E.handler.handle request (E.handler.behind (welcome E s₀).2 done)).1 ∧
            Reached E setup s₀ w₀ (done ++ [request]) w') (fun _ _ => False) w := by
    refine meets_mono (UdsClient.doCallInternal_sure hstanding hrequest (hcreated ▸ hnext)
      (h.asked request (hdone.subset (by simp))) (h.answers hdone 0) (h.response_fits hdone)) ?_
      fun _ _ h => h
    rintro w' response ⟨rfl, hstanding', hopened', hcreated'⟩
    refine ⟨rfl, .inr ⟨?_, hopened'.trans hopened, hcreated'.trans (hcreated ▸ rfl)⟩⟩
    rw [List.map_append, ← List.cons_append]
    exact hstanding'
  have hcall : Meets (undisturbed (peer E setup fun _ => (s₀, w₀)) requests)
      (UdsClient.call E.codec call.service call.method call.payload)
      (fun w' response =>
        response = (E.handler.handle request (E.handler.behind (welcome E s₀).2 done)).1 ∧
          Reached E setup s₀ w₀ (done ++ [request]) w') (fun _ _ => False) w := by
    unfold UdsClient.call
    rcases hw with ⟨rfl, rfl⟩ | ⟨hstanding, hopened, hcreated⟩
    · exact UdsClient.request_first_sure rfl h.hello (h.greeting 0) h.ack h.accepted
        fun w' hstanding hopened hcreated => hexchange w' hstanding hopened (congrFun hcreated 0)
    · exact UdsClient.request_sure hstanding (hexchange w hstanding hopened hcreated)
  refine safe_mono hcall fun w' result hresult => ?_
  cases result with
  | ok response => exact ⟨congrArg _ hresult.1, hresult.2⟩
  | error e => exact hresult.elim

theorem calls_reach (h : Favourable E setup s₀ w₀ calls requests) {done rest : List ServiceRequest}
    (hrequests : requests = done ++ rest) {left : List Call} (hmade : left.Forall₂ Call.Makes rest)
    {w : Client UdsClient} (hw : Reached E setup s₀ w₀ done w) :
    Safe (undisturbed (peer E setup fun _ => (s₀, w₀)) requests)
      (Program.inTurn (left.map fun call =>
        (UdsClient.call E.codec call.service call.method call.payload).run))
      (fun w' results =>
        results = (E.handler.serve (E.handler.behind (welcome E s₀).2 done) rest).map .ok ∧
          Reached E setup s₀ w₀ requests w') w := by
  induction hmade generalizing done w with
  | nil =>
    rw [List.append_nil] at hrequests
    exact ⟨rfl, hrequests ▸ hw⟩
  | @cons call request left rest hmakes _ ih =>
    have hcons : requests = done ++ [request] ++ rest := by simpa using hrequests
    rw [List.map_cons, Program.inTurn, safe_bind]
    refine safe_mono (h.call_served ⟨rest, hcons.symm⟩ hmakes hw) ?_
    rintro w₁ _ ⟨rfl, hw₁⟩
    rw [safe_bind]
    refine safe_mono (ih hcons hw₁) ?_
    rintro w₂ _ ⟨rfl, hw₂⟩
    rw [behind_snoc] at *
    exact ⟨rfl, hw₂⟩

theorem served (h : Favourable E setup s₀ w₀ calls requests)
    {s : Config (NetWith UdsClient.Fields) (Client UdsClient) (List (Result ServiceResponse))}
    (hreturned : s.returned 0 = some ((E.handler.serve (welcome E s₀).2 requests).map .ok))
    (hs : Reached E setup s₀ w₀ requests s.world) : Served E setup s₀ w₀ requests s := by
  rcases hs with ⟨rfl, hnew⟩ | ⟨hstanding, hopened, -⟩
  · refine ⟨hreturned, ?_, ?_, fun c hc => ?_⟩ <;> rw [hnew] at *
    · rfl
    · exact Nat.zero_le 1
    · exact absurd hc (Nat.not_lt_zero c)
  · have hframes : frames (s.world.net.conns 0).written =
        UdsClient.hello E.codec :: requests.map (requestFrame E) := by
      rw [hstanding.settled.written, frames_encodeAll_self hstanding.settled.fits]
    refine ⟨hreturned, ?_, Nat.le_of_eq hopened, fun c hc => ?_⟩
    · obtain ⟨clientId, l, hheard, -, hhandled⟩ := h.heard_calls (List.prefix_rfl (l := requests))
      rw [sessionOf, hframes, hheard]
      exact hhandled
    · obtain rfl : c = 0 := by omega
      exact hframes

end Favourable

/-- **Calls are the handler, applied.** For every handler that accepts the client, and for every number
of calls: when nothing is in the way, the calls return, the i-th with the handler's response to the i-th
request; the handler is called with these requests, in their order, and with no other, behind one
handshake. -/
theorem calls_served (E : Site σ) (setup : Setup) (s₀ : σ) (w₀ : Watch) {calls : List Call}
    {requests : List ServiceRequest} (h : Favourable E setup s₀ w₀ calls requests) :
    (⟨⟨.new, .empty⟩, [Program.inTurn (calls.map fun call =>
        (UdsClient.call E.codec call.service call.method call.payload).run)]⟩ :
      Config (NetWith UdsClient.Fields) (Client UdsClient) (List (Result ServiceResponse))).Inevitably
      UdsClient.machine
      (Config.Performs fun w _ o choice =>
        UdsClient.Smooth (peer E setup fun _ => (s₀, w₀)) w o choice ∧ UdsClient.Draws requests w o choice)
      (Served E setup s₀ w₀ requests) := by
  refine (inevitably_returns (h.calls_reach rfl h.made (.inl ⟨rfl, rfl⟩))).mono ?_
  rintro s ⟨results, hreturned, hresults, hreached⟩
  exact h.served (hresults ▸ hreturned) hreached

end

/-! ### Two calls -/

namespace Sample

def say : Call := ⟨"echo", "say", .null⟩

def firstSaid : ServiceRequest :=
  .new "00000000-0000-4000-8000-000000000001" "00000000-0000-4000-8000-000000000002" "echo" "say" .null

def secondSaid : ServiceRequest :=
  .new "00000000-0000-4000-8000-000000000003" "00000000-0000-4000-8000-000000000004" "echo" "say" .null

theorem favourable : Favourable site setup 0 watch [say, say] [firstSaid, secondSaid] where
  config := rfl
  flush _ := rfl
  rate := by decide +kernel
  accepted := rfl
  hello := by decide +kernel
  ack := by decide +kernel
  named := by
    simp only [List.mem_cons, List.not_mem_nil, or_false, or_self, forall_eq]
    exact ⟨⟨by decide, by decide⟩, by decide, by decide⟩
  made := .cons ⟨_, _, by decide, by decide, rfl⟩ (.cons ⟨_, _, by decide, by decide, rfl⟩ .nil)
  asked := by decide +kernel
  answered := by decide +kernel

/-- Two calls that are served, of which the theorem speaks. -/
theorem calls_served_twice :
    (⟨⟨.new, .empty⟩, [Program.inTurn ([say, say].map fun call =>
        (UdsClient.call site.codec call.service call.method call.payload).run)]⟩ :
      Config (NetWith UdsClient.Fields) (Client UdsClient) (List (Result ServiceResponse))).Inevitably
      UdsClient.machine
      (Config.Performs fun w _ o choice => UdsClient.Smooth (peer site setup fun _ => (0, watch)) w o choice ∧
        UdsClient.Draws [firstSaid, secondSaid] w o choice)
      (Served site setup 0 watch [firstSaid, secondSaid]) :=
  calls_served site setup 0 watch favourable

end Sample

end UdsServer

end XProtocol
