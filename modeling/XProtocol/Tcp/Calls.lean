import XProtocol.Json.Text
import XProtocol.Tcp.Exchange

/-! Calls of the TCP client, end to end.

`connect` greets on one connection and stores another. The first call greets there, and
its request is answered (`exchange_owed`). The second call greets again on the same
connection. By then its task has left the greeting behind, and passes over a handshake
without an answer: so both wait (`again_stuck`). A tuple of calls is served exactly if
there is no call in it, or one whose messages fit and whose first handshake the handler
accepts (`serves_iff`). -/
namespace XProtocol.Tcp
open Async
open Json (Bytes Value Codec)
open Wire

variable {σ : Type}

section
variable (S : Codec) (H : ServiceHandler σ)

def hello (serviceName : String) : Frame := ⟨msgHandshake, S.toVec (TcpClient.handshake serviceName)⟩

def ack (response : HandshakeResponse) : Frame := ⟨msgHandshakeAck, S.toVec response⟩

def requestFrame (request : ServiceRequest) : Frame := ⟨msgRequest, S.toVec request⟩

def responseFrame (response : ServiceResponse) : Frame := ⟨msgResponse, S.toVec response⟩

end

/-! ### What a task does -/

section Task
variable {S : Codec} {H : ServiceHandler σ} {j : Joint σ} {c : ConnId} {s₀ : σ}

theorem writable_iff (n : Nat) (f : Frame) : Writable (site S H) n f ↔ Fits f := by
  unfold Writable Site.refusal
  by_cases hf : Fits f
  · simp [writeMessage_of_fits hf, site, hf]
  · simp [writeMessage_of_not_fits hf, hf]

/-- The task behind the handshake. -/
theorem next_hello (h : j.session c = .accepted s₀ ()) (serviceName : String) :
    let o := H.onHandshake (TcpClient.handshake serviceName) j.handler
    (Fits (ack S o.1) ∧ j.next S H c (.message (hello S serviceName) []) =
      ⟨.looping (), { handler := o.2, handled := [], sent := [ack S o.1], aside := () }⟩) ∨
    (¬ Fits (ack S o.1) ∧ ∃ e, j.next S H c (.message (hello S serviceName) []) =
      ⟨.finished (.error e), { handler := o.2, handled := [], sent := [], aside := () }⟩) := by
  intro o
  let l : Link σ Unit := { handler := o.2, handled := [], sent := [], aside := () }
  have hstep : j.next S H c (.message (hello S serviceName) []) =
      .greeted ((Serving.write (site S H) msgHandshakeAck (S.toVec o.1) >>= fun _ => pure ()).exec l) := by
    unfold Joint.next
    rw [h]
    show Session.greeted ((TcpServer.greet (site S H) (hello S serviceName)).exec _) = _
    unfold TcpServer.greet
    rw [if_neg (by simp [hello]), Serving.exec_bind, Serving.exec_decode]
    have hdecode : ((site S H).codec.fromSlice (hello S serviceName).payload : Option HandshakeRequest) =
        some (TcpClient.handshake serviceName) := Codec.fromSlice_toVec ..
    rw [hdecode]
    rfl
  rw [hstep, Serving.exec_bind]
  by_cases hf : Fits (ack S o.1)
  · rw [Serving.exec_write_of l (site S H) ((writable_iff 0 _).mpr hf)]
    exact .inl ⟨hf, rfl⟩
  · obtain ⟨e, he⟩ := Serving.exec_write_of_not l (site S H) (fun hw => hf ((writable_iff 0 _).mp hw))
    rw [he]
    exact .inr ⟨hf, e, rfl⟩

/-- The task behind a request. -/
theorem next_request {l : Link σ Unit} (h : j.session c = ⟨.looping (), l⟩) (request : ServiceRequest) :
    let o := H.handle request j.handler
    (Fits (responseFrame S o.1) ∧ j.next S H c (.message (requestFrame S request) []) =
      ⟨.looping (), { handler := o.2, handled := l.handled ++ [request],
                      sent := l.sent ++ [responseFrame S o.1], aside := () }⟩) ∨
    (¬ Fits (responseFrame S o.1) ∧ ∃ e, j.next S H c (.message (requestFrame S request) []) =
      ⟨.finished (.error e),
        { handler := o.2, handled := l.handled ++ [request], sent := l.sent, aside := () }⟩) := by
  intro o
  let l' : Link σ Unit := { handler := o.2, handled := l.handled ++ [request], sent := l.sent, aside := () }
  have hstep : j.next S H c (.message (requestFrame S request) []) =
      .turned () ((Serving.write (site S H) msgResponse (S.toVec o.1) >>= fun _ => pure .next).exec l') := by
    unfold Joint.next
    rw [h]
    show Session.turned () ((TcpServer.serve (site S H) () (.inTime (.ok (requestFrame S request)))).exec _) = _
    unfold TcpServer.serve
    simp only [requestFrame, if_true]
    rw [Serving.exec_bind, Serving.exec_decode]
    have hdecode : ((site S H).codec.fromSlice (S.toVec request) : Option ServiceRequest) = some request :=
      Codec.fromSlice_toVec ..
    rw [hdecode]
    rfl
  rw [hstep, Serving.exec_bind]
  by_cases hf : Fits (responseFrame S o.1)
  · rw [Serving.exec_write_of l' (site S H) ((writable_iff _ _).mpr hf)]
    exact .inl ⟨hf, rfl⟩
  · obtain ⟨e, he⟩ := Serving.exec_write_of_not l' (site S H) (fun hw => hf ((writable_iff _ _).mp hw))
    rw [he]
    exact .inr ⟨hf, e, rfl⟩

/-- Behind the handshake another one changes nothing, and is not answered. -/
theorem next_again {l : Link σ Unit} (h : j.session c = ⟨.looping (), l⟩) (serviceName : String) :
    j.next S H c (.message (hello S serviceName) []) = ⟨.looping (), { l with handler := j.handler }⟩ := by
  unfold Joint.next
  rw [h]
  rfl

end Task

/-! ### What the client does -/

/-- The client's stored connection is `c`, to which nothing was said yet; the handler is in state `h`. -/
structure Connected (s₀ : σ) (c : ConnId) (h : σ) (j : Joint σ) : Prop where
  calm : Calm s₀ j
  connected : j.client.fields.connected = true
  stream : j.client.fields.stream = some c
  opened : c < j.client.net.opened
  session : j.session c = .accepted s₀ ()
  handler : j.handler = h

/-- The calls have made `requests`, and got `answered`. -/
structure Made (j : Joint σ) (requests : List ServiceRequest) (answered : List (ServiceRequest × ServiceResponse)) :
    Prop where
  created : j.client.net.created 0 = requests
  answered : j.answered = answered

/-- The client's stored connection is `c`, and its task is behind the greeting. -/
structure Standing (s₀ : σ) (c : ConnId) (j : Joint σ) : Prop where
  calm : Calm s₀ j
  connected : j.client.fields.connected = true
  stream : j.client.fields.stream = some c
  opened : c < j.client.net.opened
  session : ∃ l, j.session c = ⟨.looping (), l⟩

theorem Calm.withFields {s₀ : σ} {j : Joint σ} (h : Calm s₀ j) (u : TcpClient) : Calm s₀ (j.withFields u) :=
  ⟨fun d => (h.even d).of_eq rfl rfl rfl, h.unopened⟩

/-- A message on `c` and its answer lie between `j` and `j'`. -/
structure Exchanged (s₀ : σ) (j : Joint σ) (c : ConnId) (l : Link σ Unit)
    (pairs : List (ServiceRequest × ServiceResponse)) (j' : Joint σ) : Prop where
  calm : Calm s₀ j'
  session : j'.session c = ⟨.looping (), l⟩
  others : ∀ d ≠ c, j'.session d = j.session d
  handler : j'.handler = l.handler
  answered : j'.answered = j.answered ++ pairs
  fields : j'.client.fields = j.client.fields
  opened : j'.client.net.opened = j.client.net.opened
  created : j'.client.net.created = j.client.net.created

section Ask
variable {S : Codec} {H : ServiceHandler σ} {calls : List Asked} {s₀ : σ} {j : Joint σ} {c : ConnId}
  {f g : Frame} {α : Type} {Q : Joint σ → α → Prop} {R : Joint σ → ProtocolError → Prop} {l : Link σ Unit}
  {p : Frame → TcpClient.Code α}

/-- A message that is answered with `g`, unless one of them does not fit. -/
theorem ask_owed (hcalm : Calm s₀ j) (hc : c < j.client.net.opened) (hwaits : finished (j.session c) = false)
    (hanswer : Fits g ∧ j.next S H c (.message f []) = ⟨.looping (), l⟩ ∨
      ¬ Fits g ∧ ∃ e l', j.next S H c (.message f []) = ⟨.finished (.error e), l'⟩ ∧
        l'.sent = (j.session c).link.sent)
    (hsent : l.sent = (j.session c).link.sent ++ [g])
    (hp : Fits f → Fits g → ∀ j', Exchanged s₀ j c l ((l.handled.drop (j.session c).link.handled.length).map
      fun request => (request, (H.handle request j.handler).1)) j' → Meets (owed S H calls) (p g) Q R j')
    (hR : ¬ (Fits f ∧ Fits g) → ∀ j' e, R j' e) :
    Meets (owed S H calls) ((Code.write c f.msgType f.payload : TcpClient.Code Unit) >>= fun _ =>
      (Code.read c : TcpClient.Code Frame) >>= p) Q R j := by
  rw [meets_bind]
  refine meets_mono (write_owed hcalm) ?_ fun j' e hf => hR (fun h => hf h.1) j' e
  rintro _ _ ⟨hf, rfl⟩
  have hpending := hcalm.sent hc hwaits hf
  rw [meets_bind]
  rcases hanswer with ⟨hg, hnext⟩ | ⟨hg, e, l', hnext, hsent'⟩
  · have hnext' : (j.sent c f).next S H c (.message f []) = ⟨.looping (), l⟩ := hnext
    have hsent' : ((j.sent c f).next S H c (.message f [])).link.sent = (j.session c).link.sent ++ [g] := by
      rw [hnext', hsent]
    refine meets_mono (read_answered hpending hsent' (by rw [hnext']; rfl) hg) ?_ fun _ _ h => h
    rintro j' _ ⟨rfl, rfl⟩
    refine hp hf hg _ ⟨hpending.calm hsent', ?_, ?_, ?_, ?_, rfl, rfl, rfl⟩
    · exact (turned_session ..).trans hnext'
    · exact fun d hd => turned_session_other (j.sent c f) f hd
    · exact congrArg (·.link.handler) hnext'
    · show _ ++ (((j.sent c f).next S H c (.message f [])).link.handled.drop _).map _ = _
      rw [hnext']
      rfl
  · have hnext' : (j.sent c f).next S H c (.message f []) = ⟨.finished (.error e), l'⟩ := hnext
    refine read_ended hpending ?_ (by rw [hnext']; rfl) (hR fun h => hg h.2)
    rw [hnext']
    exact hsent'

/-- The first handshake on a connection. -/
theorem greet_owed (hcalm : Calm s₀ j) (hc : c < j.client.net.opened) (hsession : j.session c = .accepted s₀ ())
    (serviceName : String)
    (hp : let o := H.onHandshake (TcpClient.handshake serviceName) j.handler
      Fits (hello S serviceName) → Fits (ack S o.1) →
      ∀ j', Exchanged s₀ j c { handler := o.2, handled := [], sent := [ack S o.1], aside := () } [] j' →
        Meets (owed S H calls) (p (ack S o.1)) Q R j')
    (hR : ¬ (Fits (hello S serviceName) ∧
      Fits (ack S (H.onHandshake (TcpClient.handshake serviceName) j.handler).1)) → ∀ j' e, R j' e) :
    Meets (owed S H calls) ((Code.write c msgHandshake (S.toVec (TcpClient.handshake serviceName)) :
      TcpClient.Code Unit) >>= fun _ => (Code.read c : TcpClient.Code Frame) >>= p) Q R j := by
  let o := H.onHandshake (TcpClient.handshake serviceName) j.handler
  let l : Link σ Unit := { handler := o.2, handled := [], sent := [ack S o.1], aside := () }
  refine ask_owed (f := hello S serviceName) (l := l) hcalm hc (by rw [hsession]; rfl) ?_ ?_ ?_ hR
  · rcases next_hello (S := S) (H := H) hsession serviceName with h | ⟨hg, e, hnext⟩
    · exact .inl h
    · exact .inr ⟨hg, e, _, hnext, by rw [hsession]; rfl⟩
  · rw [hsession]
    rfl
  · have hdrop : l.handled.drop (j.session c).link.handled.length = [] := List.drop_nil
    rw [hdrop]
    exact hp

/-- A request behind the handshake. -/
theorem request_owed (hcalm : Calm s₀ j) (hc : c < j.client.net.opened)
    (hsession : j.session c = ⟨.looping (), l⟩) (request : ServiceRequest)
    (hp : let o := H.handle request j.handler
      Fits (requestFrame S request) → Fits (responseFrame S o.1) →
      ∀ j', Exchanged s₀ j c { handler := o.2, handled := l.handled ++ [request],
                               sent := l.sent ++ [responseFrame S o.1], aside := () } [(request, o.1)] j' →
        Meets (owed S H calls) (p (responseFrame S o.1)) Q R j')
    (hR : ¬ (Fits (requestFrame S request) ∧ Fits (responseFrame S (H.handle request j.handler).1)) →
      ∀ j' e, R j' e) :
    Meets (owed S H calls) ((Code.write c msgRequest (S.toVec request) : TcpClient.Code Unit) >>= fun _ =>
      (Code.read c : TcpClient.Code Frame) >>= p) Q R j := by
  let o := H.handle request j.handler
  let l' : Link σ Unit := { handler := o.2, handled := l.handled ++ [request],
                            sent := l.sent ++ [responseFrame S o.1], aside := () }
  refine ask_owed (f := requestFrame S request) (l := l') hcalm hc (by rw [hsession]; rfl) ?_ ?_ ?_ hR
  · rcases next_request (S := S) (H := H) hsession request with h | ⟨hg, e, hnext⟩
    · exact .inl h
    · exact .inr ⟨hg, e, _, hnext, by rw [hsession]⟩
  · rw [hsession]
  · have hdrop : l'.handled.drop (j.session c).link.handled.length = [request] := by
      rw [hsession]
      exact List.drop_left
    rw [hdrop]
    exact hp

end Ask

section Methods
variable {S : Codec} {H : ServiceHandler σ} {calls : List Asked} {s₀ : σ} {j : Joint σ} {c : ConnId}
  {requests : List ServiceRequest} {answered : List (ServiceRequest × ServiceResponse)}

/-- The messages of `connect` fit, and the handler, in state `h`, accepts its handshake. -/
structure Welcome (S : Codec) (H : ServiceHandler σ) (h : σ) : Prop where
  hello : Fits (hello S "client")
  ack : Fits (ack S (H.onHandshake (TcpClient.handshake "client") h).1)
  accepted : (H.onHandshake (TcpClient.handshake "client") h).1.success = true

/-- **`connect` greets on one connection, and stores another.** -/
theorem connect_owed (hcalm : Calm s₀ j) (hmade : Made j requests answered) :
    Meets (owed S H calls) (TcpClient.connect S)
      (fun j' _ => Welcome S H j.handler ∧
        Connected s₀ (j.client.net.opened + 1) (H.onHandshake (TcpClient.handshake "client") j.handler).2 j' ∧
        Made j' requests answered)
      (fun _ _ => ¬ Welcome S H j.handler) j := by
  let d := j.client.net.opened
  obtain ⟨hsession, -⟩ := hcalm.unopened d (Nat.le_refl _)
  unfold TcpClient.connect
  rw [meets_bind]
  refine meets_mono (dial_owed hcalm) ?_ fun _ _ h => h
  rintro j₁ c ⟨rfl, rfl⟩
  rw [meets_bind]
  refine meets_mono (split_owed hcalm.dial) ?_ fun _ _ h => h
  rintro j₂ _ rfl
  refine greet_owed (hcalm.dial.split d) (Nat.lt_succ_self _) hsession "client" ?_
    fun hnot _ _ hw => hnot ⟨hw.hello, hw.ack⟩
  intro o hf hg j₃ h₃
  show Meets _ ((Code.decode S (S.toVec o.1) : TcpClient.Code HandshakeResponse) >>= fun response => _) _ _ _
  rw [meets_bind, Code.meets_decode, Codec.fromSlice_toVec]
  show Meets _ _ _ _ _
  cases hsuccess : o.1.success with
  | false => exact fun hw => nomatch hsuccess.symm.trans hw.accepted
  | true =>
    show Meets _ (TcpClient.own (.setSession _) >>= fun _ => _) _ _ _
    rw [meets_bind]
    refine own_owed h₃.calm rfl ?_
    rw [meets_bind]
    refine own_owed (h₃.calm.withFields _) rfl ?_
    rw [meets_bind]
    refine meets_mono (dial_owed ((h₃.calm.withFields _).withFields _)) ?_ fun _ _ h => h
    rintro j₄ c ⟨rfl, rfl⟩
    refine own_owed ((h₃.calm.withFields _).withFields _).dial rfl ?_
    refine ⟨⟨hf, hg, hsuccess⟩, ⟨?_, ?_, ?_, ?_, ?_, ?_⟩, ?_⟩
    · exact ((h₃.calm.withFields _).withFields _).dial.withFields _
    · rfl
    · exact congrArg some h₃.opened
    · show d + 1 < j₃.client.net.opened + 1
      rw [h₃.opened]
      exact Nat.lt_succ_self _
    · show j₃.session (d + 1) = _
      rw [h₃.others (d + 1) (Nat.succ_ne_self d)]
      exact (hcalm.unopened (d + 1) (Nat.le_succ d)).1
    · exact h₃.handler
    · exact ⟨(congrFun h₃.created 0).trans hmade.created,
        (h₃.answered.trans (List.append_nil _)).trans hmade.answered⟩

/-- The messages of the first call's exchange fit, with the handler in state `h`. -/
structure Heard (S : Codec) (H : ServiceHandler σ) (h : σ) (a : Asked) : Prop where
  hello : Fits (hello S a.service)
  ack : Fits (ack S (H.onHandshake (TcpClient.handshake a.service) h).1)
  request : Fits (requestFrame S a.request)
  response : Fits (responseFrame S (H.handle a.request (H.onHandshake (TcpClient.handshake a.service) h).2).1)

/-- **The first call is answered.** -/
theorem exchange_owed {h : σ} {a : Asked} (hj : Connected s₀ c h j) (hmade : Made j requests answered)
    (ha : calls[requests.length]? = some a) :
    Meets (owed S H calls) (TcpClient.exchange S c a.service a.method a.payload)
      (fun j' r => Heard S H h a ∧ Standing s₀ c j' ∧
        Made j' (requests ++ [a.request]) (answered ++ [(a.request, r)]))
      (fun _ _ => ¬ Heard S H h a) j := by
  obtain rfl := hj.handler
  unfold TcpClient.exchange
  rw [meets_bind]
  refine meets_mono (split_owed hj.calm) ?_ fun _ _ h => h
  rintro j₁ _ rfl
  refine greet_owed (hj.calm.split c) hj.opened hj.session a.service ?_
    fun hnot _ _ hw => hnot ⟨hw.hello, hw.ack⟩
  intro o hhello hack j₂ h₂
  have hcreated : j₂.client.net.created 0 = requests := (congrFun h₂.created 0).trans hmade.created
  rw [meets_bind]
  refine meets_mono (newRequest_owed h₂.calm (by rw [hcreated, ha])) ?_ fun _ _ h => h
  rintro j₃ _ ⟨rfl, rfl⟩
  have hhandled : (H.handle a.request j₂.handler).1 = (H.handle a.request o.2).1 := by rw [h₂.handler]
  refine request_owed (h₂.calm.create _) (h₂.opened ▸ hj.opened) h₂.session a.request ?_ ?_
  · intro o' hrequest hresponse j₄ h₄
    show Meets _ (Code.decode S (S.toVec o'.1) : TcpClient.Code ServiceResponse) _ _ _
    rw [Code.meets_decode, Codec.fromSlice_toVec]
    refine ⟨⟨hhello, hack, hrequest, hhandled ▸ hresponse⟩, ⟨h₄.calm, ?_, ?_, ?_, _, h₄.session⟩, ?_, ?_⟩
    · rw [h₄.fields]
      exact (congrArg TcpClient.connected h₂.fields).trans hj.connected
    · rw [h₄.fields]
      exact (congrArg TcpClient.stream h₂.fields).trans hj.stream
    · rw [h₄.opened]
      exact h₂.opened ▸ hj.opened
    · rw [h₄.created]
      show (j₂.client.net.create 0 a.request).created 0 = _
      rw [Net.create_created_self, hcreated]
    · rw [h₄.answered]
      show j₂.answered ++ _ = _
      rw [h₂.answered, List.append_nil]
      exact congrArg (· ++ _) hmade.answered
  · exact fun hnot _ _ hw => hnot ⟨hw.request, hhandled ▸ hw.response⟩

/-- Every message of the first call fits, and its first handshake is accepted, with the handler in state `h`. -/
structure Favourable (S : Codec) (H : ServiceHandler σ) (h : σ) (a : Asked) : Prop where
  welcome : Welcome S H h
  heard : Heard S H (H.onHandshake (TcpClient.handshake "client") h).2 a

/-- The first call of a client. -/
theorem call_owed {a : Asked} (hcalm : Calm s₀ j) (hnew : j.client.fields.connected = false)
    (hmade : Made j requests answered) (ha : calls[requests.length]? = some a) :
    Meets (owed S H calls) (TcpClient.call S a.service a.method a.payload)
      (fun j' r => Favourable S H j.handler a ∧ (∃ c, Standing s₀ c j') ∧
        Made j' (requests ++ [a.request]) (answered ++ [(a.request, r)]))
      (fun _ _ => ¬ Favourable S H j.handler a) j := by
  unfold TcpClient.call
  rw [meets_bind]
  refine own_owed hcalm rfl ?_
  rw [hnew]
  show Meets _ (TcpClient.connect S >>= fun _ => TcpClient.own .stream >>= fun _ => _) _ _ _
  rw [meets_bind]
  refine meets_mono (connect_owed hcalm hmade) ?_ fun _ _ hnot hf => hnot hf.welcome
  rintro j₁ _ ⟨hwelcome, hconnected, hmade₁⟩
  rw [meets_bind]
  refine own_owed hconnected.calm rfl ?_
  rw [hconnected.stream]
  refine meets_mono (exchange_owed hconnected hmade₁ ha) ?_ fun _ _ hnot hf => hnot hf.heard
  rintro j₂ r ⟨hheard, hstanding, hmade₂⟩
  exact ⟨⟨hwelcome, hheard⟩, ⟨_, hstanding⟩, hmade₂⟩

/-- **A second call waits for ever**, or its handshake does not go out at all. -/
theorem again_stuck (hj : Standing s₀ c j) (service method : String) (payload : Value) :
    Meets ((machine calls).amid (serve S H)) (TcpClient.call S service method payload)
      (fun _ _ => False) (fun _ _ => True) j := by
  unfold TcpClient.call
  rw [meets_bind]
  refine safe_amid (own_owed hj.calm rfl ?_)
  rw [hj.connected]
  show Meets _ (TcpClient.own .stream >>= fun _ => _) _ _ _
  rw [meets_bind]
  refine safe_amid (own_owed hj.calm rfl ?_)
  have hstream : (j.withFields j.client.fields).client.fields.stream = some c := hj.stream
  rw [hstream]
  show Meets _ (TcpClient.exchange S c service method payload) _ _ _
  unfold TcpClient.exchange
  rw [meets_bind]
  refine safe_amid (meets_mono (split_owed hj.calm) ?_ fun _ _ h => h)
  rintro _ _ rfl
  rw [meets_bind]
  refine safe_amid (meets_mono (write_owed (hj.calm.split c)) ?_ fun _ _ _ => trivial)
  rintro _ _ ⟨hf, rfl⟩
  obtain ⟨l, hsession⟩ := hj.session
  have hnext := next_again (S := S) (H := H) hsession service
  have hwaits : finished (j.session c) = false := by rw [hsession]; rfl
  have hpending := (hj.calm.split c).sent hj.opened hwaits hf
  rw [meets_bind]
  refine read_stuck hpending ?_ ?_
  · show (j.next S H c (.message (hello S service) [])).link.sent = (j.session c).link.sent
    rw [hnext, hsession]
  · show finished (j.next S H c (.message (hello S service) [])) = false
    rw [hnext]
    rfl

end Methods

/-! ### Deadlocks -/

section Deadlock
variable {S : Codec} {H : ServiceHandler σ} {calls : List Asked} {α : Type} {s s' : System σ α}

/-- **A deadlock is never left.** -/
theorem deadlocked_moves (h : Deadlocked s) (hs : s.Moves (machine calls) (serve S H) s') : Deadlocked s' := by
  obtain ⟨c, timed, k, hprogram, hahead, hwaits, hcoming, htaken⟩ := h
  rcases Scene.moves_cases hs with ⟨o, k', choice, r, w, ho, hw, rfl⟩ | ⟨d, w, hw, rfl⟩
  · cases hprogram.symm.trans ho
    exact nomatch (read_waits htaken hahead hwaits choice).symm.trans hw
  · have hd : d ≠ c := by
      rintro rfl
      exact nomatch (serve_idle hcoming).symm.trans hw
    obtain ⟨r, rfl⟩ := serve_eq_some hw
    have hsession : (s.world.turn S H d r).session c = s.world.session c := Function.update_of_ne hd.symm ..
    refine ⟨c, timed, k, hprogram, hahead, ?_, ?_, ?_⟩
    · rw [hsession, hwaits]
    · show (s.world.conn c).written.drop (Function.update s.world.seen d _ c) = []
      rw [Function.update_of_ne hd.symm]
      exact hcoming
    · rw [Joint.replied, hsession]
      exact htaken

end Deadlock

/-! ### What comes of the calls -/

section Calls
variable {S : Codec} {H : ServiceHandler σ} {s₀ : σ} {calls : List Asked}

variable (S H s₀ calls) in
/-- The calls return the handler's responses to their own requests, and nothing ever
waits that nothing is on the way to. -/
structure Serves : Prop where
  free : ∀ s, Relation.ReflTransGen (Scene.Moves (machine calls) (serve S H)) (start S s₀ calls) s →
    ¬ Deadlocked s
  answers : Inevitably (Scene.Moves (machine calls) (serve S H))
    (fun s => s.program = .done (s.world.answered.map fun x => .ok x.2) ∧
      s.world.answered.map Prod.fst = calls.map Asked.request) (start S s₀ calls)

variable {a : Asked} {rest : List Asked}

/-- A client that is owed the answers gets them. -/
theorem serves_of_owed (h : Safe (owed S H calls) (start S s₀ calls).program
    (fun j rs => rs = j.answered.map (fun x => .ok x.2) ∧ j.answered.map Prod.fst = calls.map Asked.request)
    (.start s₀)) : Serves S H s₀ calls := by
  have hends := inevitably_among h
  refine ⟨fun s hs hdead => ?_, hends.mono ?_⟩
  · rcases hends.along hs with hlater | ⟨u, ⟨rs, hrs, -⟩, hus⟩
    · refine hlater.not_of_closed (fun _ _ => deadlocked_moves) ?_ hdead
      rintro s ⟨rs, hrs, -⟩ ⟨c, timed, k, hprogram, -⟩
      exact nomatch hrs.symm.trans hprogram
    · obtain ⟨c, timed, k, hprogram, -⟩ := hdead
      exact nomatch (Scene.done_reaches hrs hus).symm.trans hprogram
  · rintro s ⟨rs, hrs, rfl, hrequests⟩
    exact ⟨hrs, hrequests⟩

/-- Where a call can only end with an error, the calls are not served. -/
theorem Serves.not_failing (h : Serves S H s₀ calls) :
    ¬ Safe ((machine calls).amid (serve S H)) (start S s₀ calls).program (fun _ rs => ∃ e, .error e ∈ rs)
      (.start s₀) := by
  intro hsafe
  obtain ⟨t, ht, hdone, -⟩ := h.answers.reaches
  obtain ⟨_, -, e, he⟩ := returned_amid hsafe ht hdone
  obtain ⟨x, -, hx⟩ := List.mem_map.mp he
  exact nomatch hx

theorem first_owed (a : Asked) (rest : List Asked) :
    Meets (owed S H (a :: rest)) (TcpClient.call S a.service a.method a.payload)
      (fun j r => Favourable S H s₀ a ∧ (∃ c, Standing s₀ c j) ∧ Made j [a.request] [(a.request, r)])
      (fun _ _ => ¬ Favourable S H s₀ a) (.start s₀) :=
  call_owed (calm_start s₀) rfl ⟨rfl, rfl⟩ rfl

theorem serves_single (hf : Favourable S H s₀ a) : Serves S H s₀ [a] := by
  refine serves_of_owed ?_
  show Safe _ ((TcpClient.call S a.service a.method a.payload).run >>= fun r => .done [r]) _ _
  rw [safe_bind]
  refine safe_mono (first_owed a []) fun j r hr => ?_
  cases r with
  | error e => exact absurd hf hr
  | ok r =>
    obtain ⟨-, -, hmade⟩ := hr
    rw [safe_done, hmade.answered]
    exact ⟨rfl, rfl⟩

/-- Without a first call that goes well, or with a second one, some call can only fail. -/
theorem failing_of (h : Favourable S H s₀ a → rest ≠ []) :
    Safe ((machine (a :: rest)).amid (serve S H)) (start S s₀ (a :: rest)).program
      (fun _ rs => ∃ e, .error e ∈ rs) (.start s₀) := by
  show Safe _ ((TcpClient.call S a.service a.method a.payload).run >>= fun r => Program.inTurn _ >>= fun rs =>
    .done (r :: rs)) _ _
  rw [safe_bind]
  refine safe_mono (safe_amid (first_owed a rest)) fun j r hr => ?_
  rw [safe_bind]
  cases r with
  | error e => exact safe_mono (safe_amid_any _) fun _ rs _ => ⟨e, List.mem_cons_self ..⟩
  | ok r =>
    obtain ⟨hf, ⟨c, hstanding⟩, -⟩ := hr
    obtain ⟨b, rest, rfl⟩ := List.exists_cons_of_ne_nil (h hf)
    show Safe _ ((TcpClient.call S b.service b.method b.payload).run >>= fun r => Program.inTurn _ >>= fun rs =>
      .done (r :: rs)) _ _
    rw [safe_bind]
    refine safe_mono (again_stuck hstanding b.service b.method b.payload) fun _ r hr => ?_
    rw [safe_bind]
    refine safe_mono (safe_amid_any _) fun _ rs _ => ?_
    cases r with
    | error e => exact ⟨e, List.mem_cons_of_mem _ (List.mem_cons_self ..)⟩
    | ok r => exact hr.elim

/-- **Calls are served exactly if there is no call, or a single one that goes well.** -/
theorem serves_iff (S : Codec) (H : ServiceHandler σ) (s₀ : σ) (calls : List Asked) :
    Serves S H s₀ calls ↔ calls = [] ∨ ∃ a, calls = [a] ∧ Favourable S H s₀ a := by
  constructor
  · intro h
    cases calls with
    | nil => exact .inl rfl
    | cons a rest =>
      refine .inr ⟨a, ?_⟩
      by_contra hnot
      exact h.not_failing (failing_of fun hf hrest => hnot ⟨by rw [hrest], hf⟩)
  · rintro (rfl | ⟨a, rfl, hf⟩)
    · exact serves_of_owed ⟨rfl, rfl⟩
    · exact serves_single hf

end Calls

/-! ### Two calls -/

section Sample
open Json.Text (compact)

/-- The connection that the program reads on next. -/
def reading {α : Type} : Program (NetWith TcpClient.Fields) α → Option ConnId
  | .perform (.net (.read c _)) _ => some c
  | _ => none

theorem deadlocked_of_reading {α : Type} {s : System σ α} {c : ConnId} (hprogram : reading s.program = some c)
    (hahead : readMessage (s.world.conn c).ahead = .short) (hwaits : finished (s.world.session c) = false)
    (hcoming : s.world.coming c = []) (htaken : (s.world.conn c).taken = s.world.replied c) : Deadlocked s := by
  unfold reading at hprogram
  split at hprogram
  · next d timed k heq =>
    cases hprogram
    exact ⟨_, _, k, heq, hahead, hwaits, hcoming, htaken⟩
  · exact nomatch hprogram

def echo : ServiceHandler Nat := FnServiceHandler.new "echo" (fun r => .success r .null) fun _ => "session"

def say : Asked := ⟨"echo", "say", .null, "1", "2"⟩

/-- Two calls, up to where the second one waits. -/
def twoCalls : List (Choice ⊕ ConnId) :=
  let go (n : Nat) : List (Choice ⊕ ConnId) := List.replicate n (.inl .go)
  let reads (f : Frame) : List (Choice ⊕ ConnId) := [.inl (.arrive (encode f))]
  let greeted := ack compact (ServiceHandler.acceptHandshake "echo" "session")
  let said := responseFrame compact (.success say.request .null)
  go 4 ++ [.inr 0] ++ reads greeted ++ go 7 ++ [.inr 1] ++ reads greeted ++ [.inl (.uuids "1" "2")] ++ go 1 ++
    [.inr 1] ++ reads said ++ go 4 ++ [.inr 1]

/-- **The second of two calls greets a task that is behind its greeting, and both wait.** -/
theorem two_calls_deadlock :
    (∃ s, Relation.ReflTransGen (Scene.Moves (machine [say, say]) (serve compact echo))
      (start compact 0 [say, say]) s ∧ Deadlocked s) ∧ ¬ Serves compact echo 0 [say, say] := by
  have hend : ((start compact 0 [say, say]).run (machine [say, say]) (serve compact echo) twoCalls).any
      (fun s => decide (reading s.program = some 1) &&
        decide (readMessage (s.world.conn 1).ahead = .short) && !finished (s.world.session 1) &&
        decide (s.world.coming 1 = []) && decide ((s.world.conn 1).taken = s.world.replied 1)) = true := by
    decide +kernel
  obtain ⟨s, hrun, hs⟩ := (Option.any_eq_true _ _).mp hend
  simp only [Bool.and_eq_true, decide_eq_true_eq, Bool.not_eq_true'] at hs
  obtain ⟨⟨⟨⟨hprogram, hahead⟩, hwaits⟩, hcoming⟩, htaken⟩ := hs
  have hreach := Scene.run_reaches hrun
  have hdead := deadlocked_of_reading hprogram hahead hwaits hcoming htaken
  exact ⟨⟨s, hreach, hdead⟩, fun h => h.free s hreach hdead⟩

end Sample

end XProtocol.Tcp
