import XProtocol.Client.Exchange
import XProtocol.Server.Validation
import XProtocol.Serving.Peer

/-! Streaming calls, end to end.

The server ends a stream with a body it writes field by field, and `mode` is not among
the fields (`endBody`); the client reads it as a `StreamResponse`, in which `mode` is
required. So no streaming call against this server returns its messages
(`streams_never`), although the request arrives as it was meant: the server parses the
mode that was asked for, and every other field of the payload is as it was
(`mode_arrives`). -/
namespace XProtocol
open Async
open Json (Value)
open Wire

namespace UdsServer
open UdsClient (Awaited Job Outcome)

section
variable {σ : Type} (E : Site σ) (setup : Setup)

/-- The server, as its clients see it. -/
def peer (start : ConnId → σ × Watch) : Peer := (handleConnectionWithConfig E setup).peer start

variable {E setup} {start : ConnId → σ × Watch}

/-- The handshake is answered, or the client is told that it calls too often; or nothing is said. -/
theorem greet_sent (f : Frame) (s : σ) (w : Watch) :
    let sent := (((handleConnectionWithConfig E setup).greet f).exec (.fresh s w)).2.sent
    sent = [] ∨ ∃ g, sent = [g] ∧ Fits g ∧ (g.msgType = msgHandshakeAck ∨ g.msgType = msgError) := by
  have hwrite {α : Type} (p : Serving σ Watch α) (hp : ∀ l, (p.exec l).2 = l) (l : Link σ Watch)
      (hl : l.sent = []) (msgType : UInt8) (payload : Json.Bytes)
      (htype : msgType = msgHandshakeAck ∨ msgType = msgError) :
      let sent := ((Serving.write E msgType payload >>= fun _ => p).exec l).2.sent
      sent = [] ∨ ∃ g, sent = [g] ∧ Fits g ∧ (g.msgType = msgHandshakeAck ∨ g.msgType = msgError) := by
    rw [Serving.exec_bind]
    by_cases hw : Writable E l.sent.length ⟨msgType, payload⟩
    · rw [Serving.exec_write_of l E hw]
      refine .inr ⟨⟨msgType, payload⟩, ?_, hw.fits, htype⟩
      simp [hp, hl]
    · obtain ⟨e, he⟩ := Serving.exec_write_of_not l E hw
      rw [he]
      exact .inl hl
  show let sent := ((greet E setup f).exec (.fresh s w)).2.sent
    sent = [] ∨ ∃ g, sent = [g] ∧ Fits g ∧ (g.msgType = msgHandshakeAck ∨ g.msgType = msgError)
  unfold greet
  by_cases htype : f.msgType ≠ msgHandshake
  · simp only [if_pos htype]
    exact .inl rfl
  simp only [if_neg htype]
  by_cases hsize : f.payload.length > setup.config.maxRequestSize
  · simp only [if_pos hsize]
    exact .inl rfl
  simp only [if_neg hsize]
  rw [Serving.exec_bind, Serving.exec_decode]
  cases (E.codec.fromSlice f.payload : Option HandshakeRequest) with
  | none => exact .inl rfl
  | some request =>
    simp only [Option.elim_some]
    rw [Serving.exec_bind, notify, Serving.exec_modifyAside]
    simp only
    rw [Serving.exec_bind, exec_checkRate]
    simp only
    split
    · exact hwrite _ (fun _ => rfl) _ rfl msgError _ (.inr rfl)
    · rw [Serving.exec_bind, Serving.exec_onHandshake]
      exact hwrite _ (fun _ => rfl) _ rfl msgHandshakeAck _ (.inl rfl)

theorem brief : (handleConnectionWithConfig E setup).Brief := by
  intro f s w
  rcases greet_sent f s w with h | ⟨g, h, hfits, -⟩ <;> rw [h]
  · exact ⟨Nat.zero_le 1, nofun⟩
  · exact ⟨Nat.le_refl 1, fun g' hg => List.mem_singleton.mp hg ▸ hfits⟩

/-- **The server's answers are whole**, as its clients need them. -/
theorem peer_whole : (peer E setup start).Whole := by
  refine Service.peer_whole brief (fun clientId => loops clientId) fun f g request reply hask => ?_
  obtain ⟨_, ⟨⟩, -, -, ⟨-, -, hnone⟩ | ⟨htype, -, hstart⟩⟩ := ask_service hask
  · exact nomatch hnone
  · cases hstart
    exact ⟨htype, by simp [msgStreamStart, msgStreamEnd], by simp [msgStreamStart, msgError]⟩

theorem ask_says {f g : Frame} (hg : (ask E setup (.inTime (.ok f))).Says g) (htype : g.msgType = msgStreamEnd) :
    ∃ response, g.payload = E.codec.toVec (endBody response) := by
  have hother {t : UInt8} (payload : Json.Bytes) (ht : t ≠ msgStreamEnd) (hg : g = ⟨t, payload⟩) :
      ∃ response, g.payload = E.codec.toVec (endBody response) := by
    subst hg
    exact absurd htype ht
  unfold ask at hg
  simp only at hg
  split_ifs at hg
  · exact hother _ (by decide) hg
  · split at hg
    · exact hother _ (by decide) hg
    · split_ifs at hg
      · exact hother _ (by decide) hg
      · obtain hg | ⟨response, hg⟩ := hg
        · cases hg
        · exact hother _ (by decide) hg
  · split at hg
    · cases hg
    · obtain hg | ⟨response, hg⟩ := hg
      · exact hother _ (by decide) (Option.some.inj hg).symm
      · exact ⟨response, by rw [hg]⟩
  · cases hg
  · exact hother _ (by decide) hg
  · exact hother _ (by decide) hg
  · cases hg
  · cases hg
  · cases hg

/-- A message that ends a stream has a response in it, without a mode. -/
theorem streamEnd_body {c : ConnId} {before : List Frame} {f g : Frame}
    (hg : g ∈ (peer E setup start).answers c before f) (htype : g.msgType = msgStreamEnd) :
    ∃ response, g.payload = E.codec.toVec (endBody response) := by
  rcases Session.heard_cases (A := handleConnectionWithConfig E setup) (start c).1 (start c).2 before
    with rfl | ⟨clientId, l, hl⟩ | hover
  · rw [peer, Service.peer_first] at hg
    rcases greet_sent f (start c).1 (start c).2 with h | ⟨g', h, -, hother⟩ <;> rw [h] at hg
    · cases hg
    · rw [← List.mem_singleton.mp hg, htype] at hother
      exact absurd hother (by decide)
  · rw [peer, Service.peer_looping (fun clientId => loops clientId) f hl] at hg
    exact ask_says (mem_writes hg).1 htype
  · rw [peer, Service.peer_finished f hover] at hg
    cases hg

/-- The body of the end of a stream is no `StreamResponse`. -/
theorem endBody_undecoded (S : Json.Codec) (response : ServiceResponse) :
    (S.fromSlice (S.toVec (endBody response)) : Option StreamResponse) = none := by
  rw [Json.Codec.toVec, Json.Codec.fromSlice_print]
  exact streamResponse_needs_mode _ (by simp)

/-- What the client asks for is what the server is asked: the mode, and every other field of the payload. -/
theorem mode_arrives {payload requestPayload : Value} {mode : StreamMode}
    (h : payload.assign "stream_mode" (.string mode.asStr) = some requestPayload)
    (requestId correlationId service method : String) :
    let request := ServiceRequest.new requestId correlationId service method requestPayload
    streamMode request = mode ∧
      ∀ key, key ≠ "stream_mode" → request.payload.get key = payload.get key := by
  refine ⟨?_, fun key hkey => ?_⟩
  · show (((requestPayload.get "stream_mode").bind Value.asStr).bind StreamMode.fromStr).getD .result = mode
    rw [Json.Value.get_assign h, if_pos rfl]
    simp [Value.asStr]
  · show requestPayload.get key = _
    rw [Json.Value.get_assign h, if_neg hkey]

/-- A new client's call for a stream can return its messages; its request has come to the handler with
the mode that was asked for, and with the fields of the payload as they were. -/
def Streams (E : Site σ) (setup : Setup) (start : ConnId → σ × Watch) (service method : String)
    (payload : Value) (mode : StreamMode) : Prop :=
  ∃ fuel messages w, Awaited E.codec (peer E setup start) ⟨.new, .empty⟩
      (.callStreaming service method payload mode fuel) (.stream (.ok (some messages))) w ∧
    ∃ request,
      ((Session.accepted (start 0).1 (start 0).2).heard (handleConnectionWithConfig E setup)
        (frames (w.net.conns 0).written)).link.handled = [request] ∧
      streamMode request = mode ∧ ∀ key, key ≠ "stream_mode" → request.payload.get key = payload.get key

/-- **No call for a stream returns its messages**: for every configuration, handler, payload and mode. -/
theorem streams_never (E : Site σ) (setup : Setup) (start : ConnId → σ × Watch) (service method : String)
    (payload : Value) (mode : StreamMode) : ¬ Streams E setup start service method payload mode := by
  rintro ⟨fuel, messages, w, ⟨hreturns, hended⟩, -⟩
  have hwhole : (peer E setup start).Whole := peer_whole
  have hsafe := UdsClient.task_alone E.codec hwhole (UdsClient.calm_new _)
    (.callStreaming service method payload mode fuel)
  obtain ⟨-, c, before, _, _, _, got, body, finish, -, -, hex, -, hfinish, -⟩ := hreturns.safe hsafe hended
  have hmem : (⟨msgStreamEnd, body⟩ : Frame) ∈ got ++ [⟨msgStreamEnd, body⟩] :=
    List.mem_append_right got (List.mem_singleton_self _)
  rw [← hex.answer] at hmem
  obtain ⟨response, hbody⟩ := streamEnd_body hmem rfl
  rw [show body = _ from hbody, endBody_undecoded] at hfinish
  exact nomatch hfinish

end

/-! ### A stream whose end does not decode -/

namespace Sample
open Json.Text (compact)

def watching : Job := .callStreaming "echo" "watch" (.object []) .values 3

/-- The request that comes to the server, and the messages it writes on the connection. -/
def streamed : ServiceRequest := .new "a" "b" "echo" "watch" (.object [("stream_mode", .string "values")])

def greeting : Frame := site.ack (ServiceHandler.acceptHandshake "echo" "session")

def streamFrames : List Frame :=
  [⟨msgStreamStart, compact.toVec (startBody streamed)⟩,
    ⟨msgStreamEnd, compact.toVec (endBody (.success streamed .null))⟩]

/-- The client connects, asks, and reads the start and the end of its stream. -/
def watched : List (Nat × Choice) :=
  goes 0 4 ++ [(0, .arrive (encode greeting))] ++ goes 0 5 ++ [(0, .uuids "a" "b")] ++ goes 0 1 ++
    [(0, .arrive (encodeAll streamFrames)), (0, .arrive [])] ++ goes 0 2

def failed (s : Config (NetWith UdsClient.Fields) (Client UdsClient) Outcome) : Bool :=
  match s.returned 0 with
  | some (.stream (.error (.encoding _))) => true
  | _ => false

/-- Streaming is enabled, the handler succeeds and nothing goes wrong: the call fails. -/
theorem stream_undecoded :
    setup.config.enableStreaming = true ∧
    (∀ request s, (site.handler.handle request s).1.status.startsWith "error" = false) ∧
    ¬ ∀ outcome w, Returns UdsClient.machine (UdsClient.Smooth (peer site setup fun _ => (0, watch)))
        (watching.task compact) ⟨.new, .empty⟩ outcome w → ∃ messages, outcome = .stream (.ok messages) := by
  have hsuccess : "success".startsWith "error" = false := by decide +kernel
  refine ⟨rfl, fun _ _ => hsuccess, fun hall => ?_⟩
  have hend : ((⟨⟨.new, .empty⟩, [watching.task compact]⟩ :
      Config (NetWith UdsClient.Fields) (Client UdsClient) Outcome).run UdsClient.machine watched).map failed =
        some true := by
    decide +kernel
  obtain ⟨s, hrun, hfailed⟩ := Option.map_eq_some_iff.mp hend
  unfold failed at hfailed
  split at hfailed
  · next hr =>
    obtain ⟨messages, hok⟩ := hall _ _ ⟨watched, s, hrun, Config.along_of_checks (by decide +kernel), hr, rfl⟩
    exact nomatch hok
  · exact nomatch hfailed

end Sample

end UdsServer

end XProtocol
