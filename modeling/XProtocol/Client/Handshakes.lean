import XProtocol.Client.Reliable
import XProtocol.Client.Speaking
import XProtocol.EchoServer
import XProtocol.Json.Text
import XProtocol.Pool.Connection
import XProtocol.Server.Session
import XProtocol.Tcp.Server

/-! What the servers make of the four clients.

The reconnecting client and the pool of connections never greet. Their connections are
in order until something is sent on one, and no longer. A server that finds something
else at the front of a connection than a handshake refuses it; it does so for no other
reason (`UdsServer.refused_iff`, `TcpServer.refused_iff`), so that it refuses no
connection that is in order. -/
namespace XProtocol
open Async
open Json (Bytes Value Codec)
open Wire

/-! ### The clients that never greet -/

namespace ReliableUdsClient

theorem writeState_curt (s : ConnectionState) : Curt (writeState s) := curt_bind (curt_own _) fun _ => curt_own _

theorem putStream_curt (s : Option ConnId) : Curt (putStream s) :=
  curt_bind (curt_own _) fun _ => curt_bind (curt_own _) fun _ => curt_own _

theorem isConnected_curt : Curt isConnected := curt_bind (curt_own _) fun _ => curt_pure _

theorem panic_curt {α : Type} : Curt (panic : Code α) :=
  curt_bind (curt_own _) fun _ => curt_bind (curt_own _) fun r => nomatch r

theorem released_curt {α : Type} {body : Code α} (h : Curt body) : Curt (released body) :=
  curt_bind (curt_run h) fun r =>
    curt_bind (curt_own _) fun _ => curt_bind (curt_own _) fun _ => curt_ofResult r

theorem awaitOther_curt : Curt awaitOther := by
  refine curt_bind (curt_own _) fun state => ?_
  split
  · exact curt_bind (curt_own _) fun _ => curt_bind (curt_own _) fun _ =>
      curt_bind (curt_own _) fun _ => curt_pure _
  · exact curt_bind (curt_own _) fun _ => curt_pure _

theorem established_curt (c : ConnId) : Curt (established c) :=
  curt_bind (putStream_curt _) fun _ => curt_bind (writeState_curt _) fun _ =>
    curt_bind (curt_own _) fun _ => curt_own _

theorem connect_curt : Curt connect := by
  refine curt_bind awaitOther_curt fun other => ?_
  cases other with
  | true => exact curt_pure _
  | false =>
  refine curt_bind (curt_own _) fun _ => curt_bind (curt_own _) fun state => curt_bind (curt_own _) fun _ => ?_
  split
  · exact curt_own _
  refine curt_bind (writeState_curt _) fun _ => curt_bind (curt_net trivial) fun r => ?_
  split
  · exact curt_bind (established_curt _) fun _ => curt_own _
  · exact curt_bind (writeState_curt _) fun _ => curt_bind (curt_own _) fun _ =>
      curt_bind (curt_own _) fun _ => curt_throw _
  · exact curt_bind (writeState_curt _) fun _ => curt_bind (curt_own _) fun _ =>
      curt_bind (curt_own _) fun _ => curt_throw _

theorem giveUp_curt {α : Type} (e : ProtocolError) : Curt (giveUp e : Code α) :=
  curt_bind (curt_own _) fun _ => curt_bind (putStream_curt _) fun _ =>
    curt_bind (writeState_curt _) fun _ => curt_throw _

theorem exchange_curt (S : Codec) (c : ConnId) (service method : String) (payload : Value) :
    Curt (exchange S c service method payload) := by
  refine curt_bind (curt_split c) fun _ => curt_bind (curt_newRequest ..) fun request =>
    curt_bind (curt_write c _ (by decide)) fun _ => curt_bind (curt_net trivial) fun r => ?_
  split
  · exact curt_bind (curt_own _) fun _ => curt_throw _
  refine curt_bind (curt_ofResult _) fun f => ?_
  split
  · exact curt_bind (curt_decode ..) fun _ => giveUp_curt _
  split
  · exact giveUp_curt _
  · exact curt_bind (curt_decode ..) fun response => curt_bind (curt_own _) fun _ =>
      curt_bind (curt_own _) fun _ => curt_pure _

theorem ensureConnected_curt : Curt ensureConnected := by
  refine curt_bind isConnected_curt fun connected => ?_
  cases connected with
  | true => exact curt_pure _
  | false => exact connect_curt

theorem call_curt (S : Codec) (service method : String) (payload : Value) :
    Curt (call S service method payload) := by
  have hexchange : Curt (callBehind S service method payload) := by
    refine curt_bind (curt_own _) fun _ => curt_bind (curt_own _) fun _ => curt_bind (curt_own _) fun s => ?_
    cases s with
    | some c => exact released_curt (exchange_curt S c service method payload)
    | none => exact released_curt (curt_bind (writeState_curt _) fun _ => curt_throw _)
  refine curt_bind isConnected_curt fun connected => ?_
  cases connected with
  | true => exact hexchange
  | false => exact curt_bind connect_curt fun _ => hexchange

theorem ping_curt : Curt ping := by
  refine curt_bind isConnected_curt fun connected => ?_
  cases connected with
  | true =>
    refine curt_bind (curt_own _) fun _ => curt_bind (curt_own _) fun _ => curt_bind (curt_own _) fun s => ?_
    cases s with
    | some c => exact released_curt (curt_write c [] (by decide))
    | none => exact released_curt (curt_throw _)
  | false => exact curt_throw _

theorem attempts_curt (config : ConnectionConfig) (left attempt : Nat) :
    Curt (attempts config left attempt) := by
  induction left generalizing attempt with
  | zero => exact curt_pure _
  | succ left ih =>
    have hfailed : Curt (do
        let delay := config.reconnectDelay * (attempt + 1)
        if delay > maxDuration then
          panic
        own (.sleep (min delay (30 * 10 ^ 9)))
        attempts config left (attempt + 1)) := by
      show Curt (ite _ _ _)
      split
      · exact curt_bind panic_curt fun _ => curt_bind (curt_own _) fun _ => ih _
      · exact curt_bind (curt_own _) fun _ => ih _
    refine curt_bind (writeState_curt _) fun _ => curt_bind (putStream_curt _) fun _ =>
      curt_bind (curt_net trivial) fun r => ?_
    split
    · exact curt_bind (established_curt _) fun _ => curt_pure _
    · exact hfailed
    · exact hfailed

theorem reconnect_curt (config : ConnectionConfig) : Curt (reconnect config) := by
  refine curt_bind (curt_own _) fun _ => curt_bind (attempts_curt ..) fun done => ?_
  cases done with
  | true => exact curt_own _
  | false => exact curt_bind (writeState_curt _) fun _ => curt_bind (curt_own _) fun _ =>
      curt_bind (curt_own _) fun _ => curt_throw _

theorem disconnect_curt : Curt disconnect :=
  curt_bind (putStream_curt _) fun _ => curt_bind (writeState_curt _) fun _ => curt_own _

theorem task_curt (S : Codec) (config : ConnectionConfig) (job : Job) :
    Safe (curt Fields) (job.task S config) (fun _ _ => True) () := by
  cases job with
  | connect => exact curt_task connect_curt _
  | ensureConnected => exact curt_task ensureConnected_curt _
  | call service method payload => exact curt_task (call_curt S service method payload) _
  | ping => exact curt_task ping_curt _
  | disconnect => exact curt_task disconnect_curt _
  | reconnect => exact curt_task (reconnect_curt config) _

theorem start_curt (S : Codec) (config : ConnectionConfig) (jobs : List Job) :
    ∀ p ∈ (start S config jobs).tasks, Safe (curt Fields) p (fun _ _ => True) () := by
  intro p hp
  obtain ⟨job, -, rfl⟩ := List.mem_map.mp hp
  exact task_curt S config job

end ReliableUdsClient

namespace UdsConnectionPool

theorem checkout_curt : Curt checkout := by
  refine curt_bind (curt_own _) fun c => ?_
  cases c with
  | some c => exact curt_bind (curt_own _) fun _ => curt_bind (curt_own _) fun _ => curt_pure _
  | none =>
    refine curt_bind (curt_own _) fun _ => curt_bind (curt_own _) fun _ =>
      curt_bind (curt_net trivial) fun r => ?_
    split
    · exact curt_pure _
    · exact curt_bind (curt_own _) fun _ => curt_throw _
    · exact curt_throw _

theorem doCall_curt (S : Codec) (c : ConnId) (service method : String) (payload : Value) :
    Curt (doCall S c service method payload) := by
  refine curt_bind (curt_split c) fun _ => curt_bind (curt_newRequest ..) fun request =>
    curt_bind (curt_write c _ (by decide)) fun _ => curt_bind (curt_read c) fun f => ?_
  split
  · exact curt_throw _
  · exact curt_decode ..

theorem call_curt (S : Codec) (service method : String) (payload : Value) :
    Curt (call S service method payload) :=
  curt_bind (curt_own _) fun _ => curt_bind checkout_curt fun c =>
    curt_bind (curt_run (doCall_curt S c service method payload)) fun result =>
      curt_bind (curt_own _) fun _ => curt_ofResult result

theorem start_curt (S : Codec) (calls : List (String × String × Value)) :
    ∀ p ∈ (start S calls).tasks, Safe (curt Fields) p (fun _ _ => True) () := by
  intro p hp
  obtain ⟨⟨service, method, payload⟩, -, rfl⟩ := List.mem_map.mp hp
  exact safe_mono (call_curt S service method payload) fun _ _ _ => trivial

end UdsConnectionPool

/-! ### What the servers make of it -/

section Refusal
variable {σ ρ G α β : Type}

/-- The code raises no protocol error. -/
def Serving.Lenient (p : Serving σ ρ α) : Prop := ∀ l text, (p.exec l).1 ≠ .error (.protocol text)

theorem lenient_pure (a : α) : (pure a : Serving σ ρ α).Lenient := fun _ _ => nofun

theorem lenient_throw {e : ProtocolError} (he : ∀ text, e ≠ .protocol text) :
    (throw e : Serving σ ρ α).Lenient := by
  intro l text h
  cases h
  exact he text rfl

theorem lenient_bind {p : Serving σ ρ α} {f : α → Serving σ ρ β} (hp : p.Lenient)
    (hf : ∀ a, (f a).Lenient) : (p >>= f).Lenient := by
  intro l text
  rw [Serving.exec_bind]
  rcases hx : p.exec l with ⟨e | a, l'⟩
  · rintro ⟨⟩
    exact hp l text (by rw [hx])
  · exact hf a l' text

theorem lenient_decode [Json.Deserialize α] (E : Site σ) (payload : Bytes) :
    (Serving.decode E payload : Serving σ ρ α).Lenient := by
  intro l text
  rw [Serving.exec_decode]
  cases (E.codec.fromSlice payload : Option α) <;> exact nofun

theorem lenient_write (E : Site σ) (msgType : UInt8) (payload : Bytes) :
    (Serving.write E msgType payload : Serving σ ρ Unit).Lenient := by
  intro l text h
  rw [Serving.exec_write] at h
  cases he : E.refusal l.sent.length ⟨msgType, payload⟩ with
  | none =>
    rw [he] at h
    cases h
  | some e =>
    rw [he] at h
    cases h
    unfold Site.refusal at he
    split at he
    · next hw =>
      cases he
      unfold writeMessage at hw
      split at hw <;> cases hw
    · obtain ⟨t, -, ht⟩ := Option.map_eq_some_iff.mp he
      cases ht

theorem lenient_modifyAside (f : ρ → ρ) : (Serving.modifyAside f : Serving σ ρ Unit).Lenient := fun _ _ => nofun

theorem lenient_getAside : (Serving.getAside : Serving σ ρ ρ).Lenient := fun _ _ => nofun

theorem lenient_onHandshake (E : Site σ) (request : HandshakeRequest) :
    (Serving.onHandshake E request : Serving σ ρ HandshakeResponse).Lenient := fun _ _ => nofun

/-- The server refuses a connection on which `written` has come in, for want of a handshake. -/
def Refuses (A : Service σ ρ G) (s : σ) (a : ρ) (written : Bytes) : Prop :=
  ((Session.accepted s a : Session σ ρ G).step A (.inTime (readMessage written).result)).phase =
    .finished (.error (.protocol "expected handshake"))

theorem refuses_iff {A : Service σ ρ G}
    (hother : ∀ f l, f.msgType ≠ msgHandshake → ((A.greet f).exec l).1 = .error (.protocol "expected handshake"))
    (hgreet : ∀ f, f.msgType = msgHandshake → (A.greet f).Lenient) (s : σ) (a : ρ) (written : Bytes) :
    Refuses A s a written ↔ ∃ f rest, readMessage written = .message f rest ∧ f.msgType ≠ msgHandshake := by
  unfold Refuses
  cases hread : readMessage written with
  | message f rest =>
    show (Session.greeted ((A.greet f).exec (.fresh s a))).phase = _ ↔ _
    by_cases hf : f.msgType = msgHandshake
    · have hlenient := hgreet f hf (.fresh s a) "expected handshake"
      refine iff_of_false (fun h => ?_) (by rintro ⟨_, _, ⟨⟩, hne⟩; exact hne hf)
      rcases hx : (A.greet f).exec (.fresh s a) with ⟨e | g, l⟩ <;> rw [hx] at h hlenient
      · cases h
        exact hlenient rfl
      · cases h
    · have hrefused := hother f (.fresh s a) hf
      refine iff_of_true ?_ ⟨f, rest, rfl, hf⟩
      rcases hx : (A.greet f).exec (.fresh s a) with ⟨e | g, l⟩ <;> rw [hx] at hrefused <;> cases hrefused
      rfl
  | invalid len rest =>
    refine iff_of_false (fun h => ?_) (by rintro ⟨_, _, h, -⟩; cases h)
    cases h
  | short =>
    refine iff_of_false (fun h => ?_) (by rintro ⟨_, _, h, -⟩; cases h)
    cases h

end Refusal

theorem UdsServer.refuses_iff {σ : Type} (E : Site σ) (setup : UdsServer.Setup) (s : σ) (a : UdsServer.Watch)
    (written : Bytes) :
    Refuses (UdsServer.handleConnectionWithConfig E setup) s a written ↔
      ∃ f rest, readMessage written = .message f rest ∧ f.msgType ≠ msgHandshake := by
  refine XProtocol.refuses_iff (fun f l hf => ?_) (fun f hf => ?_) s a written
  · show ((UdsServer.greet E setup f).exec l).1 = _
    unfold UdsServer.greet
    rw [if_pos hf]
    rfl
  · show (UdsServer.greet E setup f).Lenient
    unfold UdsServer.greet
    rw [if_neg (not_not.mpr hf)]
    split
    · exact lenient_throw fun _ => nofun
    refine lenient_bind (lenient_decode E _) fun request => lenient_bind (lenient_modifyAside _) fun _ =>
      lenient_bind ?_ fun admitted => ?_
    · exact lenient_bind lenient_getAside fun w => lenient_bind (lenient_modifyAside _) fun _ => lenient_pure _
    have hgreet : (do
        let response ← Serving.onHandshake E request
        Serving.write E msgHandshakeAck (E.codec.toVec response)
        return request.clientId : Serving σ UdsServer.Watch String).Lenient :=
      lenient_bind (lenient_onHandshake E _) fun _ => lenient_bind (lenient_write E _ _) fun _ => lenient_pure _
    cases admitted with
    | true => exact hgreet
    | false => exact lenient_bind (lenient_write E _ _) fun _ =>
      lenient_bind (lenient_throw fun _ => nofun) fun _ => hgreet

theorem TcpServer.refuses_iff {σ : Type} (E : Site σ) (s : σ) (written : Bytes) :
    Refuses (TcpServer.handleConnection E) s () written ↔
      ∃ f rest, readMessage written = .message f rest ∧ f.msgType ≠ msgHandshake := by
  refine XProtocol.refuses_iff (fun f l hf => ?_) (fun f hf => ?_) s () written
  · show ((TcpServer.greet E f).exec l).1 = _
    unfold TcpServer.greet
    rw [if_pos hf]
    rfl
  · show (TcpServer.greet E f).Lenient
    unfold TcpServer.greet
    rw [if_neg (not_not.mpr hf)]
    exact lenient_bind (lenient_decode E _) fun _ => lenient_bind (lenient_onHandshake E _) fun _ =>
      lenient_bind (lenient_write E _ _) fun _ => lenient_pure _

/-- The client kept to the handshake, and no server refuses the connection for want of one. -/
structure Heeded (S : Codec) (conn : Conn) : Prop where
  speaks : Speaks S conn.log
  uds : ∀ (σ : Type) (E : Site σ) (setup : UdsServer.Setup) (s : σ) (a : UdsServer.Watch),
    ¬ Refuses (UdsServer.handleConnectionWithConfig E setup) s a conn.written
  tcp : ∀ (σ : Type) (E : Site σ) (s : σ), ¬ Refuses (TcpServer.handleConnection E) s () conn.written

theorem Mannered.heeded {S : Codec} {conn : Conn} (h : Mannered S conn) : Heeded S conn := by
  have hfirst : ¬ ∃ f rest, readMessage conn.written = .message f rest ∧ f.msgType ≠ msgHandshake := by
    rintro ⟨f, rest, hread, hf⟩
    exact hf (h.opens _ (readMessage_type hread))
  refine ⟨h.speaks, fun σ E setup s a => ?_, fun σ E s => ?_⟩
  · rwa [UdsServer.refuses_iff]
  · rwa [TcpServer.refuses_iff]

/-- **Which clients speak the handshake the servers demand.** The Unix-socket client does, whatever is
asked of it and whatever happens. The reconnecting client and the pool of connections do as long as they
send nothing, and no longer. The TCP client does as long as the first reply on the connection it stores
accepts its handshake, and no handshake there breaks off before its type. -/
theorem clients_heeded (S : Codec) :
    (∀ jobs ls, (UdsClient.sole S jobs).Throughout (Client.dropping UdsClient.suspends fun _ => UdsClient.perform)
      (fun s => ∀ d, Heeded S (s.world.net.conns d)) ls) ∧
    (∀ config jobs ls,
      (ReliableUdsClient.start S config jobs).Throughout ReliableUdsClient.machine
        (fun s => ∀ d, Heeded S (s.world.net.conns d)) ls ↔
      (ReliableUdsClient.start S config jobs).Along ReliableUdsClient.machine
        (Config.Performs fun _ _ o choice => Mute o choice) ls) ∧
    (∀ calls ls,
      (UdsConnectionPool.start S calls).Throughout UdsConnectionPool.machine
        (fun s => ∀ d, Heeded S (s.world.net.conns d)) ls ↔
      (UdsConnectionPool.start S calls).Along UdsConnectionPool.machine
        (Config.Performs fun _ _ o choice => Mute o choice) ls) ∧
    ∀ jobs ls,
      (TcpClient.sole S jobs).Along (Client.dropping TcpClient.suspends fun _ => TcpClient.perform)
        (Config.Performs fun w _ o choice => TcpClient.Favoured S w o choice) ls →
      (TcpClient.sole S jobs).Throughout (Client.dropping TcpClient.suspends fun _ => TcpClient.perform)
        (fun s => ∀ d, Heeded S (s.world.net.conns d)) ls := by
  refine ⟨fun jobs ls => ?_, fun config jobs ls => ⟨fun h => ?_, fun h => ?_⟩,
    fun calls ls => ⟨fun h => ?_, fun h => ?_⟩, fun jobs ls h => ?_⟩
  · exact Config.throughout_mono (fun _ h d => (h d).heeded) (UdsClient.speaks S jobs ls)
  · exact mute_of_speaks (ReliableUdsClient.start_curt S config jobs) (fun _ => silent_passive.fresh 0)
      (Config.throughout_mono (fun _ h d => (h d).speaks) h)
  · exact Config.throughout_mono (fun _ h d => (h d).heeded)
      (mannered_of_mute (fun _ => silent_passive.fresh 0) h)
  · exact mute_of_speaks (UdsConnectionPool.start_curt S calls) (fun _ => silent_passive.fresh 0)
      (Config.throughout_mono (fun _ h d => (h d).speaks) h)
  · exact Config.throughout_mono (fun _ h d => (h d).heeded)
      (mannered_of_mute (fun _ => silent_passive.fresh 0) h)
  · exact Config.throughout_mono (fun _ h d => (h d).heeded) (TcpClient.speaks S jobs h)

/-! ### A call that is greeted -/

namespace TcpClient
open Json.Text (compact)

/-- One call on a new client. -/
def saying : List Job := [.call "echo" "say" .null]

/-- Both handshakes are accepted, and the call is answered. -/
def greeted : List (Nat × Choice) :=
  goes 0 4 ++ [(0, .arrive (encode EchoServer.ack))] ++ goes 0 7 ++ [(0, .arrive (encode EchoServer.ack)),
    (0, .uuids "a" "b")] ++ goes 0 1 ++ [(0, .arrive (encode (EchoServer.response (.new "a" "b" "echo" "say" .null))))]

/-- `Accepts`, as a test. -/
def accepting (f : Frame) : Bool :=
  f.msgType = msgHandshakeAck && (compact.fromSlice f.payload : Option HandshakeResponse).any HandshakeResponse.success

/-- `Accepted`, as a test. -/
def accepted (log : List Event) : Bool :=
  (log.any fun
    | .sent _ => true
    | .received _ => false) &&
  log.any fun
    | .sent _ => false
    | .received g => accepting g

/-- What holds at an operation that is in the client's favour, as a test. -/
def Favours (w : Client TcpClient) (o : NetOp Fields) (choice : Choice) : Prop :=
  (match o with
    | .net (.read c _) =>
      match readMessage ((w.net.conns c).ahead ++ choice.got) with
      | .message f _ => accepting f || accepted (w.net.conns c).log
      | _ => true
    | .net (.write c _ _) => (w.net.conns c).written.isEmpty || decide (5 ≤ (w.net.conns c).written.length)
    | _ => true) = true

instance (w : Client TcpClient) (o : NetOp Fields) (choice : Choice) : Decidable (Favours w o choice) :=
  inferInstanceAs (Decidable (_ = _))

theorem accepts_of_accepting {f : Frame} (h : accepting f = true) : Accepts compact f := by
  obtain ⟨htype, hany⟩ := (Bool.and_eq_true _ _).mp h
  obtain ⟨response, hresponse, hsuccess⟩ := (Option.any_eq_true _ _).mp hany
  exact ⟨of_decide_eq_true htype, response, hresponse, hsuccess⟩

theorem accepted_of_accepted {log : List Event} (h : accepted log = true) : Accepted compact log := by
  obtain ⟨hsent, hreceived⟩ := (Bool.and_eq_true _ _).mp h
  obtain ⟨e, he, hsent⟩ := List.any_eq_true.mp hsent
  obtain ⟨e', he', hreceived⟩ := List.any_eq_true.mp hreceived
  cases e with
  | sent f =>
    cases e' with
    | sent _ => cases hreceived
    | received g => exact ⟨⟨f, he⟩, g, he', accepts_of_accepting hreceived⟩
  | received _ => cases hsent

theorem Favours.favoured {w : Client TcpClient} {o : NetOp Fields} {choice : Choice} (h : Favours w o choice) :
    Favoured compact w o choice := by
  cases o with
  | own o => trivial
  | net o =>
    cases o with
    | read c timed =>
      intro _ f rest hread
      simp only [Favours, hread, Bool.or_eq_true] at h
      exact h.symm.imp accepted_of_accepted accepts_of_accepting
    | write c msgType payload =>
      intro _
      simp only [Favours, Bool.or_eq_true, List.isEmpty_iff, decide_eq_true_eq] at h
      exact h
    | _ => trivial

/-- The conditions of the theorem are met, and requests are sent. -/
theorem clients_heeded_greeted :
    ∃ s, (sole compact saying).run (Client.dropping suspends fun _ => perform) greeted = some s ∧
      (s.world.net.conns 1).log.length = 4 ∧ ∀ d, Heeded compact (s.world.net.conns d) := by
  have hend : ((sole compact saying).run (Client.dropping suspends fun _ => perform) greeted).any fun s =>
      (s.world.net.conns 1).log.length == 4 := by decide +kernel
  have hfavours : (sole compact saying).Along (Client.dropping suspends fun _ => perform)
      (Config.Performs fun w _ o choice => Favours w o choice) greeted := Config.along_of_checks (by decide +kernel)
  obtain ⟨s, hrun, hs⟩ := (Option.any_eq_true _ _).mp hend
  refine ⟨s, hrun, eq_of_beq hs, Config.throughout_last ((clients_heeded compact).2.2.2 saying greeted ?_) hrun⟩
  exact Config.along_mono (fun _ _ h o k hp => (h o k hp).favoured) hfavours

end TcpClient

/-! ### A first call -/

namespace ReliableUdsClient
open Json.Text (compact)

/-- A call of a new client that gets connected and sends its request. -/
def firstCall : List (Nat × Choice) := goes 0 1 ++ connects 0 ++ goes 0 4 ++ [(0, .uuids "a" "a")] ++ goes 0 1

/-- The types of the one message that was sent and of the first one that is there to be read. -/
def firstTypes : List Event → Read → Option (UInt8 × UInt8)
  | [.sent f], .message g _ => some (f.msgType, g.msgType)
  | _, _ => none

/-- **The first message of a call is its request**, and either server refuses it. -/
theorem call_ungreeted :
    ∃ s, (start compact patient [say]).run machine firstCall = some s ∧
      ¬ Speaks compact (s.world.net.conns 0).log ∧
      (∀ (σ : Type) (E : Site σ) (setup : UdsServer.Setup) (s₀ : σ) (a : UdsServer.Watch),
        Refuses (UdsServer.handleConnectionWithConfig E setup) s₀ a (s.world.net.conns 0).written) ∧
      ∀ (σ : Type) (E : Site σ) (s₀ : σ),
        Refuses (TcpServer.handleConnection E) s₀ () (s.world.net.conns 0).written := by
  have hend : ((start compact patient [say]).run machine firstCall).bind (fun s =>
      firstTypes (s.world.net.conns 0).log (readMessage (s.world.net.conns 0).written)) =
        some (msgRequest, msgRequest) := by decide +kernel
  obtain ⟨s, hrun, hs⟩ := Option.bind_eq_some_iff.mp hend
  unfold firstTypes at hs
  split at hs
  · next f g rest hlog hread =>
    obtain ⟨hf, hg⟩ := Prod.mk.inj (Option.some.inj hs)
    have hfirst : ∃ g rest, readMessage (s.world.net.conns 0).written = .message g rest ∧
        g.msgType ≠ msgHandshake := ⟨g, rest, hread, by rw [hg]; decide⟩
    refine ⟨s, hrun, fun hspeaks => ?_, fun σ E setup s₀ a => ?_, fun σ E s₀ => ?_⟩
    · have hgreets := hspeaks.greets [] f [] hlog (fun _ => List.not_mem_nil)
      rw [hf] at hgreets
      exact absurd hgreets (by decide)
    · exact (UdsServer.refuses_iff E setup s₀ a _).mpr hfirst
    · exact (TcpServer.refuses_iff E s₀ _).mpr hfirst
  · cases hs

end ReliableUdsClient

end XProtocol
