import XProtocol.Json.Text
import XProtocol.Server.Session
import XProtocol.Tcp.Server

/-! What a rejected handshake grants.

Neither server looks at the answer its handler gives to a handshake: it writes the
answer and enters its loop. So a client that was rejected, and stays, is served as
any other. What it takes is a request that the loop gets to (`Reaches`); nothing
else passes a request to the handler. -/
namespace XProtocol
open Json (Codec)
open Json.Text (compact)
open Wire

variable {σ ρ G : Type} {E : Site σ}

/-- The messages of a connection that answer a handshake. -/
def Link.acks (l : Link σ ρ) : List Frame := l.sent.filter fun f => f.msgType = msgHandshakeAck

/-- Behind a handshake that was answered with a rejection, no request is handled. -/
def GrantsNothing (E : Site σ) (l : Link σ ρ) : Prop :=
  ∀ response : HandshakeResponse, E.ack response ∈ l.sent → response.success = false → l.handled = []

/-- What is asked is not to answer a handshake. -/
def Ask.NoAck : Ask → Prop
  | .service before _ reply =>
    (∀ f, before = some f → f.msgType ≠ msgHandshakeAck) ∧ ∀ r, (reply r).msgType ≠ msgHandshakeAck
  | .answer f => f.msgType ≠ msgHandshakeAck
  | _ => True

theorem Site.ack_injective {a b : HandshakeResponse} (h : E.ack a = E.ack b) : a = b := by
  have hbody : E.codec.toVec a = E.codec.toVec b := congrArg Frame.payload h
  have hread := congrArg (E.codec.fromSlice : _ → Option HandshakeResponse) hbody
  simpa using hread

theorem mem_acks {l : Link σ ρ} (response : HandshakeResponse) :
    E.ack response ∈ l.sent ↔ E.ack response ∈ l.acks := by
  simp [Link.acks, Site.ack]

section Acks
variable (l : Link σ Unit)

theorem acks_put {f : Frame} (hf : f.msgType ≠ msgHandshakeAck) : (l.put E f).2.acks = l.acks := by
  unfold Link.put Link.acks
  split <;> simp [hf]

theorem acks_reply (request : ServiceRequest) {reply : ServiceResponse → Frame}
    (h : ∀ r, (reply r).msgType ≠ msgHandshakeAck) : (l.reply E request reply).2.acks = l.acks :=
  acks_put _ (h _)

theorem acks_after {a : Ask} (ha : a.NoAck) : (l.after E a).2.acks = l.acks := by
  cases a with
  | service before request reply =>
    cases before with
    | none => exact acks_reply l request ha.2
    | some f =>
      have hput := acks_put (E := E) l (ha.1 f rfl)
      rw [Link.after]
      rcases hx : l.put E f with ⟨_ | _, l'⟩
      · rwa [hx] at hput
      · rw [hx] at hput
        exact (acks_reply l' request ha.2).trans hput
  | answer f => exact acks_put l ha
  | _ => rfl

end Acks

/-- The loop answers no handshake. -/
theorem Service.Loops.acks_run {A : Service σ ρ G} {g : G} {ask : Timed (Result Frame) → Ask}
    (hA : A.Loops E g ask) (hask : ∀ h, (ask h).NoAck) (hs : List (Timed (Result Frame)))
    (l : Link σ ρ) : ((⟨.looping g, l⟩ : Session σ ρ G).run A hs).link.acks = l.acks := by
  induction hs generalizing l with
  | nil => rfl
  | cons h rest ih =>
    obtain ⟨l', hline, hnext⟩ := hA.step l h
    have hacks : l'.acks = l.acks := (congrArg Link.acks hline).trans (acks_after l.line (hask h))
    rw [Session.run, List.foldl_cons, ← Session.run]
    rcases hnext with ⟨-, hstep⟩ | ⟨-, r, hstep⟩
    · rw [hstep, ih, hacks]
    · rw [hstep, Session.run_finished ⟨r, rfl⟩, hacks]

/-- A server's connection grants nothing behind a rejection exactly if no rejected
handshake is followed by a request that the loop gets to. -/
theorem grantsNothing_iff {A : Service σ ρ G} {ask : Timed (Result Frame) → Ask}
    {opened : Frame → σ → ρ → Option (HandshakeResponse × σ)} (hgreets : A.Greets E opened)
    (hloops : ∀ g, A.Loops E g ask) (hask : ∀ h, (ask h).NoAck) (s : σ) (a : ρ) (first : Result Frame)
    (rest : List (Timed (Result Frame))) :
    GrantsNothing E ((Session.accepted s a).run A (.inTime first :: rest)).link ↔
      ∀ f o, first = .ok f → opened f s a = some o → o.1.success = false → ¬ Reaches E ask 1 rest := by
  rw [Session.run, List.foldl_cons, ← Session.run]
  cases first with
  | error e =>
    rw [Session.step_unread, Session.run_finished ⟨_, rfl⟩]
    exact iff_of_true (fun _ _ _ => rfl) fun f o hf => by cases hf
  | ok f =>
    cases ho : opened f s a with
    | none =>
      obtain ⟨r, l, hstep, hl⟩ := hgreets.refuses ho
      rw [hstep, Session.run_finished ⟨r, rfl⟩]
      refine iff_of_true (fun _ _ _ => hl) fun f' o hf ho' => ?_
      cases hf
      cases ho.symm.trans ho'
    | some o =>
      obtain ⟨g, a', hstep⟩ := hgreets.opens ho
      have hreaches := (hloops g).handled_iff_reaches rest
        { handler := o.2, handled := [], sent := [E.ack o.1], aside := a' }
      have hacks := (hloops g).acks_run hask rest
        { handler := o.2, handled := [], sent := [E.ack o.1], aside := a' }
      rw [hstep]
      constructor
      · intro h f' o' hf ho' hrejected hreach
        cases hf
        cases ho.symm.trans ho'
        refine hreaches.mpr hreach (h o.1 ?_ hrejected)
        rw [mem_acks, hacks]
        simp [Link.acks, Site.ack]
      · intro h response hsent hrejected
        rw [mem_acks, hacks] at hsent
        have heq : response = o.1 := by
          have : E.ack response ∈ [E.ack o.1] := (List.mem_filter.mp hsent).1
          exact Site.ack_injective (List.mem_singleton.mp this)
        by_contra hhandled
        exact h f o rfl ho (heq ▸ hrejected) (hreaches.mp hhandled)

/-! ### The two servers -/

theorem TcpServer.ask_noAck (h : Timed (Result Frame)) : (TcpServer.ask E h).NoAck := by
  unfold TcpServer.ask
  split
  · split_ifs
    · split
      · exact ⟨nofun, fun _ => (by decide : msgResponse ≠ msgHandshakeAck)⟩
      · trivial
    · exact (by decide : msgPong ≠ msgHandshakeAck)
    · trivial
    · trivial
  · trivial
  · trivial

theorem UdsServer.ask_noAck (setup : UdsServer.Setup) (h : Timed (Result Frame)) :
    (UdsServer.ask E setup h).NoAck := by
  have herror (text : String) : (Ask.answer (UdsServer.errorFrame E text)).NoAck :=
    (by decide : msgError ≠ msgHandshakeAck)
  unfold UdsServer.ask
  split
  · split_ifs
    · exact herror _
    · split
      · exact herror _
      · split_ifs
        · exact herror _
        · exact ⟨nofun, fun _ => (by decide : msgResponse ≠ msgHandshakeAck)⟩
    · split
      · trivial
      · refine ⟨fun f hf => ?_, fun _ => (by decide : msgStreamEnd ≠ msgHandshakeAck)⟩
        cases hf
        exact (by decide : msgStreamStart ≠ msgHandshakeAck)
    · trivial
    · exact (by decide : msgPong ≠ msgHandshakeAck)
    · exact (by decide : msgSchemaResponse ≠ msgHandshakeAck)
    · trivial
    · trivial
    · trivial
  · trivial

/-- **Behind a rejected handshake a server handles nothing exactly if the client sends
no request that its loop gets to.** It is so for both servers, for every handler,
every outcome of the writes, and whatever the client goes on to send. -/
theorem rejection_exact (E : Site σ) (setup : UdsServer.Setup) (s : σ) (w : UdsServer.Watch)
    (first : Result Frame) (rest : List (Timed (Result Frame))) :
    (GrantsNothing E
        ((Session.accepted s ()).run (TcpServer.handleConnection E) (.inTime first :: rest)).link ↔
      ∀ f o, first = .ok f → TcpServer.opened E f s () = some o → o.1.success = false →
        ¬ Reaches E (TcpServer.ask E) 1 rest) ∧
    (GrantsNothing E ((Session.accepted s w).run (UdsServer.handleConnectionWithConfig E setup)
        (.inTime first :: rest)).link ↔
      ∀ f o, first = .ok f → UdsServer.opened E setup f s w = some o → o.1.success = false →
        ¬ Reaches E (UdsServer.ask E setup) 1 rest) :=
  ⟨grantsNothing_iff (TcpServer.greets E) (fun _ => TcpServer.loops E) TcpServer.ask_noAck s () first rest,
    grantsNothing_iff (UdsServer.greets E setup) UdsServer.loops (UdsServer.ask_noAck setup) s w first rest⟩

/-! ### A client that was rejected, and asks -/

namespace Rejecting

def answer : HandshakeResponse := { serverId := "closed", sessionId := "", success := false, encoding := "json" }

/-- A handler that rejects everyone. -/
def site : Site Unit where
  codec := compact
  handler := {
    serviceName := "closed"
    onHandshake := fun _ s => (answer, s)
    handle := fun r s => (.success r .null, s) }
  flush _ := none

def setup : UdsServer.Setup := { config := .default, webhookService := false, metrics := false }

def watch : UdsServer.Watch := .fresh 0 ServerConfig.default.rateLimiter

def hello : Frame :=
  ⟨msgHandshake, compact.toVec
    ({ clientId := "intruder", serviceName := "client", capabilities := [] } : HandshakeRequest)⟩

def request : Frame := ⟨msgRequest, compact.toVec (ServiceRequest.new "1" "2" "closed" "read" .null)⟩

def asked : List (Timed (Result Frame)) := [.inTime (.ok hello), .inTime (.ok request)]

/-- The rejection went out, and a request was handled all the same. -/
def servesAnyway {ρ : Type} (l : Link Unit ρ) : Bool := decide (site.ack answer ∈ l.sent) && !l.handled.isEmpty

theorem not_grantsNothing {ρ : Type} {l : Link Unit ρ} (h : servesAnyway l) : ¬ GrantsNothing site l := by
  obtain ⟨hsent, hhandled⟩ := Bool.and_eq_true_iff.mp h
  intro hnothing
  rw [hnothing answer (of_decide_eq_true hsent) rfl] at hhandled
  exact nomatch hhandled

/-- It is served, by either server. -/
theorem intruder_served :
    ¬ GrantsNothing site ((Session.accepted () ()).run (TcpServer.handleConnection site) asked).link ∧
    ¬ GrantsNothing site
      ((Session.accepted () watch).run (UdsServer.handleConnectionWithConfig site setup) asked).link :=
  ⟨not_grantsNothing (by decide +kernel), not_grantsNothing (by decide +kernel)⟩

end Rejecting

end XProtocol
