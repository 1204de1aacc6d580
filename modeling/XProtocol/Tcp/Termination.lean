import XProtocol.Json.Text
import XProtocol.Tcp.Server

/-! When the TCP server's connection task returns.

The peer's bytes are finite; behind them every `read_message` finds the end of the
file. That is a failed connection (`ProtocolError.ofIo`) and not a closed one, and
the loop waits for `ConnectionClosed` only: past the end of the file it turns for
ever (`step_endOfFile`). So the task returns exactly when it does so before: at the
handshake, or at a message that makes the loop leave. -/
namespace XProtocol.TcpServer
open Json (Bytes)
open Json.Text (compact)
open Wire

variable {σ : Type} (E : Site σ) (s : σ) (w : Bytes)

/-- The task that reads `n` times from a peer that sends `w` and dies. -/
def served (n : Nat) : Session σ Unit Unit :=
  (Session.accepted s ()).run (handleConnection E) ((readings n w).map .inTime)

/-- `handle_connection` returns. -/
def Returns : Prop := ∃ n, (served E s w n).Finished

/-- A message that comes before the end of the file ends the task: the first, unless it
is a handshake that goes through, or a later one that makes the loop leave. -/
def Exits : Prop :=
  match incoming w with
  | .ok f :: rest =>
    match opened E f s () with
    | some o => Leaves E (ask E) o.2 1 (rest.map .inTime)
    | none => True
  | _ => True

variable {E s w}

/-- Behind the handshake the end of the file changes nothing. -/
theorem step_endOfFile {t : Session σ Unit Unit} (h : t.phase ≠ .handshaking) :
    t.step (handleConnection E) (.inTime endOfFile) = t := by
  obtain ⟨phase, link⟩ := t
  cases phase with
  | handshaking => exact absurd rfl h
  | looping g => rfl
  | finished r => rfl

theorem run_endOfFile {t : Session σ Unit Unit} (h : t.phase ≠ .handshaking) (m : Nat) :
    t.run (handleConnection E) (List.replicate m (.inTime endOfFile)) = t := by
  induction m with
  | zero => rfl
  | succ m ih => rw [List.replicate_succ, Session.run, List.foldl_cons, step_endOfFile h, ← Session.run, ih]

/-- The task behind its first reading and everything that comes in, however often it reads on. -/
theorem served_past {r : Result Frame} {rest : List (Result Frame)} (h : incoming w = r :: rest) (m : Nat) :
    served E s w ((incoming w).length + m) =
      ((Session.accepted s ()).step (handleConnection E) (.inTime r)).run (handleConnection E)
        (rest.map .inTime) := by
  rw [served, readings_incoming, h, List.map_append, List.map_replicate, Session.run_append, run_endOfFile]
  · rfl
  · exact Session.run_phase (Session.greeted_phase _) _

theorem served_finished {n : Nat} (h : (served E s w n).Finished) (m : Nat) :
    (served E s w (n + m)).Finished := by
  obtain ⟨more, hmore⟩ := readings_prefix n m w
  rw [served, ← hmore, List.map_append, Session.run_append]
  show (Session.run _ (served E s w n) _).Finished
  rwa [Session.run_finished h]

/-- Whether the task returns is decided by what comes in. -/
theorem returns_iff_incoming {r : Result Frame} {rest : List (Result Frame)} (h : incoming w = r :: rest) :
    Returns E s w ↔ (((Session.accepted s ()).step (handleConnection E) (.inTime r)).run
      (handleConnection E) (rest.map .inTime)).Finished := by
  constructor
  · rintro ⟨n, hn⟩
    have hpast := served_finished hn (incoming w).length
    rwa [Nat.add_comm, served_past h] at hpast
  · intro hfin
    exact ⟨(incoming w).length + 0, by rwa [served_past h]⟩

/-- A peer that dies before its first message is whole ends the task. -/
theorem returns_of_nothing (h : incoming w = []) : Returns E s w := by
  have hread := readings_incoming w 1
  rw [h] at hread
  refine ⟨1, .error (.ofIo "early eof"), ?_⟩
  rw [served, show readings 1 w = [endOfFile] from hread]
  rfl

/-- **The task returns exactly when a message before the end of the file ends it**:
for every handler, every outcome of the writes, and every sequence of bytes. -/
theorem returns_exact (E : Site σ) (s : σ) (w : Bytes) : Returns E s w ↔ Exits E s w := by
  unfold Exits
  split
  · next f rest h =>
    rw [returns_iff_incoming h]
    cases ho : opened E f s () with
    | none =>
      obtain ⟨r, l, hstep, -⟩ := (greets E).refuses ho
      rw [hstep, Session.run_finished ⟨r, rfl⟩]
      exact iff_of_true ⟨r, rfl⟩ trivial
    | some o =>
      obtain ⟨g, a, hstep⟩ := (greets E).opens ho
      rw [hstep]
      exact (loops E).finished_iff_leaves _ _
  · next hother =>
    refine iff_of_true ?_ trivial
    cases h : incoming w with
    | nil => exact returns_of_nothing h
    | cons r rest =>
      cases r with
      | ok f => exact absurd h (hother f rest)
      | error e => 
        rw [returns_iff_incoming h, Session.step_unread, Session.run_finished ⟨_, rfl⟩]
        exact ⟨_, rfl⟩

/-! ### A client that greets and goes -/

/-- A handler that accepts everyone and answers with success; nothing fails. -/
def site : Site Nat where
  codec := compact
  handler := FnServiceHandler.new "echo" (fun r => .success r .null) fun _ => "session"
  flush _ := none

/-- The handshake of a client, and nothing behind it. -/
def helloBody : Bytes :=
  compact.toVec ({ clientId := "protocol-tcp-client", serviceName := "client", capabilities := ["json"] } :
    HandshakeRequest)

def hello : Bytes := encode ⟨msgHandshake, helloBody⟩

theorem hello_never_returns : ¬ Returns site 0 hello := by
  have hin : incoming hello = [.ok ⟨msgHandshake, helloBody⟩] := by decide +kernel
  rw [returns_iff_incoming hin]
  rintro ⟨r, hr⟩
  have hphase : ((Session.accepted 0 ()).step (handleConnection site)
      (.inTime (.ok ⟨msgHandshake, helloBody⟩))).phase = .looping () := by rfl
  exact nomatch hphase.symm.trans hr

end XProtocol.TcpServer
