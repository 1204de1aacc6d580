import Mathlib.Data.List.TakeWhile
import XProtocol.Server.Validation
import XProtocol.Tcp.Termination

/-! What the servers make of a stream that is not framed well.

A stream is well framed up to its first framing error: a length that is refused, or a
message that is cut off. Behind a refused length stands whatever the peer chose; a
reader that goes on takes it for lengths and messages. The Unix-socket server breaks
on every error. The TCP server goes on, so it is on the peer that there is nothing
left to read, or that its loop is left before. -/
namespace XProtocol
open Json (Bytes)
open Json.Text (compact)
open Wire

namespace Wire

/-- The bytes behind `n` calls of `read_message`. -/
def left : Nat → Bytes → Bytes
  | 0, w => w
  | n + 1, w => left n (readMessage w).rest

/-- The bytes from the first framing error on. -/
def beyond (w : Bytes) : Bytes := left (frames w).length w

/-- Behind the first framing error stands what can be taken for a length. -/
def Resumable (w : Bytes) : Prop :=
  ∃ len behind, readMessage (beyond w) = .invalid len behind ∧ 4 ≤ behind.length

theorem beyond_message {w rest : Bytes} {f : Frame} (h : readMessage w = .message f rest) :
    beyond w = beyond rest := by
  rw [beyond, frames_message h, List.length_cons, left, h]
  rfl

theorem beyond_stop {w : Bytes} (h : ∀ f rest, readMessage w ≠ .message f rest) : beyond w = w := by
  rw [beyond, frames_stop h]
  rfl

/-- Behind the messages at the front of a stream the next call finds the framing error. -/
theorem readMessage_beyond (w : Bytes) (f : Frame) (rest : Bytes) : readMessage (beyond w) ≠ .message f rest := by
  induction hn : w.length using Nat.strongRecOn generalizing w with
  | ind n ih =>
    cases hr : readMessage w with
    | message g rest' =>
      have hlen := readMessage_length hr
      rw [beyond_message hr]
      exact ih rest'.length (by omega) rest' rfl
    | _ =>
      rw [beyond_stop (by simp [hr]), hr]
      intro h
      cases h

theorem readings_frames (m : Nat) (w : Bytes) :
    readings ((frames w).length + m) w = (frames w).map .ok ++ readings m (beyond w) := by
  induction hn : w.length using Nat.strongRecOn generalizing w with
  | ind n ih =>
    cases hr : readMessage w with
    | message g rest' =>
      have hlen := readMessage_length hr
      rw [frames_message hr, beyond_message hr, List.length_cons, Nat.add_right_comm, readings, hr]
      exact congrArg _ (ih rest'.length (by omega) rest' rfl)
    | _ =>
      rw [frames_stop (by simp [hr]), beyond_stop (by simp [hr])]
      simp

theorem readings_front (w : Bytes) : readings (frames w).length w = (frames w).map .ok := by
  simpa [readings] using readings_frames 0 w

/-- Too few bytes for a length. -/
theorem readMessage_few {w : Bytes} (h : w.length < 4) : readMessage w = .short := by
  match w, h with
  | [], _ => rfl
  | [_], _ => rfl
  | [_, _], _ => rfl
  | [_, _, _], _ => rfl

theorem readings_few {w : Bytes} (h : w.length < 4) (m : Nat) : readings m w = List.replicate m endOfFile := by
  cases m with
  | zero => rfl
  | succ m =>
    rw [readings, readMessage_few h, List.replicate_succ]
    exact congrArg _ (readings_nil m)

end Wire

/-- The reading is a message. -/
def isMessage : Timed (Result Frame) → Bool
  | .inTime (.ok _) => true
  | _ => false

/-- What a task finds that reads from `w`, until a timer ends its reading. -/
def Heard : Bytes → List (Timed (Result Frame)) → Prop
  | _, [] => True
  | w, .inTime r :: rest => r = (readMessage w).result ∧ Heard (readMessage w).rest rest
  | _, .elapsed :: _ => True

theorem Heard.messages {w : Bytes} {hs : List (Timed (Result Frame))} (h : Heard w hs) :
    hs.takeWhile isMessage <+: (frames w).map fun f => .inTime (.ok f) := by
  induction hs generalizing w with
  | nil => exact List.nil_prefix
  | cons r rest ih =>
    match r, h with
    | .elapsed, _ => exact List.nil_prefix
    | .inTime _, ⟨rfl, hrest⟩ =>
      cases hr : readMessage w with
      | message f rest' =>
        rw [hr] at hrest
        rw [frames_message hr]
        exact (List.prefix_cons_inj _).mpr (ih hrest)
      | _ => exact List.nil_prefix

section
variable {σ ρ G : Type} {E : Site σ}

/-- The reading is a message with this request in it. -/
def Decoded (E : Site σ) (h : Timed (Result Frame)) (request : ServiceRequest) : Prop :=
  ∃ f, h = .inTime (.ok f) ∧ E.codec.fromSlice f.payload = some request

/-- A task that read `count` times from `w` passed on only what it found in messages of the well-framed
front, in order and each at most once, and has ended if it read beyond and could go on there. -/
def StaysFramed (E : Site σ) (w : Bytes) (count : Nat) (t : Session σ ρ G) : Prop :=
  Sourced (Decoded E) ((frames w).map fun f => .inTime (.ok f)) t.link.handled ∧
  ((frames w).length < count → Resumable w → t.Finished)

/-! ### The Unix-socket server -/

namespace UdsServer
variable (setup : Setup)

theorem ask_decoded (h : Timed (Result Frame)) (before : Option Frame) (request : ServiceRequest)
    (reply : ServiceResponse → Frame) (hask : ask E setup h = .service before request reply) :
    Decoded E h request := by
  obtain ⟨f, hf, -, hdecoded, -⟩ := ask_service hask
  exact ⟨f, hf, hdecoded⟩

/-- Whatever is no message ends a loop. -/
theorem step_unheard {t : Session σ Watch String} (ht : t.phase ≠ .handshaking) {h : Timed (Result Frame)}
    (hh : isMessage h = false) :
    (t.step (handleConnectionWithConfig E setup) h).Finished ∧
      (t.step (handleConnectionWithConfig E setup) h).link = t.link := by
  obtain ⟨phase, link⟩ := t
  cases phase with
  | handshaking => exact absurd rfl ht
  | finished r => exact ⟨⟨r, rfl⟩, rfl⟩
  | looping clientId =>
    match h, hh with
    | .inTime (.error e), _ => exact ⟨⟨_, rfl⟩, rfl⟩
    | .elapsed, _ => exact ⟨⟨_, rfl⟩, rfl⟩

/-- So a loop is over behind the messages at the front of what it reads. -/
theorem run_unheard {t : Session σ Watch String} (ht : t.phase ≠ .handshaking)
    (hs : List (Timed (Result Frame))) :
    (t.run (handleConnectionWithConfig E setup) hs).link =
        (t.run (handleConnectionWithConfig E setup) (hs.takeWhile isMessage)).link ∧
      ((∃ h ∈ hs, isMessage h = false) → (t.run (handleConnectionWithConfig E setup) hs).Finished) := by
  induction hs generalizing t with
  | nil => exact ⟨rfl, fun ⟨_, hmem, _⟩ => nomatch hmem⟩
  | cons h rest ih =>
    cases hh : isMessage h with
    | true =>
      have hnext := ih (Session.run_phase (A := handleConnectionWithConfig E setup) ht [h])
      rw [List.takeWhile_cons_of_pos hh]
      refine ⟨hnext.1, fun ⟨h', hmem, hh'⟩ => hnext.2 ?_⟩
      rcases List.mem_cons.mp hmem with rfl | hmem
      · exact absurd (hh.symm.trans hh') Bool.true_eq_false.mp
      · exact ⟨h', hmem, hh'⟩
    | false =>
      obtain ⟨hfinished, hlink⟩ := step_unheard (E := E) setup ht hh
      rw [List.takeWhile_cons_of_neg (by simp [hh]), Session.run, List.foldl_cons, ← Session.run,
        Session.run_finished hfinished]
      exact ⟨hlink, fun _ => hfinished⟩

theorem run_messages (s : σ) (w : Watch) (first : Result Frame) (rest : List (Timed (Result Frame))) :
    ((Session.accepted s w).run (handleConnectionWithConfig E setup) (.inTime first :: rest)).link =
      ((Session.accepted s w).run (handleConnectionWithConfig E setup)
        ((.inTime first :: rest).takeWhile isMessage)).link ∧
    ((∃ h ∈ .inTime first :: rest, isMessage h = false) →
      ((Session.accepted s w).run (handleConnectionWithConfig E setup) (.inTime first :: rest)).Finished) := by
  cases first with
  | ok f =>
    have hgreeted : ((Session.accepted s w).step (handleConnectionWithConfig E setup) (.inTime (.ok f))).phase ≠
        .handshaking := Session.greeted_phase _
    obtain ⟨hlink, hfinished⟩ := run_unheard (E := E) setup hgreeted rest
    refine ⟨hlink, fun ⟨h, hmem, hh⟩ => hfinished ?_⟩
    rcases List.mem_cons.mp hmem with rfl | hmem
    · exact nomatch hh
    · exact ⟨h, hmem, hh⟩
  | error e =>
    rw [Session.run, List.foldl_cons, ← Session.run, Session.step_unread, Session.run_finished ⟨_, rfl⟩]
    exact ⟨rfl, fun _ => ⟨_, rfl⟩⟩

/-- Whatever the peer sends, and whenever the timer fires, the server stays within the well-framed front. -/
theorem stays_framed (s : σ) (watch : Watch) (w : Bytes) (rest : List (Timed (Result Frame)))
    (hrest : Heard (readMessage w).rest rest) :
    StaysFramed E w (rest.length + 1)
      ((Session.accepted s watch).run (handleConnectionWithConfig E setup)
        (.inTime (readMessage w).result :: rest)) := by
  obtain ⟨hlink, hfinished⟩ := run_messages (E := E) setup s watch (readMessage w).result rest
  have hheard : Heard w (.inTime (readMessage w).result :: rest) := ⟨rfl, hrest⟩
  have hfront := hheard.messages
  constructor
  · rw [hlink]
    exact (sourced_run (greets E setup) loops (ask_decoded setup) s watch _).mono hfront.sublist
  · intro hbeyond _
    refine hfinished ?_
    by_contra hall
    have hmessages : (.inTime (readMessage w).result :: rest).takeWhile isMessage =
        .inTime (readMessage w).result :: rest := by
      refine List.takeWhile_eq_self_iff.mpr fun h hmem => ?_
      by_contra hh
      exact hall ⟨h, hmem, by simpa using hh⟩
    have hlength := hfront.length_le
    rw [hmessages, List.length_map, List.length_cons] at hlength
    exact absurd hbeyond (Nat.not_lt.mpr hlength)

end UdsServer

/-! ### The TCP server -/

namespace TcpServer
variable {s : σ} {w : Bytes}

theorem ask_decoded (h : Timed (Result Frame)) (before : Option Frame) (request : ServiceRequest)
    (reply : ServiceResponse → Frame) (hask : ask E h = .service before request reply) : Decoded E h request := by
  unfold ask at hask
  split at hask
  · next f =>
    split_ifs at hask
    · split at hask
      · next r hdecoded =>
        cases hask
        exact ⟨f, rfl, hdecoded⟩
      · cases hask
  · cases hask
  · cases hask

/-- A framing error changes nothing in the loop. -/
theorem step_unframed {t : Session σ Unit Unit} (ht : t.phase ≠ .handshaking) {w : Bytes}
    (h : ∀ f rest, readMessage w ≠ .message f rest) :
    t.step (handleConnection E) (.inTime (readMessage w).result) = t := by
  obtain ⟨phase, link⟩ := t
  cases phase with
  | handshaking => exact absurd rfl ht
  | finished r => rfl
  | looping g =>
    cases hr : readMessage w with
    | message f rest => exact absurd hr (h f rest)
    | invalid len rest => rfl
    | short => rfl

/-- The loop is left, if it begins at all, at a message of the well-framed front. -/
def LeftInTime (E : Site σ) (s : σ) (w : Bytes) : Prop :=
  match frames w with
  | [] => True
  | f :: rest =>
    ∀ o, opened E f s () = some o → Leaves E (ask E) o.2 1 (rest.map fun f => .inTime (.ok f))

/-- The task behind the well-framed front. -/
theorem served_front {f : Frame} {rest : List Frame} (h : frames w = f :: rest) :
    served E s w (frames w).length =
      ((Session.accepted s ()).step (handleConnection E) (.inTime (.ok f))).run (handleConnection E)
        (rest.map fun f => .inTime (.ok f)) := by
  rw [served, readings_front, h, List.map_cons, List.map_cons, List.map_map]
  rfl

theorem served_front_phase (h : frames w ≠ []) : (served E s w (frames w).length).phase ≠ .handshaking := by
  obtain ⟨f, rest, hcons⟩ := List.exists_cons_of_ne_nil h
  rw [served_front hcons]
  exact Session.run_phase (Session.greeted_phase _) _

theorem served_front_finished (h : frames w ≠ []) :
    (served E s w (frames w).length).Finished ↔ LeftInTime E s w := by
  obtain ⟨f, rest, hcons⟩ := List.exists_cons_of_ne_nil h
  rw [served_front hcons, LeftInTime, hcons]
  refine ((greets E).exact (P := fun t => (t.run (handleConnection E) (rest.map fun f => .inTime (.ok f))).Finished)
    (C := fun o => Leaves E (ask E) o.2 1 (rest.map fun f => .inTime (.ok f))) (fun t ht _ => ?_)
    (fun g l o hl => ?_) s () (.ok f)).trans ?_
  · rwa [Session.run_finished ht]
  · rw [(loops E).finished_iff_leaves, show l.handler = o.2 from congrArg Link.handler hl,
      show l.sent = [E.ack o.1] from congrArg Link.sent hl]
    rfl
  · exact ⟨fun h o ho => h f o rfl ho, fun h f' o hf ho => h o (by cases hf; exact ho)⟩

/-- Reading on from the first framing error. -/
theorem served_beyond (h : frames w ≠ []) (m : Nat) :
    served E s w ((frames w).length + (m + 1)) =
      (served E s w (frames w).length).run (handleConnection E)
        ((readings m (readMessage (beyond w)).rest).map .inTime) := by
  have hstep := step_unframed (E := E) (served_front_phase (E := E) (s := s) h) (readMessage_beyond w)
  rw [served, readings_frames, List.map_append, Session.run_append, readings, List.map_cons, ← readings_front]
  show Session.run _ ((served E s w (frames w).length).step _ _) _ = _
  rw [hstep]

/-- Where nothing can be taken for a length, nothing is read but the end of the file. -/
theorem readings_beyond (h : ¬ Resumable w) (m : Nat) :
    readings m (readMessage (beyond w)).rest = List.replicate m endOfFile := by
  cases hr : readMessage (beyond w) with
  | message f rest => exact absurd hr (readMessage_beyond w f rest)
  | invalid len behind =>
    refine readings_few ?_ m
    by_contra hmany
    exact h ⟨len, behind, hr, Nat.not_lt.mp hmany⟩
  | short => exact readings_nil m

theorem sourced_front {n : Nat} (h : n ≤ (frames w).length) :
    Sourced (Decoded E) ((frames w).map fun f => .inTime (.ok f)) (served E s w n).link.handled := by
  obtain ⟨m, hm⟩ := Nat.exists_eq_add_of_le h
  have hfront := readings_prefix n m w
  rw [← hm, readings_front] at hfront
  refine (sourced_run (greets E) (fun _ => loops E) ask_decoded s () _).mono ?_
  have hmap := (hfront.map Timed.inTime).sublist
  rwa [List.map_map] at hmap

/-- Without a message the task ends, or has read nothing yet. -/
theorem served_nothing (h : frames w = []) (n : Nat) :
    (served E s w n).link.handled = [] ∧ (0 < n → (served E s w n).Finished) := by
  cases n with
  | zero => exact ⟨rfl, fun hn => absurd hn (Nat.lt_irrefl 0)⟩
  | succ m =>
    have hbeyond : beyond w = w := by rw [beyond, h]; rfl
    have hmessage := readMessage_beyond w
    rw [hbeyond] at hmessage
    obtain ⟨e, he⟩ : ∃ e, (readMessage w).result = .error e := by
      cases hr : readMessage w with
      | message f rest => exact absurd hr (hmessage f rest)
      | invalid len rest => exact ⟨_, rfl⟩
      | short => exact ⟨_, rfl⟩
    rw [served, readings, List.map_cons, Session.run, List.foldl_cons, ← Session.run, he, Session.step_unread,
      Session.run_finished ⟨_, rfl⟩]
    exact ⟨rfl, fun _ => ⟨_, rfl⟩⟩

/-- The TCP server stays within the well-framed front exactly if it does not come to its end while
there is more. -/
theorem stays_framed_iff (E : Site σ) (s : σ) (w : Bytes) :
    (∀ n, StaysFramed E w n (served E s w n)) ↔ (Resumable w → LeftInTime E s w) := by
  by_cases hnone : frames w = []
  · refine iff_of_true (fun n => ?_) fun _ => ?_
    · obtain ⟨hhandled, hfinished⟩ := served_nothing (E := E) (s := s) hnone n
      rw [StaysFramed, hnone, hhandled]
      exact ⟨sourced_nil, fun hn _ => hfinished hn⟩
    · rw [LeftInTime, hnone]
      trivial
  constructor
  · intro hall hresumable
    have hfinished := (hall ((frames w).length + 1)).2 (Nat.lt_succ_self _) hresumable
    rw [served_beyond hnone 0] at hfinished
    exact (served_front_finished hnone).mp hfinished
  · intro hleft n
    rcases Nat.lt_or_ge (frames w).length n with hn | hn
    · obtain ⟨m, rfl⟩ := Nat.exists_eq_add_of_lt hn
      have hfront : served E s w ((frames w).length + m + 1) = served E s w (frames w).length := by
        rw [Nat.add_assoc, served_beyond hnone]
        by_cases hresumable : Resumable w
        · exact Session.run_finished ((served_front_finished hnone).mpr (hleft hresumable)) _
        · rw [readings_beyond hresumable, List.map_replicate, run_endOfFile (served_front_phase hnone)]
      rw [hfront]
      exact ⟨sourced_front (Nat.le_refl _), fun _ hresumable =>
        (served_front_finished hnone).mpr (hleft hresumable)⟩
    · exact ⟨sourced_front hn, fun hlt => absurd hlt (Nat.not_lt.mpr hn)⟩

end TcpServer

/-- **Both servers keep to the well-framed front of what they read exactly if the TCP server's loop
is left before a framing error behind which it could go on.** It is so for every handler, every
outcome of the writes and every sequence of bytes. -/
theorem framed_exact (E : Site σ) (setup : UdsServer.Setup) (s : σ) (watch : UdsServer.Watch) (w : Bytes) :
    ((∀ n, StaysFramed E w n (TcpServer.served E s w n)) ∧
      ∀ rest, Heard (readMessage w).rest rest → StaysFramed E w (rest.length + 1)
        ((Session.accepted s watch).run (UdsServer.handleConnectionWithConfig E setup)
          (.inTime (readMessage w).result :: rest))) ↔
      (Resumable w → TcpServer.LeftInTime E s w) := by
  rw [TcpServer.stays_framed_iff]
  exact and_iff_left fun rest hrest => UdsServer.stays_framed setup s watch w rest hrest

end

/-! ### A request behind a refused length -/

namespace TcpServer

def request : Frame := ⟨msgRequest, compact.toVec (ServiceRequest.new "1" "2" "echo" "read" .null)⟩

/-- A handshake, a length that is refused, and a request. -/
def smuggled : Bytes := hello ++ [0, 0, 0, 0] ++ encode request

def smuggledReadings : List (Result Frame) :=
  [.ok ⟨msgHandshake, helloBody⟩, .error (.invalidMessage "invalid length: 0"), .ok request]

theorem readings_smuggled : readings 3 smuggled = smuggledReadings := by decide +kernel

theorem frames_smuggled : frames smuggled = [⟨msgHandshake, helloBody⟩] := by decide +kernel

/-- The TCP server handles the request. -/
theorem smuggled_handled : ¬ ∀ n, StaysFramed site smuggled n (served site 0 smuggled n) := by
  intro hall
  have hsourced := (hall 3).1
  rw [frames_smuggled, served, readings_smuggled] at hsourced
  have hhandled : ((Session.accepted 0 ()).run (handleConnection site)
      (smuggledReadings.map .inTime)).link.handled.length = 1 := by decide +kernel
  obtain ⟨request, hrequest⟩ := List.length_pos_iff_exists_mem.mp (hhandled ▸ Nat.one_pos)
  obtain ⟨r, hr, f, hf, hdecoded⟩ := hsourced.forall_mem hrequest
  obtain rfl := List.mem_singleton.mp hr
  cases hf
  have hnone : (site.codec.fromSlice helloBody : Option ServiceRequest).isNone = true := by decide +kernel
  rw [hdecoded] at hnone
  cases hnone

end TcpServer

end XProtocol
