import Mathlib.Data.List.Induction
import XProtocol.Peer
import XProtocol.Serving.Turns

/-! A server as the peer of its clients.

A session reads the messages of its connection one after the other, and answers each
with what it writes before it reads on. So a service is a peer (`Service.peer`), however
long its sessions take and however their bytes are cut up on the way: what a session has
written is what the peer replies (`replies_sent`). Its answers are whole, if it greets
with one message and says nothing behind the message that ends a stream (`peer_whole`). -/
namespace XProtocol
open Wire (Frame Fits)

variable {σ ρ G : Type}

/-- The session behind the messages `fs`. -/
def Session.heard (A : Service σ ρ G) (s : Session σ ρ G) (fs : List Frame) : Session σ ρ G :=
  s.run A (fs.map fun f => .inTime (.ok f))

/-- A message is answered with what the session of its connection writes before it reads on;
`start` is what the session finds when it is accepted. -/
def Service.peer (A : Service σ ρ G) (start : ConnId → σ × ρ) : Peer where
  answers c before f :=
    let s : Session σ ρ G := .accepted (start c).1 (start c).2
    (s.heard A (before ++ [f])).link.sent.drop (s.heard A before).link.sent.length

/-- The greeting writes one message at most, and one that fits. -/
def Service.Brief (A : Service σ ρ G) : Prop :=
  ∀ f s a, ((A.greet f).exec (.fresh s a)).2.sent.length ≤ 1 ∧
    ∀ g ∈ ((A.greet f).exec (.fresh s a)).2.sent, Fits g

/-- What a turn writes. -/
def Link.writes (E : Site σ) (l : Link σ Unit) : Ask → List Frame
  | .service before request reply =>
    let answer := reply (E.handler.handle request l.handler).1
    match before with
    | none => if Writable E l.sent.length answer then [answer] else []
    | some f =>
      if Writable E l.sent.length f then
        f :: if Writable E (l.sent.length + 1) answer then [answer] else []
      else []
  | .answer f => if Writable E l.sent.length f then [f] else []
  | _ => []

/-- The messages that may be written for what is asked. -/
def Ask.Says (g : Frame) : Ask → Prop
  | .service before _ reply => before = some g ∨ ∃ response, g = reply response
  | .answer f => g = f
  | _ => False

section
variable {E : Site σ} {ask : Timed (Result Frame) → Ask}

theorem Writable.fits {n : Nat} {f : Frame} (h : Writable E n f) : Fits f := by
  by_contra hnot
  rw [Writable, Site.refusal, Wire.writeMessage_of_not_fits hnot] at h
  exact nomatch h

theorem after_sent (l : Link σ Unit) (a : Ask) : (l.after E a).2.sent = l.sent ++ l.writes E a := by
  have hput (l : Link σ Unit) (f : Frame) :
      (l.put E f).2.sent = l.sent ++ if Writable E l.sent.length f then [f] else [] := by
    unfold Link.put
    split <;> simp
  cases a with
  | service before request reply =>
    cases before with
    | none => exact hput _ _
    | some f =>
      by_cases hf : Writable E l.sent.length f
      · simp only [Link.after, Link.put, Link.writes, if_pos hf]
        exact (hput _ _).trans (by simp)
      · simp [Link.after, Link.put, Link.writes, hf]
  | answer f => exact hput _ _
  | _ => simp [Link.after, Link.writes]

/-- A turn writes one message, unless the handler is called behind a message of the loop. -/
theorem writes_length {l : Link σ Unit} {a : Ask} (ha : ∀ f request reply, a ≠ .service (some f) request reply) :
    (l.writes E a).length ≤ 1 := by
  unfold Link.writes
  split
  · simp only
    split
    · split <;> simp
    · next f => exact absurd rfl (ha f _ _)
  · split <;> simp
  · simp

theorem mem_writes {l : Link σ Unit} {a : Ask} {g : Frame} (hg : g ∈ l.writes E a) : a.Says g ∧ Fits g := by
  have hsingle {n : Nat} {f : Frame} (hg : g ∈ if Writable E n f then [f] else []) : g = f ∧ Fits g := by
    split at hg
    · next hw =>
      obtain rfl := List.mem_singleton.mp hg
      exact ⟨rfl, hw.fits⟩
    · cases hg
  cases a with
  | service before request reply =>
    cases before with
    | none =>
      obtain ⟨rfl, hfits⟩ := hsingle hg
      exact ⟨.inr ⟨_, rfl⟩, hfits⟩
    | some f =>
      rw [Link.writes] at hg
      split at hg
      · next hf =>
        rcases List.mem_cons.mp hg with rfl | hg
        · exact ⟨.inl rfl, hf.fits⟩
        · obtain ⟨rfl, hfits⟩ := hsingle hg
          exact ⟨.inr ⟨_, rfl⟩, hfits⟩
      · cases hg
  | answer f => exact hsingle hg
  | _ => cases hg

end

namespace Session
variable {A : Service σ ρ G} {s : Session σ ρ G}

theorem heard_snoc (fs : List Frame) (f : Frame) :
    s.heard A (fs ++ [f]) = (s.heard A fs).step A (.inTime (.ok f)) := by
  simp [heard, run, List.foldl_append]

/-- A session has yet to read its first message, loops, or is over. -/
theorem heard_cases (handler : σ) (aside : ρ) (fs : List Frame) :
    let t := (accepted handler aside : Session σ ρ G).heard A fs
    fs = [] ∨ (∃ g l, t = ⟨.looping g, l⟩) ∨ t.Finished := by
  cases fs with
  | nil => exact .inl rfl
  | cons f rest =>
    right
    have hphase : ((accepted handler aside : Session σ ρ G).heard A (f :: rest)).phase ≠ .handshaking := by
      rw [heard, List.map_cons, run, List.foldl_cons]
      exact run_phase (greeted_phase _) _
    rcases ht : (accepted handler aside : Session σ ρ G).heard A (f :: rest) with ⟨phase, l⟩
    rw [ht] at hphase
    cases phase with
    | handshaking => exact absurd rfl hphase
    | looping g => exact .inl ⟨g, l, rfl⟩
    | finished r => exact .inr ⟨r, rfl⟩

end Session

namespace Service
variable {A : Service σ ρ G} {E : Site σ} {ask : Timed (Result Frame) → Ask} {start : ConnId → σ × ρ}
  {c : ConnId} {before : List Frame}

theorem peer_first (f : Frame) :
    (A.peer start).answers c [] f = ((A.greet f).exec (.fresh (start c).1 (start c).2)).2.sent := by
  show (Session.greeted _).link.sent.drop 0 = _
  rw [List.drop_zero]
  show (Session.greeted ((A.greet f).exec (.fresh (start c).1 (start c).2))).link.sent = _
  rcases (A.greet f).exec (.fresh (start c).1 (start c).2) with ⟨_ | _, l⟩ <;> rfl

theorem step_sent (hloops : ∀ g, A.Loops E g ask) (g : G) (l : Link σ ρ) (h : Timed (Result Frame)) :
    ((⟨.looping g, l⟩ : Session σ ρ G).step A h).link.sent = l.sent ++ l.line.writes E (ask h) := by
  obtain ⟨l', hline, hnext⟩ := (hloops g).step l h
  have hsent : l'.sent = l.sent ++ l.line.writes E (ask h) :=
    (congrArg Link.sent hline).trans (after_sent l.line _)
  rcases hnext with ⟨-, hstep⟩ | ⟨-, r, hstep⟩ <;> rw [hstep] <;> exact hsent

theorem peer_looping (hloops : ∀ g, A.Loops E g ask) {g : G} {l : Link σ ρ} (f : Frame)
    (h : (Session.accepted (start c).1 (start c).2).heard A before = ⟨.looping g, l⟩) :
    (A.peer start).answers c before f = l.line.writes E (ask (.inTime (.ok f))) := by
  show (Session.heard A _ _).link.sent.drop _ = _
  rw [Session.heard_snoc, h, step_sent hloops, List.drop_left]

theorem peer_finished (f : Frame)
    (h : ((Session.accepted (start c).1 (start c).2).heard A before : Session σ ρ G).Finished) :
    (A.peer start).answers c before f = [] := by
  show (Session.heard A _ _).link.sent.drop _ = _
  rw [Session.heard_snoc, Session.step_finished h, List.drop_length]

/-- **A service that greets with one message has whole answers**, if what it calls the handler
behind is the start of a stream that was asked for. -/
theorem peer_whole (hbrief : A.Brief) (hloops : ∀ g, A.Loops E g ask)
    (hask : ∀ f g request reply, ask (.inTime (.ok f)) = .service (some g) request reply →
      f.msgType = Wire.msgStreamRequest ∧ g.msgType ≠ Wire.msgStreamEnd ∧ g.msgType ≠ Wire.msgError) :
    (A.peer start).Whole := by
  -- the answer to a message, as one of the greeting, of a turn, or none
  have hcases (c : ConnId) (before : List Frame) (f : Frame) :
      ((A.peer start).answers c before f).length ≤ 1 ∧ (∀ g ∈ (A.peer start).answers c before f, Fits g) ∨
      ∃ l : Link σ Unit, (A.peer start).answers c before f = l.writes E (ask (.inTime (.ok f))) := by
    rcases Session.heard_cases (A := A) (start c).1 (start c).2 before with rfl | ⟨g, l, hl⟩ | hover
    · rw [peer_first]
      exact .inl (hbrief f _ _)
    · exact .inr ⟨_, peer_looping hloops f hl⟩
    · rw [peer_finished f hover]
      exact .inl ⟨Nat.zero_le 1, nofun⟩
  have hone {got more : List Frame} {g : Frame} (h : (got ++ g :: more).length ≤ 1) : more = [] := by
    rw [List.length_append, List.length_cons] at h
    exact List.length_eq_zero_iff.mp (by omega)
  refine ⟨fun c before f g hg => ?_, fun c before f hf => ?_, fun c before f got g more hans hg => ?_⟩
  · rcases hcases c before f with ⟨-, hfits⟩ | ⟨l, hl⟩
    · exact hfits g hg
    · exact (mem_writes (hl ▸ hg)).2
  · rcases hcases c before f with ⟨hlen, -⟩ | ⟨l, hl⟩
    · exact hlen
    · rw [hl]
      exact writes_length fun g request reply heq => hf (hask f g request reply heq).1
  · rcases hcases c before f with ⟨hlen, -⟩ | ⟨l, hl⟩
    · exact hone (hans ▸ hlen)
    by_cases hbehind : ∃ g request reply, ask (.inTime (.ok f)) = .service (some g) request reply
    · obtain ⟨first, request, reply, heq⟩ := hbehind
      obtain ⟨-, hend, herror⟩ := hask f first request reply heq
      rw [hl, heq, Link.writes] at hans
      cases got with
      | nil =>
        split at hans
        · obtain ⟨rfl, -⟩ := List.cons.inj hans
          exact (hg.elim hend herror).elim
        · exact nomatch hans
      | cons first' got =>
        split at hans
        · obtain ⟨-, hrest⟩ := List.cons.inj hans
          have hlen : (got ++ g :: more).length ≤ 1 := by
            rw [show got ++ g :: more = got.append (g :: more) from rfl, ← hrest]
            split <;> simp
          exact hone hlen
        · exact nomatch hans
    · have hlen := writes_length (E := E) (l := l) fun g request reply heq => hbehind ⟨g, request, reply, heq⟩
      rw [← hl, hans] at hlen
      exact hone hlen

/-- **What a session has written is what the peer replies.** -/
theorem replies_sent (hloops : ∀ g, A.Loops E g ask) (c : ConnId) (fs : List Frame) :
    (A.peer start).replies c fs = ((Session.accepted (start c).1 (start c).2).heard A fs).link.sent := by
  induction fs using List.reverseRecOn with
  | nil => rfl
  | append_singleton before f ih =>
    rw [Peer.replies_snoc, ih]
    rcases Session.heard_cases (A := A) (start c).1 (start c).2 before with rfl | ⟨g, l, hl⟩ | hover
    · rfl
    · rw [peer_looping hloops f hl, Session.heard_snoc, hl, step_sent hloops]
    · rw [peer_finished f hover, Session.heard_snoc, Session.step_finished hover, List.append_nil]

end Service

end XProtocol
