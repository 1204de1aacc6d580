import XProtocol.Net

/-! Servers that answer in order.

A peer answers each message of a connection with some messages, which may depend
on the connection and on what came before; how long it takes, and how its bytes
are cut up on the way, is left open. `Delivers` says of one read that what arrives
is what such a peer sends.

A connection is `Settled` when everything sent on it is whole messages and every
answer has been read, and `Pending` when one message more has gone out. One read
settles a pending connection again (`Pending.read`). An answer of several messages
is `Due` while it is read, and the connection is settled behind the last of them. -/
namespace XProtocol
open Json (Bytes)
open Wire (Frame encodeAll frames)

structure Peer where
  /-- The answers to a message, behind the messages before it. -/
  answers : ConnId → List Frame → Frame → List Frame

namespace Peer
variable (P : Peer) (c : ConnId)

/-- The answers to `fs`, in order, when `before` came first. -/
def repliesAfter (before : List Frame) : List Frame → List Frame
  | [] => []
  | f :: rest => P.answers c before f ++ repliesAfter (before ++ [f]) rest

def replies (fs : List Frame) : List Frame := P.repliesAfter c [] fs

/-- The bytes the peer sends in answer to the bytes `written`. -/
def stream (written : Bytes) : Bytes := encodeAll (P.replies c (frames written))

/-- What arrives with this choice is what the peer sends. -/
def Delivers (P : Peer) (n : Net) : Net.Op → Choice → Prop
  | .read c _, choice => (n.conns c).taken ++ choice.got <+: P.stream c (n.conns c).written
  | _, _ => True

instance (n : Net) (o : Net.Op) (choice : Choice) : Decidable (P.Delivers n o choice) :=
  match o with
  | .read c _ => inferInstanceAs
    (Decidable ((n.conns c).taken ++ choice.got <+: P.stream c (n.conns c).written))
  | .connect _ | .split _ | .write .. | .newRequest .. => isTrue trivial

theorem repliesAfter_snoc (before fs : List Frame) (f : Frame) :
    P.repliesAfter c before (fs ++ [f]) =
      P.repliesAfter c before fs ++ P.answers c (before ++ fs) f := by
  induction fs generalizing before with
  | nil => simp [repliesAfter]
  | cons g rest ih => simp [repliesAfter, ih, List.append_assoc]

theorem replies_snoc (fs : List Frame) (f : Frame) :
    P.replies c (fs ++ [f]) = P.replies c fs ++ P.answers c fs f := by
  simpa [replies] using P.repliesAfter_snoc c [] fs f

theorem stream_encodeAll {fs : List Frame} (h : ∀ f ∈ fs, Wire.Fits f) :
    P.stream c (encodeAll fs) = encodeAll (P.replies c fs) := by
  rw [stream, Wire.frames_encodeAll_self h]

end Peer

/-- Every answer is written in full and has an end: nothing follows the one message that
answers a message, or the message that ends a stream. -/
structure Peer.Whole (P : Peer) : Prop where
  fits : ∀ c before f, ∀ g ∈ P.answers c before f, Wire.Fits g
  single : ∀ c before f, f.msgType ≠ Wire.msgStreamRequest → (P.answers c before f).length ≤ 1
  ends : ∀ c before f got g more, P.answers c before f = got ++ g :: more →
    g.msgType = Wire.msgStreamEnd ∨ g.msgType = Wire.msgError → more = []

variable {P : Peer} {c : ConnId} {conn : Conn} {fs : List Frame} {f : Frame}

/-- The messages `fs` have gone out, and every answer to them has been read. -/
structure Settled (P : Peer) (c : ConnId) (conn : Conn) (fs : List Frame) : Prop where
  fits : ∀ f ∈ fs, Wire.Fits f
  written : conn.written = encodeAll fs
  taken : conn.taken = encodeAll (P.replies c fs)
  ahead : conn.ahead = []

/-- After `fs` were settled `f` has gone out, and nothing of its answers has been read. -/
structure Pending (P : Peer) (c : ConnId) (conn : Conn) (fs : List Frame) (f : Frame) : Prop where
  fits : ∀ g ∈ fs ++ [f], Wire.Fits g
  written : conn.written = encodeAll (fs ++ [f])
  taken : conn.taken = encodeAll (P.replies c fs)
  ahead : conn.ahead = []

theorem settled_fresh (owner : Nat) : Settled P c (.fresh owner) [] :=
  ⟨nofun, rfl, rfl, rfl⟩

theorem Settled.split (h : Settled P c conn fs) : Settled P c conn.split fs :=
  ⟨h.fits, h.written, h.taken, rfl⟩

/-- On a settled connection nothing arrives. -/
theorem Settled.nothing_due (h : Settled P c conn fs) {got : Bytes}
    (hgot : conn.taken ++ got <+: P.stream c conn.written) : got = [] := by
  rw [h.written, P.stream_encodeAll c h.fits, h.taken] at hgot
  have hlen := hgot.length_le
  rw [List.length_append] at hlen
  exact List.length_eq_zero_iff.mp (by omega)

theorem Settled.send (h : Settled P c conn fs) (hf : Wire.Fits f) :
    Pending P c (conn.send f (Wire.encode f)) fs f where
  fits g hg := by
    rcases List.mem_append.mp hg with hg | hg
    · exact h.fits g hg
    · rw [List.mem_singleton.mp hg]
      exact hf
  written := by simp [Conn.send, h.written]
  taken := h.taken
  ahead := h.ahead

/-- When one answer is due, a read that completes takes that answer, and takes nothing else. -/
theorem Pending.arrives (h : Pending P c conn fs f) {g : Frame} (hans : P.answers c fs f = [g])
    (hg : Wire.Fits g) {got : Bytes} (hgot : conn.taken ++ got <+: P.stream c conn.written)
    (hread : Wire.readMessage (conn.ahead ++ got) ≠ .short) :
    got = Wire.encode g ∧ Wire.readMessage (conn.ahead ++ got) = .message g [] := by
  rw [h.written, P.stream_encodeAll c h.fits, P.replies_snoc, hans, h.taken, Wire.encodeAll_append,
    Wire.encodeAll_single, List.prefix_append_right_inj] at hgot
  rw [h.ahead, List.nil_append] at hread ⊢
  obtain ⟨more, hmore⟩ := hgot
  have hall := Wire.readMessage_encode_self hg
  cases hr : Wire.readMessage got with
  | short => exact absurd hr hread
  | invalid len rest =>
    have := Wire.readMessage_invalid_append hr more
    rw [hmore, hall] at this
    cases this
  | message g' rest =>
    have := Wire.readMessage_append hr more
    rw [hmore, hall] at this
    obtain ⟨rfl, hnil⟩ := Wire.Read.message.inj this
    obtain ⟨rfl, rfl⟩ := List.append_eq_nil_iff.mp hnil.symm
    rw [List.append_nil] at hmore
    exact ⟨hmore, rfl⟩

/-- When no answer is due, no read completes. -/
theorem Pending.silent (h : Pending P c conn fs f) (hans : P.answers c fs f = []) {got : Bytes}
    (hgot : conn.taken ++ got <+: P.stream c conn.written) :
    Wire.readMessage (conn.ahead ++ got) = .short := by
  rw [h.written, P.stream_encodeAll c h.fits, P.replies_snoc, hans, h.taken, List.append_nil] at hgot
  have hnil : got = [] := by
    have hlen := hgot.length_le
    rw [List.length_append] at hlen
    exact List.length_eq_zero_iff.mp (by omega)
  rw [h.ahead, hnil]
  rfl

/-- **One read settles a pending connection.** -/
theorem Pending.read (h : Pending P c conn fs f) {g : Frame} (hans : P.answers c fs f = [g])
    (hg : Wire.Fits g) {got : Bytes} (hgot : conn.taken ++ got <+: P.stream c conn.written)
    (hread : Wire.readMessage (conn.ahead ++ got) ≠ .short) :
    Wire.readMessage (conn.ahead ++ got) = .message g [] ∧
      Settled P c ((conn.take got []).receive g) (fs ++ [f]) := by
  obtain ⟨rfl, hmsg⟩ := h.arrives hans hg hgot hread
  refine ⟨hmsg, h.fits, h.written, ?_, rfl⟩
  show conn.taken ++ Wire.encode g = _
  rw [h.taken, P.replies_snoc, hans, Wire.encodeAll_append, Wire.encodeAll_single]

/-! ### Answers of several messages -/

/-- After `before` were settled `f` has gone out, and of its answer the messages `got`
have been read; the reader may hold back some of what follows. -/
structure Due (P : Peer) (c : ConnId) (conn : Conn) (before : List Frame) (f : Frame)
    (got : List Frame) : Prop where
  fits : ∀ g ∈ before ++ [f], Wire.Fits g
  written : conn.written = encodeAll (before ++ [f])
  taken : conn.taken = encodeAll (P.replies c before ++ got) ++ conn.ahead
  left : ∃ more, P.answers c before f = got ++ more ∧ conn.ahead <+: encodeAll more

section Due
variable {before got : List Frame}

theorem Pending.due (h : Pending P c conn before f) : Due P c conn before f [] where
  fits := h.fits
  written := h.written
  taken := by rw [h.taken, h.ahead, List.append_nil, List.append_nil]
  left := ⟨_, rfl, h.ahead ▸ List.nil_prefix⟩

/-- **A message that is read is the next one of the answer.** -/
theorem Due.read (h : Due P c conn before f got) (hfits : ∀ g ∈ P.answers c before f, Wire.Fits g)
    {bytes rest : Bytes} {g : Frame} (hbytes : conn.taken ++ bytes <+: P.stream c conn.written)
    (hread : Wire.readMessage (conn.ahead ++ bytes) = .message g rest) :
    Due P c ((conn.take bytes rest).receive g) before f (got ++ [g]) := by
  obtain ⟨more, hans, -⟩ := h.left
  rw [h.written, P.stream_encodeAll c h.fits, P.replies_snoc, hans, h.taken, ← List.append_assoc,
    Wire.encodeAll_append _ more, List.append_assoc, List.prefix_append_right_inj] at hbytes
  obtain ⟨tail, htail⟩ := hbytes
  cases more with
  | nil =>
    have hnil : conn.ahead ++ bytes = [] := (List.append_eq_nil_iff.mp htail).1
    rw [hnil] at hread
    cases hread
  | cons g' more =>
    -- What follows is the encoding of the next message, and of the others behind it.
    have hnext : Wire.encodeAll (g' :: more) = Wire.encode g' ++ Wire.encodeAll more := rfl
    have hg' : Wire.Fits g' := hfits g' (by simp [hans])
    have hboth := Wire.readMessage_append hread tail
    rw [htail, hnext, Wire.readMessage_encode hg'] at hboth
    obtain ⟨rfl, hrest⟩ := Wire.Read.message.inj hboth
    rw [hnext, hrest, ← List.append_assoc] at htail
    have hahead : conn.ahead ++ bytes = Wire.encode g' ++ rest := List.append_cancel_right htail
    refine ⟨h.fits, h.written, ?_, more, by rw [hans, List.append_assoc]; rfl, tail, hrest.symm⟩
    show conn.taken ++ bytes = encodeAll (P.replies c before ++ (got ++ [g'])) ++ rest
    rw [h.taken, List.append_assoc, hahead, ← List.append_assoc (P.replies c before),
      Wire.encodeAll_append _ [g'], Wire.encodeAll_single, List.append_assoc]

/-- Behind the last message of the answer nothing is due. -/
theorem Due.settled (h : Due P c conn before f got) (hgot : P.answers c before f = got) :
    Settled P c conn (before ++ [f]) := by
  obtain ⟨more, hans, hahead⟩ := h.left
  obtain rfl : more = [] := List.append_cancel_left (hans.symm.trans (hgot.trans (List.append_nil got).symm))
  have hnil : conn.ahead = [] := List.prefix_nil.mp hahead
  refine ⟨h.fits, h.written, ?_, hnil⟩
  rw [h.taken, hnil, List.append_nil, P.replies_snoc, hgot]

end Due

end XProtocol
