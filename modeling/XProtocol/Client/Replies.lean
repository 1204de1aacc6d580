import XProtocol.Client.Reliable
import XProtocol.EchoServer

/-! What the reconnecting client reads.

A call writes its request and reads one message; a ping writes and reads nothing, and
a call that times out or fails leaves the stream in place. So what a call reads is the
answer to its own request as long as the connection is `Quiet` when the request goes
out: every message sent on it before was followed by one that was read. The peer
answers in order, and then each answer is the right one (`Orderly`). -/
namespace XProtocol
open Async
open Json (Value Codec)
open Wire

/-- Every message that was sent was followed by one that was read. -/
def Quiet : List Event → Bool
  | [] => true
  | .sent _ :: .received _ :: rest => Quiet rest
  | _ => false

theorem quiet_sent (log : List Event) (f : Frame) : Quiet (log ++ [.sent f]) = false := by
  induction log using Quiet.induct with
  | case1 => rfl
  | case2 g h rest ih => exact ih
  | case3 log hnil hpair =>
    match log, hnil, hpair with
    | .received _ :: _, _, _ => rfl
    | [.sent _], _, _ => rfl
    | .sent _ :: .sent _ :: _, _, _ => rfl
    | .sent g :: .received h :: rest, _, hpair => exact absurd rfl (hpair g h rest)

/-- A peer that answers every request with one response, and every ping with one pong. -/
structure Peer.InOrder (S : Codec) (P : Peer) : Prop where
  requests : ∀ c before (r : ServiceRequest), Fits ⟨msgRequest, S.toVec r⟩ →
    ∃ g, P.answers c before ⟨msgRequest, S.toVec r⟩ = [g] ∧ g.msgType = msgResponse ∧ Fits g
  pings : ∀ c before, ∃ g, P.answers c before ⟨msgPing, []⟩ = [g] ∧ g.msgType = msgPong ∧ Fits g

/-- Every message that was read is the peer's answer to the message sent just before, behind all that was
sent before that. -/
def Answered (P : Peer) (c : ConnId) (log : List Event) : Prop :=
  ∀ pre f post, log = pre ++ .received f :: post →
    ∃ pre' q, pre = pre' ++ [.sent q] ∧ P.answers c (sentIn pre') q = [f]

/-- A connection whose messages were paired so far, and on which nothing is due while it is quiet. -/
structure Orderly (P : Peer) (c : ConnId) (conn : Conn) : Prop where
  answered : Answered P c conn.log
  settled : Quiet conn.log → Settled P c conn (sentIn conn.log)

section Orderly
variable {P : Peer} {c : ConnId} {conn : Conn}

theorem Answered.sent {log : List Event} (h : Answered P c log) (f : Frame) :
    Answered P c (log ++ [.sent f]) := by
  intro pre g post heq
  rcases List.eq_nil_or_concat post with rfl | ⟨post', e, rfl⟩
  · exact nomatch (List.append_inj' heq rfl).2
  · rw [List.concat_eq_append, ← List.cons_append, ← List.append_assoc] at heq
    exact h pre g post' (List.append_inj' heq rfl).1

theorem Answered.received {log : List Event} {q f : Frame} (h : Answered P c (log ++ [.sent q]))
    (hans : P.answers c (sentIn log) q = [f]) :
    Answered P c (log ++ [.sent q] ++ [.received f]) := by
  intro pre g post heq
  rcases List.eq_nil_or_concat post with rfl | ⟨post', e, rfl⟩
  · obtain ⟨rfl, hlast⟩ := List.append_inj' heq rfl
    cases hlast
    exact ⟨log, q, rfl, hans⟩
  · rw [List.concat_eq_append, ← List.cons_append, ← List.append_assoc] at heq
    exact h pre g post' (List.append_inj' heq rfl).1

theorem orderly_fresh (owner : Nat) : Orderly P c (.fresh owner) :=
  ⟨fun _ _ _ h => by simp [Conn.fresh] at h, fun _ => settled_fresh owner⟩

theorem Orderly.split (h : Orderly P c conn) : Orderly P c conn.split :=
  ⟨h.answered, fun hq => (h.settled hq).split⟩

/-- A message that goes out, whole or in part. -/
theorem Orderly.send (h : Orderly P c conn) (f : Frame) (bytes : Json.Bytes) : Orderly P c (conn.send f bytes) :=
  ⟨h.answered.sent f, fun hq => by simp [Conn.send, quiet_sent] at hq⟩

end Orderly

/-- Every connection stays, with what was sent and read on it. -/
structure Net.Remembers (n n' : Net) : Prop where
  opened : n.opened ≤ n'.opened
  log : ∀ c, c < n.opened → (n.conns c).log <+: (n'.conns c).log

theorem Net.Remembers.refl (n : Net) : n.Remembers n := ⟨Nat.le_refl _, fun _ _ => List.prefix_rfl⟩

theorem remembers_modify (n : Net) (c : ConnId) {f : Conn → Conn} (hf : (n.conns c).log <+: (f (n.conns c)).log) :
    n.Remembers (n.modify c f) := by
  refine ⟨Nat.le_refl _, fun d _ => ?_⟩
  by_cases hd : d = c
  · subst hd
    rwa [Net.modify_self]
  · have hsame : (n.modify c f).conns d = n.conns d := Net.modify_other _ _ _ _ hd
    exact hsame ▸ List.prefix_rfl

theorem remembers_dial (n : Net) (owner : Nat) : n.Remembers (n.dial owner) :=
  ⟨Nat.le_succ _, fun c hc => by
    have hsame : (n.dial owner).conns c = n.conns c := Net.dial_conns_other _ _ _ (Nat.ne_of_lt hc)
    exact hsame ▸ List.prefix_rfl⟩

namespace ReliableUdsClient

/-! ### What a task knows of the stream -/

/-- How a task stands to the stream. -/
inductive Hold where
  | out
  /-- It has the guard. -/
  | guarded
  /-- It has the guard and has seen the stream. -/
  | on (c : ConnId)
  /-- Its request went out, and nothing was due before. -/
  | asked (c : ConnId) (r : ServiceRequest)

/-- The connection a task has seen behind the guard. -/
def Hold.conn : Hold → Option ConnId
  | .on c | .asked c _ => some c
  | _ => none

/-- A request and the message that was read behind it. -/
structure Heard where
  conn : ConnId
  request : ServiceRequest
  reply : Frame

structure Known where
  hold : Hold
  /-- The connections it has opened, and the requests it has made. -/
  dialed : List ConnId
  made : List ServiceRequest
  heard : List Heard

section
variable (S : Codec) (P : Peer)

def Known.demand (k : Known) : NetOp Fields → Prop
  | .own .lockStream => k.hold = .out
  | .own .unlockStream => k.hold ≠ .out
  | .own .stream => k.hold = .guarded
  | .own (.setStream s) => k.hold = .guarded ∧ ∀ c, s = some c → c ∈ k.dialed
  | .net (.split c) => k.hold = .on c
  | .net (.write c msgType payload) =>
    k.hold = .on c ∧ (msgType = msgRequest → ∃ r, payload = S.toVec (r : ServiceRequest))
  | .net (.read c _) => ∃ r, k.hold = .asked c r
  | _ => True

def Known.move (k : Known) : (o : NetOp Fields) → (NetWith Fields).Ret o → Known → Prop
  | .own .lockStream, _, k' => k' = { k with hold := .guarded }
  | .own .unlockStream, _, k' => k' = { k with hold := .out }
  | .own .stream, s, k' => k' = { k with hold := s.elim .guarded .on }
  | .net (.connect _), r, k' =>
    k'.hold = k.hold ∧ k'.made = k.made ∧ k.dialed ⊆ k'.dialed ∧ ∀ c, r = .inTime (.ok c) → c ∈ k'.dialed
  | .net (.write c msgType payload), r, k' =>
    if msgType = msgRequest ∧ r = .ok () then
      ∃ q, payload = S.toVec (q : ServiceRequest) ∧ k' = { k with hold := .asked c q }
    else k' = k
  | .net (.read c _), r, k' => ∃ q, k.hold = .asked c q ∧
    match r with
    | .inTime (.ok f) => f.msgType = msgResponse ∧ k' = { k with hold := .on c, heard := ⟨c, q, f⟩ :: k.heard }
    | _ => k' = { k with hold := .on c }
  | .net (.newRequest ..), r, k' => k' = { k with made := k.made ++ [r] }
  | _, _, k' => k' = k

def pairing : Discipline (NetWith Fields) Known := ⟨Known.demand S, Known.move S⟩

/-- The message was read next behind the request, and is the peer's one answer to it there. -/
def Heard.Stands (h : Heard) (n : Net) : Prop :=
  h.conn < n.opened ∧ ∃ pre post,
    (n.conns h.conn).log = pre ++ .sent ⟨msgRequest, S.toVec h.request⟩ :: .received h.reply :: post ∧
      P.answers h.conn (sentIn pre) ⟨msgRequest, S.toVec h.request⟩ = [h.reply]

/-- What one task knows is so. -/
structure Known.Sound (w : Client ReliableUdsClient) (t : Nat) (k : Known) : Prop where
  guard : w.fields.streamLock = some t ↔ k.hold ≠ .out
  stream : ∀ c, k.hold.conn = some c → w.fields.stream = some c
  asked : ∀ c r, k.hold = .asked c r → ∃ log, (w.net.conns c).log = log ++ [.sent ⟨msgRequest, S.toVec r⟩] ∧
    Pending P c (w.net.conns c) (sentIn log) ⟨msgRequest, S.toVec r⟩
  dialed : ∀ c ∈ k.dialed, c < w.net.opened
  made : k.made = w.net.created t
  heard : ∀ h ∈ k.heard, h.Stands S P w.net

/-- What all tasks know is so, and every connection is in order. -/
structure Paired (w : Client ReliableUdsClient) (γ : Nat → Known) : Prop where
  sound : ∀ t, (γ t).Sound S P w t
  opened : ∀ c, w.fields.stream = some c → c < w.net.opened
  orderly : ∀ c, Orderly P c (w.net.conns c)

/-- The peer's bytes are what its answers are, and no request is written on a
connection on which a message stands unanswered. -/
def Delivers (P : Peer) (w : Client ReliableUdsClient) (_ : Nat) : NetOp Fields → Choice → Prop
  | .net o, choice => P.Delivers w.net o choice
  | _, _ => True

def AsksQuietly (w : Client ReliableUdsClient) (_ : Nat) : NetOp Fields → Choice → Prop
  | .net (.write c msgType _), _ => msgType = msgRequest → Quiet (w.net.conns c).log
  | _, _ => True

end

section Upheld
variable {S : Codec} {P : Peer} {w : Client ReliableUdsClient} {γ : Nat → Known} {t : Nat}

theorem Heard.Stands.later {h : Heard} {n n' : Net} (hs : h.Stands S P n) (hn : n.Remembers n') :
    h.Stands S P n' := by
  obtain ⟨hopened, pre, post, hlog, hans⟩ := hs
  obtain ⟨more, hmore⟩ := hn.log h.conn hopened
  refine ⟨Nat.lt_of_lt_of_le hopened hn.opened, pre, post ++ more, ?_, hans⟩
  rw [← hmore, hlog, List.append_assoc]
  rfl

theorem Paired.new : Paired S P ⟨.new, .empty⟩ fun _ => ⟨.out, [], [], []⟩ where
  sound _ := ⟨by simp [ReliableUdsClient.new], nofun, nofun, nofun, rfl, nofun⟩
  opened := nofun
  orderly _ := orderly_fresh 0

/-- Only the holder of the guard has seen the stream. -/
theorem Known.Sound.holder {k : Known} (h : k.Sound S P w t) {c : ConnId} (hc : k.hold.conn = some c) :
    w.fields.streamLock = some t :=
  h.guard.mpr fun hout => by simp [hout, Hold.conn] at hc

/-- What a task knows stays so while the guard, and what is behind it, is left alone. -/
theorem Known.Sound.spared {w' : Client ReliableUdsClient} {v : Nat} {k : Known} (h : k.Sound S P w v)
    (hguard : w'.fields.streamLock = some v ↔ w.fields.streamLock = some v)
    (hstream : k.hold ≠ .out → w'.fields.stream = w.fields.stream)
    (hconn : ∀ c, k.hold.conn = some c → w'.net.conns c = w.net.conns c)
    (hnet : w.net.Remembers w'.net) (hmade : w'.net.created v = w.net.created v) :
    k.Sound S P w' v where
  guard := hguard.trans h.guard
  stream c hc := by
    rw [hstream fun hout => by simp [hout, Hold.conn] at hc]
    exact h.stream c hc
  asked c r hk := by
    rw [hconn c (by rw [hk]; rfl)]
    exact h.asked c r hk
  dialed c hc := Nat.lt_of_lt_of_le (h.dialed c hc) hnet.opened
  made := h.made.trans hmade.symm
  heard x hx := (h.heard x hx).later hnet

theorem Paired.out (hp : Paired S P w γ) (ht : w.fields.streamLock = some t) {v : Nat} (hv : v ≠ t) :
    (γ v).hold = .out := by
  by_contra hout
  exact hv (Option.some.inj (((hp.sound v).guard.mpr hout).symm.trans ht))

/-- A task moves on, and what it knows then is so. -/
theorem Paired.moved {w' : Client ReliableUdsClient} {k : Known} (hk : k.Sound S P w' t)
    (hothers : ∀ v ≠ t, (γ v).Sound S P w' v)
    (hopened : ∀ c, w'.fields.stream = some c → c < w'.net.opened)
    (horderly : ∀ c, Orderly P c (w'.net.conns c)) : Paired S P w' (Function.update γ t k) := by
  refine ⟨fun v => ?_, hopened, horderly⟩
  by_cases hv : v = t
  · subst hv
    rwa [Function.update_self]
  · rw [Function.update_of_ne hv]
    exact hothers v hv

/-- The holder of the guard acts on the connection behind it. -/
theorem Paired.onConn (hp : Paired S P w γ) (c : ConnId) (hc : (γ t).hold.conn = some c)
    {f : Conn → Conn} (hf : Orderly P c (f (w.net.conns c)))
    (hlog : (w.net.conns c).log <+: (f (w.net.conns c)).log) {k : Known} (hconn : k.hold.conn = some c)
    (hdialed : k.dialed = (γ t).dialed) (hmade : k.made = (γ t).made)
    (hasked : ∀ r, k.hold = .asked c r → ∃ log,
      (f (w.net.conns c)).log = log ++ [.sent ⟨msgRequest, S.toVec r⟩] ∧
      Pending P c (f (w.net.conns c)) (sentIn log) ⟨msgRequest, S.toVec r⟩)
    (hheard : ∀ h ∈ k.heard, h ∈ (γ t).heard ∨ h.Stands S P (w.net.modify c f)) :
    Paired S P { w with net := w.net.modify c f } (Function.update γ t k) := by
  have hlock := (hp.sound t).holder hc
  have hsame : ∀ d, k.hold.conn = some d → d = c := fun d hd => Option.some.inj (hd.symm.trans hconn)
  refine .moved ?_ (fun v hv => ?_) hp.opened fun d => ?_
  · constructor
    · exact iff_of_true hlock fun hout => by simp [hout, Hold.conn] at hconn
    · intro d hd
      rw [hsame d hd]
      exact (hp.sound t).stream c hc
    · intro d r hk
      obtain rfl := hsame d (by rw [hk]; rfl)
      rw [Net.modify_self]
      exact hasked r hk
    · rw [hdialed]
      exact (hp.sound t).dialed
    · exact hmade.trans (hp.sound t).made
    · intro h hh
      exact (hheard h hh).elim (fun hold => ((hp.sound t).heard h hold).later (remembers_modify _ _ hlog)) id
  · refine (hp.sound v).spared Iff.rfl (fun _ => rfl) (fun d hd => ?_) (remembers_modify _ _ hlog) rfl
    rw [hp.out hlock hv] at hd
    cases hd
  · by_cases hd : d = c
    · subst hd
      rwa [Net.modify_self]
    · rw [Net.modify_other _ _ _ _ hd]
      exact hp.orderly d

/-- The client's other fields change. -/
theorem Paired.beside (hp : Paired S P w γ) {u : ReliableUdsClient}
    (hlock : u.streamLock = w.fields.streamLock) (hstream : u.stream = w.fields.stream) :
    Paired S P { w with fields := u } (Function.update γ t (γ t)) := by
  have hsound (v : Nat) : (γ v).Sound S P { w with fields := u } v :=
    (hp.sound v).spared (by rw [hlock]) (fun _ => hstream) (fun _ _ => rfl) (.refl _) rfl
  exact .moved (hsound t) (fun v _ => hsound v) (fun c hc => hp.opened c (hstream ▸ hc)) hp.orderly

/-- The guard changes hands: between task `t` and nobody. -/
theorem Paired.passed (hp : Paired S P w γ) {holder : Option Nat} {hold : Hold} (hconn : hold.conn = none)
    (hmine : holder = some t ↔ hold ≠ .out)
    (hothers : ∀ v ≠ t, holder = some v ↔ w.fields.streamLock = some v) :
    Paired S P { w with fields := { w.fields with streamLock := holder } }
      (Function.update γ t { γ t with hold }) := by
  refine .moved ?_ (fun v hv => ?_) hp.opened hp.orderly
  · refine ⟨hmine, fun c hc => ?_, fun c r hc => ?_, (hp.sound t).dialed, (hp.sound t).made,
      (hp.sound t).heard⟩
    · rw [hconn] at hc
      cases hc
    · obtain rfl : hold = .asked c r := hc
      cases hconn
  · exact (hp.sound v).spared (hothers v hv) (fun _ => rfl) (fun _ _ => rfl) (.refl _) rfl

/-- An operation on the client's own fields. -/
theorem own_upholds (hp : Paired S P w γ) {o : Op} {c : Choice} {r : Fields.Ret o} {u : ReliableUdsClient}
    (hd : (γ t).demand S (.own o)) (hstep : perform t o c w.fields = some (r, u)) :
    ∃ k, (γ t).move S (.own o) r k ∧ Paired S P { w with fields := u } (Function.update γ t k) := by
  cases o with
  | lockStream =>
    cases c <;> simp [perform] at hstep
    obtain ⟨hfree, rfl⟩ := hstep
    exact ⟨_, rfl, hp.passed rfl (by simp) fun v hv => by simp [hfree, Ne.symm hv]⟩
  | unlockStream =>
    cases c <;> simp [perform] at hstep
    subst hstep
    have hlock := (hp.sound t).guard.mpr hd
    exact ⟨_, rfl, hp.passed rfl (by simp) fun v hv => by simp [hlock, Ne.symm hv]⟩
  | stream =>
    cases c <;> simp [perform] at hstep
    obtain ⟨rfl, rfl⟩ := hstep
    have hd : (γ t).hold = .guarded := hd
    have hlock := (hp.sound t).guard.mpr (by rw [hd]; exact nofun)
    refine ⟨_, rfl, .moved ?_ (fun v _ => hp.sound v) hp.opened hp.orderly⟩
    cases hs : w.fields.stream with
    | none =>
      exact ⟨iff_of_true hlock nofun, nofun, nofun, (hp.sound t).dialed, (hp.sound t).made, (hp.sound t).heard⟩
    | some c =>
      refine ⟨iff_of_true hlock nofun, fun d hd => ?_, nofun, (hp.sound t).dialed, (hp.sound t).made,
        (hp.sound t).heard⟩
      cases hd
      exact hs
  | setStream s =>
    cases c <;> simp [perform] at hstep
    subst hstep
    obtain ⟨hhold, hdialed⟩ := hd
    have hlock := (hp.sound t).guard.mpr (by rw [hhold]; exact nofun)
    refine ⟨γ t, rfl, .moved ?_ (fun v hv => ?_) (fun c hc => ?_) hp.orderly⟩
    · refine ⟨(hp.sound t).guard, fun c hc => ?_, (hp.sound t).asked, (hp.sound t).dialed, (hp.sound t).made,
        (hp.sound t).heard⟩
      rw [hhold] at hc
      cases hc
    · exact (hp.sound v).spared Iff.rfl (fun hout => absurd (hp.out hlock hv) hout) (fun _ _ => rfl)
        (.refl _) rfl
    · exact (hp.sound t).dialed c (hdialed c hc)
  | panic => cases c <;> simp [perform] at hstep
  | lock | writeState _ =>
    cases c <;> simp [perform] at hstep
    obtain ⟨-, rfl⟩ := hstep
    exact ⟨γ t, rfl, hp.beside rfl rfl⟩
  | readState | guardState =>
    cases c <;> simp [perform] at hstep
    obtain ⟨-, -, rfl⟩ := hstep
    exact ⟨γ t, rfl, hp.beside rfl rfl⟩
  | _ =>
    cases c <;> simp [perform] at hstep
    subst hstep
    exact ⟨γ t, rfl, hp.beside rfl rfl⟩

/-- A new connection. -/
theorem dial_upholds (hp : Paired S P w γ) :
    Paired S P { w with net := w.net.dial 0 }
      (Function.update γ t { γ t with dialed := w.net.opened :: (γ t).dialed }) := by
  have hold (c : ConnId) (hc : c < w.net.opened) : (w.net.dial 0).conns c = w.net.conns c :=
    Net.dial_conns_other _ _ _ (Nat.ne_of_lt hc)
  have hsound (v : Nat) : (γ v).Sound S P { w with net := w.net.dial 0 } v :=
    (hp.sound v).spared Iff.rfl (fun _ => rfl)
      (fun c hc => hold c (hp.opened c ((hp.sound v).stream c hc))) (remembers_dial ..) rfl
  refine .moved ?_ (fun v _ => hsound v) (fun c hc => Nat.lt_succ_of_lt (hp.opened c hc)) fun c => ?_
  · refine ⟨(hsound t).guard, (hsound t).stream, (hsound t).asked, fun c hc => ?_, (hsound t).made, (hsound t).heard⟩
    rcases List.mem_cons.mp hc with rfl | hc
    · exact Nat.lt_succ_self _
    · exact (hsound t).dialed c hc
  · by_cases hc : c = w.net.opened
    · subst hc
      show Orderly P _ ((w.net.dial 0).conns _)
      rw [Net.dial_conns_self]
      exact orderly_fresh 0
    · show Orderly P c ((w.net.dial 0).conns c)
      rw [Net.dial_conns_other _ _ _ hc]
      exact hp.orderly c

/-- A request is made. -/
theorem create_upholds (hp : Paired S P w γ) (r : ServiceRequest) :
    Paired S P { w with net := w.net.create t r }
      (Function.update γ t { γ t with made := (γ t).made ++ [r] }) := by
  refine .moved ?_ (fun v hv => ?_) hp.opened hp.orderly
  · refine ⟨(hp.sound t).guard, (hp.sound t).stream, (hp.sound t).asked, (hp.sound t).dialed, ?_, (hp.sound t).heard⟩
    show _ = Function.update w.net.created t _ t
    rw [Function.update_self, ← (hp.sound t).made]
  · exact (hp.sound v).spared Iff.rfl (fun _ => rfl) (fun _ _ => rfl) ⟨Nat.le_refl _, fun _ _ => List.prefix_rfl⟩
      (Function.update_of_ne hv ..)

/-- A message goes out, whole or in part. -/
theorem write_upholds (hp : Paired S P w γ) {c : ConnId} {msgType : UInt8} {payload : Json.Bytes}
    {choice : Choice} {r : Result Unit} {n : Net} (hd : (γ t).demand S (.net (.write c msgType payload)))
    (hquiet : msgType = msgRequest → Quiet (w.net.conns c).log)
    (hstep : w.net.perform t 0 (.write c msgType payload) choice = some (r, n)) :
    ∃ k, (γ t).move S (.net (.write c msgType payload)) r k ∧
      Paired S P { w with net := n } (Function.update γ t k) := by
  obtain ⟨hhold, hrequest⟩ := hd
  -- The message is no request that went out whole: nothing is known of it.
  have hplain (n' : Net) (hn : n' = w.net ∨ ∃ bytes, n' = w.net.modify c (·.send ⟨msgType, payload⟩ bytes)) :
      Paired S P { w with net := n' } (Function.update γ t (γ t)) := by
    obtain rfl | ⟨bytes, rfl⟩ := hn
    · exact hp.beside rfl rfl
    · refine hp.onConn c (by rw [hhold]; rfl) ((hp.orderly c).send _ bytes) (List.prefix_append ..)
        (by rw [hhold]; rfl) rfl rfl ?_ fun _ hh => .inl hh
      rw [hhold]
      exact nofun
  rcases Net.perform_write hstep with ⟨-, rfl, rfl⟩ | ⟨hfits, rfl, rfl⟩ | ⟨-, ⟨text, rfl⟩, out, rfl⟩
  · exact ⟨γ t, by simp [Known.move], hplain _ (.inl rfl)⟩
  · by_cases htype : msgType = msgRequest
    · subst htype
      obtain ⟨q, rfl⟩ := hrequest rfl
      have hsettled := (hp.orderly c).settled (hquiet rfl)
      refine ⟨{ γ t with hold := .asked c q }, ?_, ?_⟩
      · simp only [Known.move, and_self, if_true]
        exact ⟨q, rfl, rfl⟩
      · refine hp.onConn c (by rw [hhold]; rfl) ((hp.orderly c).send _ _) (List.prefix_append ..) rfl rfl rfl
          (fun r hr => ?_) fun _ hh => .inl hh
        cases hr
        exact ⟨(w.net.conns c).log, rfl, hsettled.send hfits⟩
    · exact ⟨γ t, by simp [Known.move, htype], hplain _ (.inr ⟨_, rfl⟩)⟩
  · exact ⟨γ t, by simp [Known.move], hplain _ (.inr ⟨_, rfl⟩)⟩

/-- The answer to the request is read. -/
theorem read_upholds (hP : P.InOrder S) (hp : Paired S P w γ) {c : ConnId} {timed : Bool} {choice : Choice}
    {r : Timed (Result Frame)} {n : Net} (hd : (γ t).demand S (.net (.read c timed)))
    (hserver : P.Delivers w.net (.read c timed) choice)
    (hstep : w.net.perform t 0 (.read c timed) choice = some (r, n)) :
    ∃ k, (γ t).move S (.net (.read c timed)) r k ∧
      Paired S P { w with net := n } (Function.update γ t k) := by
  obtain ⟨q, hhold⟩ := hd
  obtain ⟨log, hlog, hpending⟩ := (hp.sound t).asked c q hhold
  have hfits : Fits ⟨msgRequest, S.toVec q⟩ := hpending.fits _ (by simp)
  obtain ⟨g, hans, htype, hg⟩ := hP.requests c (sentIn log) q hfits
  have hanswered := hlog ▸ (hp.orderly c).answered
  have hconn : (γ t).hold.conn = some c := by rw [hhold]; rfl
  rcases Net.perform_read hstep with ⟨f, rest, hread, rfl, rfl⟩ | ⟨hno, ahead, rfl⟩
  · obtain ⟨hmessage, hsettled⟩ := hpending.read hans hg hserver (by rw [hread]; exact nofun)
    obtain ⟨rfl, rfl⟩ := Read.message.inj (hread.symm.trans hmessage)
    refine ⟨{ γ t with hold := .on c, heard := ⟨c, q, f⟩ :: (γ t).heard }, ⟨q, hhold, htype, rfl⟩, ?_⟩
    have hafter : (((w.net.conns c).take choice.got []).receive f).log =
        log ++ [.sent ⟨msgRequest, S.toVec q⟩] ++ [.received f] := congrArg (· ++ [Event.received f]) hlog
    have hsent : sentIn (((w.net.conns c).take choice.got []).receive f).log =
        sentIn log ++ [⟨msgRequest, S.toVec q⟩] := by rw [hafter]; simp [sentIn]
    refine hp.onConn c hconn ⟨?_, fun _ => ?_⟩ (List.prefix_append ..) rfl rfl rfl nofun fun h hh => ?_
    · rw [hafter]
      exact hanswered.received hans
    · rw [hsent]
      exact hsettled
    · rcases List.mem_cons.mp hh with rfl | hh
      · refine .inr ⟨hp.opened c ((hp.sound t).stream c hconn), log, [], ?_, hans⟩
        rw [Net.modify_self, hafter, List.append_assoc]
        rfl
      · exact .inl hh
  · refine ⟨{ γ t with hold := .on c }, ⟨q, hhold, ?_⟩, ?_⟩
    · split
      · next f => exact absurd rfl (hno f)
      · rfl
    · refine hp.onConn c hconn ⟨(hp.orderly c).answered, fun hquiet => ?_⟩ List.prefix_rfl rfl rfl rfl nofun
        fun _ hh => .inl hh
      rw [show ((w.net.conns c).take choice.got ahead).log = _ from hlog, quiet_sent] at hquiet
      cases hquiet

theorem net_upholds (hP : P.InOrder S) (hp : Paired S P w γ) {o : Net.Op} {choice : Choice} {r : o.Ret} {n : Net}
    (hd : (γ t).demand S (.net o)) (hserver : P.Delivers w.net o choice)
    (hquiet : AsksQuietly w t (.net o) choice) (hstep : w.net.perform t 0 o choice = some (r, n)) :
    ∃ k, (γ t).move S (.net o) r k ∧ Paired S P { w with net := n } (Function.update γ t k) := by
  cases o with
  | connect timed =>
    rcases Net.perform_connect hstep with ⟨rfl, rfl⟩ | ⟨hno, rfl⟩
    · refine ⟨{ γ t with dialed := w.net.opened :: (γ t).dialed },
        ⟨rfl, rfl, fun c hc => ?_, fun c hc => ?_⟩, dial_upholds hp⟩
      · exact List.mem_cons_of_mem _ hc
      · cases hc
        exact List.mem_cons_self ..
    · exact ⟨γ t, ⟨rfl, rfl, fun _ hc => hc, fun c hc => absurd hc (hno c)⟩, hp.beside rfl rfl⟩
  | split c =>
    obtain rfl := Net.perform_split hstep
    have hd : (γ t).hold = .on c := hd
    refine ⟨γ t, rfl, hp.onConn c (by rw [hd]; rfl) (hp.orderly c).split List.prefix_rfl (by rw [hd]; rfl) rfl rfl ?_
      fun _ hh => .inl hh⟩
    rw [hd]
    exact nofun
  | write c msgType payload => exact write_upholds hp hd hquiet hstep
  | read c timed => exact read_upholds hP hp hd hserver hstep
  | newRequest service method payload =>
    obtain rfl := Net.perform_newRequest hstep
    exact ⟨_, rfl, create_upholds hp _⟩

theorem upheld_pairing (hP : P.InOrder S) :
    Upheld machine (pairing S) (fun w t o c => Delivers P w t o c ∧ AsksQuietly w t o c) (Paired S P) := by
  intro w γ t o c r w' hp hd hmeets hstep
  cases o with
  | net o =>
    obtain ⟨⟨r', n⟩, hnet, hr⟩ := Option.map_eq_some_iff.mp hstep
    cases hr
    exact net_upholds hP hp hd hmeets.1 hmeets.2 hnet
  | own o =>
    obtain ⟨⟨r', u⟩, hown, hr⟩ := Option.map_eq_some_iff.mp hstep
    cases hr
    exact own_upholds hp hd hown

end Upheld

/-! ### The methods -/

section Methods
variable {S : Codec} {P : Peer} {k : Known} {R : Known → ProtocolError → Prop}

theorem toVec_injective {q r : ServiceRequest} (h : S.toVec q = S.toVec r) : q = r := by
  have hread := congrArg (S.fromSlice : _ → Option ServiceRequest) h
  simpa using hread

theorem knows_own (o : Op) (Q : Known → Fields.Ret o → Prop) :
    Meets (pairing S) (own o) Q R k ↔
      k.demand S (.own o) ∧ ∀ r k', k.move S (.own o) r k' → Q k' r :=
  @Code.meets_own Fields Known (pairing S) R k o Q

/-- An operation beside the stream. -/
theorem knows_beside (o : Op) {Q : Known → Fields.Ret o → Prop} (hd : k.demand S (.own o))
    (hm : ∀ r k', k.move S (.own o) r k' → k' = k) (hQ : ∀ r, Q k r) : Meets (pairing S) (own o) Q R k :=
  (knows_own o Q).mpr ⟨hd, fun r k' h => hm r k' h ▸ hQ r⟩

theorem knows_writeState (s : ConnectionState) {Q : Known → Unit → Prop} (hQ : Q k ()) :
    Meets (pairing S) (writeState s) Q R k := by
  unfold writeState
  rw [meets_bind]
  refine knows_beside _ trivial (fun _ _ h => h) fun _ => ?_
  exact knows_beside _ trivial (fun _ _ h => h) fun _ => hQ

theorem knows_putStream (s : Option ConnId) {Q : Known → Unit → Prop} (hout : k.hold = .out)
    (hs : ∀ c, s = some c → c ∈ k.dialed) (hQ : Q k ()) : Meets (pairing S) (putStream s) Q R k := by
  unfold putStream
  rw [meets_bind, knows_own]
  refine ⟨hout, fun _ k' hm => ?_⟩
  obtain rfl : k' = { k with hold := .guarded } := hm
  rw [meets_bind]
  refine knows_beside _ ⟨rfl, hs⟩ (fun _ _ h => h) fun _ => ?_
  rw [knows_own]
  refine ⟨nofun, fun _ k' hm => ?_⟩
  obtain rfl : k' = { k with hold := .out } := hm
  rwa [← hout]

theorem knows_isConnected {Q : Known → Bool → Prop} (hQ : ∀ b, Q k b) :
    Meets (pairing S) isConnected Q R k := by
  unfold isConnected
  rw [meets_bind]
  exact knows_beside _ trivial (fun _ _ h => h) fun _ => hQ _

theorem knows_awaitOther {Q : Known → Bool → Prop} (hQ : ∀ b, Q k b) :
    Meets (pairing S) awaitOther Q R k := by
  unfold awaitOther
  rw [meets_bind]
  refine knows_beside _ trivial (fun _ _ h => h) fun s => ?_
  split
  · rw [meets_bind]
    refine knows_beside _ trivial (fun _ _ h => h) fun _ => ?_
    rw [meets_bind]
    refine knows_beside _ trivial (fun _ _ h => h) fun _ => ?_
    rw [meets_bind]
    exact knows_beside _ trivial (fun _ _ h => h) fun _ => hQ _
  · rw [meets_bind]
    exact knows_beside _ trivial (fun _ _ h => h) fun _ => hQ _

theorem knows_established {c : ConnId} {Q : Known → Unit → Prop} (hout : k.hold = .out) (hc : c ∈ k.dialed)
    (hQ : Q k ()) : Meets (pairing S) (established c) Q R k := by
  unfold established
  rw [meets_bind]
  refine knows_putStream _ hout (fun d hd => Option.some.inj hd ▸ hc) ?_
  rw [meets_bind]
  refine knows_writeState _ ?_
  rw [meets_bind]
  refine knows_beside _ trivial (fun _ _ h => h) fun _ => ?_
  exact knows_beside _ trivial (fun _ _ h => h) fun _ => hQ

theorem knows_failed {α : Type} (e : ProtocolError) {Q : Known → α → Prop} (hR : R k e) :
    Meets (pairing S) (do writeState .failed; own (.recordReconnect false); own .unlock; throw e) Q R
      k := by
  rw [meets_bind]
  refine knows_writeState _ ?_
  rw [meets_bind]
  refine knows_beside _ trivial (fun _ _ h => h) fun _ => ?_
  rw [meets_bind]
  exact knows_beside _ trivial (fun _ _ h => h) fun _ => hR

/-- The task is away from the stream and has made the requests `made`. -/
def Aside (made : List ServiceRequest) (k : Known) : Prop := k.hold = .out ∧ k.made = made

theorem knows_dial {made : List ServiceRequest} {Q : Known → Timed (Except String ConnId) → Prop}
    (hk : Aside made k)
    (hQ : ∀ r k', Aside made k' → (∀ c, r = .inTime (.ok c) → c ∈ k'.dialed) → Q k' r) :
    Meets (pairing S) (.net (.connect true) : Code _) Q R k := by
  refine (Code.meets_net _ _).mpr ⟨trivial, fun r k' hm => ?_⟩
  obtain ⟨hhold, hmade, -, hdialed⟩ := hm
  exact hQ r k' ⟨hhold.trans hk.1, hmade.trans hk.2⟩ hdialed

/-- The method makes no request and leaves the stream alone. -/
def StaysAside {α : Type} (S : Codec) (p : Code α) : Prop :=
  ∀ made k, Aside made k → Meets (pairing S) p (fun k _ => Aside made k) (fun k _ => Aside made k) k

theorem connect_aside : StaysAside S connect := by
  intro made k hk
  unfold connect
  rw [meets_bind]
  refine knows_awaitOther fun other => ?_
  cases other with
  | true => exact hk
  | false =>
    simp only [Bool.false_eq_true, if_false]
    rw [meets_bind]
    refine knows_beside _ trivial (fun _ _ h => h) fun _ => ?_
    rw [meets_bind]
    refine knows_beside _ trivial (fun _ _ h => h) fun s => ?_
    rw [meets_bind]
    refine knows_beside _ trivial (fun _ _ h => h) fun _ => ?_
    by_cases hs : s = .connected ∨ s = .connecting
    · simp only [hs, if_true]
      exact knows_beside _ trivial (fun _ _ h => h) fun _ => hk
    · simp only [hs, if_false]
      rw [meets_bind]
      refine knows_writeState _ ?_
      rw [meets_bind]
      refine knows_dial hk fun r k' hk' hdialed => ?_
      rcases r with (text | c) | _
      · exact knows_failed _ hk'
      · rw [meets_bind]
        refine knows_established hk'.1 (hdialed c rfl) ?_
        exact knows_beside _ trivial (fun _ _ h => h) fun _ => hk'
      · exact knows_failed _ hk'

theorem ensureConnected_aside : StaysAside S ensureConnected := by
  intro made k hk
  unfold ensureConnected
  rw [meets_bind]
  refine knows_isConnected fun b => ?_
  cases b with
  | true => exact hk
  | false => exact connect_aside made k hk

theorem disconnect_aside : StaysAside S disconnect := by
  intro made k hk
  unfold disconnect
  rw [meets_bind]
  refine knows_putStream _ hk.1 nofun ?_
  rw [meets_bind]
  refine knows_writeState _ ?_
  exact knows_beside _ trivial (fun _ _ h => h) fun _ => hk

theorem attempts_aside (config : ConnectionConfig) (left attempt : Nat) :
    StaysAside S (attempts config left attempt) := by
  induction left generalizing attempt with
  | zero => exact fun _ _ hk => hk
  | succ left ih =>
    intro made k hk
    have hretry (k : Known) (hk : Aside made k) : Meets (pairing S) (do
        let delay := config.reconnectDelay * (attempt + 1)
        if delay > maxDuration then
          panic
        own (.sleep (min delay (30 * 10 ^ 9)))
        attempts config left (attempt + 1)) (fun k _ => Aside made k) (fun k _ => Aside made k) k := by
      show Meets _ (if _ then _ else _) _ _ _
      by_cases hdelay : config.reconnectDelay * (attempt + 1) > maxDuration
      · rw [if_pos hdelay, meets_bind]
        unfold panic
        rw [meets_bind]
        refine knows_beside _ trivial (fun _ _ h => h) fun _ => ?_
        rw [meets_bind, knows_own]
        exact ⟨trivial, nofun⟩
      · rw [if_neg hdelay, meets_bind]
        exact knows_beside _ trivial (fun _ _ h => h) fun _ => ih (attempt + 1) made k hk
    unfold attempts
    rw [meets_bind]
    refine knows_writeState _ ?_
    rw [meets_bind]
    refine knows_putStream _ hk.1 nofun ?_
    rw [meets_bind]
    refine knows_dial hk fun r k' hk' hdialed => ?_
    rcases r with (text | c) | _
    · exact hretry k' hk'
    · show Meets _ (established c >>= _) _ _ _
      rw [meets_bind]
      exact knows_established hk'.1 (hdialed c rfl) hk'
    · exact hretry k' hk'

theorem reconnect_aside (config : ConnectionConfig) : StaysAside S (reconnect config) := by
  intro made k hk
  unfold reconnect
  rw [meets_bind]
  refine knows_beside _ trivial (fun _ _ h => h) fun _ => ?_
  rw [meets_bind]
  refine meets_mono (attempts_aside config _ 0 made k hk) (fun k b hk => ?_) fun _ _ h => h
  cases b with
  | true => exact knows_beside _ trivial (fun _ _ h => h) fun _ => hk
  | false => exact knows_failed _ hk

/-- The response was read behind the one request made since `made`. -/
def Replied (S : Codec) (made : List ServiceRequest) (k : Known) (response : ServiceResponse) : Prop :=
  ∃ h ∈ k.heard, k.made = made ++ [h.request] ∧ S.fromSlice h.reply.payload = some response

theorem knows_released {α : Type} {body : Code α} {Q : Known → α → Prop}
    (hQ : ∀ k a, Q k a → Q { k with hold := .out } a)
    (h : Meets (pairing S) body (fun k a => k.hold ≠ .out ∧ Q k a) (fun k _ => k.hold ≠ .out) k) :
    Meets (pairing S) (released body) Q (fun _ _ => True) k := by
  unfold released
  rw [meets_bind, meets_lift]
  refine safe_mono h fun k r hr => ?_
  have hhold : k.hold ≠ .out := by
    cases r with
    | ok a => exact hr.1
    | error e => exact hr
  rw [meets_bind, knows_own]
  refine ⟨hhold, fun _ k' hm => ?_⟩
  obtain rfl : k' = { k with hold := .out } := hm
  rw [meets_bind]
  refine knows_beside _ trivial (fun _ _ h => h) fun _ => ?_
  rw [Code.meets_ofResult]
  cases r with
  | ok a => exact hQ k a hr.2
  | error e => trivial

/-- What the exchange reads is the answer to the request it wrote. -/
theorem exchange_replied (c : ConnId) (service method : String) (payload : Value) (hk : k.hold = .on c) :
    Meets (pairing S) (exchange S c service method payload)
      (fun k' response => k'.hold ≠ .out ∧ Replied S k.made k' response)
      (fun k' _ => k'.hold ≠ .out) k := by
  unfold exchange
  rw [meets_bind]
  refine (Code.meets_net _ _).mpr ⟨hk, fun _ k' hm => ?_⟩
  rw [show k' = k from hm, meets_bind]
  refine (Code.meets_net _ _).mpr ⟨trivial, fun request k' hm => ?_⟩
  obtain rfl : k' = { k with made := k.made ++ [request] } := hm
  rw [meets_bind, Code.meets_write]
  refine ⟨⟨hk, fun _ => ⟨request, rfl⟩⟩, fun r k' hm => ?_⟩
  cases r with
  | error e =>
    obtain rfl : k' = { k with made := k.made ++ [request] } := by simpa [pairing, Known.move] using hm
    rw [ends_error, show Hold.out = Hold.out from rfl, hk]
    exact nofun
  | ok _ =>
    obtain ⟨q, hq, rfl⟩ : ∃ q, S.toVec request = S.toVec (q : ServiceRequest) ∧
        k' = { k with made := k.made ++ [request], hold := .asked c q } := by
      simpa [pairing, Known.move] using hm
    obtain rfl := toVec_injective hq
    rw [ends_ok, meets_bind]
    refine (Code.meets_net _ _).mpr ⟨⟨request, rfl⟩, fun r k' hm => ?_⟩
    obtain ⟨q, hq, hm⟩ := hm
    cases hq
    rcases r with (e | f) | _
    · obtain rfl := hm
      exact nofun
    · obtain ⟨htype, rfl⟩ := hm
      show Meets _ (if _ then _ else _) _ _ _
      rw [if_neg (by rw [htype]; decide), if_neg (not_not_intro htype), meets_bind, Code.meets_decode]
      cases hdecode : (S.fromSlice f.payload : Option ServiceResponse) with
      | none => exact nofun
      | some response =>
        show Meets _ _ _ _ _
        rw [meets_bind]
        refine knows_beside _ trivial (fun _ _ h => h) fun _ => ?_
        rw [meets_bind]
        refine knows_beside _ trivial (fun _ _ h => h) fun _ => ?_
        exact ⟨nofun, ⟨c, request, f⟩, List.mem_cons_self .., rfl, hdecode⟩
    · obtain rfl := hm
      show Meets _ (own _ >>= _) _ _ _
      rw [meets_bind]
      exact knows_beside _ trivial (fun _ _ h => h) fun _ => nofun

/-- Take both mutexes and look at the stream. -/
theorem knows_behind {α : Type} {p : Option ConnId → Code α} {Q : Known → α → Prop} (hk : k.hold = .out)
    (h : ∀ s, Meets (pairing S) (p s) Q R { k with hold := s.elim .guarded .on }) :
    Meets (pairing S) (do own .lock; own .lockStream; p (← own .stream)) Q R k := by
  rw [meets_bind]
  refine knows_beside _ trivial (fun _ _ h => h) fun _ => ?_
  rw [meets_bind, knows_own]
  refine ⟨hk, fun _ k' hm => ?_⟩
  obtain rfl : k' = { k with hold := .guarded } := hm
  rw [meets_bind, knows_own]
  refine ⟨rfl, fun s k' hm => ?_⟩
  obtain rfl : k' = { k with hold := s.elim .guarded .on } := hm
  exact h s

theorem call_replied (service method : String) (payload : Value) {made : List ServiceRequest} (hk : Aside made k) :
    Meets (pairing S) (call S service method payload) (Replied S made) (fun _ _ => True) k := by
  have hbehind (k : Known) (hk : Aside made k) : Meets (pairing S) (callBehind S service method payload)
      (Replied S made) (fun _ _ => True) k := by
    obtain ⟨hout, rfl⟩ := hk
    refine knows_behind hout fun s => ?_
    cases s with
    | some c => exact knows_released (fun _ _ h => h) (exchange_replied c service method payload rfl)
    | none =>
      refine knows_released (fun _ _ h => h) ?_
      rw [meets_bind]
      exact knows_writeState _ fun h => by cases h
  unfold call
  rw [meets_bind]
  refine knows_isConnected fun b => ?_
  cases b with
  | true => exact hbehind k hk
  | false =>
    simp only [Bool.not_false, if_true]
    rw [meets_bind]
    exact meets_mono (connect_aside made k hk) (fun k _ hk => hbehind k hk) fun _ _ _ => trivial

theorem ping_safe {made : List ServiceRequest} (hk : Aside made k) :
    Meets (pairing S) ping (fun _ _ => True) (fun _ _ => True) k := by
  unfold ping
  rw [meets_bind]
  refine knows_isConnected fun b => ?_
  cases b with
  | false => trivial
  | true =>
    refine knows_behind hk.1 fun s => ?_
    cases s with
    | some c =>
      refine knows_released (fun _ _ h => h) ?_
      rw [Code.meets_write]
      refine ⟨⟨rfl, fun h => absurd h (by decide)⟩, fun r k' hm => ?_⟩
      obtain rfl : k' = { k with hold := .on c } := by
        simpa [pairing, Known.move, show ¬ msgPing = msgRequest by decide] using hm
      cases r
      · exact nofun
      · exact ⟨nofun, trivial⟩
    | none => exact knows_released (fun _ _ h => h) nofun

/-- A response that is reported was read behind the task's one request. -/
def Reported (S : Codec) (k : Known) : Outcome → Prop
  | .reply (.ok response) => Replied S [] k response
  | _ => True

theorem task_paired (config : ConnectionConfig) (job : Job) :
    Safe (pairing S) (job.task S config) (Reported S) ⟨.out, [], [], []⟩ := by
  have hdone {p : Code Unit} (h : StaysAside S p) :
      Safe (pairing S) (Outcome.done <$> p.run) (Reported S) ⟨.out, [], [], []⟩ :=
    safe_map (h [] _ ⟨rfl, rfl⟩) (fun _ _ _ => trivial) fun _ _ _ => trivial
  cases job with
  | connect => exact hdone connect_aside
  | ensureConnected => exact hdone ensureConnected_aside
  | disconnect => exact hdone disconnect_aside
  | reconnect => exact hdone (reconnect_aside config)
  | call service method payload =>
    exact safe_map (call_replied service method payload (show Aside [] _ from ⟨rfl, rfl⟩)) (fun _ _ h => h)
      fun _ _ _ => trivial
  | ping =>
    exact safe_map (ping_safe (show Aside [] _ from ⟨rfl, rfl⟩)) (fun _ _ _ => trivial) fun _ _ _ => trivial

end Methods

/-- On some connection the request `r` went out, and the message read next there is the peer's one answer to
it, behind what had been sent on that connection before; the response is decoded from it. -/
def AnswerTo (S : Codec) (P : Peer) (n : Net) (r : ServiceRequest) (response : ServiceResponse) : Prop :=
  ∃ c pre g post, (n.conns c).log = pre ++ .sent ⟨msgRequest, S.toVec r⟩ :: .received g :: post ∧
    P.answers c (sentIn pre) ⟨msgRequest, S.toVec r⟩ = [g] ∧ S.fromSlice g.payload = some response

/-- **Where every request goes out on a quiet connection, every response a call returns
answers the request this call made**, and every message that was read on a connection
answers the message that was sent before it. -/
theorem replies_answer (S : Codec) (P : Peer) (hP : P.InOrder S) (config : ConnectionConfig) (jobs : List Job)
    (run : List (Nat × Choice)) (s : Async.Config (NetWith Fields) (Client ReliableUdsClient) Outcome)
    (hrun : (start S config jobs).run machine run = some s)
    (hserver : (start S config jobs).Along machine (Config.Performs (Delivers P)) run)
    (hquiet : (start S config jobs).Along machine (Config.Performs AsksQuietly) run) :
    (∀ t response, s.returned t = some (.reply (.ok response)) →
      ∃ r, s.world.net.created t = [r] ∧ AnswerTo S P s.world.net r response) ∧
    ∀ c, Answered P c (s.world.net.conns c).log := by
  have hkept : Kept (pairing S) (Paired S P) (fun _ => Reported S) (start S config jobs) := by
    refine ⟨fun _ => ⟨.out, [], [], []⟩, Paired.new, fun t p hp => ?_⟩
    obtain ⟨job, -, rfl⟩ := List.mem_map.mp (List.mem_of_getElem? hp)
    exact task_paired config job
  have hend := run_safe (upheld_pairing hP) hrun (Config.along_performs_and hserver hquiet) hkept
  refine ⟨fun t response hreturned => ?_, fun c => ?_⟩
  · obtain ⟨γ, hpaired, h, hh, hmade, hdecode⟩ := hend.returned hreturned
    obtain ⟨-, pre, post, hlog, hans⟩ := (hpaired.sound t).heard h hh
    exact ⟨h.request, (hpaired.sound t).made.symm.trans hmade, h.conn, pre, h.reply, post, hlog, hans, hdecode⟩
  · obtain ⟨γ, hpaired, -⟩ := hend
    exact (hpaired.orderly c).answered

/-! ### Two runs against the echo server -/

open EchoServer (peer response)
open Json.Text (compact)

theorem peer_inOrder : peer.InOrder compact where
  requests c before r h := ⟨_, EchoServer.answers_request c before r, rfl, EchoServer.response_fits h⟩
  pings _ _ := ⟨EchoServer.pong, rfl, rfl, by decide⟩

instance (P : Peer) (w : Client ReliableUdsClient) (t : Nat) (o : NetOp Fields) (c : Choice) :
    Decidable (Delivers P w t o c) :=
  match o with
  | .net o => inferInstanceAs (Decidable (P.Delivers w.net o c))
  | .own _ => isTrue trivial

instance (w : Client ReliableUdsClient) (t : Nat) (o : NetOp Fields) (c : Choice) :
    Decidable (AsksQuietly w t o c) :=
  match o with
  | .net (.write c msgType _) => inferInstanceAs (Decidable (msgType = msgRequest → Quiet (w.net.conns c).log))
  | .net (.connect _) | .net (.split _) | .net (.read ..) | .net (.newRequest ..) | .own _ => isTrue trivial

/-- Task `t` reads the answer to the call with the id `id`, and returns it. -/
def reads (t : Nat) (id : String) : List (Nat × Choice) :=
  [(t, .arrive (encode (response (.new id id "echo" "say" .null)))), (t, .clock 2), (t, .clock 2)] ++ goes t 2

/-- One call, answered. -/
def oneCall : List (Nat × Choice) := connects 0 ++ asks 1 "a" ++ reads 1 "a"

/-- The first call times out while its answer is on the way; the second reads that answer. -/
def lateReply : List (Nat × Choice) :=
  connects 0 ++ asks 1 "a" ++ [(1, .elapse []), (1, .clock 2)] ++ goes 1 2 ++ asks 2 "b" ++ reads 2 "a"

/-- The id in the response task `t` has returned. -/
def returnedId (s : Async.Config (NetWith Fields) (Client ReliableUdsClient) Outcome) (t : Nat) :
    Option String :=
  match s.returned t with
  | some (.reply (.ok response)) => some response.requestId
  | _ => none

theorem returnedId_eq_some {s : Async.Config (NetWith Fields) (Client ReliableUdsClient) Outcome} {t : Nat}
    {id : String} (h : returnedId s t = some id) :
    ∃ response, s.returned t = some (.reply (.ok response)) ∧ response.requestId = id := by
  unfold returnedId at h
  split at h
  · next response hr => exact ⟨response, hr, Option.some.inj h⟩
  · cases h

/-- The echo server's answers name the request. -/
theorem answerTo_id {n : Net} {r : ServiceRequest} {response : ServiceResponse}
    (h : AnswerTo compact peer n r response) : response.requestId = r.requestId := by
  obtain ⟨c, pre, g, post, -, hans, hdecode⟩ := h
  rw [EchoServer.answers_request] at hans
  cases hans
  have : some (ServiceResponse.success r .null) = some response := by
    simpa [EchoServer.response] using hdecode
  cases this
  rfl

/-- One answered call, of which the theorem speaks. -/
theorem replies_answer_oneCall :
    ∃ s response r, (start compact patient [.connect, say]).run machine oneCall = some s ∧
      s.returned 1 = some (.reply (.ok response)) ∧ s.world.net.created 1 = [r] ∧
      AnswerTo compact peer s.world.net r response := by
  have hend : ((start compact patient [.connect, say]).run machine oneCall).bind (returnedId · 1) =
      some "a" := by decide +kernel
  obtain ⟨s, hrun, hid⟩ := Option.bind_eq_some_iff.mp hend
  obtain ⟨response, hreturned, -⟩ := returnedId_eq_some hid
  have hserver : (start compact patient [.connect, say]).Along machine (Config.Performs (Delivers peer))
      oneCall := Config.along_of_checks (by decide +kernel)
  have hquiet : (start compact patient [.connect, say]).Along machine (Config.Performs AsksQuietly)
      oneCall := Config.along_of_checks (by decide +kernel)
  obtain ⟨r, hcreated, hanswer⟩ := (replies_answer compact peer peer_inOrder patient [.connect, say]
    oneCall s hrun hserver hquiet).1 1 response hreturned
  exact ⟨s, response, r, hrun, hreturned, hcreated, hanswer⟩

/-- **After a timeout the next call returns the reply to the call before it.** -/
theorem late_reply_taken :
    ¬ ∀ (S : Codec) (P : Peer), P.InOrder S → ∀ (config : ConnectionConfig) (jobs : List Job)
        (run : List (Nat × Choice)) (s : Async.Config (NetWith Fields) (Client ReliableUdsClient) Outcome),
      (start S config jobs).run machine run = some s →
      (start S config jobs).Along machine (Config.Performs (Delivers P)) run →
      ∀ t response, s.returned t = some (.reply (.ok response)) →
        ∃ r, s.world.net.created t = [r] ∧ AnswerTo S P s.world.net r response := by
  intro h
  have hend : ((start compact patient [.connect, say, say]).run machine lateReply).bind (fun s =>
      (returnedId s 2).map fun id => (id, (s.world.net.created 2).map (·.requestId))) =
        some ("a", ["b"]) := by
    decide +kernel
  obtain ⟨s, hrun, hs⟩ := Option.bind_eq_some_iff.mp hend
  obtain ⟨id, hid, heq⟩ := Option.map_eq_some_iff.mp hs
  obtain ⟨rfl, hmade⟩ := Prod.mk.inj heq
  obtain ⟨response, hreturned, hresponse⟩ := returnedId_eq_some hid
  obtain ⟨r, hcreated, hanswer⟩ := h compact peer peer_inOrder patient [.connect, say, say] lateReply s hrun
    (Config.along_of_checks (by decide +kernel)) 2 response hreturned
  rw [hcreated, List.map_singleton, ← answerTo_id hanswer, hresponse] at hmade
  revert hmade
  decide

end ReliableUdsClient

end XProtocol
