import XProtocol.Client.Shared
import XProtocol.Peer

/-! One exchange after the other: how a client keeps its replies apart.

The client keeps no table of requests in flight. A reply is taken for the answer
to the request just written, and that is right as long as nothing else is due on
the stream. So what a task knows about the client it holds is how far the exchange
on the stream has come (`Held`); what each operation owes and what it does to that
knowledge is `exchange`, and `Holds` ties the knowledge to the fields and the
connections. `call_meets` is about the text of the client's methods, `net_upholds`
and `own_upholds` about one operation each. -/
namespace XProtocol
open Async
open Json (Value Codec)
open Wire

/-- A server that answers every request with one response, which names the request,
and a handshake with one message at most. -/
structure Peer.Echoes (S : Codec) (P : Peer) : Prop where
  greets : ∀ c before payload, ∀ g ∈ P.answers c before ⟨msgHandshake, payload⟩,
    P.answers c before ⟨msgHandshake, payload⟩ = [g] ∧ Fits g
  echoes : ∀ c before (r : ServiceRequest), Fits ⟨msgRequest, S.toVec r⟩ →
    ∃ response : ServiceResponse,
      P.answers c before ⟨msgRequest, S.toVec r⟩ = [⟨msgResponse, S.toVec response⟩] ∧
        Fits ⟨msgResponse, S.toVec response⟩ ∧ response.requestId = r.requestId

namespace UdsClient

/-- How far the client's holder knows the exchange to be. -/
inductive Held where
  /-- There may be a stream, and nothing is due on it. -/
  | resting
  | empty
  | using (c : ConnId)
  /-- `c` is open, and not the client's stream yet. -/
  | dialed (c : ConnId)
  | greeting (c : ConnId)
  | greeted (c : ConnId)
  | asking (c : ConnId) (r : ServiceRequest)
  /-- Something may be due on the stream. -/
  | spoiled

/-- Nothing is due on the client's stream: there is none, or no exchange is open on it. -/
def Held.Rests : Held → Prop
  | .asking .. | .spoiled => False
  | _ => True

structure Known where
  held : Held
  /-- The requests the task has created. -/
  made : List ServiceRequest

section
variable (S : Codec)

def demand (k : Known) : NetOp Fields → Prop
  | .net (.connect _) => k.held = .empty
  | .net (.split c) => k.held = .dialed c ∨ k.held = .using c
  | .net (.write c msgType payload) =>
    (k.held = .dialed c ∧ msgType = msgHandshake) ∨
      (k.held = .using c ∧ ∃ r, k.made.getLast? = some r ∧ msgType = msgRequest ∧ payload = S.toVec r)
  | .net (.read c _) => k.held = .greeting c ∨ ∃ r, k.held = .asking c r
  | .net (.newRequest ..) => True
  | .own .stream => k.held.Rests
  | .own (.setStream (some c)) => k.held = .greeted c
  | .own .panic => False
  | .own _ => True

/-- `f` is a response that names the request `r`. -/
def Names (r : ServiceRequest) (f : Frame) : Prop :=
  ∃ response : ServiceResponse, f = ⟨msgResponse, S.toVec response⟩ ∧ response.requestId = r.requestId

/-- What an answer makes of the knowledge. -/
def move (k : Known) : (o : NetOp Fields) → (NetWith Fields).Ret o → Known → Prop
  | .net (.connect _), .inTime (.ok c), k' => k' = { k with held := .dialed c }
  | .net (.connect _), _, k' => k' = k
  | .net (.split _), _, k' => k' = k
  | .net (.write ..), r, k' =>
    match k.held, r with
    | .dialed c, .ok _ => k' = { k with held := .greeting c }
    | .dialed _, .error _ => k' = { k with held := .empty }
    | .using c, .ok _ => ∃ q, k.made.getLast? = some q ∧ k' = { k with held := .asking c q }
    | _, _ => k' = { k with held := .spoiled }
  | .net (.read ..), r, k' =>
    match k.held, r with
    | .greeting c, .inTime (.ok _) => k' = { k with held := .greeted c }
    | .greeting _, _ => k' = { k with held := .empty }
    | .asking c q, .inTime (.ok f) => k' = { k with held := .using c } ∧ Names S q f
    | _, _ => k' = { k with held := .spoiled }
  | .net (.newRequest ..), r, k' => k' = { k with made := k.made ++ [r] }
  | .own .stream, none, k' => k' = { k with held := .empty }
  | .own .stream, some c, k' => k' = { k with held := .using c }
  | .own (.setStream none), _, k' => k' = { k with held := .empty }
  | .own (.setStream (some c)), _, k' => k' = { k with held := .using c }
  | .own _, _, k' => k' = k

/-- What the client's code owes at each operation, and what it learns. -/
def exchange : Discipline (NetWith Fields) Known := ⟨demand S, move S⟩

/-! ### The methods -/

/-- A failure before the exchange: the requests are those made before, and nothing is due. -/
def Rested (made : List ServiceRequest) (k : Known) : Prop := k.made = made ∧ k.held.Rests

theorem dial_meets (made : List ServiceRequest) :
    Meets (exchange S) dial (fun k c => k = ⟨.dialed c, made⟩) (fun k _ => Rested made k)
      ⟨.empty, made⟩ := by
  unfold dial
  rw [meets_bind]
  refine (Code.meets_net (.connect true) _).mpr ⟨rfl, fun r k' hm => ?_⟩
  match r, hm with
  | .inTime (.ok c), hm => exact hm
  | .inTime (.error text), hm =>
    obtain rfl : k' = ⟨.empty, made⟩ := hm
    exact ⟨rfl, trivial⟩
  | .elapsed, hm =>
    obtain rfl : k' = ⟨.empty, made⟩ := hm
    exact ⟨rfl, trivial⟩

theorem connect_meets (made : List ServiceRequest) :
    Meets (exchange S) (connect S) (fun k _ => ∃ c, k = ⟨.using c, made⟩)
      (fun k _ => Rested made k) ⟨.empty, made⟩ := by
  unfold connect
  rw [meets_bind]
  refine meets_mono (dial_meets S made) (fun k c hk => ?_) (fun _ _ h => h)
  subst hk
  rw [meets_bind]
  refine (Code.meets_net (.split c) _).mpr ⟨.inl rfl, fun _ k hm => ?_⟩
  obtain rfl : k = ⟨.dialed c, made⟩ := hm
  rw [meets_bind, Code.meets_write]
  refine ⟨.inl ⟨rfl, rfl⟩, fun r k hm => ?_⟩
  match r, hm with
  | .error e, hm =>
    obtain rfl : k = ⟨.empty, made⟩ := hm
    exact ⟨rfl, trivial⟩
  | .ok (), hm =>
    obtain rfl : k = ⟨.greeting c, made⟩ := hm
    rw [ends_ok, meets_bind, Code.meets_readTimed]
    refine ⟨.inl rfl, fun r k hm => ?_⟩
    match r, hm with
    | .elapsed, hm =>
      obtain rfl : k = ⟨.empty, made⟩ := hm
      exact ⟨rfl, trivial⟩
    | .inTime (.error e), hm =>
      obtain rfl : k = ⟨.empty, made⟩ := hm
      exact ⟨rfl, trivial⟩
    | .inTime (.ok f), hm =>
      obtain rfl : k = ⟨.greeted c, made⟩ := hm
      have hrested : Rested made ⟨.greeted c, made⟩ := ⟨rfl, trivial⟩
      show Meets _ (ite _ _ _) _ _ _
      split
      · exact hrested
      · rw [meets_bind, Code.meets_decode]
        cases (S.fromSlice f.payload : Option HandshakeResponse) with
        | none => exact hrested
        | some response =>
          show Meets _ (ite _ _ _) _ _ _
          split
          · exact hrested
          · rw [meets_bind]
            refine (meets_own (.setSession _) _).mpr ⟨trivial, fun _ k hm => ?_⟩
            obtain rfl : k = ⟨.greeted c, made⟩ := hm
            rw [meets_bind]
            refine (meets_own (.setConnected _) _).mpr ⟨trivial, fun _ k hm => ?_⟩
            obtain rfl : k = ⟨.greeted c, made⟩ := hm
            refine (meets_own (.setStream _) _).mpr ⟨rfl, fun _ k hm => ?_⟩
            exact ⟨c, hm⟩

theorem held_meets {made : List ServiceRequest} {k : Known} (hk : Rested made k) :
    Meets (exchange S) held (fun k c => k = ⟨.using c, made⟩) (fun k _ => Rested made k) k := by
  obtain ⟨h, made'⟩ := k
  obtain ⟨rfl, hrests⟩ := hk
  unfold held
  rw [meets_bind]
  refine (meets_own .stream _).mpr ⟨hrests, fun r k hm => ?_⟩
  match r, hm with
  | some c, hm => exact hm
  | none, hm =>
    obtain rfl : k = ⟨.empty, made'⟩ := hm
    exact ⟨rfl, trivial⟩

/-- The exchange of a call: a response it returns names the request it has made. -/
theorem doCallInternal_meets {made : List ServiceRequest} {k : Known} (hk : Rested made k)
    (service method : String) (payload : Value) :
    Meets (exchange S) (doCallInternal S service method payload)
      (fun k response => k.held.Rests ∧ ∃ r, k.made = made ++ [r] ∧ response.requestId = r.requestId)
      (fun _ _ => True) k := by
  unfold doCallInternal
  rw [meets_bind]
  refine meets_mono (held_meets S hk) (fun k c hk => ?_) (fun _ _ _ => trivial)
  subst hk
  rw [meets_bind]
  refine (Code.meets_net (.split c) _).mpr ⟨.inr rfl, fun _ k hm => ?_⟩
  obtain rfl : k = ⟨.using c, made⟩ := hm
  rw [meets_bind]
  refine (Code.meets_net (.newRequest service method payload) _).mpr ⟨trivial, fun r k hm => ?_⟩
  obtain rfl : k = ⟨.using c, made ++ [r]⟩ := hm
  rw [meets_bind, Code.meets_write]
  refine ⟨.inr ⟨rfl, r, List.getLast?_concat .., rfl, rfl⟩, fun answer k hm => ?_⟩
  match answer, hm with
  | .error e, _ => trivial
  | .ok (), ⟨q, hq, hm⟩ =>
    obtain rfl : r = q := by simpa using hq
    obtain rfl : k = ⟨.asking c r, made ++ [r]⟩ := hm
    rw [ends_ok, meets_bind, Code.meets_readTimed]
    refine ⟨.inr ⟨r, rfl⟩, fun answer k hm => ?_⟩
    match answer, hm with
    | .elapsed, _ => trivial
    | .inTime (.error e), _ => trivial
    | .inTime (.ok f), ⟨hm, response, hf, hid⟩ =>
      obtain rfl : k = ⟨.using c, made ++ [r]⟩ := hm
      subst hf
      show Meets _ (ite _ _ _) _ _ _
      rw [if_neg (by simp), Code.meets_decode, Json.Codec.fromSlice_toVec]
      exact ⟨trivial, r, rfl, hid⟩

/-- A request ends with nothing due on the stream, whatever its exchange came to. -/
theorem request_meets {α : Type} {made : List ServiceRequest} {k : Known} (hk : Rested made k)
    {p : Code α} {Q : Known → α → Prop}
    (hp : ∀ k, Rested made k → Meets (exchange S) p Q (fun _ _ => True) k) :
    Meets (exchange S) (request S p) Q (fun k _ => k.held.Rests) k := by
  have hexchange (k : Known) (hk : Rested made k) :
      Meets (exchange S) (tryCatch p fun e => do
        setConnected false
        setStream none
        throw e) Q (fun k _ => k.held.Rests) k := by
    rw [meets_tryCatch]
    refine meets_mono (hp k hk) (fun _ _ h => h) (fun k e _ => ?_)
    rw [meets_bind]
    refine (meets_own (.setConnected false) _).mpr ⟨trivial, fun _ k' hm => ?_⟩
    rw [meets_bind]
    refine (meets_own (.setStream none) _).mpr ⟨trivial, fun _ k'' hm => ?_⟩
    obtain rfl : k'' = { k' with held := .empty } := hm
    trivial
  obtain ⟨h, made'⟩ := k
  obtain ⟨rfl, hrests⟩ := hk
  unfold request
  rw [meets_bind]
  refine (meets_own .stream _).mpr ⟨hrests, fun r k hm => ?_⟩
  match r, hm with
  | some c, hm =>
    obtain rfl : k = ⟨.using c, made'⟩ := hm
    exact hexchange _ ⟨rfl, trivial⟩
  | none, hm =>
    obtain rfl : k = ⟨.empty, made'⟩ := hm
    show Meets _ (_ >>= _) _ _ _
    rw [meets_bind]
    refine meets_mono (connect_meets S made') ?_ (fun _ _ h => h.2)
    rintro k _ ⟨c, rfl⟩
    exact hexchange _ ⟨rfl, trivial⟩

/-- **A call that returns a response has made one request, and the response names it.** -/
theorem call_meets {made : List ServiceRequest} {k : Known} (hk : Rested made k)
    (service method : String) (payload : Value) :
    Meets (exchange S) (call S service method payload)
      (fun k response => k.held.Rests ∧ ∃ r, k.made = made ++ [r] ∧ response.requestId = r.requestId)
      (fun k _ => k.held.Rests) k :=
  request_meets S hk fun _ hk => doCallInternal_meets S hk service method payload

theorem close_meets (k : Known) :
    Meets (exchange S) close (fun k _ => k.held.Rests) (fun k _ => k.held.Rests) k := by
  unfold close
  rw [meets_bind]
  refine (meets_own (.setConnected false) _).mpr ⟨trivial, fun _ k₁ hm => ?_⟩
  rw [meets_bind]
  refine (meets_own (.setSession none) _).mpr ⟨trivial, fun _ k₂ hm => ?_⟩
  refine (meets_own (.setStream none) _).mpr ⟨trivial, fun _ k₃ hm => ?_⟩
  obtain rfl : k₃ = { k₂ with held := .empty } := hm
  trivial

/-! ### One operation -/

variable (P : Peer)

/-- Client `i` opened the connection. -/
def Owns (n : Net) (i : Nat) (c : ConnId) : Prop := c < n.opened ∧ (n.conns c).owner = i

/-- The connection is the client's, and nothing is due on it. -/
def Quiet (n : Net) (i : Nat) (c : ConnId) : Prop := Owns n i c ∧ ∃ fs, Settled P c (n.conns c) fs

/-- What the knowledge says of the client's stream and of the connections. -/
def Holds (i : Nat) (u : UdsClient) (n : Net) : Held → Prop
  | .resting => ∀ c, u.stream = some c → Quiet P n i c
  | .empty => u.stream = none
  | .using c => u.stream = some c ∧ Quiet P n i c
  | .dialed c => u.stream = none ∧ Owns n i c ∧ Settled P c (n.conns c) []
  | .greeting c => u.stream = none ∧ Owns n i c ∧
      ∃ payload, Pending P c (n.conns c) [] ⟨msgHandshake, payload⟩
  | .greeted c => u.stream = none ∧ Quiet P n i c
  | .asking c r => u.stream = some c ∧ Owns n i c ∧
      ∃ fs, Pending P c (n.conns c) fs ⟨msgRequest, S.toVec r⟩
  | .spoiled => ∀ c, u.stream = some c → Owns n i c

variable {S P}

/-- Whatever is known, the stream is one the client opened. -/
theorem Holds.owns {i : Nat} {u : UdsClient} {n : Net} {h : Held} (hh : Holds S P i u n h) {c : ConnId}
    (hc : u.stream = some c) : Owns n i c := by
  cases h with
  | resting => exact (hh c hc).1
  | empty => cases hc.symm.trans hh
  | «using» d =>
    obtain rfl := Option.some.inj (hc.symm.trans hh.1)
    exact hh.2.1
  | dialed d => cases hc.symm.trans hh.1
  | greeting d => cases hc.symm.trans hh.1
  | greeted d => cases hc.symm.trans hh.1
  | asking d r =>
    obtain rfl := Option.some.inj (hc.symm.trans hh.1)
    exact hh.2.1
  | spoiled => exact hh c hc

theorem Holds.resting {i : Nat} {u : UdsClient} {n : Net} {h : Held} (hh : Holds S P i u n h)
    (hr : h.Rests) : Holds S P i u n .resting := by
  intro c hc
  cases h with
  | resting => exact hh c hc
  | empty => cases hc.symm.trans hh
  | «using» d =>
    obtain rfl := Option.some.inj (hc.symm.trans hh.1)
    exact hh.2
  | dialed d => cases hc.symm.trans hh.1
  | greeting d => cases hc.symm.trans hh.1
  | greeted d => cases hc.symm.trans hh.1
  | asking => exact hr.elim
  | spoiled => exact hr.elim

/-- The connections of every client but `i` are as they were. -/
structure Spares (i : Nat) (n n' : Net) : Prop where
  opened : n.opened ≤ n'.opened
  conns : ∀ c < n.opened, (n.conns c).owner ≠ i → n'.conns c = n.conns c

theorem Spares.refl (i : Nat) (n : Net) : Spares i n n := ⟨Nat.le_refl _, fun _ _ _ => rfl⟩

theorem spares_modify {i : Nat} {n : Net} {c : ConnId} (h : Owns n i c) (f : Conn → Conn) :
    Spares i n (n.modify c f) :=
  ⟨Nat.le_refl _, fun d _ hd => Net.modify_other n c d f (by rintro rfl; exact hd h.2)⟩

theorem spares_dial (i : Nat) (n : Net) : Spares i n (n.dial i) :=
  ⟨Nat.le_succ _, fun d hd _ => Net.dial_conns_other n d i (Nat.ne_of_lt hd)⟩

theorem spares_create (i : Nat) (n : Net) (t : Nat) (r : ServiceRequest) : Spares i n (n.create t r) :=
  ⟨Nat.le_refl _, fun _ _ _ => rfl⟩

theorem Owns.spared {i j : Nat} {n n' : Net} {c : ConnId} (h : Owns n j c) (hs : Spares i n n')
    (hij : j ≠ i) : Owns n' j c ∧ n'.conns c = n.conns c := by
  have hc := hs.conns c h.1 (by rw [h.2]; exact hij)
  exact ⟨⟨Nat.lt_of_lt_of_le h.1 hs.opened, by rw [hc]; exact h.2⟩, hc⟩

/-- What is known of one client does not depend on what another's holder does. -/
theorem Holds.spared {i j : Nat} {u : UdsClient} {n n' : Net} {h : Held} (hh : Holds S P j u n h)
    (hs : Spares i n n') (hij : j ≠ i) : Holds S P j u n' h := by
  have hquiet {c : ConnId} (hq : Quiet P n j c) : Quiet P n' j c := by
    obtain ⟨howns, hc⟩ := hq.1.spared hs hij
    exact ⟨howns, hc ▸ hq.2⟩
  cases h with
  | resting => exact fun c hc => hquiet (hh c hc)
  | empty => exact hh
  | «using» c => exact ⟨hh.1, hquiet hh.2⟩
  | dialed c =>
    obtain ⟨howns, hc⟩ := hh.2.1.spared hs hij
    exact ⟨hh.1, howns, hc ▸ hh.2.2⟩
  | greeting c =>
    obtain ⟨howns, hc⟩ := hh.2.1.spared hs hij
    exact ⟨hh.1, howns, hc ▸ hh.2.2⟩
  | greeted c => exact ⟨hh.1, hquiet hh.2⟩
  | asking c r =>
    obtain ⟨howns, hc⟩ := hh.2.1.spared hs hij
    exact ⟨hh.1, howns, hc ▸ hh.2.2⟩
  | spoiled => exact fun c hc => ((hh c hc).spared hs hij).1

theorem owns_modify {n : Net} {i : Nat} {c : ConnId} (h : Owns n i c) {f : Conn → Conn}
    (hf : ∀ conn, (f conn).owner = conn.owner) : Owns (n.modify c f) i c :=
  ⟨h.1, by rw [Net.modify_self, hf]; exact h.2⟩

variable (S P) in
/-- What one operation does to what is known: the network's answer moves the
knowledge, and the other clients' connections are spared. -/
structure Upholds (t i : Nat) (u : UdsClient) (k : Known) (n n' : Net) (moved : Known → Prop) : Prop where
  moves : ∃ k', moved k' ∧ Holds S P i u n' k'.held ∧ (k.made = n.created t → k'.made = n'.created t)
  spares : Spares i n n'
  created : ∀ t' ≠ t, n'.created t' = n.created t'

theorem net_upholds (echo : P.Echoes S) {t i : Nat} {u : UdsClient} {n n' : Net} {k : Known}
    {o : Net.Op} {choice : Choice} {r : o.Ret} (hh : Holds S P i u n k.held) (hd : demand S k (.net o))
    (hsends : P.Delivers n o choice) (hp : n.perform t i o choice = some (r, n')) :
    Upholds S P t i u k n n' (move S k (.net o) r) := by
  obtain ⟨h, made⟩ := k
  cases o with
  | connect timed =>
    obtain rfl : h = .empty := hd
    rcases Net.perform_connect hp with ⟨rfl, rfl⟩ | ⟨hr, rfl⟩
    · refine ⟨⟨_, rfl, ⟨hh, ⟨Nat.lt_succ_self _, ?_⟩, ?_⟩, id⟩, spares_dial .., fun _ _ => rfl⟩
      · rw [Net.dial_conns_self]
        rfl
      · rw [Net.dial_conns_self]
        exact settled_fresh i
    · refine ⟨⟨⟨.empty, made⟩, ?_, hh, id⟩, Spares.refl .., fun _ _ => rfl⟩
      match r, hr with
      | .inTime (.ok c), hr => exact absurd rfl (hr c)
      | .inTime (.error _), _ => rfl
      | .elapsed, _ => rfl
  | split c =>
    obtain rfl := Net.perform_split hp
    rcases hd with rfl | rfl
    · obtain ⟨hnone, howns, hset⟩ := hh
      refine ⟨⟨_, rfl, ⟨hnone, owns_modify howns fun _ => rfl, ?_⟩, id⟩, spares_modify howns _,
        fun _ _ => rfl⟩
      rw [Net.modify_self]
      exact hset.split
    · obtain ⟨hsome, howns, fs, hset⟩ := hh
      refine ⟨⟨_, rfl, ⟨hsome, owns_modify howns fun _ => rfl, fs, ?_⟩, id⟩, spares_modify howns _,
        fun _ _ => rfl⟩
      rw [Net.modify_self]
      exact hset.split
  | write c msgType payload =>
    rcases hd with ⟨rfl, rfl⟩ | ⟨rfl, q, hq, rfl, rfl⟩
    · obtain ⟨hnone, howns, hset⟩ := hh
      rcases Net.perform_write hp with ⟨-, rfl, rfl⟩ | ⟨hfits, rfl, rfl⟩ | ⟨-, ⟨text, rfl⟩, out, rfl⟩
      · exact ⟨⟨_, rfl, hnone, id⟩, Spares.refl .., fun _ _ => rfl⟩
      · refine ⟨⟨_, rfl, ⟨hnone, owns_modify howns fun _ => rfl, payload, ?_⟩, id⟩,
          spares_modify howns _, fun _ _ => rfl⟩
        rw [Net.modify_self]
        exact hset.send hfits
      · exact ⟨⟨_, rfl, hnone, id⟩, spares_modify howns _, fun _ _ => rfl⟩
    · obtain ⟨hsome, howns, fs, hset⟩ := hh
      have hspoiled {n : Net} (h : Owns n i c) : Holds S P i u n .spoiled := fun d hd => by
        obtain rfl := Option.some.inj (hd.symm.trans hsome)
        exact h
      rcases Net.perform_write hp with ⟨-, rfl, rfl⟩ | ⟨hfits, rfl, rfl⟩ | ⟨-, ⟨text, rfl⟩, out, rfl⟩
      · exact ⟨⟨_, rfl, hspoiled howns, id⟩, Spares.refl .., fun _ _ => rfl⟩
      · refine ⟨⟨_, ⟨q, hq, rfl⟩, ⟨hsome, owns_modify howns fun _ => rfl, fs, ?_⟩, id⟩,
          spares_modify howns _, fun _ _ => rfl⟩
        rw [Net.modify_self]
        exact hset.send hfits
      · exact ⟨⟨_, rfl, hspoiled (owns_modify howns fun _ => rfl), id⟩, spares_modify howns _,
          fun _ _ => rfl⟩
  | read c timed =>
    have hgot : (n.conns c).taken ++ choice.got <+: P.stream c (n.conns c).written := hsends
    rcases hd with rfl | ⟨q, rfl⟩
    · obtain ⟨hnone, howns, payload, hpend⟩ := hh
      rcases Net.perform_read hp with ⟨f, rest, hread, rfl, rfl⟩ | ⟨hr, ahead, rfl⟩
      · obtain ⟨g, hans, hg⟩ : ∃ g, P.answers c [] ⟨msgHandshake, payload⟩ = [g] ∧ Fits g := by
          cases hans : P.answers c [] ⟨msgHandshake, payload⟩ with
          | nil =>
            rw [hpend.silent hans hgot] at hread
            cases hread
          | cons g gs => exact ⟨g, hans ▸ echo.greets c [] payload g (hans ▸ List.mem_cons_self ..)⟩
        obtain ⟨hmsg, hset⟩ := hpend.read hans hg hgot (by rw [hread]; nofun)
        obtain ⟨rfl, rfl⟩ := Read.message.inj (hread.symm.trans hmsg)
        refine ⟨⟨_, rfl, ⟨hnone, owns_modify howns fun _ => rfl, [⟨msgHandshake, payload⟩], ?_⟩, id⟩,
          spares_modify howns _, fun _ _ => rfl⟩
        rw [Net.modify_self]
        exact hset
      · refine ⟨⟨⟨.empty, made⟩, ?_, hnone, id⟩, spares_modify howns _, fun _ _ => rfl⟩
        match r, hr with
        | .inTime (.ok f), hr => exact absurd rfl (hr f)
        | .inTime (.error _), _ => rfl
        | .elapsed, _ => rfl
    · obtain ⟨hsome, howns, fs, hpend⟩ := hh
      obtain ⟨response, hans, hfits, hid⟩ := echo.echoes c fs q (hpend.fits _ (by simp))
      rcases Net.perform_read hp with ⟨f, rest, hread, rfl, rfl⟩ | ⟨hr, ahead, rfl⟩
      · obtain ⟨hmsg, hset⟩ := hpend.read hans hfits hgot (by rw [hread]; nofun)
        obtain ⟨rfl, rfl⟩ := Read.message.inj (hread.symm.trans hmsg)
        refine ⟨⟨_, ⟨rfl, response, rfl, hid⟩,
          ⟨hsome, owns_modify howns fun _ => rfl, fs ++ [⟨msgRequest, S.toVec q⟩], ?_⟩, id⟩,
          spares_modify howns _, fun _ _ => rfl⟩
        rw [Net.modify_self]
        exact hset
      · refine ⟨⟨⟨.spoiled, made⟩, ?_, fun d hd => ?_, id⟩, spares_modify howns _, fun _ _ => rfl⟩
        swap
        · obtain rfl := Option.some.inj (hd.symm.trans hsome)
          exact owns_modify howns fun _ => rfl
        match r, hr with
        | .inTime (.ok f), hr => exact absurd rfl (hr f)
        | .inTime (.error _), _ => rfl
        | .elapsed, _ => rfl
  | newRequest service method payload =>
    obtain rfl := Net.perform_newRequest hp
    refine ⟨⟨_, rfl, ?_, fun hmade => ?_⟩, spares_create i n t r, fun t' ht => ?_⟩
    · cases h <;> exact hh
    · show made ++ [r] = Function.update n.created t _ t
      rw [Function.update_self, ← hmade]
    · exact Function.update_of_ne ht ..

/-- An operation on the client's own fields moves the knowledge, too. -/
theorem own_upholds {i : Nat} {u u' : UdsClient} {n : Net} {k : Known} {o : Op} {choice : Choice}
    {r : Fields.Ret o} (hh : Holds S P i u n k.held) (hd : demand S k (.own o))
    (hp : UdsClient.perform o choice u = some (r, u')) :
    ∃ k', move S k (.own o) r k' ∧ Holds S P i u' n k'.held ∧ k'.made = k.made := by
  obtain ⟨h, made⟩ := k
  have hkept (hstream : u'.stream = u.stream) : Holds S P i u' n h := by
    cases h <;> simpa only [Holds, hstream] using hh
  cases o with
  | stream =>
    cases choice <;> simp [UdsClient.perform] at hp
    obtain ⟨rfl, rfl⟩ := hp
    cases hs : u.stream with
    | none => exact ⟨_, rfl, hs, rfl⟩
    | some c => exact ⟨_, rfl, ⟨hs, hh.resting hd c hs⟩, rfl⟩
  | setStream s =>
    cases choice <;> simp [UdsClient.perform] at hp
    subst hp
    cases s with
    | none => exact ⟨_, rfl, rfl, rfl⟩
    | some c =>
      obtain rfl : h = .greeted c := hd
      exact ⟨_, rfl, ⟨rfl, hh.2⟩, rfl⟩
  | setConnected b =>
    cases choice <;> simp [UdsClient.perform] at hp
    subst hp
    exact ⟨_, rfl, hkept rfl, rfl⟩
  | setSession id =>
    cases choice <;> simp [UdsClient.perform] at hp
    subst hp
    exact ⟨_, rfl, hkept rfl, rfl⟩
  | panic => exact hd.elim

end

end UdsClient

end XProtocol
