import XProtocol.Async.Inevitable
import XProtocol.Client.Concurrent

/-! Shared clients that nothing hinders.

The peer accepts every greeting and answers every proper request with a response
(`Obliging`); nothing fails on the network, and no timer fires. A client then says on its
connections what such a peer answers, a greeting and proper requests behind it (`Courtesy`),
whoever takes turns with it. So whoever holds it is told at each operation that it has gone
through (`toldAt`), every call returns a response (`call_surely`), and who waits for an answer
does not wait in vain (`unhindered_moves`). -/
namespace XProtocol
open Async
open Json (Value Codec)
open Wire

/-! ### The answer arrives -/

/-- Of the one message that arrives, no less can be read. -/
theorem readMessage_part {g : Frame} (hg : Fits g) {bytes : Json.Bytes} (hbytes : bytes <+: encode g)
    (hread : readMessage bytes ≠ .short) : readMessage bytes = .message g [] := by
  obtain ⟨more, hmore⟩ := hbytes
  have hall := readMessage_encode_self hg
  cases hr : readMessage bytes with
  | short => exact absurd hr hread
  | invalid len rest =>
    have hlonger := readMessage_invalid_append hr more
    rw [hmore, hall] at hlonger
    cases hlonger
  | message g' rest =>
    have hlonger := readMessage_append hr more
    rw [hmore, hall] at hlonger
    obtain ⟨rfl, hnil⟩ := Read.message.inj hlonger
    rw [(List.append_eq_nil_iff.mp hnil.symm).1]

section Due
variable {P : Peer} {c : ConnId} {conn : Conn} {before : List Frame} {f g : Frame}

theorem Due.stream_eq (h : Due P c conn before f []) (hans : P.answers c before f = [g]) :
    conn.ahead <+: encode g ∧ conn.taken = encodeAll (P.replies c before) ++ conn.ahead ∧
      P.stream c conn.written = encodeAll (P.replies c before) ++ encode g := by
  obtain ⟨more, hmore, hahead⟩ := h.left
  rw [hans, List.nil_append] at hmore
  rw [← hmore, encodeAll_single] at hahead
  refine ⟨hahead, by rw [h.taken, List.append_nil], ?_⟩
  rw [h.written, P.stream_encodeAll c h.fits, P.replies_snoc, hans, encodeAll_append, encodeAll_single]

/-- A read that completes takes the answer. -/
theorem Due.arrives (h : Due P c conn before f []) (hans : P.answers c before f = [g]) (hg : Fits g)
    {bytes : Json.Bytes} (hbytes : conn.taken ++ bytes <+: P.stream c conn.written)
    (hread : readMessage (conn.ahead ++ bytes) ≠ .short) :
    readMessage (conn.ahead ++ bytes) = .message g [] := by
  obtain ⟨-, htaken, hstream⟩ := h.stream_eq hans
  rw [htaken, hstream, List.append_assoc, List.prefix_append_right_inj] at hbytes
  exact readMessage_part hg hbytes hread

/-- And it can complete. -/
theorem Due.awaited (h : Due P c conn before f []) (hans : P.answers c before f = [g]) (hg : Fits g) :
    ∃ bytes, conn.taken ++ bytes <+: P.stream c conn.written ∧ readMessage (conn.ahead ++ bytes) = .message g [] := by
  obtain ⟨⟨bytes, hbytes⟩, htaken, hstream⟩ := h.stream_eq hans
  refine ⟨bytes, ⟨[], ?_⟩, hbytes ▸ readMessage_encode_self hg⟩
  rw [List.append_nil, htaken, hstream, List.append_assoc, hbytes]

end Due

/-! ### An obliging peer -/

namespace UdsClient

/-- The message that asks for a call. -/
def asking (S : Codec) (request : ServiceRequest) : Frame := ⟨msgRequest, S.toVec request⟩

section
variable (S : Codec) (Proper : ServiceRequest → Prop)

/-- A greeting, and proper requests behind it. -/
def Courteous (fs : List Frame) : Prop :=
  ∃ requests : List ServiceRequest, (∀ r ∈ requests, Proper r) ∧ fs = hello S :: requests.map (asking S)

/-- A response to a request. -/
def Responds (f : Frame) : Prop :=
  f.msgType = msgResponse ∧ ∃ response : ServiceResponse, S.fromSlice f.payload = some response

/-- The peer accepts a greeting, and answers a proper request with a response. -/
structure Obliging (P : Peer) : Prop where
  whole : P.Whole
  hello : Fits (hello S)
  asked : ∀ request, Proper request → Fits (asking S request)
  greets : ∀ c, ∃ g, P.answers c [] (UdsClient.hello S) = [g] ∧ Accepts S g
  responds : ∀ c before request, Courteous S Proper before → Proper request →
    ∃ g, P.answers c before (asking S request) = [g] ∧ Responds S g

/-- What is said on a connection: the greeting before it is the client's stream, requests after. -/
def Says : (stored : Bool) → (before : List Frame) → Frame → Prop
  | false, before, f => before = [] ∧ f = hello S
  | true, _, f => ∃ request, Proper request ∧ f = asking S request

/-- What is answered to that. -/
def Suits : (stored : Bool) → Frame → Prop
  | false => Accepts S
  | true => Responds S

/-- The requests of a call are proper, whatever uuids they draw. -/
def Apt (service method : String) (payload : Value) : Prop :=
  ∀ requestId correlationId : String, requestId.utf8ByteSize = 36 → correlationId.utf8ByteSize = 36 →
    Proper (.new requestId correlationId service method payload)

/-- What a client's holder owes, so that nothing goes wrong. -/
def owesAt (k : Grasp) : NetOp Fields → Prop
  | .net (.write c msgType payload) => ∀ stored before, k.stage = .ready stored c before →
    Says S Proper stored before ⟨msgType, payload⟩
  | .net (.read c _) => ∃ stored before f, k.stage = .amid stored c before f [] ∧ Says S Proper stored before f
  | .net (.newRequest service method payload) => Apt Proper service method payload
  | .own (.setStream (some c)) => ∃ got, k.stage = .amid false c [] (hello S) got
  | .own .panic => False
  | _ => True

/-- What it is told in return. -/
def toldAt (k : Grasp) : (o : NetOp Fields) → (NetWith Fields).Ret o → Prop
  | .net (.connect _), r => ∃ c, r = .inTime (.ok c)
  | .net (.write ..), r => r = .ok ()
  | .net (.read c _), r => ∃ g, r = .inTime (.ok g) ∧
    ∀ stored before f got, k.stage = .amid stored c before f got → Suits S stored g
  | .net (.newRequest ..), r => Proper r
  | .own .stream, r => ∀ c before, k.stage = .ready true c before → r = some c
  | _, _ => True

/-- The discipline of a client's holder where nothing goes wrong. -/
def surely (P : Peer) : Discipline (NetWith Fields) Grasp := (progress P).sharpen (owesAt S Proper) (toldAt S Proper)

end

variable {S : Codec} {Proper : ServiceRequest → Prop} {P : Peer}

theorem Courteous.ask {fs : List Frame} (h : Courteous S Proper fs) {request : ServiceRequest} (hr : Proper request) :
    Courteous S Proper (fs ++ [asking S request]) := by
  obtain ⟨requests, hall, rfl⟩ := h
  refine ⟨requests ++ [request], fun r hmem => ?_, by simp⟩
  rcases List.mem_append.mp hmem with hmem | hmem
  · exact hall r hmem
  · exact List.mem_singleton.mp hmem ▸ hr

/-- Before a request there was a greeting. -/
theorem Courteous.before {before : List Frame} {request : ServiceRequest}
    (h : Courteous S Proper (before ++ [asking S request])) : Courteous S Proper before := by
  obtain ⟨requests, hall, heq⟩ := h
  rcases List.eq_nil_or_concat requests with rfl | ⟨init, last, rfl⟩
  · have hone : before ++ [asking S request] = [] ++ [hello S] := heq
    have hlast : asking S request = hello S := List.singleton_inj.mp (List.append_inj' hone rfl).2
    exact absurd (congrArg Frame.msgType hlast) (by simp [asking, hello, msgRequest, msgHandshake])
  · rw [List.concat_eq_append, List.map_append, ← List.cons_append] at heq
    refine ⟨init, fun r hr => hall r (by simp [hr]), (List.append_inj' heq rfl).1⟩

/-- Who speaks as is owed is answered as suits. -/
theorem Obliging.answers (h : Obliging S Proper P) {stored : Bool} {c : ConnId} {before : List Frame} {f : Frame}
    (hsaid : Says S Proper stored before f) (hsent : Courteous S Proper (before ++ [f])) :
    ∃ g, P.answers c before f = [g] ∧ Suits S stored g := by
  cases stored with
  | false =>
    obtain ⟨rfl, rfl⟩ := hsaid
    exact h.greets c
  | true =>
    obtain ⟨request, hproper, rfl⟩ := hsaid
    exact h.responds c before request hsent.before hproper

/-! ### The methods -/

section Methods
variable {k : Grasp} {c : ConnId} {before : List Frame}

theorem Says.type {stored : Bool} {f : Frame} (h : Says S Proper stored before f) : f.msgType ≠ msgStreamRequest := by
  cases stored with
  | false =>
    obtain ⟨-, rfl⟩ := h
    exact (by decide : msgHandshake ≠ msgStreamRequest)
  | true =>
    obtain ⟨request, -, rfl⟩ := h
    exact (by decide : msgRequest ≠ msgStreamRequest)

/-- A message goes out, and its answer comes back. -/
theorem exchange_surely (hP : P.Whole) {α : Type} {stored : Bool} {p : Frame → Code α} {Q : Grasp → α → Prop}
    {R : Grasp → ProtocolError → Prop} (hk : k.stage = .ready stored c before) {msgType : UInt8} {payload : Json.Bytes}
    (hsaid : Says S Proper stored before ⟨msgType, payload⟩)
    (hp : ∀ k' g, Suits S stored g → k'.stage = .amid stored c before ⟨msgType, payload⟩ [g] →
      P.answers c before ⟨msgType, payload⟩ = [g] → Meets (surely S Proper P) (p g) Q R k') :
    Meets (surely S Proper P) ((.write c msgType payload : Code Unit) >>= fun _ => (.readTimed c : Code Frame) >>= p) Q
      R k := by
  rw [meets_bind, Code.meets_write]
  have howes : owesAt S Proper k (.net (.write c msgType payload)) := by
    intro stored' before' hstage
    cases hk.symm.trans hstage
    exact hsaid
  refine ⟨⟨⟨_, _, hk⟩, howes⟩, ?_⟩
  rintro r k₁ ⟨⟨stored', before', hstage, hm⟩, htold⟩
  cases hk.symm.trans hstage
  obtain rfl : r = .ok () := htold
  obtain rfl := hm
  rw [ends_ok, meets_bind, Code.meets_readTimed]
  refine ⟨⟨⟨_, _, _, _, rfl⟩, _, _, _, rfl, hsaid⟩, ?_⟩
  rintro r k₂ ⟨⟨stored', before', f, got, hstage, hm⟩, g, rfl, hsuits⟩
  cases hstage
  obtain ⟨rfl, more, hans⟩ := hm
  exact hp _ g (hsuits _ _ _ _ rfl) rfl (whole_only hP hsaid.type hans)

theorem dial_surely (hk : k.stage = .absent) :
    Meets (surely S Proper P) dial (fun k' c => k'.stage = .ready false c []) (fun _ _ => False) k := by
  unfold dial
  rw [meets_bind]
  refine (Code.meets_net (.connect true) _).mpr ⟨⟨hk, trivial⟩, ?_⟩
  rintro r k' ⟨hm, c, rfl⟩
  obtain rfl := hm
  rfl

theorem split_surely {stored : Bool} {Q : Grasp → Unit → Prop} {R : Grasp → ProtocolError → Prop}
    (hk : k.stage = .ready stored c before) (hQ : Q k ()) : Meets (surely S Proper P) (.split c : Code Unit) Q R k := by
  refine (Code.meets_net (.split c) _).mpr ⟨⟨⟨_, _, hk⟩, trivial⟩, ?_⟩
  rintro _ _ ⟨hm, -⟩
  obtain rfl := hm
  exact hQ

theorem connect_surely (hP : P.Whole) (hk : k.stage = .absent) :
    Meets (surely S Proper P) (connect S) (fun k' _ => ∃ c before, k'.stage = .ready true c before)
      (fun _ _ => False) k := by
  unfold connect
  rw [meets_bind]
  refine meets_mono (dial_surely hk) (fun k c hk => ?_) fun _ _ h => h
  rw [meets_bind]
  refine split_surely hk ?_
  refine exchange_surely hP hk ⟨rfl, rfl⟩ fun k g haccepts hk hans => ?_
  obtain ⟨htype, response, hdecoded, hsuccess⟩ := haccepts
  rw [if_neg (by simp [htype]), meets_bind, Code.meets_decode, hdecoded]
  show Meets _ (ite _ _ _) _ _ _
  rw [if_neg (by simp [hsuccess]), meets_bind]
  refine (meets_own (.setSession _) _).mpr ⟨⟨trivial, trivial⟩, ?_⟩
  rintro _ k ⟨rfl, -⟩
  rw [meets_bind]
  refine (meets_own (.setConnected _) _).mpr ⟨⟨trivial, trivial⟩, ?_⟩
  rintro _ k ⟨rfl, -⟩
  have hans : k.stage = .amid false c [] (hello S) (P.answers c [] (hello S)) := hk.trans (congrArg _ hans.symm)
  refine (meets_own (.setStream _) _).mpr ⟨⟨⟨_, _, hans⟩, _, hk⟩, ?_⟩
  rintro _ _ ⟨⟨before, hm⟩, -⟩
  obtain rfl := hm
  exact ⟨c, before, rfl⟩

theorem held_surely (hk : k.stage = .ready true c before) :
    Meets (surely S Proper P) held (fun k' c => ∃ before, k'.stage = .ready true c before) (fun _ _ => False) k := by
  unfold held
  rw [meets_bind]
  have hrests : k.stage.Rests P := by
    rw [hk]
    trivial
  refine (meets_own .stream _).mpr ⟨⟨hrests, trivial⟩, ?_⟩
  rintro r k' ⟨hm, htold⟩
  obtain rfl := htold c before hk
  obtain ⟨before, rfl⟩ := hm
  exact ⟨before, rfl⟩

theorem doCallInternal_surely (hP : P.Whole) {service method : String} {payload : Value}
    (happly : Apt Proper service method payload) (hk : k.stage = .ready true c before) :
    Meets (surely S Proper P) (doCallInternal S service method payload) (fun _ _ => True) (fun _ _ => False) k := by
  unfold doCallInternal
  rw [meets_bind]
  refine meets_mono (held_surely hk) ?_ fun _ _ h => h
  rintro k c ⟨before, hk⟩
  rw [meets_bind]
  refine split_surely hk ?_
  rw [meets_bind]
  refine (Code.meets_net (.newRequest service method payload) _).mpr ⟨⟨trivial, happly⟩, ?_⟩
  rintro request _ ⟨⟨rfl, -⟩, htold⟩
  have hproper : Proper request := htold
  refine exchange_surely (k := { k with made := k.made ++ [request] }) hP hk ⟨request, hproper, rfl⟩
    fun k g hresponds _ _ => ?_
  obtain ⟨htype, response, hdecoded⟩ := hresponds
  rw [if_neg (by simp [htype]), Code.meets_decode, hdecoded]
  trivial

/-- **A call returns a response.** -/
theorem call_surely (hP : P.Whole) {service method : String} {payload : Value}
    (happly : Apt Proper service method payload) (hk : k.stage.Rests P) :
    Meets (surely S Proper P) (call S service method payload) (fun _ _ => True) (fun _ _ => False) k := by
  have hexchange {k : Grasp} {c : ConnId} {before : List Frame} (hk : k.stage = .ready true c before) :
      Meets (surely S Proper P) (tryCatch (doCallInternal S service method payload) fun e => do
        setConnected false
        setStream none
        throw e) (fun _ _ => True) (fun _ _ => False) k :=
    meets_tryCatch.mpr (meets_mono (doCallInternal_surely hP happly hk) (fun _ _ h => h) fun _ _ h => h.elim)
  unfold call request
  rw [meets_bind]
  refine (meets_own .stream _).mpr ⟨⟨hk, trivial⟩, ?_⟩
  rintro r k' ⟨hm, -⟩
  cases r with
  | some c =>
    obtain ⟨before, rfl⟩ := hm
    exact hexchange rfl
  | none =>
    obtain rfl := hm
    show Meets _ (_ >>= _) _ _ _
    rw [meets_bind]
    refine meets_mono (connect_surely hP rfl) ?_ fun _ _ h => h
    rintro k _ ⟨c, before, hk⟩
    exact hexchange hk

theorem close_surely : Meets (surely S Proper P) close (fun _ _ => True) (fun _ _ => True) k := by
  unfold close
  rw [meets_bind]
  refine (meets_own (.setConnected false) _).mpr ⟨⟨trivial, trivial⟩, fun _ _ _ => ?_⟩
  rw [meets_bind]
  refine (meets_own (.setSession none) _).mpr ⟨⟨trivial, trivial⟩, fun _ _ _ => ?_⟩
  exact (meets_own (.setStream none) _).mpr ⟨⟨trivial, trivial⟩, fun _ _ _ => trivial⟩

end Methods

/-! ### One operation -/

/-- The uuids that a request draws have 36 bytes. -/
def Drawn : NetOp Fields → Choice → Prop
  | .net (.newRequest ..), .uuids requestId correlationId =>
    requestId.utf8ByteSize = 36 ∧ correlationId.utf8ByteSize = 36
  | _, _ => True

/-- What was said on a connection, if anything, was courteous. -/
def Spoken (S : Codec) (Proper : ServiceRequest → Prop) (conn : Conn) : Prop :=
  conn.sentOn = [] ∨ Courteous S Proper conn.sentOn

theorem Says.fits (hP : Obliging S Proper P) {stored : Bool} {before : List Frame} {f : Frame}
    (h : Says S Proper stored before f) : Fits f := by
  cases stored with
  | false =>
    obtain ⟨-, rfl⟩ := h
    exact hP.hello
  | true =>
    obtain ⟨request, hproper, rfl⟩ := h
    exact hP.asked request hproper

theorem spoken_passive : Passive (Spoken S Proper) where
  fresh _ := .inl rfl
  split _ h := h
  take _ _ _ h := h
  receive conn f h := by
    unfold Spoken
    rwa [sentOn_receive]

section Operations
variable {t i : Nat} {u : UdsClient} {n n' : Net} {k : Grasp} {o : Net.Op} {choice : Choice} {r : o.Ret}

/-- What is answered to the message that the holder waits for. -/
theorem answer_due (hP : Obliging S Proper P) (hh : HoldsAt P i u n k.stage)
    (hspoken : ∀ c, Spoken S Proper (n.conns c))
    {c : ConnId} {stored : Bool} {before : List Frame} {f : Frame} (hstage : k.stage = .amid stored c before f [])
    (hsaid : Says S Proper stored before f) :
    ∃ g, P.answers c before f = [g] ∧ Suits S stored g ∧ Fits g ∧ Due P c (n.conns c) before f [] := by
  rw [hstage] at hh
  obtain ⟨-, -, hdue, hsent⟩ := hh
  have hcourteous : Courteous S Proper (before ++ [f]) := hsent ▸ (hspoken c).resolve_left (by simp [hsent])
  obtain ⟨g, hans, hsuits⟩ := hP.answers hsaid hcourteous
  exact ⟨g, hans, hsuits, hP.whole.fits c before f g (by simp [hans]), hdue⟩

/-- **What goes through is told.** -/
theorem net_told (hP : Obliging S Proper P) (hh : HoldsAt P i u n k.stage) (hspoken : ∀ c, Spoken S Proper (n.conns c))
    (hd : demandAt P k (.net o)) (howes : owesAt S Proper k (.net o)) (hsmooth : Smooth P ⟨u, n⟩ (.net o) choice)
    (hdrawn : Drawn (.net o) choice) (hp : n.perform t i o choice = some (r, n')) : toldAt S Proper k (.net o) r := by
  cases o with
  | connect timed =>
    cases choice <;> first | exact hsmooth.elim | skip
    cases hp
    exact ⟨_, rfl⟩
  | split c => trivial
  | write c msgType payload =>
    cases choice <;> first | exact hsmooth.elim | skip
    obtain ⟨stored, before, hstage⟩ := hd
    simp only [Net.perform, writeMessage_of_fits ((howes stored before hstage).fits hP)] at hp
    cases hp
    rfl
  | read c timed =>
    cases choice with
    | arrive got =>
      obtain ⟨stored, before, f, hstage, hsaid⟩ := howes
      obtain ⟨g, hans, hsuits, hfits, hdue⟩ := answer_due hP hh hspoken hstage hsaid
      have hshort : readMessage ((n.conns c).ahead ++ got) ≠ .short := by
        intro hshort
        simp [Net.perform, hshort] at hp
      have hread : readMessage ((n.conns c).ahead ++ got) = .message g [] := hdue.arrives hans hfits hsmooth hshort
      simp only [Net.perform, hread] at hp
      cases hp
      refine ⟨g, rfl, fun stored' before' f' got' hstage' => ?_⟩
      cases hstage.symm.trans hstage'
      exact hsuits
    | _ => exact hsmooth.elim
  | newRequest service method payload =>
    cases choice <;> first | exact hsmooth.elim | skip
    cases hp
    exact howes _ _ hdrawn.1 hdrawn.2

/-- **What is said stays courteous.** -/
theorem net_spoken (hh : HoldsAt P i u n k.stage) (hspoken : ∀ c, Spoken S Proper (n.conns c))
    (hstream : ∀ c, u.stream = some c → (n.conns c).sentOn ≠ []) (hd : demandAt P k (.net o))
    (howes : owesAt S Proper k (.net o)) (hp : n.perform t i o choice = some (r, n')) (c : ConnId) :
    Spoken S Proper (n'.conns c) := by
  refine perform_each spoken_passive hspoken ?_ hp c
  rintro c msgType payload bytes rfl - -
  obtain ⟨stored, before, hstage⟩ := hd
  have hsaid := howes stored before hstage
  rw [hstage] at hh
  obtain ⟨hstored, -, hclear⟩ := hh
  unfold Spoken
  rw [sentOn_send]
  cases stored with
  | false =>
    obtain ⟨rfl, hhello⟩ := hsaid
    rw [hclear.sent, hhello]
    exact .inr ⟨[], nofun, rfl⟩
  | true =>
    obtain ⟨request, hproper, hasking⟩ := hsaid
    rw [hasking]
    exact .inr (((hspoken c).resolve_left (hstream c hstored)).ask hproper)

/-- **What is waited for can go through.** -/
theorem net_unhindered (hP : Obliging S Proper P) (hh : HoldsAt P i u n k.stage)
    (hspoken : ∀ c, Spoken S Proper (n.conns c))
    (howes : owesAt S Proper k (.net o)) :
    ∃ choice x, (Smooth P ⟨u, n⟩ (.net o) choice ∧ Drawn (.net o) choice) ∧ n.perform t i o choice = some x := by
  cases o with
  | connect timed => exact ⟨.go, _, ⟨trivial, trivial⟩, rfl⟩
  | split c => exact ⟨.go, _, ⟨trivial, trivial⟩, rfl⟩
  | write c msgType payload =>
    cases hw : writeMessage msgType payload with
    | error e => exact ⟨.go, _, ⟨trivial, trivial⟩, by simp only [Net.perform, hw]; rfl⟩
    | ok bytes => exact ⟨.go, _, ⟨trivial, trivial⟩, by simp only [Net.perform, hw]; rfl⟩
  | read c timed =>
    obtain ⟨stored, before, f, hstage, hsaid⟩ := howes
    obtain ⟨g, hans, -, hfits, hdue⟩ := answer_due hP hh hspoken hstage hsaid
    obtain ⟨bytes, hbytes, hread⟩ := hdue.awaited hans hfits
    exact ⟨.arrive bytes, _, ⟨hbytes, trivial⟩, by simp only [Net.perform, hread]; rfl⟩
  | newRequest service method payload =>
    exact ⟨.uuids "00000000-0000-4000-8000-000000000000" "00000000-0000-4000-8000-000000000000", _,
      ⟨trivial, by decide, by decide⟩, rfl⟩

end Operations

end UdsClient

/-! ### Clients behind their mutexes -/

namespace SharedUdsClient
open UdsClient (Grasp Stage HoldsAt Obliging Apt Spoken Smooth Drawn surely owesAt toldAt)

/-- What was said on each connection was courteous, and a client's stream has been greeted. -/
structure Courtesy (S : Codec) (Proper : ServiceRequest → Prop) (w : Clients) : Prop where
  spoken : ∀ c, Spoken S Proper (w.net.conns c)
  greeted : ∀ i c, (w.client i).stream = some c → c < w.net.opened ∧ (w.net.conns c).sentOn ≠ []

/-- Nothing goes wrong at the operation. -/
def UnhinderedAt (P : Peer) (w : Clients) (i : Nat) : Op → Choice → Prop
  | .inner o, choice => Smooth P ⟨w.client i, w.net⟩ o choice ∧ Drawn o choice
  | _, _ => True

section
variable (S : Codec) (Proper : ServiceRequest → Prop) (i : Nat)

def owesIn (k : Party) : Op → Prop
  | .inner o => ∀ stage, k.inside = some (i, stage) → owesAt S Proper (k.grasp stage) o
  | _ => True

def toldIn (k : Party) : (o : Op) → Calls.Ret o → Prop
  | .inner o, r => ∀ stage, k.inside = some (i, stage) → toldAt S Proper (k.grasp stage) o r
  | _, _ => True

/-- The discipline of client `i`'s callers where nothing goes wrong. -/
def surelyTaking (P : Peer) : Discipline Calls Party := (taking P i).sharpen (owesIn S Proper i) (toldIn S Proper i)

end

section
variable {S : Codec} {Proper : ServiceRequest → Prop} {P : Peer} {w w' : Clients} {γ : Nat → Party} {t i : Nat}
  {k : Party}

theorem courtesy_new : Courtesy S Proper .new where
  spoken _ := .inl rfl
  greeted _ _ h := nomatch h

/-- A stream that was greeted stays so. -/
theorem greeted_grows {n n' : Net} (h : n.Grows n') {c : ConnId} (hc : c < n.opened ∧ (n.conns c).sentOn ≠ []) :
    c < n'.opened ∧ (n'.conns c).sentOn ≠ [] := by
  refine ⟨Nat.lt_of_lt_of_le hc.1 h.opened, fun hnil => hc.2 ?_⟩
  have hsent : (n.conns c).sentOn <+: (n'.conns c).sentOn := (h.log c hc.1).filterMap _
  exact List.prefix_nil.mp (hnil ▸ hsent)

/-- **An operation that nothing hinders is told to its caller**, and keeps the courtesy. -/
theorem perform_told (hP : Obliging S Proper P) (hapart : Apart P w γ) (hw : Courtesy S Proper w) {o : Op}
    {choice : Choice} {r : Calls.Ret o} (hd : demandIn P i (γ t) o) (howes : owesIn S Proper i (γ t) o)
    (hsmooth : UnhinderedAt P w i o choice) (hstep : w.perform t i o choice = some (r, w')) :
    toldIn S Proper i (γ t) o r ∧ Courtesy S Proper w' := by
  cases o with
  | lock =>
    cases choice <;> simp [Clients.perform] at hstep
    obtain ⟨-, rfl⟩ := hstep
    exact ⟨trivial, hw.spoken, hw.greeted⟩
  | unlock =>
    cases choice <;> simp [Clients.perform] at hstep
    subst hstep
    exact ⟨trivial, hw.spoken, hw.greeted⟩
  | inner o =>
    obtain ⟨stage, hin, hd⟩ := hd
    have howes := howes stage hin
    have hholds : HoldsAt P i (w.client i) w.net ((γ t).grasp stage).stage := hapart.sheltered.holds hin
    have hstages {R : Stage → Prop} (h : R stage) : ∀ stage', (γ t).inside = some (i, stage') → R stage' := by
      intro stage' hin'
      cases hin.symm.trans hin'
      exact h
    cases o with
    | net o =>
      simp only [Clients.perform, Option.map_eq_some_iff] at hstep
      obtain ⟨⟨r', n⟩, hn, hstep⟩ := hstep
      obtain ⟨rfl, rfl⟩ := Prod.mk.inj hstep
      refine ⟨hstages (UdsClient.net_told hP hholds hw.spoken hd howes hsmooth.1 hsmooth.2 hn),
        UdsClient.net_spoken hholds hw.spoken (fun c hc => (hw.greeted i c hc).2) hd howes hn, fun j c hc => ?_⟩
      exact greeted_grows (perform_grows hn) (hw.greeted j c hc)
    | own o =>
      simp only [Clients.perform, Option.map_eq_some_iff] at hstep
      obtain ⟨⟨r', u⟩, hu, hstep⟩ := hstep
      obtain ⟨rfl, rfl⟩ := Prod.mk.inj hstep
      have hcourtesy (hstream : ∀ c, u.stream = some c → c < w.net.opened ∧ (w.net.conns c).sentOn ≠ []) :
          Courtesy S Proper (w.setClient i u) := by
        refine ⟨hw.spoken, fun j c hc => ?_⟩
        by_cases hj : j = i
        · subst hj
          rw [show (w.setClient j u).client j = u from Function.update_self ..] at hc
          exact hstream c hc
        · rw [show (w.setClient i u).client j = w.client j from Function.update_of_ne hj ..] at hc
          exact hw.greeted j c hc
      have hgo : choice = .go := by cases o <;> cases choice <;> first | rfl | cases hu
      subst hgo
      cases o with
      | stream =>
        cases hu
        refine ⟨hstages fun c before hstage => ?_, hcourtesy (hw.greeted i)⟩
        rw [hstage] at hholds
        exact hholds.1
      | setStream s =>
        cases hu
        refine ⟨hstages trivial, hcourtesy fun c hc => ?_⟩
        obtain rfl : s = some c := hc
        obtain ⟨got, hstage⟩ := howes
        rw [hstage] at hholds
        exact ⟨hholds.2.1.1, by simp [hholds.2.2.2]⟩
      | panic => cases hu
      | _ =>
        cases hu
        exact ⟨hstages trivial, hcourtesy (hw.greeted i)⟩

/-- **Who can move can move unhindered.** -/
theorem unhindered_moves (hP : Obliging S Proper P) (hapart : Apart P w γ) (hw : Courtesy S Proper w) {o : Op}
    (hd : demandIn P i (γ t) o) (howes : owesIn S Proper i (γ t) o)
    (hcan : ∃ choice x, w.perform t i o choice = some x) :
    ∃ choice x, UnhinderedAt P w i o choice ∧ w.perform t i o choice = some x := by
  obtain ⟨choice, x, hx⟩ := hcan
  cases o with
  | lock | unlock => exact ⟨choice, x, trivial, hx⟩
  | inner o =>
    cases o with
    | own o =>
      have hgo : choice = .go := by
        obtain ⟨y, hy, -⟩ := Option.map_eq_some_iff.mp hx
        cases o <;> cases choice <;> first | rfl | cases hy
      subst hgo
      exact ⟨.go, x, ⟨trivial, trivial⟩, hx⟩
    | net o =>
      obtain ⟨stage, hin, -⟩ := hd
      have hholds : HoldsAt P i (w.client i) w.net ((γ t).grasp stage).stage := hapart.sheltered.holds hin
      obtain ⟨choice, y, hsmooth, hy⟩ := UdsClient.net_unhindered hP hholds hw.spoken (t := t) (howes stage hin)
      exact ⟨choice, _, hsmooth, by rw [Clients.perform, hy]; rfl⟩

/-- Nobody is dropped, then. -/
theorem UnhinderedAt.undropped {o : Op} {choice : Choice} {x : Calls.Ret o × Clients}
    (h : UnhinderedAt P w i o choice) (hx : w.perform t i o choice = some x) : choice.isDrop = false := by
  cases choice with
  | drop out got =>
    cases o with
    | lock | unlock => cases hx
    | inner o =>
      cases o with
      | own o => exact h.1.elim
      | net o => cases o <;> exact h.1.elim
  | _ => rfl

/-! ### The methods behind the mutex -/

/-- A method that leaves the client at rest, behind the mutex. -/
theorem locked_surely {α : Type} {method : UdsClient.Code α} {Q : Party → Result α → Prop} (hk : k.inside = none)
    (h : Safe (surely S Proper P) method.run (fun g r => g.stage.Rests P ∧ Q ⟨none, g.made, g.asked⟩ r)
      (k.grasp .calm)) : Safe (surelyTaking S Proper i P) (locked method) Q k := by
  have hinner : Safe (surelyTaking S Proper i P) (method.run.embed (F := Calls) Op.inner fun _ r => r)
      (fun k' r => ∃ g, k' = party i g ∧ g.stage.Rests P ∧ Q ⟨none, g.made, g.asked⟩ r)
      { k with inside := some (i, .calm) } := by
    refine safe_embed ?_ ?_ h rfl
    · rintro g _ o rfl ⟨hd, howes⟩
      refine ⟨⟨g.stage, rfl, hd⟩, fun stage hin => ?_⟩
      obtain rfl : g.stage = stage := by simpa [party] using hin
      exact howes
    · rintro g _ o r k' rfl - ⟨⟨stage, g', hin, hmove, rfl⟩, htold⟩
      obtain rfl : g.stage = stage := by simpa [party] using hin
      exact ⟨g', ⟨hmove, htold g.stage rfl⟩, rfl⟩
  unfold locked
  rw [safe_bind]
  refine (safe_op ..).mpr ⟨⟨hk, trivial⟩, ?_⟩
  rintro _ _ ⟨rfl, -⟩
  rw [safe_bind]
  refine safe_mono hinner ?_
  rintro _ r ⟨g, rfl, hrests, hQ⟩
  rw [safe_bind]
  refine (safe_op ..).mpr ⟨⟨⟨g.stage, rfl, hrests⟩, trivial⟩, ?_⟩
  rintro _ _ ⟨rfl, -⟩
  exact hQ

/-- **A shared client's call returns the response to its own request**, and no error. -/
theorem call_surelyTaking (hP : P.Whole) (hk : k.inside = none) {service method : String} {payload : Value}
    (happly : Apt Proper service method payload) :
    Safe (surelyTaking S Proper i P) (call S service method payload)
      (Ends (fun k' response => (k'.grasp .calm).Replied P S k.made (.call service method payload)
        (.reply (.ok response))) fun _ _ => False) k := by
  have hsurely := UdsClient.call_surely (S := S) (k := k.grasp .calm) hP happly trivial
  have hreplied := UdsClient.request_progress S hP (rested_calm k) fun g hg =>
    UdsClient.doCallInternal_progress S hP hg service method payload
  refine locked_surely hk (safe_mono (safe_sharpen hsurely hreplied) ?_)
  rintro g r ⟨hok, hr⟩
  cases r with
  | ok response => exact hr
  | error e => exact hok.elim

theorem close_surelyTaking (hk : k.inside = none) :
    Safe (surelyTaking S Proper i P) close (fun k' _ => k'.inside = none) k := by
  refine locked_surely hk (safe_mono (safe_sharpen (UdsClient.close_surely (S := S) (k := k.grasp .calm))
    (UdsClient.close_progress (k.grasp .calm))) ?_)
  rintro g r ⟨-, hr⟩
  cases r <;> exact ⟨hr, rfl⟩

end

end SharedUdsClient

end XProtocol
