import XProtocol.Client.Exchange
import XProtocol.Client.Shared

/-! How far the exchange on a client's stream has come, whatever was asked.

The holder of a client knows the messages that went out on the stream before, the one
that is being answered, and the answers read so far (`Stage`). Nothing is known of the
other clients, and whatever they do leaves this alone (`Holds.spared`): so the methods
of the client are safe at any point where others may move. What a method returns is
decoded from messages that are the whole answer to the message it has sent itself,
if the peer's answers are whole. -/
namespace XProtocol
open Async
open Json (Value Codec)
open Wire

namespace UdsClient

/-- The exchange on a connection; `stored` says whether it is the client's stream by now. -/
inductive Stage where
  /-- There may be a stream, and nothing is due on it. -/
  | calm
  | absent
  /-- Every answer to what has gone out has been read. -/
  | ready (stored : Bool) (c : ConnId) (before : List Frame)
  /-- Of the answer to `f` the messages `got` have been read. -/
  | amid (stored : Bool) (c : ConnId) (before : List Frame) (f : Frame) (got : List Frame)
  /-- Something may be due on the stream. -/
  | lost

/-- A message that has gone out, behind others on its connection. -/
structure Asked where
  conn : ConnId
  before : List Frame
  message : Frame

/-- What the holder of a client knows. -/
structure Grasp where
  stage : Stage
  /-- The requests it has created. -/
  made : List ServiceRequest
  /-- The messages it has sent. -/
  asked : List Asked

variable (P : Peer)

/-- Nothing is due on the client's stream. -/
def Stage.Rests : Stage → Prop
  | .amid stored c before f got => stored = false ∨ P.answers c before f = got
  | .lost => False
  | _ => True

/-- A connection that fails, and what the holder knows then. -/
def Stage.broken : (stored : Bool) → Stage
  | true => .lost
  | false => .absent

def demandAt (k : Grasp) : NetOp Fields → Prop
  | .net (.connect _) => k.stage = .absent
  | .net (.split c) => ∃ stored before, k.stage = .ready stored c before
  | .net (.write c ..) => ∃ stored before, k.stage = .ready stored c before
  | .net (.read c _) => ∃ stored before f got, k.stage = .amid stored c before f got
  | .own .stream => k.stage.Rests P
  | .own (.setStream (some c)) => ∃ before f, k.stage = .amid false c before f (P.answers c before f)
  | _ => True

def moveAt (k : Grasp) : (o : NetOp Fields) → (NetWith Fields).Ret o → Grasp → Prop
  | .net (.connect _), .inTime (.ok c), k' => k' = { k with stage := .ready false c [] }
  | .net (.write c msgType payload), r, k' => ∃ stored before, k.stage = .ready stored c before ∧
    match r with
    | .ok _ => k' = { k with
      stage := .amid stored c before ⟨msgType, payload⟩ []
      asked := k.asked ++ [⟨c, before, ⟨msgType, payload⟩⟩] }
    | .error _ => k' = { k with stage := .broken stored }
  | .net (.read c _), r, k' => ∃ stored before f got, k.stage = .amid stored c before f got ∧
    match r with
    | .inTime (.ok g) => k' = { k with stage := .amid stored c before f (got ++ [g]) } ∧
      ∃ more, P.answers c before f = got ++ g :: more
    | _ => k' = { k with stage := .broken stored }
  | .net (.newRequest service method payload), r, k' => k' = { k with made := k.made ++ [r] } ∧
    ∃ requestId correlationId, r = .new requestId correlationId service method payload
  | .own .stream, none, k' => k' = { k with stage := .absent }
  | .own .stream, some c, k' => ∃ before, k' = { k with stage := .ready true c before }
  | .own (.setStream none), _, k' => k' = { k with stage := .absent }
  | .own (.setStream (some c)), _, k' => ∃ before, k' = { k with stage := .ready true c before }
  | _, _, k' => k' = k

/-- What the client's code owes at each operation, and what it learns. -/
def progress : Discipline (NetWith Fields) Grasp := ⟨demandAt P, moveAt P⟩

/-- The holder has sent `f`, and `got` is the whole answer to it. -/
def Grasp.Told (k : Grasp) (f : Frame) (got : List Frame) : Prop :=
  ∃ c before, ⟨c, before, f⟩ ∈ k.asked ∧ P.answers c before f = got

/-- The requests are those made before, and nothing is due. -/
def Grasp.Rested (made : List ServiceRequest) (k : Grasp) : Prop := k.made = made ∧ k.stage.Rests P

/-- The client's stream is `c`, and every answer on it has been read. -/
def Grasp.At (made : List ServiceRequest) (k : Grasp) (c : ConnId) : Prop :=
  k.made = made ∧ ∃ before, k.stage = .ready true c before

/-- A result that is no error was decoded from the answer to a message, `Told`, and a request in
that message was `Made` for it. -/
def RepliedBy (S : Codec) (Made : ServiceRequest → Prop) (Told : Frame → List Frame → Prop) : Job → Outcome → Prop
  | .call service method payload, .reply (.ok response) => ∃ requestId correlationId body,
    let request := ServiceRequest.new requestId correlationId service method payload
    Made request ∧ Told ⟨msgRequest, S.toVec request⟩ [⟨msgResponse, body⟩] ∧ S.fromSlice body = some response
  | .callStreaming service method payload mode _, .stream (.ok (some messages)) =>
    ∃ requestId correlationId requestPayload got body finish,
      payload.assign "stream_mode" (.string mode.asStr) = some requestPayload ∧
      let request := ServiceRequest.new requestId correlationId service method requestPayload
      Made request ∧ Told ⟨msgStreamRequest, S.toVec request⟩ (got ++ [⟨msgStreamEnd, body⟩]) ∧
        chunks S got = some messages ∧ S.fromSlice body = some finish ∧
        (finish : StreamResponse).status.startsWith "error" = false
  | .getSchema, .schema (.ok schema) => ∃ body,
    Told ⟨msgSchemaRequest, []⟩ [⟨msgSchemaResponse, body⟩] ∧ S.fromSlice body = some schema
  | _, _ => True

theorem RepliedBy.mono {S : Codec} {Made Made' : ServiceRequest → Prop} {Told Told' : Frame → List Frame → Prop}
    (hmade : ∀ r, Made r → Made' r) (htold : ∀ f got, Told f got → Told' f got) {job : Job} {outcome : Outcome}
    (h : RepliedBy S Made Told job outcome) : RepliedBy S Made' Told' job outcome := by
  unfold RepliedBy at h ⊢
  split <;> simp only at h
  · obtain ⟨requestId, correlationId, body, hm, ht, hbody⟩ := h
    exact ⟨requestId, correlationId, body, hmade _ hm, htold _ _ ht, hbody⟩
  · obtain ⟨requestId, correlationId, requestPayload, got, body, finish, hassign, hm, ht, hrest⟩ := h
    exact ⟨requestId, correlationId, requestPayload, got, body, finish, hassign, hmade _ hm, htold _ _ ht, hrest⟩
  · obtain ⟨body, ht, hbody⟩ := h
    exact ⟨body, htold _ _ ht, hbody⟩
  · trivial

/-- A method's result was decoded from the answer to its own message. -/
def Grasp.Replied (S : Codec) (made : List ServiceRequest) (k : Grasp) : Job → Outcome → Prop :=
  RepliedBy S (fun request => k.made = made ++ [request]) (k.Told P)

/-! ### The methods -/

section Methods
variable {P} (S : Codec) {k : Grasp} {made : List ServiceRequest} {c : ConnId}

theorem dial_progress (hk : k.stage = .absent) :
    Meets (progress P) dial (fun k' c => k' = { k with stage := .ready false c [] }) (fun k' _ => k' = k) k := by
  unfold dial
  rw [meets_bind]
  refine (Code.meets_net (.connect true) _).mpr ⟨hk, fun r k' hm => ?_⟩
  match r, hm with
  | .inTime (.ok c), hm => exact hm
  | .inTime (.error text), hm => exact hm
  | .elapsed, hm => exact hm

/-- A message that asks for no stream is answered with one message. -/
theorem whole_only (hP : P.Whole) {before : List Frame} {f g : Frame} {more : List Frame}
    (hf : f.msgType ≠ msgStreamRequest) (hans : P.answers c before f = [] ++ g :: more) :
    P.answers c before f = [g] := by
  have hlen := hP.single c before f hf
  rw [hans, List.nil_append, List.length_cons] at hlen
  rw [hans, List.length_eq_zero_iff.mp (show more.length = 0 by omega), List.nil_append]

/-- Before it is the client's stream, a connection may fail, and nothing is due. -/
theorem rested_aside (hk : k.made = made) {before : List Frame} {f : Frame} {got : List Frame}
    (hstage : k.stage = .amid false c before f got) : k.Rested P made := by
  refine ⟨hk, ?_⟩
  rw [hstage]
  exact .inl rfl

theorem connect_progress (hP : P.Whole) (hmade : k.made = made) (hk : k.stage = .absent) :
    Meets (progress P) (connect S) (fun k' _ => ∃ c, k'.At made c) (fun k' _ => k'.Rested P made) k := by
  unfold connect
  rw [meets_bind]
  refine meets_mono (dial_progress hk) ?_ ?_
  swap
  · rintro _ _ rfl
    exact ⟨hmade, by rw [hk]; trivial⟩
  rintro _ c rfl
  rw [meets_bind]
  refine (Code.meets_net (.split c) _).mpr ⟨⟨_, _, rfl⟩, ?_⟩
  rintro _ _ rfl
  rw [meets_bind, Code.meets_write]
  refine ⟨⟨_, _, rfl⟩, ?_⟩
  rintro r k₁ ⟨stored, before, hstage, hm⟩
  cases hstage
  cases r with
  | error e =>
    obtain rfl := hm
    exact ⟨hmade, trivial⟩
  | ok _ =>
  obtain rfl := hm
  rw [ends_ok, meets_bind, Code.meets_readTimed]
  refine ⟨⟨_, _, _, _, rfl⟩, ?_⟩
  rintro r k₂ ⟨stored, before, f, got, hstage, hm⟩
  cases hstage
  match r, hm with
  | .elapsed, hm =>
    obtain rfl := hm
    exact ⟨hmade, trivial⟩
  | .inTime (.error e), hm =>
    obtain rfl := hm
    exact ⟨hmade, trivial⟩
  | .inTime (.ok g), ⟨hm, more, hans⟩ =>
    obtain rfl := hm
    have haside := rested_aside (P := P) (k := { k with
      stage := .amid false c [] (hello S) [g]
      asked := k.asked ++ [⟨c, [], hello S⟩] }) hmade rfl
    show Meets _ (ite _ _ _) _ _ _
    split
    · exact haside
    rw [meets_bind, Code.meets_decode]
    cases (S.fromSlice g.payload : Option HandshakeResponse) with
    | none => exact haside
    | some response =>
    show Meets _ (ite _ _ _) _ _ _
    split
    · exact haside
    rw [meets_bind]
    refine (meets_own (.setSession _) _).mpr ⟨trivial, ?_⟩
    rintro _ _ rfl
    rw [meets_bind]
    refine (meets_own (.setConnected _) _).mpr ⟨trivial, ?_⟩
    rintro _ _ rfl
    -- The greeting is answered with one message.
    have hone := whole_only hP (by simp [msgHandshake, msgStreamRequest]) hans
    refine (meets_own (.setStream _) _).mpr ⟨⟨[], hello S, congrArg _ hone.symm⟩, ?_⟩
    rintro _ k₃ ⟨before, rfl⟩
    exact ⟨c, hmade, before, rfl⟩

theorem Grasp.At.create (hk : k.At made c) (r : ServiceRequest) :
    ({ k with made := k.made ++ [r] } : Grasp).At (made ++ [r]) c := ⟨by rw [hk.1], hk.2⟩

theorem held_progress (hk : k.Rested P made) :
    Meets (progress P) held (fun k' c => k'.At made c) (fun k' _ => k'.Rested P made) k := by
  unfold held
  rw [meets_bind]
  refine (meets_own .stream _).mpr ⟨hk.2, fun r k' hm => ?_⟩
  match r, hm with
  | some c, ⟨before, hm⟩ =>
    obtain rfl := hm
    exact ⟨hk.1, before, rfl⟩
  | none, hm =>
    obtain rfl := hm
    exact ⟨hk.1, trivial⟩

/-- The stream is split, and a message goes out on it. -/
theorem write_progress {Q : Grasp → Unit → Prop} {k : Grasp} (hk : k.At made c) {msgType : UInt8}
    {payload : Json.Bytes}
    (hQ : ∀ before, Q { k with
      stage := .amid true c before ⟨msgType, payload⟩ []
      asked := k.asked ++ [⟨c, before, ⟨msgType, payload⟩⟩] } ()) :
    Meets (progress P) (.write c msgType payload : Code Unit) Q (fun _ _ => True) k := by
  obtain ⟨-, before, hstage⟩ := hk
  rw [Code.meets_write]
  refine ⟨⟨_, _, hstage⟩, ?_⟩
  rintro r k₁ ⟨stored, before', hstage', hm⟩
  cases hstage.symm.trans hstage'
  cases r with
  | error e => trivial
  | ok _ =>
    obtain rfl := hm
    exact hQ before

/-- A message is read that answers the one that went out. -/
theorem read_progress {Q : Grasp → Frame → Prop} {before got : List Frame} {f : Frame}
    (hstage : k.stage = .amid true c before f got)
    (hQ : ∀ g more, P.answers c before f = got ++ g :: more →
      Q { k with stage := .amid true c before f (got ++ [g]) } g) :
    Meets (progress P) (.readTimed c : Code Frame) Q (fun _ _ => True) k := by
  rw [Code.meets_readTimed]
  refine ⟨⟨_, _, _, _, hstage⟩, ?_⟩
  rintro r k₁ ⟨stored, before', f', got', hstage', hm⟩
  cases hstage.symm.trans hstage'
  match r, hm with
  | .elapsed, _ => trivial
  | .inTime (.error e), _ => trivial
  | .inTime (.ok g), ⟨hm, more, hans⟩ =>
    obtain rfl := hm
    exact hQ g more hans

/-- One message goes out, and one comes back. -/
theorem exchange_progress (hP : P.Whole) {α : Type} {p : Frame → Code α} {Q : Grasp → α → Prop}
    (hk : k.At made c) {msgType : UInt8} {payload : Json.Bytes} (htype : msgType ≠ msgStreamRequest)
    (hp : ∀ k' g, k'.Rested P made → k'.Told P ⟨msgType, payload⟩ [g] →
      Meets (progress P) (p g) Q (fun _ _ => True) k') :
    Meets (progress P) ((.write c msgType payload : Code Unit) >>= fun _ => (.readTimed c : Code Frame) >>= p) Q
      (fun _ _ => True) k := by
  rw [meets_bind]
  refine write_progress hk fun before => ?_
  rw [meets_bind]
  refine read_progress rfl fun g more hans => ?_
  have hone := whole_only hP htype hans
  refine hp _ g ⟨hk.1, .inr hone⟩ ⟨c, before, ?_, hone⟩
  exact List.mem_append_right _ (List.mem_singleton_self _)

theorem doCallInternal_progress (hP : P.Whole) (hk : k.Rested P made) (service method : String)
    (payload : Value) :
    Meets (progress P) (doCallInternal S service method payload)
      (fun k' response => k'.stage.Rests P ∧
        k'.Replied P S made (.call service method payload) (.reply (.ok response)))
      (fun _ _ => True) k := by
  unfold doCallInternal
  rw [meets_bind]
  refine meets_mono (held_progress hk) (fun k c hk => ?_) fun _ _ _ => trivial
  rw [meets_bind]
  refine (Code.meets_net (.split c) _).mpr ⟨⟨_, hk.2⟩, ?_⟩
  rintro _ _ rfl
  rw [meets_bind]
  refine (Code.meets_net (.newRequest service method payload) _).mpr ⟨trivial, ?_⟩
  rintro r _ ⟨rfl, requestId, correlationId, rfl⟩
  refine exchange_progress hP (hk.create _) (show msgRequest ≠ msgStreamRequest by decide) ?_
  rintro k' ⟨msgType, body⟩ hrested htold
  show Meets _ (ite _ _ _) _ _ _
  split
  · trivial
  next htype =>
  rw [Code.meets_decode]
  cases hresponse : (S.fromSlice body : Option ServiceResponse) with
  | none => trivial
  | some response =>
  obtain rfl : msgType = msgResponse := by simpa using htype
  exact ⟨hrested.2, requestId, correlationId, body, hrested.1, htold, hresponse⟩

theorem doGetSchemaInternal_progress (hP : P.Whole) (hk : k.Rested P made) :
    Meets (progress P) (doGetSchemaInternal S)
      (fun k' schema => k'.stage.Rests P ∧ k'.Replied P S made .getSchema (.schema (.ok schema)))
      (fun _ _ => True) k := by
  unfold doGetSchemaInternal
  rw [meets_bind]
  refine meets_mono (held_progress hk) (fun k c hk => ?_) fun _ _ _ => trivial
  rw [meets_bind]
  refine (Code.meets_net (.split c) _).mpr ⟨⟨_, hk.2⟩, ?_⟩
  rintro _ _ rfl
  refine exchange_progress hP hk (show msgSchemaRequest ≠ msgStreamRequest by decide) ?_
  rintro k' ⟨msgType, body⟩ hrested htold
  show Meets _ (ite _ _ _) _ _ _
  split
  · trivial
  next htype =>
  rw [Code.meets_decode]
  cases hschema : (S.fromSlice body : Option ServiceSchema) with
  | none => trivial
  | some schema =>
  obtain rfl : msgType = msgSchemaResponse := by simpa using htype
  exact ⟨hrested.2, body, htold, hschema⟩

/-- The stream that answers `f` was read to its end, and `messages` are its chunks. -/
def Finished (P : Peer) (c : ConnId) (before : List Frame) (f : Frame) (messages : List StreamMessage) : Prop :=
  ∃ got body finish, P.answers c before f = got ++ [⟨msgStreamEnd, body⟩] ∧ chunks S got = some messages ∧
    S.fromSlice body = some finish ∧ (finish : StreamResponse).status.startsWith "error" = false

theorem receiveStream_progress (hP : P.Whole) (fuel : Nat) {messages : List StreamMessage}
    {before got : List Frame} {f : Frame} (hstage : k.stage = .amid true c before f got)
    (hmessages : chunks S got = some messages) :
    Meets (progress P) (receiveStream S c fuel messages)
      (fun k' result => k'.made = k.made ∧ k'.asked = k.asked ∧
        ∀ messages, result = some messages → k'.stage.Rests P ∧ Finished S P c before f messages)
      (fun _ _ => True) k := by
  induction fuel generalizing k messages got with
  | zero => exact ⟨rfl, rfl, nofun⟩
  | succ fuel ih =>
  rw [receiveStream, meets_bind]
  refine read_progress hstage fun g more hans => ?_
  have hrest {messages : List StreamMessage} (hmessages : chunks S (got ++ [g]) = some messages) :=
    ih (k := { k with stage := .amid true c before f (got ++ [g]) }) rfl hmessages
  split
  · next htype =>
    exact hrest ((chunks_other S got (by simp [htype, msgStreamStart, msgStreamChunk])).trans hmessages)
  split
  · next htype =>
    rw [meets_bind, Code.meets_decode]
    cases hmsg : (S.fromSlice g.payload : Option StreamMessage) with
    | none => trivial
    | some msg => exact hrest (chunks_chunk S hmessages htype hmsg)
  split
  · next htype =>
    rw [meets_bind, Code.meets_decode]
    cases hfinish : (S.fromSlice g.payload : Option StreamResponse) with
    | none => trivial
    | some finish =>
    show Meets _ (ite _ _ _) _ _ _
    split
    · trivial
    next hstatus =>
    refine ⟨rfl, rfl, fun messages' h => ?_⟩
    cases h
    obtain ⟨msgType, body⟩ := g
    obtain rfl : msgType = msgStreamEnd := htype
    -- The message that ends a stream is the last of the answer.
    obtain rfl := hP.ends _ _ _ _ _ _ hans (.inl rfl)
    exact ⟨.inr hans, got, body, finish, hans, hmessages, hfinish, by simpa using hstatus⟩
  split
  · rw [meets_bind, Code.meets_decode]
    cases (S.fromSlice g.payload : Option Value) <;> trivial
  · trivial

theorem doCallStreamingInternal_progress (hP : P.Whole) (hk : k.Rested P made) (service method : String)
    (payload : Value) (mode : StreamMode) (fuel : Nat) :
    Meets (progress P) (doCallStreamingInternal S service method payload mode fuel)
      (fun k' result => ∀ messages, result = some messages → k'.stage.Rests P ∧
        k'.Replied P S made (.callStreaming service method payload mode fuel) (.stream (.ok (some messages))))
      (fun _ _ => True) k := by
  unfold doCallStreamingInternal
  rw [meets_bind]
  refine meets_mono (held_progress hk) (fun k c hk => ?_) fun _ _ _ => trivial
  rw [meets_bind]
  refine (Code.meets_net (.split c) _).mpr ⟨⟨_, hk.2⟩, ?_⟩
  rintro _ _ rfl
  split
  · -- The payload takes no field: the task panics here.
    unfold panic
    rw [meets_bind]
    exact (meets_own .panic _).mpr ⟨trivial, fun r => nomatch r⟩
  next requestPayload hassign =>
  rw [meets_bind]
  refine (Code.meets_net (.newRequest service method requestPayload) _).mpr ⟨trivial, ?_⟩
  rintro r _ ⟨rfl, requestId, correlationId, rfl⟩
  rw [meets_bind]
  refine write_progress (hk.create _) fun before => ?_
  refine meets_mono (receiveStream_progress S hP fuel rfl rfl) ?_ fun _ _ _ => trivial
  rintro k' result ⟨hmade, hasked, hfinished⟩ messages hresult
  obtain ⟨hrests, got, body, finish, hans, hmessages, hfinish, hstatus⟩ := hfinished messages hresult
  refine ⟨hrests, requestId, correlationId, requestPayload, got, body, finish, hassign,
    hmade.trans (hk.create _).1, ⟨c, before, ?_, hans⟩, hmessages, hfinish, hstatus⟩
  rw [hasked]
  exact List.mem_append_right _ (List.mem_singleton_self _)

/-- A request leaves what its exchange leaves, and nothing due if it fails. -/
theorem request_progress (hP : P.Whole) (hk : k.Rested P made) {α : Type} {p : Code α}
    {Q : Grasp → α → Prop} (hp : ∀ k', k'.Rested P made → Meets (progress P) p Q (fun _ _ => True) k') :
    Meets (progress P) (request S p) Q (fun k' _ => k'.stage.Rests P) k := by
  have hexchange (k : Grasp) (hk : k.Rested P made) :
      Meets (progress P) (tryCatch p fun e => do
        setConnected false
        setStream none
        throw e) Q (fun k' _ => k'.stage.Rests P) k := by
    rw [meets_tryCatch]
    refine meets_mono (hp k hk) (fun _ _ h => h) fun k e _ => ?_
    rw [meets_bind]
    refine (meets_own (.setConnected false) _).mpr ⟨trivial, fun _ k' _ => ?_⟩
    rw [meets_bind]
    refine (meets_own (.setStream none) _).mpr ⟨trivial, ?_⟩
    rintro _ _ rfl
    trivial
  unfold request
  rw [meets_bind]
  refine (meets_own .stream _).mpr ⟨hk.2, fun r k' hm => ?_⟩
  match r, hm with
  | some c, ⟨before, hm⟩ =>
    obtain rfl := hm
    exact hexchange _ ⟨hk.1, trivial⟩
  | none, hm =>
    obtain rfl := hm
    show Meets _ (_ >>= _) _ _ _
    rw [meets_bind]
    refine meets_mono (connect_progress (k := { k with stage := .absent }) S hP hk.1 rfl) ?_ fun _ _ h => h.2
    rintro k _ ⟨c, hmade, before, hstage⟩
    exact hexchange k ⟨hmade, by rw [hstage]; trivial⟩

theorem close_progress (k : Grasp) :
    Meets (progress P) close (fun k' _ => k'.stage.Rests P) (fun k' _ => k'.stage.Rests P) k := by
  unfold close
  rw [meets_bind]
  refine (meets_own (.setConnected false) _).mpr ⟨trivial, fun _ k₁ _ => ?_⟩
  rw [meets_bind]
  refine (meets_own (.setSession none) _).mpr ⟨trivial, fun _ k₂ _ => ?_⟩
  refine (meets_own (.setStream none) _).mpr ⟨trivial, ?_⟩
  rintro _ _ rfl
  trivial

end Methods

end UdsClient

end XProtocol
