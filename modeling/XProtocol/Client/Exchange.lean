import XProtocol.Async.Alone
import XProtocol.EchoServer

/-! A client that is awaited: one operation after the other, each to its end.

Between two operations the client is `Calm`: if it holds a stream, every byte of every
answer on it has been read. An operation that ends well keeps the stream, and has read
the whole answer to its own message (`Exchanged`); one that fails has dropped the stream,
or has not touched it. A stream of answers is read up to the message that ends it, and
nothing is left then if the peer's answers are `Whole`. -/
namespace XProtocol
open Async
open Json (Bytes Value Codec)
open Wire

namespace UdsClient

/-- A message that is read is one the peer has sent. Of a read that fails, or that is
refused the length it finds, nothing is said. -/
def Honest (P : Peer) (w : Client UdsClient) : NetOp Fields → Choice → Prop
  | .net (.read c timed), choice =>
    (∃ f rest, readMessage ((w.net.conns c).ahead ++ choice.got) = .message f rest) →
      P.Delivers w.net (.read c timed) choice
  | _, _ => True

/-- Nothing fails and no timer fires; what arrives is what the peer sends. -/
def Smooth (P : Peer) (w : Client UdsClient) : NetOp Fields → Choice → Prop
  | .net (.read c timed), .arrive got => P.Delivers w.net (.read c timed) (.arrive got)
  | .net (.read ..), _ => False
  | .net (.newRequest ..), .uuids .. => True
  | .net (.newRequest ..), _ => False
  | _, .go => True
  | _, _ => False

/-- A client by itself, connected to `P`. -/
def alone (P : Peer) : Discipline (NetWith Fields) (Client UdsClient) := machine.alone (Honest P)

/-- The operation has ended: the messages of a stream were read up to its end. -/
def Outcome.Ended : Outcome → Prop
  | .stream (.ok none) => False
  | _ => True

/-- The client `w` is asked for `job`, which ends with `outcome` and leaves `w'`. -/
def Awaited (S : Codec) (P : Peer) (w : Client UdsClient) (job : Job) (outcome : Outcome)
    (w' : Client UdsClient) : Prop :=
  Returns machine (Honest P) (job.task S) w outcome w' ∧ outcome.Ended

/-- The clients there can be between two operations. -/
inductive Between (S : Codec) (P : Peer) : Client UdsClient → Prop
  | new : Between S P ⟨.new, .empty⟩
  | awaited {w w' : Client UdsClient} {job : Job} {outcome : Outcome} (h : Between S P w)
      (hjob : Awaited S P w job outcome w') : Between S P w'

/-- The client's stream is `c`, and `before` has gone out and been answered there: more than
what had gone out in `w₀`. -/
structure Ready (P : Peer) (w₀ w : Client UdsClient) (c : ConnId) (before : List Frame) : Prop where
  stream : w.fields.stream = some c
  opened : c < w.net.opened
  behind : c < w₀.net.opened → (w₀.net.conns c).written <+: encodeAll before
  settled : Settled P c (w.net.conns c) before

/-- If there is a stream, nothing is outstanding or unread on it. -/
def Calm (P : Peer) (w : Client UdsClient) : Prop :=
  ∀ c, w.fields.stream = some c → c < w.net.opened ∧ ∃ fs, Settled P c (w.net.conns c) fs

/-- Since `w₀`, the message `f` has gone out on the client's stream, behind what had gone out
there; `got` is the answer to it, and has been read. -/
structure Exchanged (P : Peer) (w₀ w : Client UdsClient) (c : ConnId) (before : List Frame)
    (f : Frame) (got : List Frame) : Prop where
  stream : w.fields.stream = some c
  opened : c < w.net.opened
  behind : c < w₀.net.opened → (w₀.net.conns c).written <+: encodeAll before
  settled : Settled P c (w.net.conns c) (before ++ [f])
  answer : P.answers c before f = got

section
variable (S : Codec)

/-- The message that opens a connection. -/
def hello : Frame := ⟨msgHandshake, S.toVec (handshake "protocol-client" "client")⟩

/-- The chunks of a stream, decoded. -/
def chunks (got : List Frame) : Option (List StreamMessage) :=
  (got.filter (·.msgType = msgStreamChunk)).mapM fun f => S.fromSlice f.payload

/-- A result that is no error was decoded from the answer to the operation's own message,
and a request in that message was made for this operation. -/
def Replied (P : Peer) (w₀ w : Client UdsClient) : Job → Outcome → Prop
  | .connect, .done (.ok _) => ∃ c ack response,
    Exchanged P w₀ w c [] (hello S) [⟨msgHandshakeAck, ack⟩] ∧ S.fromSlice ack = some response ∧
      (response : HandshakeResponse).success = true ∧ w.fields.sessionId = some response.sessionId
  | .call service method payload, .reply (.ok response) => ∃ c before requestId correlationId body,
    let request := ServiceRequest.new requestId correlationId service method payload
    w.net.created 0 = w₀.net.created 0 ++ [request] ∧
      Exchanged P w₀ w c before ⟨msgRequest, S.toVec request⟩ [⟨msgResponse, body⟩] ∧
      S.fromSlice body = some response
  | .callStreaming service method payload mode _, .stream (.ok (some messages)) =>
    ∃ c before requestId correlationId requestPayload got body finish,
      payload.assign "stream_mode" (.string mode.asStr) = some requestPayload ∧
      let request := ServiceRequest.new requestId correlationId service method requestPayload
      w.net.created 0 = w₀.net.created 0 ++ [request] ∧
        Exchanged P w₀ w c before ⟨msgStreamRequest, S.toVec request⟩ (got ++ [⟨msgStreamEnd, body⟩]) ∧
        chunks S got = some messages ∧ S.fromSlice body = some finish ∧
        (finish : StreamResponse).status.startsWith "error" = false
  | .getSchema, .schema (.ok schema) => ∃ c before body,
    Exchanged P w₀ w c before ⟨msgSchemaRequest, []⟩ [⟨msgSchemaResponse, body⟩] ∧
      S.fromSlice body = some schema
  | _, _ => True

end

variable {P : Peer} {w w₀ : Client UdsClient} {c : ConnId} {before got : List Frame} {f : Frame}

theorem calm_new (P : Peer) : Calm P ⟨.new, .empty⟩ := fun _ hc => nomatch hc

theorem Exchanged.calm (h : Exchanged P w₀ w c before f got) : Calm P w := by
  intro d hd
  obtain rfl := Option.some.inj (h.stream.symm.trans hd)
  exact ⟨h.opened, _, h.settled⟩

/-! ### One operation -/

/-- Only connection `c` has changed. -/
structure Touches (c : ConnId) (w w' : Client UdsClient) : Prop where
  fields : w'.fields = w.fields
  opened : w'.net.opened = w.net.opened
  created : w'.net.created = w.net.created
  others : ∀ d ≠ c, w'.net.conns d = w.net.conns d

theorem Touches.refl (c : ConnId) (w : Client UdsClient) : Touches c w w :=
  ⟨rfl, rfl, rfl, fun _ _ => rfl⟩

theorem Touches.trans {w' w'' : Client UdsClient} (h : Touches c w w') (h' : Touches c w' w'') :
    Touches c w w'' where
  fields := h'.fields.trans h.fields
  opened := h'.opened.trans h.opened
  created := h'.created.trans h.created
  others d hd := (h'.others d hd).trans (h.others d hd)

theorem touches_modify (c : ConnId) (f : Conn → Conn) (w : Client UdsClient) :
    Touches c w { w with net := w.net.modify c f } :=
  ⟨rfl, rfl, rfl, fun d hd => Net.modify_other w.net c d f hd⟩

theorem net_moves {o : Net.Op} {r : o.Ret} {w' : Client UdsClient} (h : (alone P).move w (.net o) r w') :
    ∃ choice n, Honest P w (.net o) choice ∧ w.net.perform 0 0 o choice = some (r, n) ∧
      w' = { w with net := n } := by
  obtain ⟨choice, hhonest, hperform⟩ := h
  obtain ⟨⟨r, n⟩, hn, heq⟩ := Option.map_eq_some_iff.mp hperform
  cases heq
  exact ⟨choice, n, hhonest, hn, rfl⟩

section Operations
variable {R : Client UdsClient → ProtocolError → Prop}

theorem own_alone {o : Op} {Q : Client UdsClient → Fields.Ret o → Prop}
    (h : ∀ r u, perform o .go w.fields = some (r, u) → Q ⟨u, w.net⟩ r) :
    Meets (alone P) (own o) Q R w := by
  refine (meets_own o Q).mpr ⟨trivial, ?_⟩
  rintro r w' ⟨choice, -, hperform⟩
  obtain ⟨⟨r, u⟩, hu, heq⟩ := Option.map_eq_some_iff.mp hperform
  cases heq
  have hgo : choice = .go := by cases o <;> cases choice <;> first | rfl | cases hu
  exact h r u (hgo ▸ hu)

theorem net_alone {o : Net.Op} {Q : Client UdsClient → o.Ret → Prop}
    (h : ∀ choice r n, Honest P w (.net o) choice → w.net.perform 0 0 o choice = some (r, n) →
      Q { w with net := n } r) : Meets (alone P) (.net o : Code o.Ret) Q R w := by
  refine (Code.meets_net o Q).mpr ⟨trivial, fun r w' hm => ?_⟩
  obtain ⟨choice, n, hhonest, hn, rfl⟩ := net_moves hm
  exact h choice r n hhonest hn

theorem newRequest_alone (w : Client UdsClient) (service method : String) (payload : Value) :
    Meets (alone P) (.newRequest service method payload : Code ServiceRequest)
      (fun w' r => w' = { w with net := w.net.create 0 r } ∧
        ∃ requestId correlationId, r = ServiceRequest.new requestId correlationId service method payload)
      R w := by
  refine net_alone fun choice r n _ hn => ?_
  cases choice <;> simp [Net.perform] at hn
  obtain ⟨rfl, rfl⟩ := hn
  exact ⟨rfl, _, _, rfl⟩

theorem dial_alone (w : Client UdsClient) :
    Meets (alone P) dial (fun w' c => c = w.net.opened ∧ w' = { w with net := w.net.dial 0 })
      (fun w' _ => w' = w) w := by
  unfold dial
  rw [meets_bind]
  refine net_alone fun choice r n _ hn => ?_
  rcases Net.perform_connect hn with ⟨rfl, rfl⟩ | ⟨hr, rfl⟩
  · exact ⟨rfl, rfl⟩
  · match r, hr with
    | .inTime (.ok c), hr => exact absurd rfl (hr c)
    | .inTime (.error _), _ => rfl
    | .elapsed, _ => rfl

theorem split_alone (h : Settled P c (w.net.conns c) before) :
    Meets (alone P) (.split c : Code Unit)
      (fun w' _ => Touches c w w' ∧ Settled P c (w'.net.conns c) before) R w := by
  refine net_alone fun choice r n _ hn => ?_
  obtain rfl := Net.perform_split hn
  exact ⟨touches_modify c _ w, by rw [Net.modify_self]; exact h.split⟩

/-- A message that has gone out whole is due an answer. -/
theorem write_alone {msgType : UInt8} {payload : Bytes} (h : Settled P c (w.net.conns c) before) :
    Meets (alone P) (.write c msgType payload : Code Unit)
      (fun w' _ => Touches c w w' ∧ Due P c (w'.net.conns c) before ⟨msgType, payload⟩ [])
      (fun w' _ => Touches c w w') w := by
  rw [Code.meets_write]
  refine ⟨trivial, fun r w' hm => ?_⟩
  obtain ⟨choice, n, -, hn, rfl⟩ := net_moves hm
  rcases Net.perform_write hn with ⟨-, rfl, rfl⟩ | ⟨hfits, rfl, rfl⟩ | ⟨-, ⟨text, rfl⟩, out, rfl⟩
  · exact Touches.refl c w
  · refine ⟨touches_modify c _ w, ?_⟩
    rw [Net.modify_self]
    exact (h.send hfits).due
  · exact touches_modify c _ w

/-- What is read is the next message of the answer. -/
theorem read_alone (hP : P.Whole) (h : Due P c (w.net.conns c) before f got) :
    Meets (alone P) (.readTimed c : Code Frame)
      (fun w' g => Touches c w w' ∧ Due P c (w'.net.conns c) before f (got ++ [g]))
      (fun w' _ => Touches c w w') w := by
  rw [Code.meets_readTimed]
  refine ⟨trivial, fun r w' hm => ?_⟩
  obtain ⟨choice, n, hhonest, hn, rfl⟩ := net_moves hm
  rcases Net.perform_read hn with ⟨g, rest, hread, rfl, rfl⟩ | ⟨hr, ahead, rfl⟩
  · refine ⟨touches_modify c _ w, ?_⟩
    rw [Net.modify_self]
    exact h.read (hP.fits c before f) (hhonest ⟨g, rest, hread⟩) hread
  · match r, hr with
    | .inTime (.ok g), hr => exact absurd rfl (hr g)
    | .inTime (.error _), _ => exact touches_modify c _ w
    | .elapsed, _ => exact touches_modify c _ w

end Operations

/-! ### The methods -/

theorem Exchanged.ready (h : Exchanged P w₀ w c before f got) : Ready P w₀ w c (before ++ [f]) where
  stream := h.stream
  opened := h.opened
  behind hc := (h.behind hc).trans ⟨_, (encodeAll_append ..).symm⟩
  settled := h.settled

theorem Calm.ready (h : Calm P w) (hc : w.fields.stream = some c) : ∃ before, Ready P w w c before := by
  obtain ⟨hopened, before, hset⟩ := h c hc
  exact ⟨before, hc, hopened, fun _ => hset.written ▸ List.prefix_rfl, hset⟩

theorem Ready.touched {w' : Client UdsClient} (h : Ready P w₀ w c before) (ht : Touches c w w')
    (hset : Settled P c (w'.net.conns c) before) : Ready P w₀ w' c before :=
  ⟨ht.fields ▸ h.stream, ht.opened ▸ h.opened, h.behind, hset⟩

theorem Ready.create (h : Ready P w₀ w c before) (r : ServiceRequest) :
    Ready P w₀ { w with net := w.net.create 0 r } c before :=
  ⟨h.stream, h.opened, h.behind, h.settled⟩

theorem Ready.exchanged {w' : Client UdsClient} (h : Ready P w₀ w c before) (ht : Touches c w w')
    (hdue : Due P c (w'.net.conns c) before f got) (hgot : P.answers c before f = got) :
    Exchanged P w₀ w' c before f got :=
  ⟨ht.fields ▸ h.stream, ht.opened ▸ h.opened, h.behind, hdue.settled hgot, hgot⟩

/-- One message that was read is the whole answer, unless the message asked for a stream. -/
theorem answered_once (hP : P.Whole) {conn : Conn} {g : Frame} (h : Due P c conn before f [g])
    (hf : f.msgType ≠ msgStreamRequest) : P.answers c before f = [g] := by
  obtain ⟨more, hans, -⟩ := h.left
  have hlen := hP.single c before f hf
  rw [hans, List.length_append, List.length_singleton] at hlen
  obtain rfl : more = [] := List.length_eq_zero_iff.mp (by omega)
  exact hans

section Methods
variable (S : Codec)

/-- A connection that was refused, or not made: the client is as it was. -/
structure Untouched (w w' : Client UdsClient) : Prop where
  fields : w'.fields = w.fields
  opened : w.net.opened ≤ w'.net.opened
  conns : ∀ c < w.net.opened, w'.net.conns c = w.net.conns c

theorem Calm.untouched {w' : Client UdsClient} (h : Calm P w) (hu : Untouched w w') : Calm P w' := by
  intro c hc
  obtain ⟨hopened, hset⟩ := h c (hu.fields ▸ hc)
  exact ⟨Nat.lt_of_lt_of_le hopened hu.opened, hu.conns c hopened ▸ hset⟩

/-- A connection is greeted first, or the client is as it was. -/
theorem connect_alone (hP : P.Whole) (w : Client UdsClient) :
    Meets (alone P) (connect S)
      (fun w' _ => w'.net.created = w.net.created ∧ ∃ c ack response,
        Exchanged P w w' c [] (hello S) [⟨msgHandshakeAck, ack⟩] ∧ S.fromSlice ack = some response ∧
          (response : HandshakeResponse).success = true ∧
          w'.fields.sessionId = some response.sessionId)
      (fun w' _ => Untouched w w') w := by
  have haside {w' : Client UdsClient} (ht : Touches w.net.opened { w with net := w.net.dial 0 } w') :
      Untouched w w' := by
    refine ⟨ht.fields, ?_, fun c hc => ?_⟩
    · rw [ht.opened]
      exact Nat.le_succ _
    · rw [ht.others c (Nat.ne_of_lt hc)]
      exact Net.dial_conns_other w.net c 0 (Nat.ne_of_lt hc)
  unfold connect
  rw [meets_bind]
  refine meets_mono (dial_alone w) ?_ fun w' _ hw' => hw' ▸ ⟨rfl, Nat.le_refl _, fun _ _ => rfl⟩
  rintro w₁ c ⟨rfl, rfl⟩
  have hfresh : Settled P w.net.opened ((w.net.dial 0).conns w.net.opened) [] := by
    rw [Net.dial_conns_self]
    exact settled_fresh 0
  rw [meets_bind]
  refine meets_mono (split_alone hfresh) ?_ fun _ _ h => h
  rintro w₁ _ ⟨ht₁, hset⟩
  rw [meets_bind]
  refine meets_mono (write_alone hset) ?_ fun w' _ ht => haside (ht₁.trans ht)
  rintro w₂ _ ⟨ht₂, hdue⟩
  rw [meets_bind]
  refine meets_mono (read_alone hP hdue) ?_ fun w' _ ht => haside (ht₁.trans (ht₂.trans ht))
  rintro w₃ ⟨msgType, ack⟩ ⟨ht₃, hdue⟩
  have ht := ht₁.trans (ht₂.trans ht₃)
  have hans := answered_once hP hdue (by simp [msgHandshake, msgStreamRequest])
  split
  · exact haside ht
  next htype =>
  rw [meets_bind, Code.meets_decode]
  cases hresponse : (S.fromSlice ack : Option HandshakeResponse) with
  | none => exact haside ht
  | some response =>
  show Meets _ (ite _ _ _) _ _ _
  split
  · exact haside ht
  next hsuccess =>
  rw [meets_bind]
  refine own_alone fun _ u hu => ?_
  cases hu
  rw [meets_bind]
  refine own_alone fun _ u hu => ?_
  cases hu
  refine own_alone fun _ u hu => ?_
  cases hu
  obtain rfl : msgType = msgHandshakeAck := by simpa using htype
  refine ⟨ht.created, w.net.opened, ack, response, ?_, hresponse, by simpa using hsuccess, rfl⟩
  exact ⟨rfl, ht.opened ▸ Nat.lt_succ_self _, fun h => absurd h (Nat.lt_irrefl _), hdue.settled hans, hans⟩

/-- A request whose exchange ends well leaves what the exchange leaves, and nothing due if it fails. -/
theorem request_alone (hP : P.Whole) {α : Type} {p : Code α} {Q : Client UdsClient → α → Prop}
    (hcalm : Calm P w₀)
    (hp : ∀ w c before, Ready P w₀ w c before → w.net.created = w₀.net.created →
      Meets (alone P) p Q (fun _ _ => True) w) :
    Meets (alone P) (request S p) Q (fun w _ => Calm P w) w₀ := by
  have hexchange (w : Client UdsClient) (c : ConnId) (before : List Frame) (hready : Ready P w₀ w c before)
      (hcreated : w.net.created = w₀.net.created) :
      Meets (alone P) (tryCatch p fun e => do
        setConnected false
        setStream none
        throw e) Q (fun w _ => Calm P w) w := by
    rw [meets_tryCatch]
    refine meets_mono (hp w c before hready hcreated) (fun _ _ h => h) fun w e _ => ?_
    rw [meets_bind]
    refine own_alone fun _ u hu => ?_
    cases hu
    rw [meets_bind]
    refine own_alone fun _ u hu => ?_
    cases hu
    exact fun c hc => nomatch hc
  unfold request
  rw [meets_bind]
  refine own_alone fun r u hu => ?_
  cases hu
  cases hstream : w₀.fields.stream with
  | some c =>
    obtain ⟨before, hready⟩ := hcalm.ready hstream
    exact hexchange w₀ c before hready rfl
  | none =>
    show Meets _ (_ >>= _) _ _ _
    rw [meets_bind]
    refine meets_mono (connect_alone S hP w₀) ?_ fun w _ hw => hcalm.untouched hw
    rintro w _ ⟨hcreated, c, ack, response, hgreeted, -⟩
    exact hexchange w c _ hgreeted.ready hcreated

theorem held_alone (hc : w.fields.stream = some c) :
    Meets (alone P) held (fun w' d => w' = w ∧ d = c) (fun _ _ => True) w := by
  unfold held
  rw [meets_bind]
  refine own_alone fun r u hu => ?_
  cases hu
  rw [hc]
  exact ⟨rfl, rfl⟩

theorem doCallInternal_alone (hP : P.Whole) (h : Ready P w₀ w c before)
    (hcreated : w.net.created = w₀.net.created) (service method : String) (payload : Value) :
    Meets (alone P) (doCallInternal S service method payload)
      (fun w' response => Calm P w' ∧ Replied S P w₀ w' (.call service method payload) (.reply (.ok response)))
      (fun _ _ => True) w := by
  unfold doCallInternal
  rw [meets_bind]
  refine meets_mono (held_alone h.stream) ?_ fun _ _ h => h
  rintro _ _ ⟨rfl, rfl⟩
  rw [meets_bind]
  refine meets_mono (split_alone h.settled) ?_ fun _ _ h => h
  rintro w₁ _ ⟨ht₁, hset⟩
  rw [meets_bind]
  refine meets_mono (newRequest_alone w₁ service method payload) ?_ fun _ _ h => h
  rintro _ r ⟨rfl, requestId, correlationId, rfl⟩
  have hready := (h.touched ht₁ hset).create (ServiceRequest.new requestId correlationId service method payload)
  rw [meets_bind]
  refine meets_mono (write_alone hready.settled) ?_ fun _ _ _ => trivial
  rintro w₂ _ ⟨ht₂, hdue⟩
  rw [meets_bind]
  refine meets_mono (read_alone hP hdue) ?_ fun _ _ _ => trivial
  rintro w₃ ⟨msgType, body⟩ ⟨ht₃, hdue⟩
  have hans := answered_once hP hdue (by simp [msgRequest, msgStreamRequest])
  show Meets _ (ite _ _ _) _ _ _
  split
  · trivial
  next htype =>
  rw [Code.meets_decode]
  cases hresponse : (S.fromSlice body : Option ServiceResponse) with
  | none => trivial
  | some response =>
  obtain rfl : msgType = msgResponse := by simpa using htype
  have hex := hready.exchanged (ht₂.trans ht₃) hdue hans
  refine ⟨hex.calm, _, before, requestId, correlationId, body, ?_, hex, hresponse⟩
  rw [(ht₂.trans ht₃).created, ← hcreated, ← ht₁.created]
  exact Net.create_created_self ..

theorem doGetSchemaInternal_alone (hP : P.Whole) (h : Ready P w₀ w c before) :
    Meets (alone P) (doGetSchemaInternal S)
      (fun w' schema => Calm P w' ∧ Replied S P w₀ w' .getSchema (.schema (.ok schema)))
      (fun _ _ => True) w := by
  unfold doGetSchemaInternal
  rw [meets_bind]
  refine meets_mono (held_alone h.stream) ?_ fun _ _ h => h
  rintro _ _ ⟨rfl, rfl⟩
  rw [meets_bind]
  refine meets_mono (split_alone h.settled) ?_ fun _ _ h => h
  rintro w₁ _ ⟨ht₁, hset⟩
  rw [meets_bind]
  refine meets_mono (write_alone hset) ?_ fun _ _ _ => trivial
  rintro w₂ _ ⟨ht₂, hdue⟩
  rw [meets_bind]
  refine meets_mono (read_alone hP hdue) ?_ fun _ _ _ => trivial
  rintro w₃ ⟨msgType, body⟩ ⟨ht₃, hdue⟩
  have hans := answered_once hP hdue (by simp [msgSchemaRequest, msgStreamRequest])
  show Meets _ (ite _ _ _) _ _ _
  split
  · trivial
  next htype =>
  rw [Code.meets_decode]
  cases hschema : (S.fromSlice body : Option ServiceSchema) with
  | none => trivial
  | some schema =>
  obtain rfl : msgType = msgSchemaResponse := by simpa using htype
  have hex := h.exchanged (ht₁.trans (ht₂.trans ht₃)) hdue hans
  exact ⟨hex.calm, _, before, body, hex, hschema⟩

theorem chunks_other (got : List Frame) {f : Frame} (hf : f.msgType ≠ msgStreamChunk) :
    chunks S (got ++ [f]) = chunks S got := by
  simp [chunks, List.filter_append, hf]

theorem chunks_chunk {got : List Frame} {f : Frame} {messages : List StreamMessage} {msg : StreamMessage}
    (hgot : chunks S got = some messages) (hf : f.msgType = msgStreamChunk)
    (hmsg : S.fromSlice f.payload = some msg) : chunks S (got ++ [f]) = some (messages ++ [msg]) := by
  unfold chunks at hgot ⊢
  rw [List.filter_append, List.mapM_append, hgot]
  simp [hf, hmsg]

variable (P) in
/-- The answer to `f` was read to the end of the stream, and `messages` are its chunks. -/
def Drained (c : ConnId) (before : List Frame) (f : Frame) (conn : Conn) (messages : List StreamMessage) :
    Prop :=
  ∃ got body finish, Due P c conn before f (got ++ [⟨msgStreamEnd, body⟩]) ∧
    chunks S got = some messages ∧ S.fromSlice body = some finish ∧
    (finish : StreamResponse).status.startsWith "error" = false

theorem receiveStream_alone (hP : P.Whole) (fuel : Nat) {messages : List StreamMessage}
    (hdue : Due P c (w.net.conns c) before f got) (hmessages : chunks S got = some messages) :
    Meets (alone P) (receiveStream S c fuel messages)
      (fun w' result => Touches c w w' ∧
        ∀ messages, result = some messages → Drained P S c before f (w'.net.conns c) messages)
      (fun _ _ => True) w := by
  induction fuel generalizing w messages got with
  | zero => exact ⟨Touches.refl c w, nofun⟩
  | succ fuel ih =>
  rw [receiveStream, meets_bind]
  refine meets_mono (read_alone hP hdue) ?_ fun _ _ _ => trivial
  rintro w₁ g ⟨ht₁, hdue⟩
  have hrest {messages : List StreamMessage} (hmessages : chunks S (got ++ [g]) = some messages) :
      Meets (alone P) (receiveStream S c fuel messages)
        (fun w' result => Touches c w w' ∧
          ∀ messages, result = some messages → Drained P S c before f (w'.net.conns c) messages)
        (fun _ _ => True) w₁ :=
    meets_mono (ih hdue hmessages) (fun w' _ h => ⟨ht₁.trans h.1, h.2⟩) fun _ _ h => h
  split
  · next htype =>
    exact hrest ((chunks_other S got (by simp [htype, msgStreamStart, msgStreamChunk])).trans hmessages)
  split
  · next htype =>
    rw [meets_bind, Code.meets_decode]
    cases hmsg : (S.fromSlice g.payload : Option StreamMessage) with
    | none => trivial
    | some msg => exact hrest (chunks_chunk S hmessages htype hmsg)
  split
  · next htype =>
    rw [meets_bind, Code.meets_decode]
    cases hfinish : (S.fromSlice g.payload : Option StreamResponse) with
    | none => trivial
    | some finish =>
    show Meets _ (ite _ _ _) _ _ _
    split
    · trivial
    next hstatus =>
    refine ⟨ht₁, fun messages' h => ?_⟩
    cases h
    obtain ⟨msgType, body⟩ := g
    obtain rfl : msgType = msgStreamEnd := htype
    exact ⟨got, body, finish, hdue, hmessages, hfinish, by simpa using hstatus⟩
  split
  · rw [meets_bind, Code.meets_decode]
    cases (S.fromSlice g.payload : Option Value) <;> trivial
  · trivial

theorem doCallStreamingInternal_alone (hP : P.Whole) (h : Ready P w₀ w c before)
    (hcreated : w.net.created = w₀.net.created) (service method : String) (payload : Value)
    (mode : StreamMode) (fuel : Nat) :
    Meets (alone P) (doCallStreamingInternal S service method payload mode fuel)
      (fun w' result => ∀ messages, result = some messages → Calm P w' ∧
        Replied S P w₀ w' (.callStreaming service method payload mode fuel) (.stream (.ok (some messages))))
      (fun _ _ => True) w := by
  unfold doCallStreamingInternal
  rw [meets_bind]
  refine meets_mono (held_alone h.stream) ?_ fun _ _ h => h
  rintro _ _ ⟨rfl, rfl⟩
  rw [meets_bind]
  refine meets_mono (split_alone h.settled) ?_ fun _ _ h => h
  rintro w₁ _ ⟨ht₁, hset⟩
  split
  · -- The payload takes no field: the task panics here.
    unfold panic
    rw [meets_bind]
    exact own_alone fun r _ _ => nomatch r
  next requestPayload hassign =>
  rw [meets_bind]
  refine meets_mono (newRequest_alone w₁ service method requestPayload) ?_ fun _ _ h => h
  rintro _ r ⟨rfl, requestId, correlationId, rfl⟩
  have hready :=
    (h.touched ht₁ hset).create (ServiceRequest.new requestId correlationId service method requestPayload)
  rw [meets_bind]
  refine meets_mono (write_alone hready.settled) ?_ fun _ _ _ => trivial
  rintro w₂ _ ⟨ht₂, hdue⟩
  refine meets_mono (receiveStream_alone S hP fuel hdue rfl) ?_ fun _ _ h => h
  rintro w₃ result ⟨ht₃, hdrained⟩ messages hresult
  obtain ⟨got, body, finish, hdue, hmessages, hfinish, hstatus⟩ := hdrained messages hresult
  -- The message that ends a stream is the last of the answer.
  obtain ⟨more, hans, -⟩ := hdue.left
  obtain rfl := hP.ends _ _ _ got ⟨msgStreamEnd, body⟩ more (by simpa using hans) (.inl rfl)
  have hex := hready.exchanged (ht₂.trans ht₃) hdue (hans.trans (List.append_nil _))
  refine ⟨hex.calm, _, before, requestId, correlationId, requestPayload, got, body, finish, hassign, ?_,
    hex, hmessages, hfinish, hstatus⟩
  rw [(ht₂.trans ht₃).created, ← hcreated, ← ht₁.created]
  exact Net.create_created_self ..

theorem close_alone (w : Client UdsClient) :
    Meets (alone P) close (fun w' _ => Calm P w') (fun w' _ => Calm P w') w := by
  unfold close
  rw [meets_bind]
  refine own_alone fun _ u hu => ?_
  cases hu
  rw [meets_bind]
  refine own_alone fun _ u hu => ?_
  cases hu
  refine own_alone fun _ u hu => ?_
  cases hu
  exact fun c hc => nomatch hc

/-- **An operation leaves the client calm, and its result is the reply to its own message.** -/
theorem task_alone (hP : P.Whole) (hcalm : Calm P w) (job : Job) :
    Safe (alone P) (job.task S)
      (fun w' outcome => outcome.Ended → Calm P w' ∧ Replied S P w w' job outcome) w := by
  cases job with
  | connect =>
    show Safe _ (_ >>= fun r => .done (Outcome.done r)) _ _
    rw [safe_bind]
    refine safe_mono (connect_alone S hP w) fun w' r hr _ => ?_
    cases r with
    | ok _ =>
      obtain ⟨-, c, ack, response, hex, hrest⟩ := hr
      exact ⟨hex.calm, c, ack, response, hex, hrest⟩
    | error e => exact ⟨hcalm.untouched hr, trivial⟩
  | call service method payload =>
    show Safe _ (_ >>= fun r => .done (Outcome.reply r)) _ _
    rw [safe_bind]
    refine safe_mono (request_alone S hP hcalm fun w' c before hready hcreated =>
      doCallInternal_alone S hP hready hcreated service method payload) fun w' r hr _ => ?_
    cases r with
    | ok response => exact hr
    | error e => exact ⟨hr, trivial⟩
  | callStreaming service method payload mode fuel =>
    show Safe _ (_ >>= fun r => .done (Outcome.stream r)) _ _
    rw [safe_bind]
    refine safe_mono (request_alone S hP hcalm fun w' c before hready hcreated =>
      doCallStreamingInternal_alone S hP hready hcreated service method payload mode fuel)
      fun w' r hr hended => ?_
    match r with
    | .ok (some messages) => exact hr messages rfl
    | .ok none => exact hended.elim
    | .error e => exact ⟨hr, trivial⟩
  | getSchema =>
    show Safe _ (_ >>= fun r => .done (Outcome.schema r)) _ _
    rw [safe_bind]
    refine safe_mono (request_alone S hP hcalm fun w' c before hready _ =>
      doGetSchemaInternal_alone S hP hready) fun w' r hr _ => ?_
    cases r with
    | ok schema => exact hr
    | error e => exact ⟨hr, trivial⟩
  | close =>
    show Safe _ (_ >>= fun r => .done (Outcome.done r)) _ _
    rw [safe_bind]
    refine safe_mono (close_alone w) fun w' r hr _ => ?_
    cases r <;> exact ⟨hr, trivial⟩

theorem Between.calm (hP : P.Whole) (h : Between S P w) : Calm P w := by
  induction h with
  | new => exact calm_new P
  | awaited h hjob ih => exact (hjob.1.safe (task_alone S hP ih _) hjob.2).1

end Methods

/-- **Replies are kept apart.** Between two operations nothing is outstanding or unread on the
client's stream, and whatever an operation then returns, if it is no error, is decoded from the
reply to the message of that operation. -/
theorem replies_apart (S : Codec) {P : Peer} (hP : P.Whole) {w : Client UdsClient} (h : Between S P w) :
    (∀ c, w.fields.stream = some c → ∃ fs, Settled P c (w.net.conns c) fs) ∧
      ∀ job outcome w', Awaited S P w job outcome w' → Replied S P w w' job outcome := by
  have hcalm := h.calm S hP
  refine ⟨fun c hc => (hcalm c hc).2, fun job outcome w' hjob => ?_⟩
  exact (hjob.1.safe (task_alone S hP hcalm job) hjob.2).2

/-! ### A stream that is read to its end -/

section Sample
open Json.Text (compact)
open Json (toValue)

instance (P : Peer) (w : Client UdsClient) (o : NetOp Fields) (choice : Choice) :
    Decidable (Honest P w o choice) :=
  match o with
  | .net (.read c timed) =>
    match h : readMessage ((w.net.conns c).ahead ++ choice.got) with
    | .message f rest => decidable_of_iff (P.Delivers w.net (.read c timed) choice)
      ⟨fun hd _ => hd, fun hd => hd ⟨f, rest, h⟩⟩
    | .invalid .. | .short => isTrue fun ⟨_, _, hm⟩ => nomatch h.symm.trans hm
  | .net (.connect _) | .net (.split _) | .net (.write ..) | .net (.newRequest ..) | .own _ => isTrue trivial

instance (P : Peer) (w : Client UdsClient) (o : NetOp Fields) (choice : Choice) :
    Decidable (Smooth P w o choice) := by
  unfold Smooth
  split <;> infer_instance

/-- One chunk, and the end of its stream. -/
def chunk : Frame := ⟨msgStreamChunk, compact.toVec (Value.object [("request_id", .string "a"),
  ("chunk_index", .int 0), ("content", .null), ("metadata", .null)])⟩

def finish : Frame := ⟨msgStreamEnd, compact.toVec (Value.object [("request_id", .string "a"),
  ("mode", .string "values"), ("status", .string "success"), ("final_payload", .null)])⟩

/-- A server that accepts a handshake, and answers everything else with one chunk. -/
def streamer : Peer where
  answers _ _ f :=
    if f.msgType = msgHandshake then [EchoServer.ack]
    else if f.msgType = msgStreamRequest then [⟨msgStreamStart, []⟩, chunk, finish]
    else []

theorem streamer_answers (c : ConnId) (before : List Frame) (f : Frame) :
    streamer.answers c before f = [EchoServer.ack] ∨
    (f.msgType = msgStreamRequest ∧
      streamer.answers c before f = [⟨msgStreamStart, []⟩, chunk, finish]) ∨
    streamer.answers c before f = [] := by
  by_cases hhello : f.msgType = msgHandshake
  · exact .inl (if_pos hhello)
  by_cases hstream : f.msgType = msgStreamRequest
  · exact .inr (.inl ⟨hstream, (if_neg hhello).trans (if_pos hstream)⟩)
  · exact .inr (.inr ((if_neg hhello).trans (if_neg hstream)))

theorem streamer_whole : streamer.Whole where
  fits c before f g hg := by
    rcases streamer_answers c before f with h | ⟨-, h⟩ | h <;> rw [h] at hg
    · rw [List.mem_singleton.mp hg]
      decide
    · simp only [List.mem_cons, List.not_mem_nil, or_false] at hg
      rcases hg with rfl | rfl | rfl <;> decide +kernel
    · cases hg
  single c before f hf := by
    rcases streamer_answers c before f with h | ⟨hstream, -⟩ | h
    · rw [h, List.length_singleton]
    · exact absurd hstream hf
    · simp [h]
  ends c before f got g more hans hg := by
    rcases streamer_answers c before f with h | ⟨-, h⟩ | h <;> rw [h] at hans
    · rcases got with _ | ⟨_, got⟩ <;> simp_all
    · rcases got with _ | ⟨_, _ | ⟨_, _ | ⟨_, got⟩⟩⟩ <;> simp at hans
      · obtain ⟨rfl, -⟩ := hans
        exact absurd hg (by decide)
      · obtain ⟨-, rfl, -⟩ := hans
        exact absurd hg (by decide)
      · exact hans.2.2.2
    · simp at hans

def watch : Job := .callStreaming "echo" "watch" (.object []) .values 3

/-- A stream is asked for and read, on a connection made for it. -/
def watched : List (Nat × Choice) :=
  goes 0 4 ++ [(0, .arrive (encode EchoServer.ack))] ++ goes 0 5 ++ [(0, .uuids "a" "b")] ++ goes 0 1 ++
    [(0, .arrive (encodeAll [⟨msgStreamStart, []⟩, chunk, finish])), (0, .arrive []), (0, .arrive [])]

/-- The messages of the stream the task has returned. -/
def returnedStream (s : Config (NetWith Fields) (Client UdsClient) Outcome) : Option (List StreamMessage) :=
  match s.returned 0 with
  | some (.stream (.ok messages)) => messages
  | _ => none

theorem returnedStream_eq_some {s : Config (NetWith Fields) (Client UdsClient) Outcome}
    {messages : List StreamMessage} (h : returnedStream s = some messages) :
    s.returned 0 = some (.stream (.ok (some messages))) := by
  unfold returnedStream at h
  split at h
  · next hr => rw [hr, h]
  · cases h

/-- One stream that was read, of which the theorem speaks. -/
theorem replies_apart_watched : ∃ messages w,
    Awaited compact streamer ⟨.new, .empty⟩ watch (.stream (.ok (some messages))) w ∧
      messages.length = 1 ∧ Replied compact streamer ⟨.new, .empty⟩ w watch (.stream (.ok (some messages))) ∧
      ∃ c fs, w.fields.stream = some c ∧ Settled streamer c (w.net.conns c) fs := by
  have hend : ((⟨⟨.new, .empty⟩, [watch.task compact]⟩ : Config (NetWith Fields) (Client UdsClient) Outcome).run
      machine watched).bind (fun s => (returnedStream s).map fun m => (m.length, s.world.fields.stream)) =
        some (1, some 0) := by
    decide +kernel
  obtain ⟨s, hrun, hs⟩ := Option.bind_eq_some_iff.mp hend
  obtain ⟨messages, hmessages, heq⟩ := Option.map_eq_some_iff.mp hs
  obtain ⟨hlength, hstream⟩ := Prod.mk.inj heq
  have hjob : Awaited compact streamer ⟨.new, .empty⟩ watch (.stream (.ok (some messages))) s.world :=
    ⟨⟨watched, s, hrun, Config.along_of_checks (by decide +kernel), returnedStream_eq_some hmessages, rfl⟩,
      trivial⟩
  have hreplied := (replies_apart compact streamer_whole .new).2 _ _ _ hjob
  obtain ⟨fs, hset⟩ := (replies_apart compact streamer_whole (.awaited .new hjob)).1 0 hstream
  exact ⟨messages, s.world, hjob, hlength, hreplied, 0, fs, hstream, hset⟩

end Sample

end UdsClient

end XProtocol
