import XProtocol.Client.Greeting
import XProtocol.Client.Uds
import XProtocol.Tcp.Client

/-! The two clients that greet.

The Unix-socket client greets each connection and stores it once it was welcomed, so
that all it opens are in order, whatever happens (`UdsClient.speaks`). The TCP client
stores a connection before it has greeted it. Each call greets there, and goes on
whatever it reads: so it is in order as long as what it reads first accepts the
handshake, and no greeting broke off before its type was out (`TcpClient.speaks`). -/
namespace XProtocol
open Async
open Json (Bytes Value Codec)
open Wire

/-! ### The Unix-socket client -/

namespace UdsClient

/-- The operations at which a method may be dropped. -/
def suspends : NetOp Fields → Bool
  | .net (.connect _) => true
  | .net (.write ..) => true
  | .net (.read ..) => true
  | .own .stream => true
  | .own (.setStream _) => true
  | _ => false

/-- Every connection is in order, and the stored one was welcomed. -/
structure Civil (S : Codec) (w : Client UdsClient) : Prop where
  mannered : ∀ d, Mannered S (w.net.conns d)
  stored : ∀ c, w.fields.stream = some c → c < w.net.opened ∧ Welcomed S (w.net.conns c)

/-- What the client owes at an operation. -/
def Owes (S : Codec) (w : Client UdsClient) (o : NetOp Fields) : Prop :=
  Civil S w ∧ match o with
    | .net o => Polite S w.net o ∧ Unbroken w.net o
    | .own _ => True

def civil (S : Codec) : Discipline (NetWith Fields) (Client UdsClient) :=
  machine.within (fun _ _ _ => True) (Owes S)

section
variable {S : Codec} {w : Client UdsClient} {c : ConnId}

theorem civil_new (S : Codec) : Civil S ⟨.new, .empty⟩ where
  mannered _ := (mannered_passive S).fresh 0
  stored _ hc := nomatch hc

theorem Civil.grows (h : Civil S w) {n : Net} (hn : w.net.Grows n) (hmannered : ∀ d, Mannered S (n.conns d)) :
    Civil S { w with net := n } where
  mannered := hmannered
  stored c hc :=
    have hstored := h.stored c hc
    ⟨Nat.lt_of_lt_of_le hstored.1 hn.opened, hstored.2.grows hn hstored.1⟩

theorem Owes.abandon {o : NetOp Fields} (h : Owes S w o) (out : Nat) (got : Bytes) :
    Civil S (w.abandon out got o) := by
  obtain ⟨hcivil, ho⟩ := h
  cases o with
  | own o => exact hcivil
  | net o =>
    exact hcivil.grows (abandon_grows o out got w.net)
      (abandon_each (mannered_passive S) hcivil.mannered (ho.1.sends ho.2 hcivil.mannered) out got)

variable (S) in
theorem minds : Minds S (civil S) (Civil S) (fun _ _ _ => True) fun w o => Unbroken w.net o where
  unbroken h := h
  net h hpolite hout := by
    refine Client.net_within ⟨h, hpolite, hout⟩ fun choice r n _ hn => ?_
    refine ⟨choice, n, rfl, trivial, h.grows (perform_grows hn) ?_, perform_grows hn, hn⟩
    exact perform_each (mannered_passive S) h.mannered (hpolite.sends hout h.mannered) hn

variable {R : Client UdsClient → ProtocolError → Prop}

theorem own_civil {o : Op} {Q : Client UdsClient → Fields.Ret o → Prop} (h : Civil S w)
    (hQ : ∀ r u, perform o .go w.fields = some (r, u) → Q { w with fields := u } r) :
    Meets (civil S) (own o) Q R w := by
  refine meets_lift.mpr (Client.own_within ⟨h, trivial⟩ fun choice r u hu => ?_)
  have hgo : choice = .go := by cases o <;> cases choice <;> first | rfl | cases hu
  exact hQ r u (hgo ▸ hu)

theorem dial_civil (h : Civil S w) :
    Meets (civil S) dial
      (fun w' c => Civil S w' ∧ c < w'.net.opened ∧ (w'.net.conns c).written = []) (fun w' _ => Civil S w') w := by
  unfold dial
  rw [meets_bind]
  refine meets_lift.mpr (safe_mono ((minds S).connect h true) ?_)
  rintro w' r ⟨hcivil, -, hr⟩
  match r with
  | .inTime (.ok c) => exact ⟨hcivil, hr c rfl⟩
  | .inTime (.error _) => exact hcivil
  | .elapsed => exact hcivil

theorem read_civil (h : Civil S w) :
    Meets (civil S) (.readTimed c : Code Frame)
      (fun w' f => Civil S w' ∧ w.net.Grows w'.net ∧
        (Awaiting w.net c → Accepts S f → Welcomed S (w'.net.conns c))) (fun w' _ => Civil S w') w := by
  unfold Code.readTimed
  rw [meets_bind]
  refine meets_lift.mpr (safe_mono ((minds S).reads h true) ?_)
  rintro w' r ⟨hcivil, hr⟩
  match r with
  | .inTime (.ok f) =>
    obtain ⟨-, hgrows, choice, rest, -, -, hwelcomed⟩ := hr f rfl
    exact ⟨hcivil, hgrows, fun hawaiting hf => hwelcomed hawaiting (.inr hf)⟩
  | .inTime (.error _) => exact hcivil
  | .elapsed => exact hcivil

/-- A connection is stored once it was welcomed. -/
theorem connect_civil (h : Civil S w) :
    Meets (civil S) (connect S) (fun w' _ => Civil S w') (fun w' _ => Civil S w') w := by
  unfold connect
  rw [meets_bind]
  refine meets_mono (dial_civil h) ?_ fun _ _ h => h
  rintro w₁ c ⟨h₁, hc, hnil⟩
  rw [meets_bind]
  refine meets_mono ((minds S).split h₁) ?_ fun _ _ h => h
  rintro w₂ _ ⟨h₂, -, hgrows, hwritten⟩
  rw [meets_bind]
  refine meets_mono ((minds S).write h₂ ⟨Nat.lt_of_lt_of_le hc hgrows.opened, .inl rfl⟩
    (.inl (hwritten.trans hnil))) ?_ fun _ _ h => h
  rintro w₃ _ ⟨h₃, -, -, hawaiting⟩
  rw [meets_bind]
  refine meets_mono (read_civil h₃) ?_ fun _ _ h => h
  rintro w₄ f ⟨h₄, hgrows, hwelcomed⟩
  split
  · exact h₄
  next htype =>
  rw [meets_bind, Code.meets_decode]
  cases hresponse : (S.fromSlice f.payload : Option HandshakeResponse) with
  | none => exact h₄
  | some response =>
  show Meets _ (ite _ _ _) _ _ _
  split
  · exact h₄
  next hsuccess =>
  have hf : Accepts S f := ⟨not_not.mp htype, response, hresponse, by simpa using hsuccess⟩
  rw [meets_bind]
  refine own_civil h₄ fun _ u hu => ?_
  cases hu
  rw [meets_bind]
  have h₅ : Civil S { w₄ with fields := { w₄.fields with sessionId := some response.sessionId } } :=
    ⟨h₄.mannered, h₄.stored⟩
  refine own_civil h₅ fun _ u hu => ?_
  cases hu
  refine own_civil ⟨h₅.mannered, h₅.stored⟩ fun _ u hu => ?_
  cases hu
  refine ⟨h₄.mannered, fun d hd => ?_⟩
  obtain rfl := Option.some.inj hd
  exact ⟨Nat.lt_of_lt_of_le hawaiting.opened hgrows.opened, hwelcomed hawaiting hf⟩

/-- An exchange on the stored stream, which is dropped after a failure. -/
theorem request_civil {α : Type} {p : Code α}
    (hp : ∀ w, Civil S w → Meets (civil S) p (fun w' _ => Civil S w') (fun w' _ => Civil S w') w)
    (h : Civil S w) :
    Meets (civil S) (request S p) (fun w' _ => Civil S w') (fun w' _ => Civil S w') w := by
  have hexchange (w : Client UdsClient) (h : Civil S w) :
      Meets (civil S) (tryCatch p fun e => do
        setConnected false
        setStream none
        throw e) (fun w' _ => Civil S w') (fun w' _ => Civil S w') w := by
    rw [meets_tryCatch]
    refine meets_mono (hp w h) (fun _ _ h => h) fun w e h => ?_
    rw [meets_bind]
    refine own_civil h fun _ u hu => ?_
    cases hu
    rw [meets_bind]
    refine own_civil ⟨h.mannered, h.stored⟩ fun _ u hu => ?_
    cases hu
    exact ⟨h.mannered, fun c hc => nomatch hc⟩
  unfold request
  rw [meets_bind]
  refine own_civil h fun r u hu => ?_
  cases hu
  cases w.fields.stream with
  | some c => exact hexchange w h
  | none =>
    show Meets _ (_ >>= _) _ _ _
    rw [meets_bind]
    exact meets_mono (connect_civil h) (fun w' _ h => hexchange w' h) fun _ _ h => h

theorem held_civil (h : Civil S w) :
    Meets (civil S) held
      (fun w' c => Civil S w' ∧ c < w'.net.opened ∧ Welcomed S (w'.net.conns c)) (fun w' _ => Civil S w') w := by
  unfold held
  rw [meets_bind]
  refine own_civil h fun r u hu => ?_
  cases hu
  cases hc : w.fields.stream with
  | none => exact h
  | some c => exact ⟨h, h.stored c hc⟩

theorem doCallInternal_civil (service method : String) (payload : Value) (h : Civil S w) :
    Meets (civil S) (doCallInternal S service method payload) (fun w' _ => Civil S w')
      (fun w' _ => Civil S w') w := by
  unfold doCallInternal
  rw [meets_bind]
  refine meets_mono (held_civil h) ?_ fun _ _ h => h
  rintro w₁ c ⟨h₁, hc, hwelcomed⟩
  rw [meets_bind]
  refine meets_mono ((minds S).split h₁) ?_ fun _ _ h => h
  rintro w₂ _ ⟨h₂, -, hgrows₂, -⟩
  rw [meets_bind]
  refine meets_mono ((minds S).newRequest h₂ service method payload) ?_ fun _ _ h => h
  rintro w₃ r ⟨h₃, -, hgrows₃⟩
  have hgrows := hgrows₂.trans hgrows₃
  rw [meets_bind]
  refine meets_mono ((minds S).write_welcomed h₃ (Nat.lt_of_lt_of_le hc hgrows.opened)
    (hwelcomed.grows hgrows hc)) ?_
    fun _ _ h => h
  rintro w₄ _ h₄
  rw [meets_bind]
  refine meets_mono (read_civil h₄) ?_ fun _ _ h => h
  rintro w₅ f ⟨h₅, -⟩
  split
  · exact h₅
  · rw [Code.meets_decode]
    cases (S.fromSlice f.payload : Option ServiceResponse) <;> exact h₅

theorem receiveStream_civil (c : ConnId) (fuel : Nat) (messages : List StreamMessage) (h : Civil S w) :
    Meets (civil S) (receiveStream S c fuel messages) (fun w' _ => Civil S w') (fun w' _ => Civil S w') w := by
  induction fuel generalizing messages w with
  | zero => exact h
  | succ fuel ih =>
    unfold receiveStream
    rw [meets_bind]
    refine meets_mono (read_civil h) ?_ fun _ _ h => h
    rintro w₁ f ⟨h₁, -⟩
    split
    · exact ih messages h₁
    split
    · rw [meets_bind, Code.meets_decode]
      cases (S.fromSlice f.payload : Option StreamMessage) with
      | none => exact h₁
      | some msg => exact ih (messages ++ [msg]) h₁
    split
    · rw [meets_bind, Code.meets_decode]
      cases (S.fromSlice f.payload : Option StreamResponse) with
      | none => exact h₁
      | some finish =>
        show Meets _ (ite _ _ _) _ _ _
        split <;> exact h₁
    split
    · rw [meets_bind, Code.meets_decode]
      cases (S.fromSlice f.payload : Option Value) <;> exact h₁
    · exact h₁

theorem doCallStreamingInternal_civil (service method : String) (payload : Value) (mode : StreamMode)
    (fuel : Nat) (h : Civil S w) :
    Meets (civil S) (doCallStreamingInternal S service method payload mode fuel) (fun w' _ => Civil S w')
      (fun w' _ => Civil S w') w := by
  unfold doCallStreamingInternal
  rw [meets_bind]
  refine meets_mono (held_civil h) ?_ fun _ _ h => h
  rintro w₁ c ⟨h₁, hc, hwelcomed⟩
  rw [meets_bind]
  refine meets_mono ((minds S).split h₁) ?_ fun _ _ h => h
  rintro w₂ _ ⟨h₂, -, hgrows₂, -⟩
  cases payload.assign "stream_mode" (.string mode.asStr) with
  | none =>
    unfold panic
    rw [meets_bind]
    refine own_civil h₂ fun r _ _ => nomatch r
  | some requestPayload =>
    rw [meets_bind]
    refine meets_mono ((minds S).newRequest h₂ service method requestPayload) ?_ fun _ _ h => h
    rintro w₃ r ⟨h₃, -, hgrows₃⟩
    have hgrows := hgrows₂.trans hgrows₃
    rw [meets_bind]
    refine meets_mono ((minds S).write_welcomed h₃ (Nat.lt_of_lt_of_le hc hgrows.opened)
      (hwelcomed.grows hgrows hc)) ?_
      fun _ _ h => h
    exact fun w₄ _ h₄ => receiveStream_civil c fuel [] h₄

theorem doGetSchemaInternal_civil (h : Civil S w) :
    Meets (civil S) (doGetSchemaInternal S) (fun w' _ => Civil S w') (fun w' _ => Civil S w') w := by
  unfold doGetSchemaInternal
  rw [meets_bind]
  refine meets_mono (held_civil h) ?_ fun _ _ h => h
  rintro w₁ c ⟨h₁, hc, hwelcomed⟩
  rw [meets_bind]
  refine meets_mono ((minds S).split h₁) ?_ fun _ _ h => h
  rintro w₂ _ ⟨h₂, -, hgrows, -⟩
  rw [meets_bind]
  refine meets_mono ((minds S).write_welcomed h₂ (Nat.lt_of_lt_of_le hc hgrows.opened)
    (hwelcomed.grows hgrows hc)) ?_
    fun _ _ h => h
  rintro w₃ _ h₃
  rw [meets_bind]
  refine meets_mono (read_civil h₃) ?_ fun _ _ h => h
  rintro w₄ f ⟨h₄, -⟩
  split
  · exact h₄
  · rw [Code.meets_decode]
    cases (S.fromSlice f.payload : Option ServiceSchema) <;> exact h₄

theorem close_civil (h : Civil S w) :
    Meets (civil S) close (fun w' _ => Civil S w') (fun w' _ => Civil S w') w := by
  unfold close
  rw [meets_bind]
  refine own_civil h fun _ u hu => ?_
  cases hu
  rw [meets_bind]
  refine own_civil ⟨h.mannered, h.stored⟩ fun _ u hu => ?_
  cases hu
  refine own_civil ⟨h.mannered, h.stored⟩ fun _ u hu => ?_
  cases hu
  exact ⟨h.mannered, fun c hc => nomatch hc⟩

theorem task_civil (job : Job) (h : Civil S w) :
    Safe (civil S) (job.task S) (fun w' _ => Civil S w') w := by
  have hmap {α : Type} {p : Code α} (f : Result α → Outcome)
      (hp : Meets (civil S) p (fun w' _ => Civil S w') (fun w' _ => Civil S w') w) :
      Safe (civil S) (f <$> p.run) (fun w' _ => Civil S w') w :=
    safe_map hp (fun _ _ h => h) fun _ _ h => h
  cases job with
  | connect => exact hmap _ (connect_civil h)
  | call service method payload =>
    exact hmap _ (request_civil (fun _ h => doCallInternal_civil service method payload h) h)
  | callStreaming service method payload mode fuel =>
    exact hmap _ (request_civil (fun _ h => doCallStreamingInternal_civil service method payload mode fuel h) h)
  | getSchema => exact hmap _ (request_civil (fun _ h => doGetSchemaInternal_civil h) h)
  | close => exact hmap _ (close_civil h)

end

/-- A new client that is asked for `jobs`, one after the other, any of which may be dropped. -/
def sole (S : Codec) (jobs : List Job) :
    Config (NetWith Fields).droppable (Client UdsClient) (List (Option Outcome)) :=
  ⟨⟨.new, .empty⟩, [Client.inTurn (jobs.map (Job.task S))]⟩

/-- **Whatever is asked of it, and whatever happens, the Unix-socket client speaks.** -/
theorem speaks (S : Codec) (jobs : List Job) (ls : List (Nat × Choice)) :
    (sole S jobs).Throughout (Client.dropping suspends fun _ => perform)
      (fun s => ∀ d, Mannered S (s.world.net.conns d)) ls := by
  have hcivil : (sole S jobs).Throughout (Client.dropping suspends fun _ => perform)
      (fun s => Civil S s.world) ls := by
    refine Client.throughout_inTurn (P := fun _ _ _ => True) (A := Owes S) (fun _ _ h => h.1)
      (fun w o out got h _ => Owes.abandon h out got) (fun m hm w hw => ?_)
      (civil_new S) (Config.along_of_forall (fun _ _ _ _ _ => trivial) _ ls)
    obtain ⟨job, -, rfl⟩ := List.mem_map.mp hm
    exact task_civil job hw
  exact Config.throughout_mono (fun _ h => h.mannered) hcivil

end UdsClient

/-! ### The TCP client -/

namespace TcpClient

/-- The operations at which a method may be dropped. -/
def suspends : NetOp Fields → Bool
  | .net (.connect _) => true
  | .net (.write ..) => true
  | .net (.read ..) => true
  | .own .stream => true
  | .own (.setStream _) => true
  | _ => false

/-- On the stored connection a reply accepts the handshake, unless one was accepted before, and no
message is written behind one that broke off before its type. -/
def Favoured (S : Codec) (w : Client TcpClient) : NetOp Fields → Choice → Prop
  | .net (.read c _), choice => w.fields.stream = some c → ∀ f rest,
    readMessage ((w.net.conns c).ahead ++ choice.got) = .message f rest →
      Accepted S (w.net.conns c).log ∨ Accepts S f
  | .net (.write c msgType payload), _ =>
    w.fields.stream = some c → Unbroken w.net (.write c msgType payload)
  | _, _ => True

/-- Every connection is in order, and the stored one is open. -/
structure Civil (S : Codec) (w : Client TcpClient) : Prop where
  mannered : ∀ d, Mannered S (w.net.conns d)
  stored : ∀ c, w.fields.stream = some c → c < w.net.opened

/-- Nothing is written behind a message that broke off, except on the stored connection. -/
def Free (w : Client TcpClient) (o : Net.Op) : Prop :=
  Unbroken w.net o ∨ ∃ c msgType payload, o = .write c msgType payload ∧ w.fields.stream = some c

/-- What the client owes at an operation. -/
def Owes (S : Codec) (w : Client TcpClient) (o : NetOp Fields) : Prop :=
  Civil S w ∧ match o with
    | .net o => Polite S w.net o ∧ Free w o
    | .own _ => True

def civil (S : Codec) : Discipline (NetWith Fields) (Client TcpClient) :=
  machine.within (Favoured S) (Owes S)

section
variable {S : Codec} {w : Client TcpClient} {c : ConnId}

theorem civil_new (S : Codec) : Civil S ⟨.new, .empty⟩ where
  mannered _ := (mannered_passive S).fresh 0
  stored _ hc := nomatch hc

theorem Civil.grows (h : Civil S w) {n : Net} (hn : w.net.Grows n) (hmannered : ∀ d, Mannered S (n.conns d)) :
    Civil S { w with net := n } :=
  ⟨hmannered, fun c hc => Nat.lt_of_lt_of_le (h.stored c hc) hn.opened⟩

theorem Free.unbroken {o : Net.Op} {choice : Choice} (h : Free w o) (hfavoured : Favoured S w (.net o) choice) :
    Unbroken w.net o := by
  rcases h with h | ⟨c, msgType, payload, rfl, hc⟩
  · exact h
  · exact hfavoured hc

theorem Owes.abandon {o : NetOp Fields} {out : Nat} {got : Bytes} (h : Owes S w o)
    (hfavoured : Favoured S w o (.drop out got)) : Civil S (w.abandon out got o) := by
  obtain ⟨hcivil, ho⟩ := h
  cases o with
  | own o => exact hcivil
  | net o =>
    exact hcivil.grows (abandon_grows o out got w.net) (abandon_each (mannered_passive S) hcivil.mannered
      (ho.1.sends (ho.2.unbroken hfavoured) hcivil.mannered) out got)

variable (S) in
theorem minds : Minds S (civil S) (Civil S) (Favoured S) Free where
  unbroken := .inl
  net h hpolite hfree := by
    refine Client.net_within ⟨h, hpolite, hfree⟩ fun choice r n hfavoured hn => ?_
    refine ⟨choice, n, rfl, hfavoured, h.grows (perform_grows hn) ?_, perform_grows hn, hn⟩
    exact perform_each (mannered_passive S) h.mannered
      (hpolite.sends (hfree.unbroken hfavoured) h.mannered) hn

variable {R : Client TcpClient → ProtocolError → Prop}

theorem own_civil {o : Op} {Q : Client TcpClient → Fields.Ret o → Prop} (h : Civil S w)
    (hQ : ∀ r u, perform o .go w.fields = some (r, u) → Q { w with fields := u } r) :
    Meets (civil S) (own o) Q R w := by
  refine meets_lift.mpr (Client.own_within ⟨h, trivial⟩ fun choice r u hu => ?_)
  have hgo : choice = .go := by cases o <;> cases choice <;> first | rfl | cases hu
  exact hQ r u (hgo ▸ hu)

theorem dial_civil (h : Civil S w) :
    Meets (civil S) dial
      (fun w' c => Civil S w' ∧ c < w'.net.opened ∧ (w'.net.conns c).written = []) (fun w' _ => Civil S w') w := by
  unfold dial
  rw [meets_bind]
  refine meets_lift.mpr (safe_mono ((minds S).connect h false) ?_)
  rintro w' r ⟨hcivil, -, hr⟩
  match r with
  | .inTime (.ok c) => exact ⟨hcivil, hr c rfl⟩
  | .inTime (.error _) => exact hcivil
  | .elapsed => exact hcivil

/-- What is read on the stored connection welcomes it. -/
theorem read_civil (h : Civil S w) :
    Meets (civil S) (.read c : Code Frame)
      (fun w' _ => Civil S w' ∧ w'.fields = w.fields ∧ w.net.Grows w'.net ∧
        (Awaiting w.net c → w.fields.stream = some c → Welcomed S (w'.net.conns c)))
      (fun w' _ => Civil S w') w := by
  unfold Code.read
  rw [meets_bind]
  refine meets_lift.mpr (safe_mono ((minds S).reads h false) ?_)
  rintro w' r ⟨hcivil, hr⟩
  match r with
  | .inTime (.ok f) =>
    obtain ⟨hfields, hgrows, choice, rest, hfavoured, hread, hwelcomed⟩ := hr f rfl
    exact ⟨hcivil, hfields, hgrows, fun hawaiting hc => hwelcomed hawaiting (hfavoured hc f rest hread)⟩
  | .inTime (.error _) => exact hcivil
  | .elapsed => exact hcivil

theorem connect_civil (h : Civil S w) :
    Meets (civil S) (connect S) (fun w' _ => Civil S w') (fun w' _ => Civil S w') w := by
  unfold connect
  rw [meets_bind]
  refine meets_mono (dial_civil h) ?_ fun _ _ h => h
  rintro w₁ c ⟨h₁, hc, hnil⟩
  rw [meets_bind]
  refine meets_mono ((minds S).split h₁) ?_ fun _ _ h => h
  rintro w₂ _ ⟨h₂, -, hgrows, hwritten⟩
  rw [meets_bind]
  refine meets_mono ((minds S).write h₂ ⟨Nat.lt_of_lt_of_le hc hgrows.opened, .inl rfl⟩
    (.inl (.inl (hwritten.trans hnil)))) ?_ fun _ _ h => h
  rintro w₃ _ ⟨h₃, -⟩
  rw [meets_bind]
  refine meets_mono (read_civil h₃) ?_ fun _ _ h => h
  rintro w₄ f ⟨h₄, -⟩
  split
  · exact h₄
  rw [meets_bind, Code.meets_decode]
  cases (S.fromSlice f.payload : Option HandshakeResponse) with
  | none => exact h₄
  | some response =>
  show Meets _ (ite _ _ _) _ _ _
  split
  · exact h₄
  rw [meets_bind]
  refine own_civil h₄ fun _ u hu => ?_
  cases hu
  rw [meets_bind]
  refine own_civil ⟨h₄.mannered, h₄.stored⟩ fun _ u hu => ?_
  cases hu
  rw [meets_bind]
  have hset : Civil S ⟨{ w₄.fields with sessionId := some response.sessionId, connected := true }, w₄.net⟩ :=
    ⟨h₄.mannered, h₄.stored⟩
  refine meets_mono (dial_civil hset) ?_ fun _ _ h => h
  rintro w₅ d ⟨h₅, hd, -⟩
  refine own_civil h₅ fun _ u hu => ?_
  cases hu
  refine ⟨h₅.mannered, fun e he => ?_⟩
  obtain rfl := Option.some.inj he
  exact hd

/-- Each call greets again on the stored connection, and asks behind what it reads then. -/
theorem exchange_civil (service method : String) (payload : Value) (h : Civil S w)
    (hc : w.fields.stream = some c) :
    Meets (civil S) (exchange S c service method payload) (fun w' _ => Civil S w') (fun w' _ => Civil S w') w := by
  unfold exchange
  rw [meets_bind]
  refine meets_mono ((minds S).split h) ?_ fun _ _ h => h
  rintro w₁ _ ⟨h₁, hfields₁, -⟩
  have hc₁ : w₁.fields.stream = some c := hfields₁ ▸ hc
  rw [meets_bind]
  refine meets_mono ((minds S).write h₁ ⟨h₁.stored c hc₁, .inl rfl⟩ (.inr ⟨c, _, _, rfl, hc₁⟩)) ?_
    fun _ _ h => h
  rintro w₂ _ ⟨h₂, hfields₂, -, hawaiting⟩
  rw [meets_bind]
  refine meets_mono (read_civil h₂) ?_ fun _ _ h => h
  rintro w₃ _ ⟨h₃, -, hgrows₃, hwelcomed⟩
  have hopened := Nat.lt_of_lt_of_le hawaiting.opened hgrows₃.opened
  rw [meets_bind]
  refine meets_mono ((minds S).newRequest h₃ service method payload) ?_ fun _ _ h => h
  rintro w₄ r ⟨h₄, -, hgrows₄⟩
  rw [meets_bind]
  refine meets_mono ((minds S).write_welcomed h₄ (Nat.lt_of_lt_of_le hopened hgrows₄.opened)
    ((hwelcomed hawaiting (hfields₂ ▸ hc₁)).grows hgrows₄ hopened)) ?_ fun _ _ h => h
  rintro w₅ _ h₅
  rw [meets_bind]
  refine meets_mono (read_civil h₅) ?_ fun _ _ h => h
  rintro w₆ f ⟨h₆, -⟩
  split
  · rw [meets_bind]
    refine own_civil h₆ fun _ u hu => ?_
    cases hu
    exact ⟨h₆.mannered, h₆.stored⟩
  · rw [Code.meets_decode]
    cases (S.fromSlice f.payload : Option ServiceResponse) <;> exact h₆

theorem call_civil (service method : String) (payload : Value) (h : Civil S w) :
    Meets (civil S) (call S service method payload) (fun w' _ => Civil S w') (fun w' _ => Civil S w') w := by
  have hexchange (w : Client TcpClient) (h : Civil S w) :
      Meets (civil S) (callBehind S service method payload) (fun w' _ => Civil S w')
        (fun w' _ => Civil S w') w := by
    unfold callBehind
    rw [meets_bind]
    refine own_civil h fun r u hu => ?_
    cases hu
    cases hc : w.fields.stream with
    | none => exact h
    | some c => exact exchange_civil service method payload h hc
  unfold call
  rw [meets_bind]
  refine own_civil h fun r u hu => ?_
  cases hu
  cases w.fields.connected with
  | true => exact hexchange w h
  | false =>
    show Meets _ (_ >>= _) _ _ _
    rw [meets_bind]
    exact meets_mono (connect_civil h) (fun w' _ h => hexchange w' h) fun _ _ h => h

theorem close_civil (h : Civil S w) :
    Meets (civil S) close (fun w' _ => Civil S w') (fun w' _ => Civil S w') w := by
  unfold close
  rw [meets_bind]
  refine own_civil h fun _ u hu => ?_
  cases hu
  rw [meets_bind]
  refine own_civil ⟨h.mannered, h.stored⟩ fun _ u hu => ?_
  cases hu
  refine own_civil ⟨h.mannered, h.stored⟩ fun _ u hu => ?_
  cases hu
  exact ⟨h.mannered, fun c hc => nomatch hc⟩

theorem task_civil (job : Job) (h : Civil S w) :
    Safe (civil S) (job.task S) (fun w' _ => Civil S w') w := by
  have hmap {α : Type} {p : Code α} (f : Result α → Outcome)
      (hp : Meets (civil S) p (fun w' _ => Civil S w') (fun w' _ => Civil S w') w) :
      Safe (civil S) (f <$> p.run) (fun w' _ => Civil S w') w :=
    safe_map hp (fun _ _ h => h) fun _ _ h => h
  cases job with
  | connect => exact hmap _ (connect_civil h)
  | call service method payload => exact hmap _ (call_civil service method payload h)
  | close => exact hmap _ (close_civil h)

end

/-- A new client that is asked for `jobs`, one after the other, any of which may be dropped. -/
def sole (S : Codec) (jobs : List Job) :
    Config (NetWith Fields).droppable (Client TcpClient) (List (Option Outcome)) :=
  ⟨⟨.new, .empty⟩, [Client.inTurn (jobs.map (Job.task S))]⟩

/-- **The TCP client speaks as long as what it does not look at is in its favour.** -/
theorem speaks (S : Codec) (jobs : List Job) {ls : List (Nat × Choice)}
    (hls : (sole S jobs).Along (Client.dropping suspends fun _ => perform)
      (Config.Performs fun w _ o choice => Favoured S w o choice) ls) :
    (sole S jobs).Throughout (Client.dropping suspends fun _ => perform)
      (fun s => ∀ d, Mannered S (s.world.net.conns d)) ls := by
  have hcivil : (sole S jobs).Throughout (Client.dropping suspends fun _ => perform)
      (fun s => Civil S s.world) ls := by
    refine Client.throughout_inTurn (P := Favoured S) (A := Owes S) (fun _ _ h => h.1)
      (fun w o out got h hfavoured => Owes.abandon h hfavoured) (fun m hm w hw => ?_) (civil_new S) hls
    obtain ⟨job, -, rfl⟩ := List.mem_map.mp hm
    exact task_civil job hw
  exact Config.throughout_mono (fun _ h => h.mannered) hcivil

end TcpClient

end XProtocol
