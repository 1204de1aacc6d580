import XProtocol.Client.Episodes
import XProtocol.Client.Uds
import XProtocol.EchoServer

/-! What the Unix-socket client holds between two of its methods.

Three fields say how a client stands, and five methods write them. A method ends in one of
five ways (`Turn`): it leaves the fields as they were and has touched new connections only,
it has greeted a new connection and stored it, it has used the stored one without a
failure, it has dropped what was stored, or it has closed the client. So whatever is asked
of a client and whatever happens, its fields agree, and what it holds is sound
(`consistent`). -/
namespace XProtocol.UdsClient
open Async
open Client (Use Notes Episode Lives telling told)
open Json (Value Codec)
open Wire

/-! ### The ways to end -/

/-- The uses of a greeting on `c` that is answered by `f`. -/
def greeting (S : Codec) (c : ConnId) (f : Frame) : List Use :=
  [.dialled (some c), .split c, .wrote c ⟨msgHandshake, S.toVec (handshake "protocol-client" "client")⟩ true,
    .read c (some f)]

/-- `f` accepts the handshake, for this session. -/
def Welcomes (S : Codec) (f : Frame) (sessionId : String) : Prop :=
  f.msgType = msgHandshakeAck ∧ ∃ response : HandshakeResponse, S.fromSlice f.payload = some response ∧
    response.success = true ∧ response.sessionId = sessionId

/-- The uses begin with a successful handshake on `c`. -/
def Greeted (S : Codec) (uses : List Use) (c : ConnId) (sessionId : String) : Prop :=
  ∃ f, Welcomes S f sessionId ∧ greeting S c f <+: uses

/-- What the code does with the one connection `c`: the uses come behind those before. -/
structure On (c : ConnId) (sound : Prop) (k k' : Notes UdsClient) : Prop where
  fields : k'.fields = k.fields
  opened : k'.opened = k.opened
  uses : ∃ more, k'.uses = k.uses ++ more ∧ ∀ u ∈ more, u.conn? = some c ∧ (sound → u.good = true)

/-- How a method may end, and whether with `Ok`. -/
inductive Turn (S : Codec) (k k' : Notes UdsClient) : (ok : Bool) → Prop
  | failed (hfields : k'.fields = k.fields) (hopened : k.opened ≤ k'.opened)
      (huses : ∀ u ∈ k'.uses, ∀ c, u.conn? = some c → k.opened ≤ c ∧ c < k'.opened) : Turn S k k' false
  | greeted {sessionId : String} (hfields : k'.fields = ⟨some k.opened, true, some sessionId⟩)
      (hopened : k'.opened = k.opened + 1) (hgreeted : Greeted S k'.uses k.opened sessionId)
      (huses : ∀ u ∈ k'.uses, u.conn? = some k.opened ∧ u.good = true) : Turn S k k' true
  | used {c : ConnId} (hstream : k.fields.stream = some c) (hfields : k'.fields = k.fields)
    (hopened : k'.opened = k.opened)
      (huses : ∀ u ∈ k'.uses, u.conn? = some c ∧ u.good = true) : Turn S k k' true
  | dropped (hfields : k'.fields = ⟨none, false, k'.fields.sessionId⟩) (hopened : k.opened ≤ k'.opened)
      (huses : ∀ u ∈ k'.uses, ∀ c, u.conn? = some c → k.fields.stream = some c ∨ k.opened ≤ c ∧ c < k'.opened) :
      Turn S k k' false
  | closed (hfields : k'.fields = .new) (hopened : k'.opened = k.opened) (huses : k'.uses = []) : Turn S k k' true

section
variable {S : Codec} {k : Notes UdsClient} {c : ConnId}

abbrev told : Discipline (NetWith Fields) (Notes UdsClient) := telling fun _ => perform

theorem On.refl (sound : Prop) (k : Notes UdsClient) : On c sound k k := ⟨rfl, rfl, [], by simp, nofun⟩

/-- One use more of `c`. -/
theorem On.use {sound P : Prop} {k k' : Notes UdsClient} (h : On c sound k k') {u : Use} (hu : u.conn? = some c)
    (hP : P → sound ∧ u.good = true) : On c P k (k'.use u) := by
  obtain ⟨hfields, hopened, more, huses, hmore⟩ := h
  refine ⟨hfields, hopened, more ++ [u], by rw [Notes.use, huses, List.append_assoc], fun v hv => ?_⟩
  rcases List.mem_append.mp hv with hv | hv
  · exact ⟨(hmore v hv).1, fun h => (hmore v hv).2 (hP h).1⟩
  · rw [List.mem_singleton.mp hv]
    exact ⟨hu, fun h => (hP h).2⟩

theorem On.weaken {sound : Prop} {k k' : Notes UdsClient} (h : On c sound k k') : On c False k k' :=
  ⟨h.fields, h.opened, h.uses.imp fun _ h => ⟨h.1, fun u hu => ⟨(h.2 u hu).1, False.elim⟩⟩⟩

variable {R : Notes UdsClient → ProtocolError → Prop}

theorem own_told {o : Op} {Q : Notes UdsClient → Fields.Ret o → Prop}
    (hQ : ∀ r fields, perform o .go k.fields = some (r, fields) → Q { k with fields } r) :
    Meets told (own o) Q R k := by
  refine Client.told_own fun choice r fields hfields => ?_
  have hgo : choice = .go := by cases o <;> cases choice <;> first | rfl | cases hfields
  exact hQ r fields (hgo ▸ hfields)

theorem dial_told {Q : Notes UdsClient → ConnId → Prop} (hok : Q k.dial k.opened)
    (herr : ∀ e, R (k.use (.dialled none)) e) : Meets told dial Q R k := by
  unfold dial
  rw [meets_bind]
  refine Client.told_connect hok fun r hr => ?_
  match r with
  | .inTime (.ok c) => exact absurd rfl (hr c)
  | .inTime (.error text) => exact herr _
  | .elapsed => exact herr _

/-- `connect` stores a connection that it has greeted, or leaves the fields as they were. -/
theorem connect_told {Q : Notes UdsClient → Unit → Prop}
    (hok : ∀ f sessionId, Welcomes S f sessionId →
      Q ⟨⟨some k.opened, true, some sessionId⟩, k.opened + 1, k.uses ++ greeting S k.opened f⟩ ())
    (herr : ∀ opened more e, k.opened ≤ opened →
      (∀ u ∈ more, ∀ d, u.conn? = some d → k.opened ≤ d ∧ d < opened) → R ⟨k.fields, opened, k.uses ++ more⟩ e) :
    Meets told (connect S) Q R k := by
  have hfail (more : List Use) (hmore : ∀ u ∈ more, u.conn? = some k.opened) (e : ProtocolError) :
      R ⟨k.fields, k.opened + 1, k.uses ++ more⟩ e :=
    herr _ more e (Nat.le_succ _) fun u hu d hd => by
      obtain rfl := Option.some.inj ((hmore u hu).symm.trans hd)
      exact ⟨Nat.le_refl _, Nat.lt_succ_self _⟩
  unfold connect
  rw [meets_bind]
  refine dial_told ?_ fun e => herr k.opened [.dialled none] e (Nat.le_refl _) (by simp [Use.conn?])
  rw [meets_bind]
  refine Client.told_split ?_
  rw [meets_bind]
  refine Client.told_write ?_ fun e => by
    simpa [Notes.dial, Notes.use] using hfail [.dialled (some k.opened), .split k.opened,
      .wrote k.opened ⟨msgHandshake, S.toVec (handshake "protocol-client" "client")⟩ false] (by simp [Use.conn?]) e
  rw [meets_bind]
  have hread (f : Option Frame) (e : ProtocolError) : R ⟨k.fields, k.opened + 1, k.uses ++ [.dialled (some k.opened),
      .split k.opened, .wrote k.opened ⟨msgHandshake, S.toVec (handshake "protocol-client" "client")⟩ true,
      .read k.opened f]⟩ e := hfail _ (by simp [Use.conn?]) e
  refine Client.told_readTimed (fun f => ?_) fun e => by simpa [Notes.dial, Notes.use] using hread none e
  split
  · simpa [Notes.dial, Notes.use] using hread (some f) _
  next htype =>
  rw [meets_bind]
  refine Client.told_decode (fun response hresponse => ?_) fun _ => by
    simpa [Notes.dial, Notes.use] using hread (some f) _
  show Meets _ (ite _ _ _) _ _ _
  split
  · simpa [Notes.dial, Notes.use] using hread (some f) _
  next hsuccess =>
  have hwelcomes : Welcomes S f response.sessionId :=
    ⟨not_not.mp htype, response, hresponse, by simpa using hsuccess, rfl⟩
  rw [meets_bind]
  refine own_told fun _ fields h => ?_
  cases h
  rw [meets_bind]
  refine own_told fun _ fields h => ?_
  cases h
  refine own_told fun _ fields h => ?_
  cases h
  simpa [Notes.dial, Notes.use, greeting] using hok f response.sessionId hwelcomes

/-- An exchange on the stored stream. -/
def Exchanges {α : Type} (p : Code α) : Prop :=
  ∀ k c, k.fields.stream = some c → Meets told p (fun k' _ => On c True k k') (fun k' _ => On c False k k') k

/-- What a failed exchange on `c` leaves of a client, however it came by `c`. -/
theorem fails_told {α : Type} {p : Code α} (hp : Exchanges p) {k k₁ : Notes UdsClient} {c : ConnId}
    (hheld : k₁.fields.stream = some c) (hopened : k.opened ≤ k₁.opened)
    (hc : k.fields.stream = some c ∨ k.opened ≤ c ∧ c < k₁.opened) (huses : ∀ u ∈ k₁.uses, u.conn? = some c)
    (hok : ∀ k', On c True k₁ k' → Turn S k k' true) :
    Meets told (tryCatch p fun e => do
      setConnected false
      setStream none
      throw e) (fun k' _ => Turn S k k' true) (fun k' _ => Turn S k k' false) k₁ := by
  rw [meets_tryCatch]
  refine meets_mono (hp k₁ c hheld) (fun k' _ h => hok k' h) fun k' e h => ?_
  obtain ⟨-, hopened', more, huses', hmore⟩ := h
  rw [meets_bind]
  refine own_told fun _ fields h => ?_
  cases h
  rw [meets_bind]
  refine own_told fun _ fields h => ?_
  cases h
  refine .dropped rfl (hopened' ▸ hopened) fun u hu d hd => ?_
  have hd : d = c := by
    rcases List.mem_append.mp (huses' ▸ hu) with hu | hu
    · exact Option.some.inj (hd.symm.trans (huses u hu))
    · exact Option.some.inj (hd.symm.trans (hmore u hu).1)
  rw [hd]
  exact hopened' ▸ hc

/-- A request uses the stored connection, or one that it has greeted, and drops either when it fails. -/
theorem request_told {α : Type} {p : Code α} (hp : Exchanges p) (hk : k.uses = []) :
    Meets told (request S p) (fun k' _ => Turn S k k' true) (fun k' _ => Turn S k k' false) k := by
  unfold request
  rw [meets_bind]
  refine own_told fun r fields h => ?_
  cases h
  cases hstream : k.fields.stream with
  | some c =>
    refine fails_told hp hstream (Nat.le_refl _) (.inl hstream) (by simp [hk]) fun k' h => ?_
    obtain ⟨hfields, hopened, more, huses, hmore⟩ := h
    refine .used hstream hfields hopened fun u hu => ?_
    rw [huses, hk, List.nil_append] at hu
    exact ⟨(hmore u hu).1, (hmore u hu).2 trivial⟩
  | none =>
    show Meets _ (_ >>= _) _ _ _
    rw [meets_bind]
    refine connect_told (fun f sessionId hwelcomes => ?_) fun opened more e hopened hmore => ?_
    · have hgood : ∀ u ∈ greeting S k.opened f, u.conn? = some k.opened ∧ u.good = true := by
        simp [greeting, Use.conn?, Use.good]
      rw [hk, List.nil_append]
      refine fails_told hp rfl (Nat.le_succ _) (.inr ⟨Nat.le_refl _, Nat.lt_succ_self _⟩)
        (fun u hu => (hgood u hu).1) fun k' h => ?_
      obtain ⟨hfields, hopened, more, huses, hmore⟩ := h
      refine .greeted hfields hopened ⟨f, hwelcomes, huses ▸ List.prefix_append _ _⟩ fun u hu => ?_
      rcases List.mem_append.mp (huses ▸ hu) with hu | hu
      · exact hgood u hu
      · exact ⟨(hmore u hu).1, (hmore u hu).2 trivial⟩
    · refine .failed rfl hopened fun u hu => hmore u ?_
      simpa [hk] using hu

/-! ### The exchanges -/

theorem held_told {Q : Notes UdsClient → ConnId → Prop} (hstream : k.fields.stream = some c) (h : Q k c) :
    Meets told held Q R k := by
  unfold held
  rw [meets_bind]
  refine own_told fun r fields hfields => ?_
  cases hfields
  rw [hstream]
  exact h

theorem doCallInternal_exchanges (service method : String) (payload : Value) :
    Exchanges (doCallInternal S service method payload) := by
  intro k c hc
  unfold doCallInternal
  rw [meets_bind]
  refine held_told hc ?_
  rw [meets_bind]
  have hsplit := (On.refl True k).use (c := c) (u := .split c) rfl fun h => ⟨h, rfl⟩
  refine Client.told_split ?_
  rw [meets_bind]
  refine Client.told_newRequest fun r => ?_
  rw [meets_bind]
  refine Client.told_write ?_ fun e => hsplit.use rfl False.elim
  have hwrote := hsplit.use (P := True) (u := .wrote c ⟨msgRequest, S.toVec r⟩ true) rfl fun h => ⟨h, rfl⟩
  rw [meets_bind]
  refine Client.told_readTimed (fun f => ?_) fun e => hwrote.use rfl False.elim
  have hread := hwrote.use (P := True) (u := .read c (some f)) rfl fun h => ⟨h, rfl⟩
  split
  · exact hread.weaken
  · exact Client.told_decode (fun _ _ => hread) fun _ => hread.weaken

theorem doGetSchemaInternal_exchanges : Exchanges (doGetSchemaInternal S) := by
  intro k c hc
  unfold doGetSchemaInternal
  rw [meets_bind]
  refine held_told hc ?_
  rw [meets_bind]
  have hsplit := (On.refl True k).use (c := c) (u := .split c) rfl fun h => ⟨h, rfl⟩
  refine Client.told_split ?_
  rw [meets_bind]
  refine Client.told_write ?_ fun e => hsplit.use rfl False.elim
  have hwrote := hsplit.use (P := True) (u := .wrote c ⟨msgSchemaRequest, []⟩ true) rfl fun h => ⟨h, rfl⟩
  rw [meets_bind]
  refine Client.told_readTimed (fun f => ?_) fun e => hwrote.use rfl False.elim
  have hread := hwrote.use (P := True) (u := .read c (some f)) rfl fun h => ⟨h, rfl⟩
  split
  · exact hread.weaken
  · exact Client.told_decode (fun _ _ => hread) fun _ => hread.weaken

theorem receiveStream_told (fuel : Nat) (messages : List StreamMessage) {k₁ : Notes UdsClient}
    (h : On c True k k₁) :
    Meets told (receiveStream S c fuel messages) (fun k' _ => On c True k k') (fun k' _ => On c False k k') k₁ := by
  induction fuel generalizing messages k₁ with
  | zero => exact h
  | succ fuel ih =>
    unfold receiveStream
    rw [meets_bind]
    refine Client.told_readTimed (fun f => ?_) fun e => h.use rfl False.elim
    have hread := h.use (P := True) (u := .read c (some f)) rfl fun h => ⟨h, rfl⟩
    split
    · exact ih messages hread
    split
    · rw [meets_bind]
      exact Client.told_decode (fun _ _ => ih _ hread) fun _ => hread.weaken
    split
    · rw [meets_bind]
      refine Client.told_decode (fun finish _ => ?_) fun _ => hread.weaken
      show Meets _ (ite _ _ _) _ _ _
      split
      · exact hread.weaken
      · exact hread
    split
    · rw [meets_bind]
      exact Client.told_decode (fun _ _ => hread.weaken) fun _ => hread.weaken
    · exact hread.weaken

theorem doCallStreamingInternal_exchanges (service method : String) (payload : Value)
    (mode : StreamMode) (fuel : Nat) :
    Exchanges (doCallStreamingInternal S service method payload mode fuel) := by
  intro k c hc
  unfold doCallStreamingInternal
  rw [meets_bind]
  refine held_told hc ?_
  rw [meets_bind]
  have hsplit := (On.refl True k).use (c := c) (u := .split c) rfl fun h => ⟨h, rfl⟩
  refine Client.told_split ?_
  split
  · unfold panic
    rw [meets_bind]
    exact own_told fun r _ _ => nomatch r
  · rw [meets_bind]
    refine Client.told_newRequest fun r => ?_
    rw [meets_bind]
    refine Client.told_write ?_ fun e => hsplit.use rfl False.elim
    exact receiveStream_told fuel [] (hsplit.use rfl fun h => ⟨h, rfl⟩)

/-! ### The methods -/

theorem connect_turns (hk : k.uses = []) :
    Meets told (connect S) (fun k' _ => Turn S k k' true) (fun k' _ => Turn S k k' false) k := by
  refine connect_told (fun f sessionId hwelcomes => ?_) fun opened more e hopened hmore => ?_
  · refine .greeted rfl rfl ⟨f, hwelcomes, by simp [hk]⟩ ?_
    simp [hk, greeting, Use.conn?, Use.good]
  · refine .failed rfl hopened fun u hu => hmore u ?_
    simpa [hk] using hu

theorem close_told (hk : k.uses = []) :
    Meets told close (fun k' _ => Turn S k k' true) (fun k' _ => Turn S k k' false) k := by
  unfold close
  rw [meets_bind]
  refine own_told fun _ fields h => ?_
  cases h
  rw [meets_bind]
  refine own_told fun _ fields h => ?_
  cases h
  refine own_told fun _ fields h => ?_
  cases h
  exact .closed rfl rfl hk

/-- A method has returned `Ok`. -/
def Outcome.ok : Outcome → Bool
  | .done r => r.isOk
  | .reply r => r.isOk
  | .stream r => r.isOk
  | .schema r => r.isOk

/-- **Every method ends in one of the five ways.** -/
theorem task_told (job : Job) (hk : k.uses = []) :
    Safe told (job.task S) (fun k' outcome => Turn S k k' outcome.ok) k := by
  cases job with
  | connect => exact safe_map (connect_turns hk) (fun _ _ h => h) fun _ _ h => h
  | call service method payload =>
    exact safe_map (request_told (doCallInternal_exchanges service method payload) hk) (fun _ _ h => h)
      fun _ _ h => h
  | callStreaming service method payload mode fuel =>
    exact safe_map (request_told (doCallStreamingInternal_exchanges service method payload mode fuel) hk)
      (fun _ _ h => h) fun _ _ h => h
  | getSchema => exact safe_map (request_told doGetSchemaInternal_exchanges hk) (fun _ _ h => h) fun _ _ h => h
  | close => exact safe_map (close_told hk) (fun _ _ h => h) fun _ _ h => h

/-- A `connect` that fails has changed nothing. -/
theorem connect_unchanged :
    Safe told (Job.connect.task S) (fun k' outcome => outcome.ok = false → k'.fields = k.fields) k := by
  have hconnect : Meets told (connect S) (fun _ _ => True) (fun k' _ => k'.fields = k.fields) k :=
    connect_told (fun _ _ _ => trivial) fun _ _ _ _ _ => rfl
  exact safe_map hconnect (fun _ _ _ => nofun) fun _ _ h _ => h

end

/-! ### The life of a client -/

/-- The fields agree, and the held connection is sound, after the methods that `episodes` tell of. -/
structure Consistent (S : Codec) (episodes : List (Episode UdsClient Job Outcome)) (client : UdsClient) : Prop where
  connected_iff : client.isConnected = true ↔ client.stream.isSome = true
  /-- It has completed a handshake, for the session the client is in. -/
  greeted : ∀ c, client.stream = some c → ∃ sessionId, client.sessionId = some sessionId ∧
    ∃ episode ∈ episodes, Greeted S episode.uses c sessionId
  /-- No operation on it has failed. -/
  sound : ∀ c, client.stream = some c → ∀ episode ∈ episodes, ∀ u ∈ episode.uses, u.conn? = some c →
    episode.outcome.ok = true ∧ u.good = true

/-- The same, and only connections that were opened have been used. -/
structure Coherent (S : Codec) (episodes : List (Episode UdsClient Job Outcome)) (client : UdsClient)
    (opened : Nat) : Prop
    extends Consistent S episodes client where
  numbered : ∀ episode ∈ episodes, ∀ u ∈ episode.uses, ∀ c, u.conn? = some c → c < opened

section
variable {S : Codec} {episodes : List (Episode UdsClient Job Outcome)} {k k' : Notes UdsClient}
  {job : Job} {outcome : Outcome}

/-- The held connection is one that was opened. -/
theorem Coherent.stored (h : Coherent S episodes k.fields k.opened) {c : ConnId} (hc : k.fields.stream = some c) :
    c < k.opened := by
  obtain ⟨sessionId, -, episode, hmem, f, -, hgreeting⟩ := h.greeted c hc
  exact h.numbered episode hmem (.split c) (hgreeting.subset (by simp [greeting])) c rfl

theorem forall_snoc {P : Episode UdsClient Job Outcome → Prop} {episode : Episode UdsClient Job Outcome} :
    (∀ e ∈ episodes ++ [episode], P e) ↔ (∀ e ∈ episodes, P e) ∧ P episode := by
  simp [or_imp, forall_and]

/-- **Each of the five ways keeps the fields coherent.** -/
theorem Turn.coherent (h : Coherent S episodes k.fields k.opened) (hturn : Turn S k k' outcome.ok) :
    Coherent S (episodes ++ [⟨job, k.fields, outcome, k'.uses⟩]) k'.fields k'.opened := by
  generalize hok : outcome.ok = ok at hturn
  have hlater (hopened : k.opened ≤ k'.opened) : ∀ episode ∈ episodes, ∀ u ∈ episode.uses, ∀ c,
      u.conn? = some c → c < k'.opened := fun episode hmem u hu c hc =>
    Nat.lt_of_lt_of_le (h.numbered episode hmem u hu c hc) hopened
  cases hturn with
  | failed hfields hopened huses =>
    refine ⟨⟨hfields ▸ h.connected_iff, fun c hc => ?_, fun c hc => forall_snoc.mpr ⟨?_, fun u hu hc' => ?_⟩⟩,
      forall_snoc.mpr ⟨hlater hopened, fun u hu c hc => (huses u hu c hc).2⟩⟩
    · obtain ⟨sessionId, hsession, episode, hmem, hgreeted⟩ := h.greeted c (hfields ▸ hc)
      exact ⟨sessionId, hfields ▸ hsession, episode, List.mem_append_left _ hmem, hgreeted⟩
    · exact h.sound c (hfields ▸ hc)
    · exact absurd (huses u hu c hc').1 (Nat.not_le.mpr (h.stored (hfields ▸ hc)))
  | @greeted sessionId hfields hopened hgreeted huses =>
    rw [hfields, hopened]
    refine ⟨⟨by simp [isConnected], ?_, ?_⟩, forall_snoc.mpr ⟨hopened ▸ hlater (hopened ▸ Nat.le_succ _), ?_⟩⟩
    · rintro c ⟨⟩
      exact ⟨sessionId, rfl, _, List.mem_append_right _ List.mem_cons_self, hgreeted⟩
    · rintro c ⟨⟩
      refine forall_snoc.mpr ⟨fun episode hmem u hu hc => ?_, fun u hu _ => ⟨hok, (huses u hu).2⟩⟩
      exact absurd (h.numbered episode hmem u hu _ hc) (Nat.lt_irrefl _)
    · intro u hu c hc
      obtain rfl := Option.some.inj ((huses u hu).1.symm.trans hc)
      exact Nat.lt_succ_self _
  | @used c hstream hfields hopened huses =>
    refine ⟨⟨hfields ▸ h.connected_iff, fun d hd => ?_, fun d hd => forall_snoc.mpr ⟨?_, fun u hu _ => ?_⟩⟩,
      forall_snoc.mpr ⟨hlater (Nat.le_of_eq hopened.symm), fun u hu d hd => ?_⟩⟩
    · obtain ⟨sessionId, hsession, episode, hmem, hgreeted⟩ := h.greeted d (hfields ▸ hd)
      exact ⟨sessionId, hfields ▸ hsession, episode, List.mem_append_left _ hmem, hgreeted⟩
    · exact h.sound d (hfields ▸ hd)
    · exact ⟨hok, (huses u hu).2⟩
    · obtain rfl := Option.some.inj ((huses u hu).1.symm.trans hd)
      exact hopened ▸ h.stored hstream
  | dropped hfields hopened huses =>
    rw [hfields]
    refine ⟨⟨by simp [isConnected], nofun, nofun⟩, forall_snoc.mpr ⟨hlater hopened, fun u hu c hc => ?_⟩⟩
    rcases huses u hu c hc with hstream | ⟨-, hlt⟩
    · exact Nat.lt_of_lt_of_le (h.stored hstream) hopened
    · exact hlt
  | closed hfields hopened huses =>
    rw [hfields]
    refine ⟨⟨by simp [isConnected, new], nofun, nofun⟩, forall_snoc.mpr ⟨hlater (Nat.le_of_eq hopened.symm), ?_⟩⟩
    simp [huses]

theorem coherent_new (opened : Nat) : Coherent S [] .new opened where
  connected_iff := by simp [isConnected, new]
  greeted _ hc := nomatch hc
  sound _ hc := nomatch hc
  numbered _ h := nomatch h

end

/-- **Whatever is asked of a Unix-socket client, and whatever happens, between two methods it is
consistent, and a `connect` that fails leaves it as it was.** -/
theorem consistent (S : Codec) (n : Net) {episodes : List (Episode UdsClient Job Outcome)} {w : Client UdsClient}
    (h : Lives (fun _ => perform) (Job.task S) ⟨.new, n⟩ episodes w) :
    Consistent S episodes w.fields ∧
      ∀ e w' γ, Returns (machine.ledger Client.noted) (fun _ _ _ => True) (Job.connect.task S) (w, fun _ => [])
        (.done (.error e)) (w', γ) → w'.fields = w.fields := by
  refine ⟨?_, fun e w' γ hcall => ?_⟩
  · exact (Lives.keeps (I := Coherent S) (coherent_new _)
      (fun _ _ _ job h => safe_mono (task_told job rfl) fun _ _ hturn => hturn.coherent h) h).toConsistent
  · exact Client.told hcall connect_unchanged rfl

namespace Sample
open Json.Text (compact)

/-- A handshake that is accepted. -/
def welcomed : List (Nat × Choice) := goes 0 3 ++ [(0, .arrive (encode EchoServer.ack))] ++ goes 0 3

/-- Nobody listens. -/
def refused : List (Nat × Choice) := [(0, .fail 0 [] "refused")]

/-- A client that has connected, and fails to do so again. -/
theorem consistent_refused : ∃ episodes w, Lives (fun _ => perform) (Job.task compact) ⟨.new, .empty⟩ episodes w ∧
    w.fields.isConnected = true ∧ Consistent compact episodes w.fields ∧
      ∃ e w' γ, Returns (machine.ledger Client.noted) (fun _ _ _ => True) (Job.connect.task compact)
        (w, fun _ => []) (.done (.error e)) (w', γ) ∧ w'.fields = w.fields := by
  have hend : (Client.live (fun _ => perform) (Job.task compact) [(.connect, welcomed)] [] ⟨.new, .empty⟩).map
      (fun x => x.2.fields.isConnected) = some true := by decide +kernel
  obtain ⟨⟨episodes, w⟩, hlive, hconnected⟩ := Option.map_eq_some_iff.mp hend
  have hlives : Lives (fun _ => perform) (Job.task compact) ⟨.new, .empty⟩ episodes w := Lives.new.live hlive
  have hrefused : Returns (machine.ledger Client.noted) (fun _ _ _ => True) (Job.connect.task compact)
      (w, fun _ => []) (.done (.error (.ofIo "refused"))) (w, Function.update (fun _ => []) 0 [.dialled none]) :=
    ⟨refused, _, rfl, Config.along_of_forall (fun _ _ _ _ _ => trivial) _ _, rfl, rfl⟩
  obtain ⟨hconsistent, hfailed⟩ := consistent compact .empty hlives
  exact ⟨episodes, w, hlives, hconnected, hconsistent, _, _, _, hrefused, hfailed _ _ _ hrefused⟩

end Sample

end XProtocol.UdsClient
