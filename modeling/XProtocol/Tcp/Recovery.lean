import XProtocol.Chronicle
import XProtocol.Client.Episodes
import XProtocol.EchoServer
import XProtocol.Tcp.Client

/-! How the TCP client gets over failures.

`connect` sets `connected` before it opens the connection that it stores, and a call resets it
after one failure of the several that end it. So what is stored need not be what `connected`
says it is. It is, all through the life of a client, exactly if no method meets a failure that
leaves it otherwise (`recovers_iff`, with `Harmless`). -/
namespace XProtocol.TcpClient
open Async
open Chronicle (forall_split_snoc)
open Client (Use Notes Episode Lives telling)
open Json (Value Codec)
open Wire

/-- A method of the client that has been called. -/
abbrev Called : Type := Episode TcpClient Job Outcome

/-- A method has returned `Ok`. -/
def Outcome.ok : Outcome → Bool
  | .done r => r.isOk
  | .reply r => r.isOk

/-! ### To recover -/

/-- No operation on `c` has failed. -/
def Unfailed (calls : List Called) (c : ConnId) : Prop :=
  ∀ call ∈ calls, (∃ u ∈ call.uses, u.conn? = some c) →
    call.outcome.ok = true ∧ ∀ u ∈ call.uses, u.conn? = some c → u.good = true

/-- A client that is connected holds a connection on which nothing has failed. -/
def Sound (calls : List Called) (client : TcpClient) : Prop :=
  client.connected = true → ∃ c, client.stream = some c ∧ Unfailed calls c

/-- It begins with a new connection. -/
def Opens (call : Called) : Prop := ∃ c, call.uses.head? = some (.dialled c)

/-- A call of a service opens a new connection, or uses the stored one, on which nothing has failed;
and it opens one if the method before it has failed, unless that was a `connect` of a connected client. -/
structure Renews (calls : List Called) (call : Called) : Prop where
  fresh : Opens call ∨ ∃ c, call.before.stream = some c ∧ Unfailed calls c ∧ ∀ u ∈ call.uses, u.conn? = some c
  reopens : ∀ last, calls.getLast? = some last → last.outcome.ok = false →
    (last.job = .connect → last.before.connected = false) → Opens call

def Job.isCall : Job → Bool
  | .call .. => true
  | _ => false

/-- Between two methods, and after the last, the client is sound, and every call renews what it has to. -/
structure Recovers (calls : List Called) (client : TcpClient) : Prop where
  sound : Sound calls client
  sound_before : ∀ earlier call rest, calls = earlier ++ call :: rest → Sound earlier call.before
  renews : ∀ earlier call rest, calls = earlier ++ call :: rest → call.job.isCall = true → Renews earlier call

/-! ### The failures it recovers from -/

/-- What a method does on the stored connection. Where it has to connect first, that takes a
greeting, of four operations, and a second connection. -/
def exchanged (uses : List Use) : List Use :=
  match uses with
  | .dialled _ :: _ => uses.drop 5
  | _ => uses

/-- It is not a message of the type of a response that is none. -/
def Reads (S : Codec) : Option Use → Prop
  | some (.read _ (some f)) =>
    f.msgType = msgResponse → (S.fromSlice f.payload : Option ServiceResponse).isSome = true
  | _ => True

instance (S : Codec) : (u : Option Use) → Decidable (Reads S u)
  | some (.read _ (some f)) =>
    inferInstanceAs (Decidable (f.msgType = msgResponse →
      (S.fromSlice f.payload : Option ServiceResponse).isSome = true))
  | some (.read _ none) => .isTrue trivial
  | some (.dialled _) => .isTrue trivial
  | some (.split _) => .isTrue trivial
  | some (.wrote ..) => .isTrue trivial
  | none => .isTrue trivial

/-- On the stored connection nothing fails to be written or read, and the reply to the request is not
a response that does not decode. -/
def Kept (S : Codec) (uses : List Use) : Prop := (∀ u ∈ uses, u.good = true) ∧ Reads S uses[4]?

/-- What the network does to a method leaves the client sound: the second connection is made,
unless the client is connected already, and a call fails on the stored connection by a reply of
another type only. -/
structure Harmless (S : Codec) (connected : Bool) (uses : List Use) : Prop where
  second : connected = false → uses[4]? ≠ some (.dialled none)
  kept : Kept S (exchanged uses)

instance (S : Codec) (uses : List Use) : Decidable (Kept S uses) :=
  inferInstanceAs (Decidable ((∀ u ∈ uses, u.good = true) ∧ Reads S uses[4]?))

instance (S : Codec) (connected : Bool) (uses : List Use) : Decidable (Harmless S connected uses) :=
  decidable_of_iff ((connected = false → uses[4]? ≠ some (.dialled none)) ∧ Kept S (exchanged uses))
    ⟨fun h => ⟨h.1, h.2⟩, fun h => ⟨h.second, h.kept⟩⟩

/-! ### The ways to end -/

/-- The uses of a greeting on `c` that is answered by `f`. -/
def greeting (S : Codec) (c : ConnId) (f : Frame) : List Use :=
  [.dialled (some c), .split c, .wrote c ⟨msgHandshake, S.toVec (handshake "client")⟩ true, .read c (some f)]

/-- These uses are of connections that were opened meanwhile, or of none. -/
def Anew (k k' : Notes TcpClient) (u : Use) : Prop := ∀ c, u.conn? = some c → k.opened ≤ c ∧ c < k'.opened

/-- `c` is stored, or was opened meanwhile. -/
def Taken (k k' : Notes TcpClient) (c : ConnId) : Prop :=
  k.fields.connected = true ∧ k.fields.stream = some c ∨ k.opened ≤ c ∧ c < k'.opened

/-- How a method may end, and whether with `Ok`. -/
inductive Turn (S : Codec) (k k' : Notes TcpClient) (job : Job) : (ok : Bool) → Prop
  | failed (hjob : job = .connect ∨ k.fields.connected = false) (hfields : k'.fields = k.fields)
      (hopened : k.opened ≤ k'.opened) (huses : ∀ u ∈ k'.uses, Anew k k' u)
      (hharmless : Harmless S k.fields.connected k'.uses) : Turn S k k' job false
  | half {sessionId : Option String} (hjob : job = .connect ∨ k.fields.connected = false)
      (hfields : k'.fields = ⟨true, sessionId, k.fields.stream⟩)
      (hopened : k.opened ≤ k'.opened) (huses : ∀ u ∈ k'.uses, Anew k k' u)
      (hharmless : Harmless S k.fields.connected k'.uses ↔ k.fields.connected = true) : Turn S k k' job false
  | lost (hconnected : k.fields.connected = true) (hstream : k.fields.stream = none)
      (hfields : k'.fields = k.fields) (hopened : k'.opened = k.opened)
      (huses : k'.uses = []) : Turn S k k' job false
  | kept {c : ConnId} (htaken : Taken k k' c) (hconnected : k'.fields.connected = true)
      (hstream : k'.fields.stream = some c) (hopened : k.opened ≤ k'.opened)
      (huses : ∀ u ∈ k'.uses, (u.conn? = some c ∨ Anew k k' u) ∧ u.good = true)
      (hharmless : Harmless S k.fields.connected k'.uses) : Turn S k k' job true
  | exchange {c : ConnId} (htaken : Taken k k' c) (hstream : k'.fields.stream = some c)
    (hopened : k.opened ≤ k'.opened)
      (huses : ∀ u ∈ k'.uses, u.conn? = some c ∨ Anew k k' u) (hmem : ∃ u ∈ k'.uses, u.conn? = some c)
      (hharmless : Harmless S k.fields.connected k'.uses ↔ k'.fields.connected = false) : Turn S k k' job false
  | closed (hfields : k'.fields = .new) (hopened : k'.opened = k.opened) (huses : k'.uses = []) :
    Turn S k k' job true

section
variable {S : Codec} {k : Notes TcpClient}

abbrev told : Discipline (NetWith Fields) (Notes TcpClient) := telling fun _ => perform

variable {R : Notes TcpClient → ProtocolError → Prop}

theorem own_told {o : Op} {Q : Notes TcpClient → Fields.Ret o → Prop}
    (hQ : ∀ r fields, perform o .go k.fields = some (r, fields) → Q { k with fields } r) :
    Meets told (own o) Q R k := by
  refine Client.told_own fun choice r fields hfields => ?_
  have hgo : choice = .go := by cases o <;> cases choice <;> first | rfl | cases hfields
  exact hQ r fields (hgo ▸ hfields)

theorem dial_told {Q : Notes TcpClient → ConnId → Prop} (hok : Q k.dial k.opened)
    (herr : ∀ e, R (k.use (.dialled none)) e) : Meets told dial Q R k := by
  unfold dial
  rw [meets_bind]
  refine Client.told_connect hok fun r hr => ?_
  match r with
  | .inTime (.ok c) => exact absurd rfl (hr c)
  | .inTime (.error text) => exact herr _
  | .elapsed => exact herr _

/-- `connect` fails on the first connection, or when it opens the second, or stores that. -/
theorem connect_told {Q : Notes TcpClient → Unit → Prop}
    (hok : ∀ f sessionId, Q ⟨⟨true, some sessionId, some (k.opened + 1)⟩, k.opened + 1 + 1,
      k.uses ++ (greeting S k.opened f ++ [.dialled (some (k.opened + 1))])⟩ ())
    (hhalf : ∀ f sessionId e, R ⟨⟨true, some sessionId, k.fields.stream⟩, k.opened + 1,
      k.uses ++ (greeting S k.opened f ++ [.dialled none])⟩ e)
    (hfail : ∀ opened c uses e, k.opened ≤ opened → uses.length ≤ 3 →
      (∀ u ∈ .dialled c :: uses, ∀ d, u.conn? = some d → k.opened ≤ d ∧ d < opened) →
      R ⟨k.fields, opened, k.uses ++ .dialled c :: uses⟩ e) :
    Meets told (connect S) Q R k := by
  have hfirst (uses : List Use) (hlength : uses.length ≤ 3) (huses : ∀ u ∈ uses, u.conn? = some k.opened)
      (e : ProtocolError) : R ⟨k.fields, k.opened + 1, k.uses ++ .dialled (some k.opened) :: uses⟩ e := by
    refine hfail _ _ _ e (Nat.le_succ _) hlength fun u hu d hd => ?_
    have hc : u.conn? = some k.opened := by
      rcases List.mem_cons.mp hu with rfl | hu
      · rfl
      · exact huses u hu
    obtain rfl := Option.some.inj (hc.symm.trans hd)
    exact ⟨Nat.le_refl _, Nat.lt_succ_self _⟩
  unfold connect
  rw [meets_bind]
  refine dial_told ?_ fun e => hfail k.opened none [] e (Nat.le_refl _) (Nat.zero_le _) (by simp [Use.conn?])
  rw [meets_bind]
  refine Client.told_split ?_
  rw [meets_bind]
  refine Client.told_write ?_ fun e => by
    simpa [Notes.dial, Notes.use] using hfirst [.split k.opened,
      .wrote k.opened ⟨msgHandshake, S.toVec (handshake "client")⟩ false] (by simp) (by simp [Use.conn?]) e
  rw [meets_bind]
  have hread (f : Option Frame) (e : ProtocolError) : R ⟨k.fields, k.opened + 1, k.uses ++ [.dialled (some k.opened),
      .split k.opened, .wrote k.opened ⟨msgHandshake, S.toVec (handshake "client")⟩ true, .read k.opened f]⟩ e :=
    hfirst _ (by simp) (by simp [Use.conn?]) e
  refine Client.told_read (fun f => ?_) fun e => by simpa [Notes.dial, Notes.use] using hread none e
  split
  · simpa [Notes.dial, Notes.use] using hread (some f) _
  rw [meets_bind]
  refine Client.told_decode (fun response _ => ?_) fun _ => by
    simpa [Notes.dial, Notes.use] using hread (some f) _
  show Meets _ (ite _ _ _) _ _ _
  split
  · simpa [Notes.dial, Notes.use] using hread (some f) _
  rw [meets_bind]
  refine own_told fun _ fields h => ?_
  cases h
  rw [meets_bind]
  refine own_told fun _ fields h => ?_
  cases h
  rw [meets_bind]
  refine dial_told ?_ fun e => by
    simpa [Notes.dial, Notes.use, greeting] using hhalf f response.sessionId e
  refine own_told fun _ fields h => ?_
  cases h
  simpa [Notes.dial, Notes.use, greeting] using hok f response.sessionId

/-- What the exchange does on its connection, and whether the client gets over it. -/
theorem exchange_told {service method : String} {payload : Value} {c : ConnId}
    {Q : Notes TcpClient → ServiceResponse → Prop}
    (hok : ∀ uses response, Kept S (.split c :: uses) → (∀ u ∈ uses, u.conn? = some c) →
      Q { k with uses := k.uses ++ .split c :: uses } response)
    (herr : ∀ uses e connected, (Kept S (.split c :: uses) ↔ connected = false) → (∀ u ∈ uses, u.conn? = some c) →
      R ⟨{ k.fields with connected }, k.opened, k.uses ++ .split c :: uses⟩ e)
    (hconnected : k.fields.connected = true) :
    Meets told (exchange S c service method payload) Q R k := by
  obtain ⟨⟨connected, sessionId, stream⟩, opened, before⟩ := k
  cases hconnected
  -- A failure that the client does not notice.
  have hunnoticed (uses : List Use) (e : ProtocolError) (hkept : ¬ Kept S (.split c :: uses))
      (huses : ∀ u ∈ uses, u.conn? = some c) :
      R ⟨⟨true, sessionId, stream⟩, opened, before ++ .split c :: uses⟩ e :=
    herr uses e true (iff_of_false hkept nofun) huses
  unfold exchange
  rw [meets_bind]
  refine Client.told_split ?_
  rw [meets_bind]
  refine Client.told_write ?_ fun e => by
    simpa [Notes.use] using hunnoticed [.wrote c ⟨msgHandshake, S.toVec (handshake service)⟩ false] e
      (by simp [Kept, Use.good]) (by simp [Use.conn?])
  rw [meets_bind]
  refine Client.told_read (fun f => ?_) fun e => by
    simpa [Notes.use] using hunnoticed [.wrote c ⟨msgHandshake, S.toVec (handshake service)⟩ true, .read c none] e
      (by simp [Kept, Use.good]) (by simp [Use.conn?])
  rw [meets_bind]
  refine Client.told_newRequest fun r => ?_
  rw [meets_bind]
  refine Client.told_write ?_ fun e => by
    simpa [Notes.use] using hunnoticed [.wrote c ⟨msgHandshake, S.toVec (handshake service)⟩ true, .read c (some f),
      .wrote c ⟨msgRequest, S.toVec r⟩ false] e (by simp [Kept, Use.good]) (by simp [Use.conn?])
  rw [meets_bind]
  let replied (reply : Option Frame) : List Use := [.wrote c ⟨msgHandshake, S.toVec (handshake service)⟩ true,
    .read c (some f), .wrote c ⟨msgRequest, S.toVec r⟩ true, .read c reply]
  have huses (reply : Option Frame) : ∀ u ∈ replied reply, u.conn? = some c := by simp [replied, Use.conn?]
  have hkept (reply : Frame) : Kept S (.split c :: replied (some reply)) ↔
    Reads S (some (.read c (some reply))) := by
    simp [Kept, replied, Use.good]
  refine Client.told_read (fun reply => ?_) fun e => by
    simpa [Notes.use] using hunnoticed (replied none) e (by simp [replied, Kept, Use.good]) (huses none)
  split
  next htype =>
    rw [meets_bind]
    refine own_told fun _ fields h => ?_
    cases h
    simpa [Notes.use, replied] using herr (replied (some reply)) _ false
      (iff_of_true ((hkept reply).mpr fun h => absurd h htype) rfl) (huses _)
  next htype =>
  have hresponse := not_not.mp htype
  refine Client.told_decode (fun response hdecoded => ?_) fun hnone => ?_
  · simpa [Notes.use, replied] using hok (replied (some reply)) response
      ((hkept reply).mpr fun _ => by rw [hdecoded]; rfl) (huses _)
  · simpa [Notes.use, replied] using hunnoticed (replied (some reply)) _
      (fun h => by simpa [hnone] using (hkept reply).mp h hresponse) (huses _)

/-! ### Harmless failures, by what the method did -/

@[simp] theorem kept_nil : Kept S [] := ⟨nofun, trivial⟩

theorem harmless_nil (connected : Bool) : Harmless S connected [] := ⟨fun _ => nofun, kept_nil⟩

/-- The first connection was not made, or not greeted. -/
theorem harmless_first (connected : Bool) (c : Option ConnId) {uses : List Use} (h : uses.length ≤ 3) :
    Harmless S connected (.dialled c :: uses) := by
  constructor
  · rw [List.getElem?_eq_none (Nat.succ_le_succ h)]
    exact fun _ => nofun
  · show Kept S (List.drop 4 uses)
    rw [List.drop_eq_nil_of_le (Nat.le_succ_of_le h)]
    exact kept_nil

/-- The first connection was greeted. -/
theorem harmless_second {connected : Bool} {c : ConnId} {f : Frame} {second : Option ConnId} {uses : List Use} :
    Harmless S connected (greeting S c f ++ .dialled second :: uses) ↔
      (connected = false → second ≠ none) ∧ Kept S uses :=
  ⟨fun h => ⟨fun hc hs => h.second hc (by rw [hs]; rfl), h.kept⟩,
    fun h => ⟨fun hc hs => h.1 hc (by simpa [greeting] using hs), h.2⟩⟩

/-- The stored connection was used. -/
theorem harmless_stored {c : ConnId} {uses : List Use} :
    Harmless S true (.split c :: uses) ↔ Kept S (.split c :: uses) :=
  ⟨fun h => h.kept, fun h => ⟨nofun, h⟩⟩

/-! ### The methods -/

theorem greeting_good (c : ConnId) (f : Frame) : ∀ u ∈ greeting S c f, u.conn? = some c ∧ u.good = true := by
  simp [greeting, Use.conn?, Use.good]

theorem connect_turns (hk : k.uses = []) :
    Meets told (connect S) (fun k' _ => Turn S k k' .connect true) (fun k' _ => Turn S k k' .connect false) k := by
  have hfirst (c d : ConnId) (h : some k.opened = some c) (hd : k.opened < d) : k.opened ≤ c ∧ c < d := by
    obtain rfl := Option.some.inj h
    exact ⟨Nat.le_refl _, hd⟩
  refine connect_told (fun f sessionId => ?_) (fun f sessionId e => ?_)
    fun opened c uses e hopened hlength huses => ?_
  all_goals rw [hk, List.nil_append]
  · refine .kept (c := k.opened + 1) (.inr ⟨Nat.le_succ _, Nat.lt_succ_self _⟩) rfl rfl
      (Nat.le_succ_of_le (Nat.le_succ _)) (fun u hu => ?_) (harmless_second.mpr ⟨fun _ => nofun, kept_nil⟩)
    rcases List.mem_append.mp hu with hu | hu
    · have hgood := greeting_good _ _ u hu
      exact ⟨.inr fun c hc => hfirst c _ (hgood.1.symm.trans hc) (Nat.lt_succ_of_lt (Nat.lt_succ_self _)), hgood.2⟩
    · rw [List.mem_singleton.mp hu]
      exact ⟨.inl rfl, rfl⟩
  · refine .half (.inl rfl) rfl (Nat.le_succ _) (fun u hu c hc => ?_) ?_
    · rcases List.mem_append.mp hu with hu | hu
      · exact hfirst c _ ((greeting_good _ _ u hu).1.symm.trans hc) (Nat.lt_succ_self _)
      · rw [List.mem_singleton.mp hu] at hc
        cases hc
    · rw [harmless_second]
      simp
  · exact .failed (.inl rfl) rfl hopened huses (harmless_first _ _ hlength)

/-- The exchange of a call, once a connection is stored. -/
theorem exchange_turns {service method : String} {payload : Value} {job : Job} {k₁ : Notes TcpClient} {c : ConnId}
    (hconnected : k₁.fields.connected = true) (hstream : k₁.fields.stream = some c) (htaken : Taken k k₁ c)
    (hopened : k.opened ≤ k₁.opened) (hbefore : ∀ u ∈ k₁.uses, (u.conn? = some c ∨ Anew k k₁ u) ∧ u.good = true)
    (hharmless : ∀ uses, Harmless S k.fields.connected (k₁.uses ++ .split c :: uses) ↔ Kept S (.split c :: uses)) :
    Meets told (exchange S c service method payload) (fun k' _ => Turn S k k' job true)
      (fun k' _ => Turn S k k' job false) k₁ := by
  have hsplit {uses : List Use} (huses : ∀ u ∈ uses, u.conn? = some c) : ∀ u ∈ k₁.uses ++ .split c :: uses,
      u ∈ k₁.uses ∨ u.conn? = some c := fun u hu => by
    rcases List.mem_append.mp hu with hu | hu
    · exact .inl hu
    · rcases List.mem_cons.mp hu with rfl | hu
      · exact .inr rfl
      · exact .inr (huses u hu)
  refine exchange_told (fun uses response hkept huses => ?_) (fun uses e connected hiff huses => ?_) hconnected
  · refine .kept htaken hconnected hstream hopened (fun u hu => ⟨?_, ?_⟩) ((hharmless uses).mpr hkept)
    · exact (hsplit huses u hu).elim (fun hu => (hbefore u hu).1) .inl
    · rcases List.mem_append.mp hu with hu | hu
      · exact (hbefore u hu).2
      · exact hkept.1 u hu
  · refine .exchange htaken hstream hopened (fun u hu => ?_) ⟨.split c, by simp, rfl⟩ ((hharmless uses).trans hiff)
    exact (hsplit huses u hu).elim (fun hu => (hbefore u hu).1) .inl

theorem call_turns (service method : String) (payload : Value) (hk : k.uses = []) :
    Meets told (call S service method payload) (fun k' _ => Turn S k k' (.call service method payload) true)
      (fun k' _ => Turn S k k' (.call service method payload) false) k := by
  unfold call
  rw [meets_bind]
  refine own_told fun r fields h => ?_
  cases h
  cases hconnected : k.fields.connected with
  | true =>
    show Meets _ (own .stream >>= _) _ _ _
    rw [meets_bind]
    refine own_told fun r fields h => ?_
    cases h
    cases hstream : k.fields.stream with
    | none => exact .lost hconnected hstream rfl rfl hk
    | some c =>
      refine exchange_turns hconnected hstream (.inl ⟨hconnected, hstream⟩) (Nat.le_refl _)
        (by simp [hk]) fun uses => ?_
      rw [hk, List.nil_append, hconnected]
      exact harmless_stored
  | false =>
    show Meets _ (connect S >>= _) _ _ _
    rw [meets_bind]
    have hafter : k.opened + 1 < k.opened + 1 + 1 := Nat.lt_succ_self _
    refine connect_told (fun f sessionId => ?_) (fun f sessionId e => ?_)
      fun opened c uses e hopened hlength huses => ?_
    all_goals rw [hk, List.nil_append]
    · show Meets _ (own .stream >>= _) _ _ _
      rw [meets_bind]
      refine own_told fun r fields h => ?_
      cases h
      refine exchange_turns rfl rfl (.inr ⟨Nat.le_succ _, hafter⟩) (Nat.le_succ_of_le (Nat.le_succ _))
        (fun u hu => ?_) fun uses => ?_
      · rcases List.mem_append.mp hu with hu | hu
        · have hgood := greeting_good _ _ u hu
          refine ⟨.inr fun c hc => ?_, hgood.2⟩
          obtain rfl := Option.some.inj (hgood.1.symm.trans hc)
          exact ⟨Nat.le_refl _, Nat.lt_of_succ_lt hafter⟩
        · rw [List.mem_singleton.mp hu]
          exact ⟨.inl rfl, rfl⟩
      · rw [List.append_assoc, List.singleton_append, harmless_second]
        simp
    · refine .half (.inr hconnected) rfl (Nat.le_succ _) (fun u hu c hc => ?_) ?_
      · rcases List.mem_append.mp hu with hu | hu
        · obtain rfl := Option.some.inj ((greeting_good _ _ u hu).1.symm.trans hc)
          exact ⟨Nat.le_refl _, Nat.lt_succ_self _⟩
        · rw [List.mem_singleton.mp hu] at hc
          cases hc
      · rw [harmless_second]
        simp [hconnected]
    · exact .failed (.inr hconnected) rfl hopened huses (harmless_first _ _ hlength)

theorem close_turns {job : Job} (hk : k.uses = []) :
    Meets told close (fun k' _ => Turn S k k' job true) (fun k' _ => Turn S k k' job false) k := by
  unfold close
  rw [meets_bind]
  refine own_told fun _ fields h => ?_
  cases h
  rw [meets_bind]
  refine own_told fun _ fields h => ?_
  cases h
  refine own_told fun _ fields h => ?_
  cases h
  exact .closed rfl rfl hk

/-- **Every method ends in one of these ways.** -/
theorem task_turns (job : Job) (hk : k.uses = []) :
    Safe told (job.task S) (fun k' outcome => Turn S k k' job outcome.ok) k := by
  cases job with
  | connect => exact safe_map (connect_turns hk) (fun _ _ h => h) fun _ _ h => h
  | call service method payload =>
    exact safe_map (call_turns service method payload hk) (fun _ _ h => h) fun _ _ h => h
  | close => exact safe_map (close_turns hk) (fun _ _ h => h) fun _ _ h => h

/-- A call uses the stored connection if the client is connected, and opens a new one if it is not. -/
def Begins (k k' : Notes TcpClient) : Prop :=
  if k.fields.connected then ∀ u ∈ k'.uses, u.conn? = k.fields.stream else ∃ c, k'.uses.head? = some (.dialled c)

theorem call_begins (service method : String) (payload : Value) (hk : k.uses = []) :
    Meets told (call S service method payload) (fun k' _ => Begins k k') (fun k' _ => Begins k k') k := by
  unfold call
  rw [meets_bind]
  refine own_told fun r fields h => ?_
  cases h
  cases hconnected : k.fields.connected with
  | true =>
    have hbegins (k' : Notes TcpClient) : Begins k k' ↔ ∀ u ∈ k'.uses, u.conn? = k.fields.stream := by
      simp [Begins, hconnected]
    show Meets _ (own .stream >>= _) _ _ _
    rw [meets_bind]
    refine own_told fun r fields h => ?_
    cases h
    cases hstream : k.fields.stream with
    | none =>
      refine (hbegins _).mpr ?_
      rw [hk]
      nofun
    | some c =>
      have huses {uses : List Use} (h : ∀ u ∈ uses, u.conn? = some c) :
          ∀ u ∈ k.uses ++ .split c :: uses, u.conn? = k.fields.stream := by
        rw [hk, List.nil_append, hstream]
        exact List.forall_mem_cons.mpr ⟨rfl, h⟩
      exact exchange_told (fun uses _ _ h => (hbegins _).mpr (huses h))
        (fun uses _ _ _ h => (hbegins _).mpr (huses h)) hconnected
  | false =>
    have hbegins {c : Option ConnId} {uses : List Use} (k' : Notes TcpClient) (h : .dialled c :: uses <+: k'.uses) :
        Begins k k' := by
      obtain ⟨rest, hrest⟩ := h
      simp [Begins, hconnected, ← hrest]
    show Meets _ (connect S >>= _) _ _ _
    rw [meets_bind]
    refine connect_told (fun f sessionId => ?_) (fun f sessionId e => ?_) fun opened c uses e _ _ _ => ?_
    all_goals rw [hk, List.nil_append]
    · refine safe_mono Client.uses_grow fun k' r h => ?_
      cases r <;> exact hbegins k' h
    · exact hbegins _ List.prefix_rfl
    · exact hbegins _ List.prefix_rfl

theorem task_begins (job : Job) (hk : k.uses = []) :
    Safe told (job.task S) (fun k' _ => job.isCall = true → Begins k k') k := by
  cases job with
  | call service method payload =>
    exact safe_map (call_begins service method payload hk) (fun _ _ h _ => h) fun _ _ h _ => h
  | connect => exact safe_mono Client.uses_grow fun _ _ _ => nofun
  | close => exact safe_mono Client.uses_grow fun _ _ _ => nofun

end

/-! ### The life of a client -/

section
variable {S : Codec} {calls : List Called} {call : Called} {c : ConnId}

theorem unfailed_snoc : Unfailed (calls ++ [call]) c ↔ Unfailed calls c ∧
    ((∃ u ∈ call.uses, u.conn? = some c) →
      call.outcome.ok = true ∧ ∀ u ∈ call.uses, u.conn? = some c → u.good = true) := by
  simp only [Unfailed, List.forall_mem_append, List.forall_mem_singleton]

theorem recovers_snoc {client : TcpClient} : Recovers (calls ++ [call]) client ↔
    Recovers calls call.before ∧ Sound (calls ++ [call]) client ∧ (call.job.isCall = true → Renews calls call) := by
  constructor
  · rintro ⟨hsound, hbefore, hrenews⟩
    obtain ⟨hearlier, hnow⟩ := (forall_split_snoc (P := fun earlier e => Sound earlier e.before)).mp hbefore
    obtain ⟨hrenewed, hrenew⟩ :=
      (forall_split_snoc (P := fun earlier e => e.job.isCall = true → Renews earlier e)).mp hrenews
    exact ⟨⟨hnow, hearlier, hrenewed⟩, hsound, hrenew⟩
  · rintro ⟨⟨hnow, hearlier, hrenewed⟩, hsound, hrenew⟩
    exact ⟨hsound, (forall_split_snoc (P := fun earlier e => Sound earlier e.before)).mpr ⟨hearlier, hnow⟩,
      (forall_split_snoc (P := fun earlier e => e.job.isCall = true → Renews earlier e)).mpr ⟨hrenewed, hrenew⟩⟩

/-- What holds of a client that has met harmless failures only. -/
structure Tidy (calls : List Called) (client : TcpClient) (opened : Nat) : Prop where
  sound : Sound calls client
  /-- What is stored in a client that is not connected has failed. -/
  failed : client.connected = false → ∀ c, client.stream = some c → ¬ Unfailed calls c
  /-- After a failure it is not connected, unless it was before the failure of a `connect`. -/
  reopens : ∀ last, calls.getLast? = some last → last.outcome.ok = false →
    (last.job = .connect → last.before.connected = false) → client.connected = false
  stored : ∀ c, client.stream = some c → c < opened
  numbered : ∀ call ∈ calls, ∀ u ∈ call.uses, ∀ c, u.conn? = some c → c < opened

variable {k k' : Notes TcpClient} {job : Job} {outcome : Outcome}

/-- A connection that was opened meanwhile has not been used before. -/
theorem Tidy.unfailed_new (h : Tidy calls k.fields k.opened) (hc : k.opened ≤ c) : Unfailed calls c := by
  rintro e he ⟨u, hu, huc⟩
  exact absurd (h.numbered e he u hu c huc) (Nat.not_lt.mpr hc)

/-- A connection that is taken has not failed before. -/
theorem Tidy.unfailed_taken (h : Tidy calls k.fields k.opened) (hc : Taken k k' c) : Unfailed calls c := by
  rcases hc with ⟨hconnected, hstream⟩ | ⟨hc, -⟩
  · obtain ⟨d, hd, hunfailed⟩ := h.sound hconnected
    obtain rfl := Option.some.inj (hstream.symm.trans hd)
    exact hunfailed
  · exact h.unfailed_new hc

theorem Tidy.taken_lt (h : Tidy calls k.fields k.opened) (hopened : k.opened ≤ k'.opened) (hc : Taken k k' c) :
    c < k'.opened :=
  hc.elim (fun hc => Nat.lt_of_lt_of_le (h.stored c hc.2) hopened) fun hc => hc.2

/-- A call that does not use `c` leaves it as it was. -/
theorem unfailed_unused (h : ∀ u ∈ call.uses, u.conn? ≠ some c) : Unfailed (calls ++ [call]) c ↔ Unfailed calls c :=
  unfailed_snoc.trans (and_iff_left fun ⟨u, hu, hc⟩ => absurd hc (h u hu))

/-- What a method has to leave for the client to be tidy behind it. -/
theorem Tidy.snoc (h : Tidy calls k.fields k.opened)
    (hsound : Sound (calls ++ [⟨job, k.fields, outcome, k'.uses⟩]) k'.fields)
    (hfailed : k'.fields.connected = false → ∀ c, k'.fields.stream = some c →
      ¬ Unfailed (calls ++ [⟨job, k.fields, outcome, k'.uses⟩]) c)
    (hreopens : outcome.ok = false → (job = .connect → k.fields.connected = false) → k'.fields.connected = false)
    (hstored : ∀ c, k'.fields.stream = some c → c < k'.opened) (hopened : k.opened ≤ k'.opened)
    (huses : ∀ u ∈ k'.uses, ∀ c, u.conn? = some c → c < k'.opened) :
    Tidy (calls ++ [⟨job, k.fields, outcome, k'.uses⟩]) k'.fields k'.opened where
  sound := hsound
  failed := hfailed
  reopens last hlast := by
    obtain rfl : _ = last := Option.some.inj (List.getLast?_concat.symm.trans hlast)
    exact hreopens
  stored := hstored
  numbered := List.forall_mem_append.mpr
    ⟨fun e he u hu c hc => Nat.lt_of_lt_of_le (h.numbered e he u hu c hc) hopened,
      List.forall_mem_singleton.mpr huses⟩

/-- **A method leaves the client sound exactly if it met harmless failures only, and then tidy.** -/
theorem Turn.tidy (h : Tidy calls k.fields k.opened) (hturn : Turn S k k' job outcome.ok) :
    (Sound (calls ++ [⟨job, k.fields, outcome, k'.uses⟩]) k'.fields ↔ Harmless S k.fields.connected k'.uses) ∧
      (Harmless S k.fields.connected k'.uses →
        Tidy (calls ++ [⟨job, k.fields, outcome, k'.uses⟩]) k'.fields k'.opened) := by
  generalize hok : outcome.ok = ok at hturn
  have hunused (huses : ∀ u ∈ k'.uses, Anew k k' u) (c : ConnId) (hc : k.fields.stream = some c) :
      Unfailed (calls ++ [⟨job, k.fields, outcome, k'.uses⟩]) c ↔ Unfailed calls c :=
    unfailed_unused fun u hu huc => absurd (huses u hu c huc).1 (Nat.not_le.mpr (h.stored c hc))
  have htaken_lt {c : ConnId} (hopened : k.opened ≤ k'.opened) (htaken : Taken k k' c) (d : ConnId)
      (hd : some c = some d) : d < k'.opened :=
    Option.some.inj hd ▸ h.taken_lt hopened htaken
  cases hturn with
  | failed hjob hfields hopened huses hharmless =>
    have hsound : Sound (calls ++ [⟨job, k.fields, outcome, k'.uses⟩]) k'.fields := fun hconnected => by
      obtain ⟨c, hc, hunfailed⟩ := h.sound (hfields ▸ hconnected)
      exact ⟨c, hfields ▸ hc, (hunused huses c hc).mpr hunfailed⟩
    refine ⟨iff_of_true hsound hharmless, fun _ => h.snoc hsound ?_ ?_ ?_ hopened fun u hu c hc =>
      (huses u hu c hc).2⟩
    all_goals rw [hfields]
    · exact fun hconnected c hc hunfailed => h.failed hconnected c hc ((hunused huses c hc).mp hunfailed)
    · exact fun _ hwas => hjob.elim hwas id
    · exact fun c hc => Nat.lt_of_lt_of_le (h.stored c hc) hopened
  | @half sessionId hjob hfields hopened huses hharmless =>
    have hsound : Sound (calls ++ [⟨job, k.fields, outcome, k'.uses⟩]) k'.fields ↔ k.fields.connected = true := by
      rw [hfields]
      refine ⟨fun hsound => Bool.eq_true_of_not_eq_false fun hconnected => ?_, fun hconnected _ => ?_⟩
      · obtain ⟨c, hc, hunfailed⟩ := hsound rfl
        exact h.failed hconnected c hc ((hunused huses c hc).mp hunfailed)
      · obtain ⟨c, hc, hunfailed⟩ := h.sound hconnected
        exact ⟨c, hc, (hunused huses c hc).mpr hunfailed⟩
    refine ⟨hsound.trans hharmless.symm, fun hharm => ?_⟩
    have hconnected := hharmless.mp hharm
    refine h.snoc (hsound.mpr hconnected) ?_ ?_ ?_ hopened fun u hu c hc => (huses u hu c hc).2
    all_goals rw [hfields]
    · exact nofun
    · exact fun _ hwas => absurd (hjob.elim hwas id) (Bool.ne_false_iff.mpr hconnected)
    · exact fun c hc => Nat.lt_of_lt_of_le (h.stored c hc) hopened
  | lost hconnected hstream hfields hopened huses =>
    obtain ⟨c, hc, -⟩ := h.sound hconnected
    cases hstream.symm.trans hc
  | @kept c htaken hconnected hstream hopened huses hharmless =>
    have hsound : Sound (calls ++ [⟨job, k.fields, outcome, k'.uses⟩]) k'.fields := fun _ =>
      ⟨c, hstream, unfailed_snoc.mpr ⟨h.unfailed_taken htaken, fun _ => ⟨hok, fun u hu _ => (huses u hu).2⟩⟩⟩
    refine ⟨iff_of_true hsound hharmless, fun _ => h.snoc hsound ?_ ?_ ?_ hopened fun u hu d hd => ?_⟩
    · exact fun hfalse => nomatch hconnected.symm.trans hfalse
    · exact fun hfailed => nomatch hok.symm.trans hfailed
    · exact fun d hd => htaken_lt hopened htaken d (hstream.symm.trans hd)
    · exact (huses u hu).1.elim (fun hc => htaken_lt hopened htaken d (hc.symm.trans hd)) fun hanew =>
        (hanew d hd).2
  | @exchange c htaken hstream hopened huses hmem hharmless =>
    have hfailed : ¬ Unfailed (calls ++ [⟨job, k.fields, outcome, k'.uses⟩]) c := fun h =>
      nomatch hok.symm.trans ((unfailed_snoc.mp h).2 hmem).1
    have hsound : Sound (calls ++ [⟨job, k.fields, outcome, k'.uses⟩]) k'.fields ↔ k'.fields.connected = false := by
      refine ⟨fun hsound => Bool.eq_false_of_not_eq_true fun hconnected => ?_, fun hfalse hconnected => ?_⟩
      · obtain ⟨d, hd, hunfailed⟩ := hsound hconnected
        exact hfailed (Option.some.inj (hstream.symm.trans hd) ▸ hunfailed)
      · exact nomatch hfalse.symm.trans hconnected
    refine ⟨hsound.trans hharmless.symm, fun hharm => h.snoc (hsound.mpr (hharmless.mp hharm)) ?_ ?_ ?_ hopened
      fun u hu d hd => ?_⟩
    · exact fun _ d hd => Option.some.inj (hstream.symm.trans hd) ▸ hfailed
    · exact fun _ _ => hharmless.mp hharm
    · exact fun d hd => htaken_lt hopened htaken d (hstream.symm.trans hd)
    · exact (huses u hu).elim (fun hc => htaken_lt hopened htaken d (hc.symm.trans hd)) fun hanew => (hanew d hd).2
  | closed hfields hopened huses =>
    have hsound : Sound (calls ++ [⟨job, k.fields, outcome, k'.uses⟩]) k'.fields := by
      rw [hfields]
      exact fun hconnected => nomatch hconnected
    have hharmless : Harmless S k.fields.connected k'.uses := huses ▸ harmless_nil _
    refine ⟨iff_of_true hsound hharmless, fun _ => h.snoc hsound ?_ ?_ ?_ (Nat.le_of_eq hopened.symm) ?_⟩
    · rw [hfields]
      exact fun _ c hc => nomatch hc
    · rw [hfields]
      exact fun _ _ => rfl
    · rw [hfields]
      exact fun c hc => nomatch hc
    · rw [huses]
      exact fun u hu => nomatch hu

/-- A tidy client renews what a call has to. -/
theorem Begins.renews (h : Tidy calls k.fields k.opened) (hbegins : Begins k k') :
    Renews calls ⟨job, k.fields, outcome, k'.uses⟩ := by
  unfold Begins at hbegins
  split at hbegins
  next hconnected =>
    obtain ⟨c, hc, hunfailed⟩ := h.sound hconnected
    refine ⟨.inr ⟨c, hc, hunfailed, fun u hu => (hbegins u hu).trans hc⟩, fun last hlast hfailed hwas => ?_⟩
    exact absurd (h.reopens last hlast hfailed hwas) (Bool.ne_false_iff.mpr hconnected)
  · exact ⟨.inl hbegins, fun _ _ _ _ => hbegins⟩

theorem tidy_new (opened : Nat) : Tidy [] .new opened where
  sound h := nomatch h
  failed _ _ hc := nomatch hc
  reopens _ hlast := nomatch hlast
  stored _ hc := nomatch hc
  numbered _ h := nomatch h

theorem recovers_new : Recovers [] .new where
  sound := (tidy_new 0).sound
  sound_before _ _ _ heq := by simp at heq
  renews _ _ _ heq := by simp at heq

end

/-- **A TCP client recovers all its life long exactly if its methods meet harmless failures only.** -/
theorem recovers_iff (S : Codec) (n : Net) {calls : List Called} {w : Client TcpClient}
    (h : Client.Lives (fun _ => perform) (Job.task S) ⟨.new, n⟩ calls w) :
    Recovers calls w.fields ↔ ∀ call ∈ calls, Harmless S call.before.connected call.uses := by
  refine (Client.Lives.keeps (I := fun calls client opened =>
    (Recovers calls client ↔ ∀ call ∈ calls, Harmless S call.before.connected call.uses) ∧
      ((∀ call ∈ calls, Harmless S call.before.connected call.uses) → Tidy calls client opened)) ?_ ?_ h).1
  · exact ⟨iff_of_true recovers_new (List.forall_mem_nil _), fun _ => tidy_new _⟩
  · rintro calls fields opened job ⟨hiff, htidy⟩
    refine safe_mono (safe_and (task_turns job rfl) (task_begins job rfl)) fun k' outcome ⟨hturn, hbegins⟩ => ?_
    rw [recovers_snoc, hiff, List.forall_mem_append, List.forall_mem_singleton]
    refine ⟨and_congr_right fun hall => ?_, fun hall => (hturn.tidy (htidy hall.1)).2 hall.2⟩
    exact (and_iff_left fun hcall => (hbegins hcall).renews (htidy hall)).trans (hturn.tidy (htidy hall)).1

theorem call_stranded (S : Codec) {k : Notes TcpClient} (service method : String) (payload : Value)
    (hconnected : k.fields.connected = true) (hstream : k.fields.stream = none) :
    Safe told ((Job.call service method payload).task S)
      (fun k' outcome => k'.fields = k.fields ∧ outcome = .reply (.error .connectionClosed)) k := by
  have hcall : Meets told (call S service method payload) (fun _ _ => False)
      (fun k' e => k'.fields = k.fields ∧ e = .connectionClosed) k := by
    unfold call
    rw [meets_bind]
    refine own_told fun r fields h => ?_
    cases h
    rw [hconnected]
    show Meets _ (own .stream >>= _) _ _ _
    rw [meets_bind]
    refine own_told fun r fields h => ?_
    cases h
    rw [hstream]
    exact ⟨rfl, rfl⟩
  exact safe_map hcall (fun _ _ h => h.elim) fun _ _ h => ⟨h.1, by rw [h.2]⟩

/-- **A client that is connected and holds no connection fails every call from then on.** -/
theorem stranded (S : Codec) {calls : List Called} {w w' : Client TcpClient}
    (hconnected : w.fields.connected = true) (hstream : w.fields.stream = none)
    (h : Client.Lives (fun _ => perform) (Job.task S) w calls w')
    (hcalls : ∀ call ∈ calls, call.job.isCall = true) :
    w'.fields = w.fields ∧ ∀ call ∈ calls, call.outcome = .reply (.error .connectionClosed) := by
  induction h with
  | new => exact ⟨rfl, List.forall_mem_nil _⟩
  | @next calls w₁ w₂ γ job outcome _ hreturns ih =>
    obtain ⟨hbefore, hjob⟩ := List.forall_mem_append.mp hcalls
    obtain ⟨hfields, hfailed⟩ := ih hbefore
    cases job with
    | connect => exact nomatch hjob _ List.mem_cons_self
    | close => exact nomatch hjob _ List.mem_cons_self
    | call service method payload =>
      obtain ⟨hkept, houtcome⟩ := Client.told hreturns
        (call_stranded S (k := ⟨w₁.fields, _, []⟩) service method payload (hfields ▸ hconnected)
          (hfields ▸ hstream))
      exact ⟨hkept.trans hfields, List.forall_mem_append.mpr ⟨hfailed, List.forall_mem_singleton.mpr houtcome⟩⟩

namespace Sample
open Json.Text (compact)

/-- The first connection is made and greeted. -/
def greeted : List (Nat × Choice) := goes 0 3 ++ [(0, .arrive (encode EchoServer.ack))] ++ goes 0 2

/-- A client that connects. -/
theorem recovers_connected : ∃ calls w, Client.Lives (fun _ => perform) (Job.task compact) ⟨.new, .empty⟩ calls w ∧
    w.fields.connected = true ∧ Recovers calls w.fields := by
  have hend :
      (Client.live (fun _ => perform) (Job.task compact) [(.connect, greeted ++ goes 0 2)] [] ⟨.new, .empty⟩).map
      (fun x => (x.2.fields.connected, decide (∀ call ∈ x.1, Harmless compact call.before.connected call.uses))) =
        some (true, true) := by decide +kernel
  obtain ⟨⟨calls, w⟩, hlive, heq⟩ := Option.map_eq_some_iff.mp hend
  obtain ⟨hconnected, hharmless⟩ := Prod.mk.inj heq
  have hlives : Client.Lives (fun _ => perform) (Job.task compact) ⟨.new, .empty⟩ calls w :=
    Client.Lives.new.live hlive
  exact ⟨calls, w, hlives, hconnected, (recovers_iff compact .empty hlives).mpr (of_decide_eq_true hharmless)⟩

/-- The second connection is refused: the client is connected, and holds none. -/
theorem connected_to_none : ¬ ∀ calls w, Client.Lives (fun _ => perform) (Job.task compact) ⟨.new, .empty⟩ calls w →
    Recovers calls w.fields := by
  intro h
  have hend : (Client.live (fun _ => perform) (Job.task compact)
      [(.connect, greeted ++ [(0, .fail 0 [] "refused")])] [] ⟨.new, .empty⟩).map
        (fun x => (x.2.fields.connected, x.2.fields.stream)) = some (true, none) := by decide +kernel
  obtain ⟨⟨calls, w⟩, hlive, heq⟩ := Option.map_eq_some_iff.mp hend
  obtain ⟨hconnected, hstream⟩ := Prod.mk.inj heq
  obtain ⟨c, hc, -⟩ := (h calls w (Client.Lives.new.live hlive)).sound hconnected
  cases hstream.symm.trans hc

end Sample

end XProtocol.TcpClient
