import Mathlib.Data.List.Induction
import XProtocol.Client.Exclusive
import XProtocol.Protocol

/-! Who greets before it asks.

A connection's log tells whether its client kept to the handshake (`Speaks`): it greets
first, and asks for nothing before a handshake was accepted. What a server takes a
connection for is decided by the fifth byte on it, the type of the first message. It
says so as long as no message is written behind one that broke off before its type
(`Unbroken`).

A client that writes handshakes only, or on connections that were welcomed (`Polite`),
keeps all of them in order, from one operation to the next (`perform_mannered`) and
where an operation is dropped (`abandon_mannered`). One that never greets does so
exactly as long as it does not write at all (`mannered_of_mute`, `mute_of_speaks`). -/
namespace XProtocol
open Async
open Json (Bytes Value Codec)
open Wire

/-- A request of one of the three kinds. -/
def Asks (f : Frame) : Prop :=
  f.msgType = msgRequest ∨ f.msgType = msgStreamRequest ∨ f.msgType = msgSchemaRequest

/-- An answer that accepts a handshake. -/
def Accepts (S : Codec) (f : Frame) : Prop :=
  f.msgType = msgHandshakeAck ∧
    ∃ response : HandshakeResponse, S.fromSlice f.payload = some response ∧ response.success = true

/-- The first message sent is a handshake, and requests follow an accepted one. -/
structure Speaks (S : Codec) (log : List Event) : Prop where
  greets : ∀ pre f post, log = pre ++ .sent f :: post → (∀ g, .sent g ∉ pre) → f.msgType = msgHandshake
  waits : ∀ pre f post, log = pre ++ .sent f :: post → Asks f → ∃ g, .received g ∈ pre ∧ Accepts S g

/-- A message was sent, and a handshake accepted. -/
def Accepted (S : Codec) (log : List Event) : Prop :=
  (∃ f, .sent f ∈ log) ∧ ∃ g, .received g ∈ log ∧ Accepts S g

section Log
variable {S : Codec} {log : List Event}

theorem Accepted.append (h : Accepted S log) (more : List Event) : Accepted S (log ++ more) :=
  ⟨h.1.imp fun _ hf => List.mem_append_left _ hf,
    h.2.imp fun _ hg => ⟨List.mem_append_left _ hg.1, hg.2⟩⟩

theorem speaks_nil : Speaks S [] := ⟨fun _ _ _ h => by simp at h, fun _ _ _ h => by simp at h⟩

theorem Speaks.received (h : Speaks S log) (f : Frame) : Speaks S (log ++ [.received f]) := by
  have hback {pre g post} (heq : log ++ [.received f] = pre ++ .sent g :: post) :
      ∃ post', log = pre ++ .sent g :: post' := by
    rcases List.eq_nil_or_concat post with rfl | ⟨post', e, rfl⟩
    · exact nomatch (List.append_inj' heq rfl).2
    · rw [List.concat_eq_append, ← List.cons_append, ← List.append_assoc] at heq
      exact ⟨post', (List.append_inj' heq rfl).1⟩
  constructor
  · intro pre g post heq
    obtain ⟨post', hlog⟩ := hback heq
    exact h.greets pre g post' hlog
  · intro pre g post heq
    obtain ⟨post', hlog⟩ := hback heq
    exact h.waits pre g post' hlog

/-- A handshake may always be sent, and behind an accepted one anything. -/
theorem Speaks.sent (h : Speaks S log) {f : Frame} (hf : f.msgType = msgHandshake ∨ Accepted S log) :
    Speaks S (log ++ [.sent f]) := by
  have hback {pre g post} (heq : log ++ [.sent f] = pre ++ .sent g :: post) :
      (pre = log ∧ g = f) ∨ ∃ post', log = pre ++ .sent g :: post' := by
    rcases List.eq_nil_or_concat post with rfl | ⟨post', e, rfl⟩
    · obtain ⟨hpre, hlast⟩ := List.append_inj' heq rfl
      cases hlast
      exact .inl ⟨hpre.symm, rfl⟩
    · rw [List.concat_eq_append, ← List.cons_append, ← List.append_assoc] at heq
      exact .inr ⟨post', (List.append_inj' heq rfl).1⟩
  constructor
  · intro pre g post heq hfirst
    obtain ⟨rfl, rfl⟩ | ⟨post', hlog⟩ := hback heq
    · rcases hf with hf | ⟨⟨f', hf'⟩, -⟩
      · exact hf
      · exact absurd hf' (hfirst f')
    · exact h.greets pre g post' hlog hfirst
  · intro pre g post heq hasks
    obtain ⟨rfl, rfl⟩ | ⟨post', hlog⟩ := hback heq
    · rcases hf with hf | ⟨-, hg⟩
      · rcases hasks with hg | hg | hg <;> rw [hf] at hg <;> exact absurd hg (by decide)
      · exact hg
    · exact h.waits pre g post' hlog hasks

theorem Accepted.grows {log' : List Event} (h : Accepted S log) (hlog : log <+: log') : Accepted S log' := by
  obtain ⟨more, rfl⟩ := hlog
  exact h.append more

/-- If no handshake was sent, nothing was. -/
theorem Speaks.mute (h : Speaks S log) (hnone : ∀ f, .sent f ∈ log → f.msgType ≠ msgHandshake) (f : Frame) :
    .sent f ∉ log := by
  induction log using List.reverseRecOn generalizing f with
  | nil => simp
  | append_singleton before e ih =>
    have hbefore : ∀ g, .sent g ∉ before := fun g => ih
      ⟨fun pre f post heq => h.greets pre f (post ++ [e]) (by simp [heq]),
        fun pre f post heq => h.waits pre f (post ++ [e]) (by simp [heq])⟩
      (fun g hg => hnone g (List.mem_append_left _ hg)) g
    intro hf
    rcases List.mem_append.mp hf with hf | hf
    · exact hbefore f hf
    · obtain rfl := List.mem_singleton.mp hf
      exact hnone f (by simp) (h.greets before f [] rfl hbefore)

end Log

/-! ### Connections in order -/

/-- The client kept to the handshake, and the first message out begins as one. -/
structure Mannered (S : Codec) (conn : Conn) : Prop where
  speaks : Speaks S conn.log
  opens : ∀ b, conn.written[4]? = some b → b = msgHandshake

/-- A handshake was accepted on the connection; the type of its first message is out. -/
structure Welcomed (S : Codec) (conn : Conn) : Prop where
  accepted : Accepted S conn.log
  out : 5 ≤ conn.written.length

section Conn
variable {S : Codec} {conn : Conn}

/-- A handshake may be sent, and more where one was welcomed, if nothing broke off before. -/
theorem Mannered.send (h : Mannered S conn) {f : Frame} {bytes : Bytes} (hbytes : bytes <+: encode f)
    (hf : f.msgType = msgHandshake ∨ Welcomed S conn)
    (hout : conn.written = [] ∨ 5 ≤ conn.written.length) : Mannered S (conn.send f bytes) := by
  refine ⟨h.speaks.sent (hf.imp_right (·.accepted)), fun b hb => ?_⟩
  have hb : (conn.written ++ bytes)[4]? = some b := hb
  rcases hout with hnil | hlen
  · -- the first message, of which some has gone out
    have htype : f.msgType = msgHandshake := by
      refine hf.resolve_right fun hw => ?_
      have := hw.out
      simp [hnil] at this
    rw [hnil, List.nil_append] at hb
    obtain ⟨hlt, hget⟩ := List.getElem?_eq_some_iff.mp hb
    have hmsg : (encode f)[4]? = some b :=
      List.getElem?_eq_some_iff.mpr
        ⟨Nat.lt_of_lt_of_le hlt hbytes.length_le, (hbytes.getElem hlt).symm.trans hget⟩
    exact (Option.some.inj hmsg).symm.trans htype
  · rw [List.getElem?_append_left (by omega)] at hb
    exact h.opens b hb

end Conn

/-! ### One operation -/

/-- Handshakes are written on open connections, other messages on welcomed ones. -/
def Polite (S : Codec) (n : Net) : Net.Op → Prop
  | .write c msgType _ => c < n.opened ∧ (msgType = msgHandshake ∨ Welcomed S (n.conns c))
  | _ => True

/-- No message is written behind one that broke off before its type. -/
def Unbroken (n : Net) : Net.Op → Prop
  | .write c _ _ => (n.conns c).written = [] ∨ 5 ≤ (n.conns c).written.length
  | _ => True

/-- Connections stay open, and what was sent, received and written on them stays so. -/
structure Net.Grows (n n' : Net) : Prop where
  opened : n.opened ≤ n'.opened
  log : ∀ c < n.opened, (n.conns c).log <+: (n'.conns c).log
  written : ∀ c < n.opened, (n.conns c).written <+: (n'.conns c).written

section Operations
variable {S : Codec} {n n' : Net} {c : ConnId} {t owner : Nat} {choice : Choice} {o : Net.Op}

theorem Net.Grows.refl (n : Net) : n.Grows n :=
  ⟨Nat.le_refl _, fun _ _ => List.prefix_rfl, fun _ _ => List.prefix_rfl⟩

theorem Net.Grows.trans {n'' : Net} (h : n.Grows n') (h' : n'.Grows n'') : n.Grows n'' where
  opened := Nat.le_trans h.opened h'.opened
  log c hc := (h.log c hc).trans (h'.log c (Nat.lt_of_lt_of_le hc h.opened))
  written c hc := (h.written c hc).trans (h'.written c (Nat.lt_of_lt_of_le hc h.opened))

theorem grows_modify {f : Conn → Conn} (hlog : (n.conns c).log <+: (f (n.conns c)).log)
    (hwritten : (n.conns c).written <+: (f (n.conns c)).written) : n.Grows (n.modify c f) := by
  refine ⟨Nat.le_refl _, fun d _ => ?_, fun d _ => ?_⟩ <;> by_cases hd : d = c
  · subst hd
    rwa [Net.modify_self]
  · exact (Net.modify_other n c d f hd).symm ▸ List.prefix_rfl
  · subst hd
    rwa [Net.modify_self]
  · exact (Net.modify_other n c d f hd).symm ▸ List.prefix_rfl

theorem grows_dial (n : Net) (owner : Nat) : n.Grows (n.dial owner) := by
  have hother {c : ConnId} (hc : c < n.opened) := n.dial_conns_other c owner (Nat.ne_of_lt hc)
  exact ⟨Nat.le_succ _, fun c hc => (hother hc).symm ▸ List.prefix_rfl,
    fun c hc => (hother hc).symm ▸ List.prefix_rfl⟩

theorem grows_send (n : Net) (c : ConnId) (f : Frame) (bytes : Bytes) : n.Grows (n.modify c (·.send f bytes)) :=
  grows_modify (List.prefix_append ..) (List.prefix_append ..)

theorem perform_grows {r : o.Ret} (h : n.perform t owner o choice = some (r, n')) : n.Grows n' := by
  cases o with
  | connect timed =>
    rcases Net.perform_connect h with ⟨-, rfl⟩ | ⟨-, rfl⟩
    · exact grows_dial ..
    · exact .refl _
  | split c =>
    obtain rfl := Net.perform_split h
    exact grows_modify List.prefix_rfl List.prefix_rfl
  | write c msgType payload =>
    rcases Net.perform_write h with ⟨-, -, rfl⟩ | ⟨-, -, rfl⟩ | ⟨-, -, out, rfl⟩
    · exact .refl _
    · exact grows_send ..
    · exact grows_send ..
  | read c timed =>
    rcases Net.perform_read h with ⟨f, rest, -, -, rfl⟩ | ⟨-, ahead, rfl⟩
    · exact grows_modify (List.prefix_append ..) List.prefix_rfl
    · exact grows_modify List.prefix_rfl List.prefix_rfl
  | newRequest service method payload =>
    obtain rfl := Net.perform_newRequest h
    exact ⟨Nat.le_refl _, fun _ _ => List.prefix_rfl, fun _ _ => List.prefix_rfl⟩

theorem Welcomed.grows (h : Welcomed S (n.conns c)) (hn : n.Grows n') (hc : c < n.opened) :
    Welcomed S (n'.conns c) :=
  ⟨h.accepted.grows (hn.log c hc), Nat.le_trans h.out (hn.written c hc).length_le⟩

/-- What a connection keeps, whatever is done with it except writing. -/
structure Passive (I : Conn → Prop) : Prop where
  fresh : ∀ owner, I (.fresh owner)
  split : ∀ conn, I conn → I conn.split
  take : ∀ conn got ahead, I conn → I (conn.take got ahead)
  receive : ∀ conn f, I conn → I (conn.receive f)

/-- What is written goes out in part or as a whole. -/
def Sends (I : Conn → Prop) (n : Net) (o : Net.Op) : Prop :=
  ∀ c msgType payload bytes, o = .write c msgType payload → Fits ⟨msgType, payload⟩ →
    bytes <+: encode ⟨msgType, payload⟩ → I ((n.conns c).send ⟨msgType, payload⟩ bytes)

section Each
variable {I : Conn → Prop} (hI : Passive I) (h : ∀ d, I (n.conns d))

include h in
theorem modify_each {f : Conn → Conn} (hf : I (f (n.conns c))) (d : ConnId) : I ((n.modify c f).conns d) := by
  by_cases hd : d = c
  · subst hd
    rwa [Net.modify_self]
  · rw [Net.modify_other _ _ _ _ hd]
    exact h d

include hI h

/-- **What writes keep of each connection, every operation keeps.** -/
theorem perform_each (hsend : Sends I n o) {r : o.Ret} (hstep : n.perform t owner o choice = some (r, n'))
    (d : ConnId) : I (n'.conns d) := by
  cases o with
  | connect timed =>
    rcases Net.perform_connect hstep with ⟨-, rfl⟩ | ⟨-, rfl⟩
    · by_cases hd : d = n.opened
      · subst hd
        rw [Net.dial_conns_self]
        exact hI.fresh owner
      · rw [Net.dial_conns_other _ _ _ hd]
        exact h d
    · exact h d
  | split c =>
    obtain rfl := Net.perform_split hstep
    exact modify_each h (hI.split _ (h c)) d
  | write c msgType payload =>
    rcases Net.perform_write hstep with ⟨-, -, rfl⟩ | ⟨hf, -, rfl⟩ | ⟨hf, -, out, rfl⟩
    · exact h d
    · exact modify_each h (hsend c _ _ _ rfl hf List.prefix_rfl) d
    · exact modify_each h (hsend c _ _ _ rfl hf (List.take_prefix ..)) d
  | read c timed =>
    rcases Net.perform_read hstep with ⟨f, rest, -, -, rfl⟩ | ⟨-, ahead, rfl⟩
    · exact modify_each h (hI.receive _ f (hI.take _ _ _ (h c))) d
    · exact modify_each h (hI.take _ _ _ (h c)) d
  | newRequest service method payload =>
    obtain rfl := Net.perform_newRequest hstep
    exact h d

/-- So does what is left of one that is dropped. -/
theorem abandon_each (hsend : Sends I n o) (out : Nat) (got : Bytes) (d : ConnId) :
    I ((Net.abandon o out got n).conns d) := by
  cases o with
  | write c msgType payload =>
    simp only [Net.abandon]
    cases hw : writeMessage msgType payload with
    | error e => exact h d
    | ok bytes =>
      obtain ⟨hf, rfl⟩ := writeMessage_eq_ok hw
      exact modify_each h (hsend c _ _ _ rfl hf (List.take_prefix ..)) d
  | read c timed =>
    show I ((n.modify c (·.take got [])).conns d)
    exact modify_each h (hI.take _ _ _ (h c)) d
  | _ => exact h d

end Each

theorem mannered_passive (S : Codec) : Passive (Mannered S) where
  fresh _ := ⟨speaks_nil, by simp [Conn.fresh]⟩
  split _ h := ⟨h.speaks, h.opens⟩
  take _ _ _ h := ⟨h.speaks, h.opens⟩
  receive _ f h := ⟨h.speaks.received f, h.opens⟩

/-- **A polite operation keeps every connection in order.** -/
theorem Polite.sends (hpolite : Polite S n o) (hout : Unbroken n o) (h : ∀ d, Mannered S (n.conns d)) :
    Sends (Mannered S) n o := by
  rintro c msgType payload bytes rfl - hbytes
  exact (h c).send hbytes hpolite.2 hout

theorem abandon_grows (o : Net.Op) (out : Nat) (got : Bytes) (n : Net) : n.Grows (Net.abandon o out got n) := by
  cases o with
  | write c msgType payload =>
    simp only [Net.abandon]
    cases writeMessage msgType payload with
    | error e => exact .refl n
    | ok bytes => exact grows_send ..
  | read c timed =>
    show n.Grows (n.modify c (·.take got []))
    exact grows_modify List.prefix_rfl List.prefix_rfl
  | _ => exact .refl n

end Operations

/-! ### Greeting a connection -/

/-- A message is out on the connection, or its type at least. -/
structure Awaiting (n : Net) (c : ConnId) : Prop where
  opened : c < n.opened
  sent : ∃ f, .sent f ∈ (n.conns c).log
  out : 5 ≤ (n.conns c).written.length

section Awaiting
variable {S : Codec} {n n' : Net} {c : ConnId} {t owner : Nat} {choice : Choice}

theorem Awaiting.grows (h : Awaiting n c) (hn : n.Grows n') : Awaiting n' c where
  opened := Nat.lt_of_lt_of_le h.opened hn.opened
  sent := h.sent.imp fun _ hf => (hn.log c h.opened).subset hf
  out := Nat.le_trans h.out (hn.written c h.opened).length_le

theorem awaiting_write {msgType : UInt8} {payload : Bytes} (hc : c < n.opened)
    (h : n.perform t owner (.write c msgType payload) choice = some (.ok (), n')) : Awaiting n' c := by
  rcases Net.perform_write h with ⟨-, hr, -⟩ | ⟨-, -, rfl⟩ | ⟨-, ⟨text, hr⟩, -⟩
  · cases hr
  · refine ⟨hc, ⟨⟨msgType, payload⟩, ?_⟩, ?_⟩ <;> rw [Net.modify_self]
    · exact List.mem_append_right _ (List.mem_singleton_self _)
    · simp only [Conn.send, List.length_append, encode_length]
      omega
  · cases hr

/-- The reply accepts the handshake, or one was accepted before. -/
theorem Awaiting.welcomed (h : Awaiting n c) {timed : Bool} {f : Frame}
    (hstep : n.perform t owner (.read c timed) choice = some (.inTime (.ok f), n'))
    (hf : Accepted S (n.conns c).log ∨ Accepts S f) : Welcomed S (n'.conns c) := by
  have hout := h.grows (perform_grows hstep)
  rcases Net.perform_read hstep with ⟨g, rest, -, hg, rfl⟩ | ⟨hno, -⟩
  · cases hg
    refine ⟨?_, hout.out⟩
    rw [Net.modify_self]
    rcases hf with haccepted | hf
    · exact haccepted.append _
    · exact ⟨h.sent.imp fun _ hg => List.mem_append_left _ hg, f,
        List.mem_append_right _ (List.mem_singleton_self _), hf⟩
  · exact absurd rfl (hno f)

end Awaiting

/-- A client under `D` is `Civil` from one operation to the next, and polite at each; `free` says where it
may write. -/
structure Minds {Own : Interface} {F : Type} (S : Codec) (D : Discipline (NetWith Own) (Client F))
    (Civil : Client F → Prop) (P : Client F → NetOp Own → Choice → Prop) (free : Client F → Net.Op → Prop) :
    Prop where
  unbroken : ∀ {w o}, Unbroken w.net o → free w o
  net : ∀ {w o}, Civil w → Polite S w.net o → free w o →
    Safe D (Program.op (E := NetWith Own) (.net o))
      (fun w' r => ∃ choice n, w' = { w with net := n } ∧ P w (.net o) choice ∧ Civil w' ∧ w.net.Grows n ∧
        w.net.perform 0 0 o choice = some (r, n)) w

section Minds
variable {Own : Interface} {F : Type} {S : Codec} {D : Discipline (NetWith Own) (Client F)}
  {Civil : Client F → Prop} {P : Client F → NetOp Own → Choice → Prop} {free : Client F → Net.Op → Prop}
  {R : Client F → ProtocolError → Prop} {w : Client F} {c : ConnId}

theorem Minds.connect (hD : Minds S D Civil P free) (h : Civil w) (timed : Bool) :
    Safe D (Program.op (E := NetWith Own) (.net (.connect timed)))
      (fun w' r => Civil w' ∧ w.net.Grows w'.net ∧
        ∀ c, r = .inTime (.ok c) → c < w'.net.opened ∧ (w'.net.conns c).written = []) w := by
  refine safe_mono (hD.net h trivial (hD.unbroken trivial)) ?_
  rintro _ r ⟨choice, n, rfl, -, hcivil, hgrows, hn⟩
  refine ⟨hcivil, hgrows, ?_⟩
  rintro c rfl
  rcases Net.perform_connect hn with ⟨hr, rfl⟩ | ⟨hr, -⟩
  · cases hr
    refine ⟨Nat.lt_succ_self _, ?_⟩
    rw [Net.dial_conns_self]
    rfl
  · exact absurd rfl (hr c)

theorem Minds.split (hD : Minds S D Civil P free) (h : Civil w) :
    Meets D (.split c : Code Own Unit)
      (fun w' _ => Civil w' ∧ w'.fields = w.fields ∧ w.net.Grows w'.net ∧
        (w'.net.conns c).written = (w.net.conns c).written) R w := by
  refine meets_lift.mpr (safe_mono (hD.net h trivial (hD.unbroken trivial)) ?_)
  rintro _ r ⟨choice, n, rfl, -, hcivil, hgrows, hn⟩
  obtain rfl := Net.perform_split hn
  exact ⟨hcivil, rfl, hgrows, by rw [Net.modify_self]; rfl⟩

theorem Minds.newRequest (hD : Minds S D Civil P free) (h : Civil w) (service method : String)
    (payload : Value) :
    Meets D (.newRequest service method payload : Code Own ServiceRequest)
      (fun w' _ => Civil w' ∧ w'.fields = w.fields ∧ w.net.Grows w'.net) R w := by
  refine meets_lift.mpr (safe_mono (hD.net h trivial (hD.unbroken trivial)) ?_)
  rintro _ r ⟨choice, n, rfl, -, hcivil, hgrows, -⟩
  exact ⟨hcivil, rfl, hgrows⟩

theorem Minds.write (hD : Minds S D Civil P free) {msgType : UInt8} {payload : Bytes} (h : Civil w)
    (hpolite : Polite S w.net (.write c msgType payload)) (hfree : free w (.write c msgType payload)) :
    Meets D (.write c msgType payload : Code Own Unit)
      (fun w' _ => Civil w' ∧ w'.fields = w.fields ∧ w.net.Grows w'.net ∧ Awaiting w'.net c)
      (fun w' _ => Civil w') w := by
  unfold Code.write
  rw [meets_bind]
  refine meets_lift.mpr (safe_mono (hD.net h hpolite hfree) ?_)
  rintro _ (e | _) ⟨choice, n, rfl, -, hcivil, hgrows, hn⟩
  · exact hcivil
  · exact ⟨hcivil, rfl, hgrows, awaiting_write hpolite.1 hn⟩

/-- On a welcomed connection anything may be written. -/
theorem Minds.write_welcomed (hD : Minds S D Civil P free) {msgType : UInt8} {payload : Bytes} (h : Civil w)
    (hc : c < w.net.opened) (hwelcomed : Welcomed S (w.net.conns c)) :
    Meets D (.write c msgType payload : Code Own Unit) (fun w' _ => Civil w') (fun w' _ => Civil w') w :=
  meets_mono (hD.write h ⟨hc, .inr hwelcomed⟩ (hD.unbroken (.inr hwelcomed.out))) (fun _ _ h => h.1)
    fun _ _ h => h

/-- What is read where a message is out, and was good enough to go on with, welcomes the connection. -/
theorem Minds.reads (hD : Minds S D Civil P free) (h : Civil w) (timed : Bool) :
    Safe D (Program.op (E := NetWith Own) (.net (.read c timed)))
      (fun w' r => Civil w' ∧ ∀ f, r = .inTime (.ok f) → w'.fields = w.fields ∧ w.net.Grows w'.net ∧
        ∃ choice rest, P w (.net (.read c timed)) choice ∧
          readMessage ((w.net.conns c).ahead ++ choice.got) = .message f rest ∧
          (Awaiting w.net c → Accepted S (w.net.conns c).log ∨ Accepts S f → Welcomed S (w'.net.conns c))) w := by
  refine safe_mono (hD.net h trivial (hD.unbroken trivial)) ?_
  rintro _ r ⟨choice, n, rfl, hP, hcivil, hgrows, hn⟩
  refine ⟨hcivil, ?_⟩
  rintro f rfl
  have hread : ∃ rest, readMessage ((w.net.conns c).ahead ++ choice.got) = .message f rest := by
    rcases Net.perform_read hn with ⟨g, rest, hread, hg, -⟩ | ⟨hno, -⟩
    · cases hg
      exact ⟨rest, hread⟩
    · exact absurd rfl (hno f)
  obtain ⟨rest, hread⟩ := hread
  exact ⟨rfl, hgrows, choice, rest, hP, hread, fun hawaiting hf => hawaiting.welcomed hn hf⟩

end Minds

/-! ### Clients that never greet -/

/-- Nothing was sent. -/
structure Silent (conn : Conn) : Prop where
  log : ∀ f, .sent f ∉ conn.log
  written : conn.written = []

theorem Silent.mannered {S : Codec} {conn : Conn} (h : Silent conn) : Mannered S conn where
  speaks := ⟨fun pre f post heq => absurd (heq ▸ by simp) (h.log f),
    fun pre f post heq => absurd (heq ▸ by simp) (h.log f)⟩
  opens b hb := by simp [h.written] at hb

/-- The operation sends nothing. -/
def Mute {Own : Interface} : NetOp Own → Choice → Prop
  | .net (.write _ msgType payload), .go => ¬ Fits ⟨msgType, payload⟩
  | .net (.write _ msgType payload), .fail .. => ¬ Fits ⟨msgType, payload⟩
  | _, _ => True

/-- No handshake is written. -/
def curt (Own : Interface) : Discipline (NetWith Own) Unit where
  demand
    | _, .net (.write _ msgType _) => msgType ≠ msgHandshake
    | _, _ => True
  move _ _ _ _ := True

/-- The code writes no handshake. -/
def Curt {Own : Interface} {α : Type} (p : Code Own α) : Prop :=
  Meets (curt Own) p (fun _ _ => True) (fun _ _ => True) ()

section Curt
variable {Own : Interface} {α β : Type}

theorem curt_pure (a : α) : Curt (pure a : Code Own α) := trivial

theorem curt_throw (e : ProtocolError) : Curt (throw e : Code Own α) := trivial

theorem curt_bind {p : Code Own α} {f : α → Code Own β} (hp : Curt p) (hf : ∀ a, Curt (f a)) :
    Curt (p >>= f) :=
  meets_bind.mpr (meets_mono hp (fun _ a _ => hf a) fun _ _ h => h)

theorem curt_own (o : Own.Op) : Curt (Code.own o : Code Own (Own.Ret o)) :=
  (Code.meets_own ..).mpr ⟨trivial, fun _ _ _ => trivial⟩

theorem curt_net {o : Net.Op} (h : (curt Own).demand () (.net o)) : Curt (Code.net o : Code Own o.Ret) :=
  (Code.meets_net ..).mpr ⟨h, fun _ _ _ => trivial⟩

theorem curt_ofResult (r : Result α) : Curt (Code.ofResult r : Code Own α) := by cases r <;> trivial

theorem curt_decode [Json.Deserialize α] (S : Codec) (payload : Bytes) :
    Curt (Code.decode S payload : Code Own α) := by
  unfold Code.decode
  cases (S.fromSlice payload : Option α) <;> trivial

theorem curt_split (c : ConnId) : Curt (Code.split c : Code Own Unit) := curt_net trivial

theorem curt_newRequest (service method : String) (payload : Value) :
    Curt (Code.newRequest service method payload : Code Own ServiceRequest) := curt_net trivial

theorem curt_write (c : ConnId) {msgType : UInt8} (payload : Bytes) (h : msgType ≠ msgHandshake) :
    Curt (Code.write c msgType payload : Code Own Unit) := curt_bind (curt_net h) curt_ofResult

theorem curt_read (c : ConnId) : Curt (Code.read c : Code Own Frame) :=
  curt_bind (curt_net trivial) fun r => by cases r <;> exact curt_ofResult _

/-- A guard is dropped on every way out. -/
theorem curt_run {p : Code Own α} (h : Curt p) : Curt (monadLift p.run : Code Own (Result α)) :=
  meets_lift.mpr (safe_mono h fun _ _ _ => trivial)

theorem curt_task {p : Code Own α} (h : Curt p) (f : Result α → β) :
    Safe (curt Own) (f <$> p.run) (fun _ _ => True) () :=
  safe_map h (fun _ _ _ => trivial) fun _ _ _ => trivial

end Curt

/-- No handshake was sent. -/
def Uncivil (conn : Conn) : Prop := ∀ f, .sent f ∈ conn.log → f.msgType ≠ msgHandshake

theorem silent_passive : Passive Silent where
  fresh _ := ⟨fun _ => List.not_mem_nil, rfl⟩
  split _ h := ⟨h.log, h.written⟩
  take _ _ _ h := ⟨h.log, h.written⟩
  receive _ f h := ⟨fun g hg => h.log g (by simpa [Conn.receive] using hg), h.written⟩

theorem uncivil_passive : Passive Uncivil where
  fresh _ _ hf := nomatch hf
  split _ h := h
  take _ _ _ h := h
  receive _ f h g hg := h g (by simpa [Conn.receive] using hg)

section Mute
variable {Own : Interface} {F α : Type} {own : Nat → (o : Own.Op) → Choice → F → Option (Own.Ret o × F)}
  {n n' : Net} {t owner : Nat} {choice : Choice} {o : Net.Op}

theorem Mute.sends {r : o.Ret} (hmute : Mute (.net o : NetOp Own) choice)
    (hstep : n.perform t owner o choice = some (r, n')) : Sends Silent n o := by
  rintro c msgType payload bytes rfl hfits -
  cases choice <;> first | exact absurd hfits hmute | simp [Net.perform, writeMessage_of_fits hfits] at hstep

theorem curt_sends (hcurt : (curt Own).demand () (.net o)) (h : ∀ d, Uncivil (n.conns d)) :
    Sends Uncivil n o := by
  rintro c msgType payload bytes rfl - - g hg
  rcases List.mem_append.mp hg with hg | hg
  · exact h c g hg
  · cases List.mem_singleton.mp hg
    exact hcurt

/-- An operation that is not mute sends something. -/
theorem sends_of_not_mute {o : NetOp Own} (h : ¬ Mute o choice) (w : Client F) (t : Nat) :
    ∃ c f bytes r, (Client.machine own).perform t o choice w =
      some (r, { w with net := w.net.modify c (·.send f bytes) }) := by
  unfold Mute at h
  split at h
  · next c msgType payload =>
    refine ⟨c, ⟨msgType, payload⟩, encode ⟨msgType, payload⟩, .ok (), ?_⟩
    simp [Client.machine, Net.perform, writeMessage_of_fits (not_not.mp h)]
  · next c msgType payload out got text =>
    refine ⟨c, ⟨msgType, payload⟩, (encode ⟨msgType, payload⟩).take out, .error (.ofIo text), ?_⟩
    simp [Client.machine, Net.perform, writeMessage_of_fits (not_not.mp h)]
  · exact absurd trivial h

theorem curt_upheld : Upheld (Client.machine own) (curt Own) (fun _ _ _ _ => True)
    fun w _ => ∀ d, Uncivil (w.net.conns d) := by
  rintro w γ t o choice r w' h hcurt - hperform
  refine ⟨(), trivial, ?_⟩
  cases o with
  | own o =>
    obtain ⟨x, -, heq⟩ := Option.map_eq_some_iff.mp hperform
    cases heq
    exact h
  | net o =>
    obtain ⟨⟨r, n⟩, hn, heq⟩ := Option.map_eq_some_iff.mp hperform
    cases heq
    exact perform_each uncivil_passive h (curt_sends hcurt h) hn

variable {S : Codec} {s : Config (NetWith Own) (Client F) α} {ls : List (Nat × Choice)}

theorem mannered_of_mute (hnet : ∀ d, Silent (s.world.net.conns d))
    (hmute : s.Along (Client.machine own) (Config.Performs fun _ _ o choice => Mute o choice) ls) :
    s.Throughout (Client.machine own) (fun s => ∀ d, Mannered S (s.world.net.conns d)) ls := by
  have hsilent : s.Throughout (Client.machine own) (fun s => ∀ d, Silent (s.world.net.conns d)) ls := by
    refine Config.throughout_of_keeps (fun s l s' h hl hstep => ?_) hmute hnet
    obtain ⟨o, k, r, w, ho, hperform, rfl⟩ := Config.step_eq_some hstep
    have hmute := hl o k ho
    cases o with
    | own o =>
      obtain ⟨x, -, heq⟩ := Option.map_eq_some_iff.mp hperform
      cases heq
      exact h
    | net o =>
      obtain ⟨⟨r, n⟩, hn, heq⟩ := Option.map_eq_some_iff.mp hperform
      cases heq
      exact perform_each silent_passive h (hmute.sends hn) hn
  exact Config.throughout_mono (fun s h d => (h d).mannered) hsilent

theorem mute_of_speaks (htasks : ∀ p ∈ s.tasks, Safe (curt Own) p (fun _ _ => True) ())
    (hnet : ∀ d, Silent (s.world.net.conns d))
    (h : s.Throughout (Client.machine own) (fun s => ∀ d, Speaks S (s.world.net.conns d).log) ls) :
    s.Along (Client.machine own) (Config.Performs fun _ _ o choice => Mute o choice) ls := by
  have hkept : Kept (curt Own) (fun w _ => ∀ d, Uncivil (w.net.conns d)) (fun _ _ _ => True) s :=
    ⟨fun _ => (), fun d f hf => absurd hf ((hnet d).log f), fun t p hp => htasks p (List.mem_of_getElem? hp)⟩
  clear htasks hnet
  induction ls generalizing s with
  | nil => trivial
  | cons l rest ih =>
    refine ⟨fun o k ho => ?_, fun s' hs => ih (h.2 s' hs) (step_safe curt_upheld hkept (fun _ _ _ => trivial) hs)⟩
    by_contra hmute
    obtain ⟨c, f, bytes, r, hperform⟩ := sends_of_not_mute hmute s.world l.1
    have hs := Config.step_perform ho hperform
    obtain ⟨γ, hcurt, -⟩ := step_safe curt_upheld hkept (fun _ _ _ => trivial) hs
    have hspeaks := Config.throughout_first (h.2 _ hs) c
    -- what was sent is no handshake, so nothing was sent
    refine hspeaks.mute (hcurt c) f ?_
    show .sent f ∈ ((s.world.net.modify c (·.send f bytes)).conns c).log
    rw [Net.modify_self]
    exact List.mem_append_right _ (List.mem_singleton_self _)

end Mute

end XProtocol
