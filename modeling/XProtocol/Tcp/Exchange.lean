import XProtocol.Tcp.System

/-! One operation of the client, and what the tasks make of it.

Between two exchanges nothing is on its way anywhere (`Calm`), so that no task moves. A
message that goes out gives one task one turn (`Pending.turns`), and the client waits until
it is over: then it reads the answer (`read_answered`), or finds that the task has ended
(`read_ended`), or waits for ever (`read_stuck`). -/
namespace XProtocol.Tcp
open Async
open Json (Bytes Value Codec)
open Wire

variable {σ : Type}

/-- Nothing is on its way, and nothing is held back. -/
structure Even (j : Joint σ) (c : ConnId) : Prop where
  seen : j.seen c = (j.conn c).written.length
  taken : (j.conn c).taken = j.replied c
  ahead : (j.conn c).ahead = []

/-- A connection that was not opened yet. -/
def Unopened (s₀ : σ) (j : Joint σ) (c : ConnId) : Prop := j.session c = .accepted s₀ () ∧ j.seen c = 0

/-- Nothing is on its way on any connection. -/
structure Calm (s₀ : σ) (j : Joint σ) : Prop where
  even : ∀ c, Even j c
  unopened : ∀ c, j.client.net.opened ≤ c → Unopened s₀ j c

/-- One message is on its way to the task of `c`, which waits. -/
structure Pending (s₀ : σ) (j : Joint σ) (c : ConnId) (f : Frame) : Prop where
  others : ∀ d ≠ c, Even j d
  unopened : ∀ d, j.client.net.opened ≤ d → Unopened s₀ j d
  opened : c < j.client.net.opened
  waits : finished (j.session c) = false
  fits : Fits f
  coming : j.coming c = encode f
  taken : (j.conn c).taken = j.replied c
  ahead : (j.conn c).ahead = []

namespace Joint

def withFields (j : Joint σ) (u : TcpClient) : Joint σ :=
  let client := { j.client with fields := u }
  { j with client }

def withNet (j : Joint σ) (n : Net) : Joint σ :=
  let client := { j.client with net := n }
  { j with client }

/-- `f` has gone out on `c`. -/
def sent (j : Joint σ) (c : ConnId) (f : Frame) : Joint σ :=
  j.withNet (j.client.net.modify c (·.send f (encode f)))

/-- `g` has been read on `c`. -/
def got (j : Joint σ) (c : ConnId) (g : Frame) : Joint σ :=
  j.withNet (j.client.net.modify c fun conn => (conn.take (encode g) []).receive g)

end Joint

variable {S : Codec} {H : ServiceHandler σ} {calls : List Asked} {s₀ : σ} {j : Joint σ} {c : ConnId} {f g : Frame}

theorem calm_start (s₀ : σ) : Calm s₀ (.start s₀) := ⟨fun _ => ⟨rfl, rfl, rfl⟩, fun _ _ => ⟨rfl, rfl⟩⟩

theorem Even.coming (h : Even j c) : j.coming c = [] := by rw [Joint.coming, h.seen, List.drop_length]

theorem serve_idle (h : j.coming c = []) : serve S H c j = none := by
  unfold serve
  rw [h]
  split <;> rfl

theorem serve_even (h : Even j c) : serve S H c j = none := serve_idle h.coming

theorem serve_eq_some {j' : Joint σ} (h : serve S H c j = some j') : ∃ r, j' = j.turn S H c r := by
  obtain ⟨-, h⟩ := Option.ite_none_right_eq_some.mp h
  split at h
  · exact nomatch h
  · exact ⟨_, (Option.some.inj h).symm⟩

theorem Calm.still (h : Calm s₀ j) : Still (serve S H) j := fun c => serve_even (h.even c)

/-- A task of a connection on which nothing changes is where it was. -/
theorem Even.of_eq {j' : Joint σ} (h : Even j c) (hconn : j'.conn c = j.conn c)
    (hsession : j'.session c = j.session c) (hseen : j'.seen c = j.seen c) : Even j' c := by
  refine ⟨?_, ?_, ?_⟩
  · rw [hconn, hseen, h.seen]
  · rw [hconn, Joint.replied, hsession, h.taken, Joint.replied]
  · rw [hconn, h.ahead]

theorem conn_modify (j : Joint σ) (c : ConnId) (k : Conn → Conn) :
    (j.withNet (j.client.net.modify c k)).conn c = k (j.conn c) := Net.modify_self ..

theorem conn_modify_other (j : Joint σ) {c d : ConnId} (k : Conn → Conn) (hd : d ≠ c) :
    (j.withNet (j.client.net.modify c k)).conn d = j.conn d := Net.modify_other _ _ _ _ hd

/-! ### Operations that nobody interferes with -/

/-- The client and the server, of which the client is owed a way to go on. -/
def owed (S : Codec) (H : ServiceHandler σ) (calls : List Asked) :
    Discipline (NetWith TcpClient.Fields) (Joint σ) := (machine calls).among (serve S H)

theorem perform_eq_some {t : Nat} {o : NetOp TcpClient.Fields} {choice : Choice} {j j' : Joint σ}
    {r : (NetWith TcpClient.Fields).Ret o} (h : (machine calls).perform t o choice j = some (r, j')) :
    faultless calls j o choice = true ∧
      ∃ w, TcpClient.machine.perform t o choice j.client = some (r, w) ∧ j' = { j with client := w } := by
  obtain ⟨hclean, hmap⟩ := Option.ite_none_right_eq_some.mp h
  obtain ⟨⟨r, w⟩, hw, heq⟩ := Option.map_eq_some_iff.mp hmap
  cases heq
  exact ⟨hclean, w, hw, rfl⟩

theorem perform_of {t : Nat} {o : NetOp TcpClient.Fields} {choice : Choice} {j : Joint σ}
    {r : (NetWith TcpClient.Fields).Ret o} {w : Client TcpClient} (hclean : faultless calls j o choice = true)
    (hw : TcpClient.machine.perform t o choice j.client = some (r, w)) :
    (machine calls).perform t o choice j = some (r, { j with client := w }) := by
  simp only [machine, hclean, if_true, hw, Option.map_some]

variable {R : Joint σ → ProtocolError → Prop}

theorem own_owed {o : TcpClient.Op} {Q : Joint σ → TcpClient.Fields.Ret o → Prop} {r : TcpClient.Fields.Ret o}
    {u : TcpClient} (h : Calm s₀ j) (hu : TcpClient.perform o .go j.client.fields = some (r, u))
    (hQ : Q (j.withFields u) r) : Meets (owed S H calls) (TcpClient.own o) Q R j := by
  have hperform : TcpClient.machine.perform 0 (.own o) .go j.client = some (r, { j.client with fields := u }) :=
    congrArg (Option.map _) hu
  refine meets_lift.mpr (safe_still h.still ⟨.go, _, perform_of rfl hperform⟩ fun choice r' j' hj' => ?_)
  obtain ⟨-, w, hw, rfl⟩ := perform_eq_some hj'
  have hgo : choice = .go := by
    obtain ⟨x, hx, -⟩ := Option.map_eq_some_iff.mp hw
    cases o <;> cases choice <;> first | rfl | cases hx
  subst hgo
  cases hperform.symm.trans hw
  exact hQ

/-- An operation on the network, of which the same comes whatever is chosen. -/
theorem net_owed {o : Net.Op} {Q : Joint σ → o.Ret → Prop} (h : Calm s₀ j) (choice : Choice) {x : o.Ret × Net}
    (hclean : faultless calls j (.net o) choice = true) (hx : j.client.net.perform 0 0 o choice = some x)
    (hQ : ∀ choice r n, faultless calls j (.net o) choice = true →
      j.client.net.perform 0 0 o choice = some (r, n) → Q (j.withNet n) r) :
    Safe (owed S H calls) (Program.op (E := NetWith TcpClient.Fields) (.net o)) Q j := by
  refine safe_still h.still ⟨choice, _, perform_of hclean (congrArg (Option.map _) hx)⟩ fun choice r j' hj' => ?_
  obtain ⟨hclean, w, hw, rfl⟩ := perform_eq_some hj'
  obtain ⟨⟨r, n⟩, hn, heq⟩ := Option.map_eq_some_iff.mp hw
  cases heq
  exact hQ choice r n hclean hn

theorem dial_owed (h : Calm s₀ j) :
    Meets (owed S H calls) TcpClient.dial
      (fun j' c => c = j.client.net.opened ∧ j' = j.withNet (j.client.net.dial 0)) R j := by
  unfold TcpClient.dial
  rw [meets_bind]
  refine meets_lift.mpr (net_owed h .go rfl rfl fun choice r n hclean hn => ?_)
  obtain rfl : choice = .go := by cases choice <;> simp [faultless] at hclean ⊢
  cases hn
  exact ⟨rfl, rfl⟩

theorem Calm.dial (h : Calm s₀ j) : Calm s₀ (j.withNet (j.client.net.dial 0)) where
  even c := by
    by_cases hc : c = j.client.net.opened
    · obtain ⟨hsession, hseen⟩ := h.unopened c (Nat.le_of_eq hc.symm)
      have hconn : (j.withNet (j.client.net.dial 0)).conn c = .fresh 0 := by
        rw [hc]
        exact Net.dial_conns_self ..
      refine ⟨?_, ?_, ?_⟩ <;> rw [hconn]
      · exact hseen
      · show [] = encodeAll (j.session c).link.sent
        rw [hsession]
        rfl
      · rfl
    · exact (h.even c).of_eq (Net.dial_conns_other _ _ _ hc) rfl rfl
  unopened c hc := h.unopened c (Nat.le_of_succ_le hc)

theorem split_owed (h : Calm s₀ j) :
    Meets (owed S H calls) (.split c : TcpClient.Code Unit)
      (fun j' _ => j' = j.withNet (j.client.net.modify c Conn.split)) R j := by
  refine meets_lift.mpr (net_owed h .go rfl rfl fun choice r n _ hn => ?_)
  obtain rfl := Net.perform_split hn
  rfl

theorem Calm.split (h : Calm s₀ j) (c : ConnId) : Calm s₀ (j.withNet (j.client.net.modify c Conn.split)) where
  even d := by
    by_cases hd : d = c
    · subst hd
      have hconn := conn_modify j d Conn.split
      refine ⟨?_, ?_, ?_⟩ <;> rw [hconn]
      · exact (h.even d).seen
      · exact (h.even d).taken
      · rfl
    · exact (h.even d).of_eq (conn_modify_other j _ hd) rfl rfl
  unopened d hd := h.unopened d hd

theorem newRequest_owed (h : Calm s₀ j) {a : Asked} (ha : calls[(j.client.net.created 0).length]? = some a) :
    Meets (owed S H calls) (.newRequest a.service a.method a.payload : TcpClient.Code ServiceRequest)
      (fun j' r => r = a.request ∧ j' = j.withNet (j.client.net.create 0 r)) R j := by
  refine meets_lift.mpr (net_owed h (.uuids a.requestId a.correlationId) ?_ rfl fun choice r n hclean hn => ?_)
  · simp [faultless, ha]
  · cases choice with
    | uuids requestId correlationId =>
      obtain ⟨rfl, rfl⟩ : a.requestId = requestId ∧ a.correlationId = correlationId := by
        simpa [faultless, ha] using hclean
      cases hn
      exact ⟨rfl, rfl⟩
    | _ => simp [Net.perform] at hn

theorem Calm.create (h : Calm s₀ j) (r : ServiceRequest) : Calm s₀ (j.withNet (j.client.net.create 0 r)) :=
  ⟨fun d => (h.even d).of_eq rfl rfl rfl, h.unopened⟩

/-- A message that fits goes out; one that does not is refused. -/
theorem write_owed {msgType : UInt8} {payload : Bytes} (h : Calm s₀ j) :
    Meets (owed S H calls) (.write c msgType payload : TcpClient.Code Unit)
      (fun j' _ => Fits ⟨msgType, payload⟩ ∧ j' = j.sent c ⟨msgType, payload⟩)
      (fun _ _ => ¬ Fits ⟨msgType, payload⟩) j := by
  have hgo : ∃ x, j.client.net.perform 0 0 (.write c msgType payload) .go = some x := by
    by_cases hf : Fits ⟨msgType, payload⟩
    · simp [Net.perform, writeMessage_of_fits hf]
    · simp [Net.perform, writeMessage_of_not_fits hf]
  obtain ⟨x, hx⟩ := hgo
  unfold Code.write
  rw [meets_bind]
  refine meets_lift.mpr (net_owed h .go rfl hx fun choice r n hclean hn => ?_)
  obtain rfl : choice = .go := by cases choice <;> simp [faultless] at hclean ⊢
  by_cases hf : Fits ⟨msgType, payload⟩
  · simp only [Net.perform, writeMessage_of_fits hf] at hn
    cases hn
    exact ⟨hf, rfl⟩
  · simp only [Net.perform, writeMessage_of_not_fits hf] at hn
    cases hn
    exact hf

/-! ### A message, and its answer -/

theorem Calm.sent (h : Calm s₀ j) (hc : c < j.client.net.opened) (hwaits : finished (j.session c) = false)
    (hf : Fits f) : Pending s₀ (j.sent c f) c f := by
  have hconn : (j.sent c f).conn c = (j.conn c).send f (encode f) := conn_modify ..
  refine ⟨fun d hd => ?_, h.unopened, hc, hwaits, hf, ?_, ?_, ?_⟩
  · exact (h.even d).of_eq (conn_modify_other j _ hd) rfl rfl
  · show ((j.sent c f).conn c).written.drop (j.seen c) = _
    rw [hconn, (h.even c).seen]
    exact List.drop_left
  · rw [hconn]
    exact (h.even c).taken
  · rw [hconn]
    exact (h.even c).ahead

section Pending
variable (S H) in
/-- The task of `c` has had its turn. -/
def Joint.turned (j : Joint σ) (c : ConnId) (f : Frame) : Joint σ := j.turn S H c (.message f [])

theorem turned_coming (j : Joint σ) (c : ConnId) (f : Frame) : (j.turned S H c f).coming c = [] := by
  show (j.conn c).written.drop (Function.update j.seen c ((j.conn c).written.length - 0) c) = []
  rw [Function.update_self, Nat.sub_zero, List.drop_length]

theorem turned_session (j : Joint σ) (c : ConnId) (f : Frame) :
    (j.turned S H c f).session c = j.next S H c (.message f []) := Function.update_self ..

theorem turned_session_other (j : Joint σ) {c d : ConnId} (f : Frame) (hd : d ≠ c) :
    (j.turned S H c f).session d = j.session d := Function.update_of_ne hd ..

theorem turned_even (h : Pending s₀ j c f) {d : ConnId} (hd : d ≠ c) : Even (j.turned S H c f) d :=
  (h.others d hd).of_eq rfl (turned_session_other j f hd) (Function.update_of_ne hd ..)

/-- **Exactly the task of `c` has a turn**, and behind it none has. -/
theorem Pending.turns (h : Pending s₀ j c f) : Turns (serve S H) j (j.turned S H c f) := by
  have hread : readMessage (j.coming c) = .message f [] := by rw [h.coming, readMessage_encode_self h.fits]
  have hserve : serve S H c j = some (j.turned S H c f) := by
    unfold serve
    rw [if_pos ⟨h.opened, h.waits⟩, hread]
    rfl
  refine ⟨⟨c, hserve⟩, fun d j' hj' => ?_, fun d => ?_⟩
  · by_cases hd : d = c
    · subst hd
      exact Option.some.inj (hj'.symm.trans hserve)
    · exact nomatch (serve_even (h.others d hd)).symm.trans hj'
  · by_cases hd : d = c
    · subst hd
      exact serve_idle (turned_coming ..)
    · exact serve_even (turned_even h hd)

theorem Pending.short (h : Pending s₀ j c f) : readMessage (j.conn c).ahead = .short := by
  rw [h.ahead]
  rfl

/-- What can be read where everything was taken that was written, and the task goes on. -/
theorem read_waits {timed : Bool} (htaken : (j.conn c).taken = j.replied c)
    (hahead : readMessage (j.conn c).ahead = .short)
    (hover : finished (j.session c) = false) (choice : Choice) :
    (machine calls).perform 0 (.net (.read c timed)) choice j = none := by
  cases choice with
  | arrive got =>
    by_cases hgot : got = []
    · subst hgot
      have hahead : readMessage (j.client.net.conns c).ahead = .short := hahead
      simp [machine, TcpClient.machine, Client.machine, Net.perform, hahead]
    · have hclean : faultless calls j (.net (.read c timed)) (.arrive got) = false := by
        refine decide_eq_false fun hpre => hgot ?_
        have hlen := hpre.length_le
        rw [htaken, List.length_append] at hlen
        exact List.length_eq_zero_iff.mp (by omega)
      simp [machine, hclean]
  | fail out got text => simp [machine, faultless, hover]
  | _ => simp [machine, faultless]

/-- The answer is read once the task has written it. -/
theorem read_answered (h : Pending s₀ j c f)
    (hsent : (j.next S H c (.message f [])).link.sent = (j.session c).link.sent ++ [g])
    (hover : finished (j.next S H c (.message f [])) = false) (hg : Fits g) :
    Meets (owed S H calls) (.read c : TcpClient.Code Frame)
      (fun j' g' => g' = g ∧ j' = (j.turned S H c f).got c g) R j := by
  have hreplied : (j.turned S H c f).replied c = (j.conn c).taken ++ encode g := by
    rw [Joint.replied, turned_session, hsent, encodeAll_append, encodeAll_single, h.taken]
    rfl
  have hahead : (j.client.net.conns c).ahead = [] := h.ahead
  have harrive : j.client.net.perform 0 0 (.read c false) (.arrive (encode g)) = some (.inTime (.ok g),
      j.client.net.modify c fun conn => (conn.take (encode g) []).receive g) := by
    simp only [Net.perform, hahead, List.nil_append, readMessage_encode_self hg]
  have hclean : faultless calls (j.turned S H c f) (.net (.read c false)) (.arrive (encode g)) = true := by
    refine decide_eq_true ?_
    rw [hreplied]
    exact List.prefix_refl _
  unfold Code.read
  rw [meets_bind]
  refine meets_lift.mpr (safe_turns h.turns (read_waits h.taken h.short h.waits)
    ⟨.arrive (encode g), _, perform_of hclean (congrArg (Option.map _) harrive)⟩ fun choice r j' hj' => ?_)
  obtain ⟨hclean, w, hw, rfl⟩ := perform_eq_some hj'
  cases choice with
  | arrive got =>
    obtain ⟨⟨r, n⟩, hn, heq⟩ := Option.map_eq_some_iff.mp hw
    cases heq
    have hpre : (j.conn c).taken ++ got <+: (j.conn c).taken ++ encode g := hreplied ▸ of_decide_eq_true hclean
    rw [List.prefix_append_right_inj] at hpre
    obtain rfl : got = encode g := by
      by_contra hne
      have hn : j.client.net.perform 0 0 (.read c false) (.arrive got) = some (r, n) := hn
      simp [Net.perform, hahead, readMessage_cut hg hpre hne] at hn
    cases harrive.symm.trans hn
    exact ⟨rfl, rfl⟩
  | fail out got text =>
    simp only [faultless, turned_session, hover, Bool.false_and] at hclean
    cases hclean
  | _ => simp [faultless] at hclean

theorem Pending.calm (h : Pending s₀ j c f)
    (hsent : (j.next S H c (.message f [])).link.sent = (j.session c).link.sent ++ [g]) :
    Calm s₀ ((j.turned S H c f).got c g) where
  even d := by
    by_cases hd : d = c
    · subst hd
      have hconn : ((j.turned S H d f).got d g).conn d = ((j.conn d).take (encode g) []).receive g :=
        conn_modify ..
      refine ⟨?_, ?_, ?_⟩ <;> rw [hconn]
      · show Function.update j.seen d ((j.conn d).written.length - 0) d = (j.conn d).written.length
        rw [Function.update_self, Nat.sub_zero]
      · show (j.conn d).taken ++ encode g = encodeAll ((j.turned S H d f).session d).link.sent
        rw [turned_session, hsent, encodeAll_append, encodeAll_single, h.taken]
        rfl
      · rfl
    · exact (turned_even (S := S) (H := H) h hd).of_eq (conn_modify_other (j.turned S H c f) _ hd) rfl rfl
  unopened d hd := by
    have hne : d ≠ c := fun heq => Nat.not_lt.mpr (heq ▸ hd) h.opened
    obtain ⟨hsession, hseen⟩ := h.unopened d hd
    exact ⟨(turned_session_other j f hne).trans hsession, (Function.update_of_ne hne ..).trans hseen⟩

/-- The client finds the end of the file behind a task that ended without an answer. -/
theorem read_ended (h : Pending s₀ j c f)
    (hsent : (j.next S H c (.message f [])).link.sent = (j.session c).link.sent)
    (hover : finished (j.next S H c (.message f [])) = true) {Q : Joint σ → Frame → Prop} (hR : ∀ j' e, R j' e) :
    Meets (owed S H calls) (.read c : TcpClient.Code Frame) Q R j := by
  have hreplied : (j.turned S H c f).replied c = (j.conn c).taken := by
    rw [Joint.replied, turned_session, hsent, h.taken]
    rfl
  have hahead : (j.client.net.conns c).ahead = [] := h.ahead
  have hshort : readMessage ((j.client.net.conns c).ahead ++ []) = .short := by rw [hahead]; rfl
  have hend : j.client.net.perform 0 0 (.read c false) (.fail 0 [] "early eof") = some
      (.inTime (.error (.ofIo "early eof")), j.client.net.modify c (·.take [] [])) := if_pos hshort
  have hclean : faultless calls (j.turned S H c f) (.net (.read c false)) (.fail 0 [] "early eof") = true := by
    have htaken : ((j.turned S H c f).conn c).taken ++ [] = (j.turned S H c f).replied c := by
      rw [hreplied, List.append_nil]
      rfl
    simp [faultless, turned_session, hover, htaken]
  unfold Code.read
  rw [meets_bind]
  refine meets_lift.mpr (safe_turns h.turns (read_waits h.taken h.short h.waits)
    ⟨.fail 0 [] "early eof", _, perform_of hclean (congrArg (Option.map _) hend)⟩ fun choice r j' hj' => ?_)
  obtain ⟨hclean, w, hw, rfl⟩ := perform_eq_some hj'
  obtain ⟨⟨r, n⟩, hn, heq⟩ := Option.map_eq_some_iff.mp hw
  cases heq
  cases choice with
  | arrive got =>
    have hpre : (j.conn c).taken ++ got <+: (j.turned S H c f).replied c := of_decide_eq_true hclean
    have hlen := hpre.length_le
    rw [hreplied, List.length_append] at hlen
    obtain rfl : got = [] := List.length_eq_zero_iff.mp (by omega)
    have hn : j.client.net.perform 0 0 (.read c false) (.arrive []) = some (r, n) := hn
    simp [Net.perform, hahead, readMessage] at hn
  | fail out got text =>
    obtain ⟨-, hn⟩ := Option.ite_none_right_eq_some.mp hn
    cases hn
    exact hR _ _
  | _ => simp [faultless] at hclean

/-- **The client waits for ever where the task goes on without an answer.** -/
theorem read_stuck (h : Pending s₀ j c f)
    (hsent : (j.next S H c (.message f [])).link.sent = (j.session c).link.sent)
    (hover : finished (j.next S H c (.message f [])) = false) {Q : Joint σ → Frame → Prop} :
    Meets ((machine calls).amid (serve S H)) (.read c : TcpClient.Code Frame) Q R j := by
  unfold Code.read
  rw [meets_bind]
  refine meets_lift.mpr (safe_stuck h.turns (read_waits h.taken h.short h.waits) (read_waits ?_ h.short ?_))
  · rw [Joint.replied, turned_session, hsent]
    exact h.taken
  · rw [turned_session, hover]

end Pending

end XProtocol.Tcp
