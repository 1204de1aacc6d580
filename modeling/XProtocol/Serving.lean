import XProtocol.Handler
import XProtocol.Wire

/-! How a server serves one connection.

The code of a connection task is written over `Serving`: the handler, whose state
all connections share, the messages written back, and whatever else the server
keeps (`ρ`). Reading is left out of it: what the next `read_message` gives, or
that a timer fires first, comes from outside, one reading after another, and a
`Session` is the task between two readings.

A server is a `Service`: how it greets, and what one turn of its loop makes of a
reading. Both loops of this repository do one of four things with it (`Ask`), and
what follows for whole sessions is proved once, from `Service.Loops`: whether a
session ends (`finished_iff_leaves`), and whether it comes to call the handler
(`handled_nil_iff`). -/
namespace XProtocol
open Json (Bytes Codec Serialize Deserialize)
open Wire (Frame)

/-- Where a connection is served. -/
structure Site (σ : Type) where
  codec : Codec
  handler : ServiceHandler σ
  /-- The I/O error the n-th message of the connection fails with, if it does. -/
  flush : Nat → Option String

/-- The error writing `f` as the n-th message ends with, if it does. -/
def Site.refusal {σ : Type} (E : Site σ) (n : Nat) (f : Frame) : Option ProtocolError :=
  match Wire.writeMessage f.msgType f.payload with
  | .error e => some e
  | .ok _ => (E.flush n).map .ofIo

/-- `f` can be written, as the n-th message. -/
def Writable {σ : Type} (E : Site σ) (n : Nat) (f : Frame) : Prop := E.refusal n f = none

instance {σ : Type} (E : Site σ) (n : Nat) (f : Frame) : Decidable (Writable E n f) :=
  inferInstanceAs (Decidable (_ = none))

/-- One connection, on the server's side. -/
structure Link (σ ρ : Type) where
  /-- The handler's state. -/
  handler : σ
  /-- The requests passed to the handler. -/
  handled : List ServiceRequest
  /-- The messages written. -/
  sent : List Frame
  aside : ρ

abbrev Serving (σ ρ : Type) := ExceptT ProtocolError (StateM (Link σ ρ))

variable {σ ρ G α : Type}

def Link.fresh (handler : σ) (aside : ρ) : Link σ ρ := { handler, handled := [], sent := [], aside }

/-- The connection without what its server keeps aside. -/
def Link.line (l : Link σ ρ) : Link σ Unit := { l with aside := () }

@[simp] theorem Link.line_handler (l : Link σ ρ) : l.line.handler = l.handler := rfl

@[simp] theorem Link.line_handled (l : Link σ ρ) : l.line.handled = l.handled := rfl

@[simp] theorem Link.line_sent (l : Link σ ρ) : l.line.sent = l.sent := rfl

namespace Serving

/-- Run the code on a connection. -/
def exec (p : Serving σ ρ α) (l : Link σ ρ) : Result α × Link σ ρ := p.run.run l

def ofResult (r : Result α) : Serving σ ρ α := ExceptT.mk (pure r)

def getAside : Serving σ ρ ρ := return (← get).aside

def modifyAside (f : ρ → ρ) : Serving σ ρ Unit := modify fun l => { l with aside := f l.aside }

variable (E : Site σ)

/-- `serde_json::from_slice(payload)?`. -/
def decode [Deserialize α] (payload : Bytes) : Serving σ ρ α :=
  match E.codec.fromSlice payload with
  | some a => pure a
  | none => throw (.ofJson (E.codec.message payload))

/-- `handler.on_handshake(request).await`. -/
def onHandshake (request : HandshakeRequest) : Serving σ ρ HandshakeResponse :=
  modifyGet fun l =>
    let (response, handler) := E.handler.onHandshake request l.handler
    (response, { l with handler })

/-- `handler.handle(request).await`. -/
def handle (request : ServiceRequest) : Serving σ ρ ServiceResponse :=
  modifyGet fun l =>
    let (response, handler) := E.handler.handle request l.handler
    (response, { l with handler, handled := l.handled ++ [request] })

/-- `write_message(writer, ..).await?`. -/
def write (msgType : UInt8) (payload : Bytes) : Serving σ ρ Unit := do
  let l : Link σ ρ ← get
  let f : Frame := ⟨msgType, payload⟩
  match E.refusal l.sent.length f with
  | some e => throw e
  | none => set { l with sent := l.sent ++ [f] }

section Exec
variable {β : Type} (l : Link σ ρ)

@[simp] theorem exec_pure (a : α) : exec (pure a : Serving σ ρ α) l = (.ok a, l) := rfl

@[simp] theorem exec_throw (e : ProtocolError) : exec (throw e : Serving σ ρ α) l = (.error e, l) := rfl

theorem exec_bind (p : Serving σ ρ α) (f : α → Serving σ ρ β) :
    exec (p >>= f) l = match exec p l with
      | (.ok a, l) => exec (f a) l
      | (.error e, l) => (.error e, l) := by
  show (match exec p l with | (r, l) => (ExceptT.bindCont f r).run l) = _
  rcases exec p l with ⟨r, l'⟩
  cases r <;> rfl

@[simp] theorem exec_getAside : exec (getAside : Serving σ ρ ρ) l = (.ok l.aside, l) := rfl

@[simp] theorem exec_modifyAside (f : ρ → ρ) :
    exec (modifyAside f : Serving σ ρ Unit) l = (.ok (), { l with aside := f l.aside }) := rfl

variable (E : Site σ)

theorem exec_decode [Deserialize α] (payload : Bytes) :
    exec (decode E payload : Serving σ ρ α) l =
      ((E.codec.fromSlice payload).elim (.error (.ofJson (E.codec.message payload))) .ok, l) := by
  unfold decode
  cases (E.codec.fromSlice payload : Option α) <;> rfl

theorem exec_handle (request : ServiceRequest) :
    exec (handle E request) l =
      (.ok (E.handler.handle request l.handler).1,
        { l with handler := (E.handler.handle request l.handler).2, handled := l.handled ++ [request] }) :=
  rfl

theorem exec_onHandshake (request : HandshakeRequest) :
    exec (onHandshake E request) l =
      (.ok (E.handler.onHandshake request l.handler).1,
        { l with handler := (E.handler.onHandshake request l.handler).2 }) := rfl

theorem exec_write (msgType : UInt8) (payload : Bytes) :
    exec (write E msgType payload) l =
      match E.refusal l.sent.length ⟨msgType, payload⟩ with
      | some e => (.error e, l)
      | none => (.ok (), { l with sent := l.sent ++ [⟨msgType, payload⟩] }) := by
  show exec (match E.refusal l.sent.length ⟨msgType, payload⟩ with
    | some e => throw e
    | none => set { l with sent := l.sent ++ [(⟨msgType, payload⟩ : Frame)] }) l = _
  cases E.refusal l.sent.length ⟨msgType, payload⟩ <;> rfl

theorem exec_write_of {msgType : UInt8} {payload : Bytes}
    (h : Writable E l.sent.length ⟨msgType, payload⟩) :
    exec (write E msgType payload) l = (.ok (), { l with sent := l.sent ++ [⟨msgType, payload⟩] }) := by
  rw [exec_write, show E.refusal l.sent.length ⟨msgType, payload⟩ = none from h]

theorem exec_write_of_not {msgType : UInt8} {payload : Bytes}
    (h : ¬ Writable E l.sent.length ⟨msgType, payload⟩) :
    ∃ e, exec (write E msgType payload) l = (.error e, l) := by
  obtain ⟨e, he⟩ := Option.ne_none_iff_exists'.mp h
  exact ⟨e, by rw [exec_write, he]⟩

end Exec

/-! What a program leaves of what the server keeps aside, whatever way it ends: a relation
that holds across each of its parts holds across the program. -/

section Across
variable (R : ρ → ρ → Prop)

/-- `R` holds from what was kept aside before to what is behind. -/
def Across (p : Serving σ ρ α) : Prop := ∀ l, R l.aside (p.exec l).2.aside

variable {R} {β : Type} {E : Site σ}

theorem across_modifyAside {f : ρ → ρ} (hf : ∀ a, R a (f a)) : Across R (modifyAside f : Serving σ ρ Unit) :=
  fun l => hf l.aside

theorem across_bind [IsTrans ρ R] {p : Serving σ ρ α} {f : α → Serving σ ρ β} (hp : Across R p)
    (hf : ∀ a, Across R (f a)) : Across R (p >>= f) := fun l => by
  rw [exec_bind]
  have hfirst := hp l
  rcases hx : p.exec l with ⟨r, l'⟩
  rw [hx] at hfirst
  cases r with
  | ok a => exact IsTrans.trans _ _ _ hfirst (hf a l')
  | error e => exact hfirst

variable [Std.Refl R]

theorem across_pure (a : α) : Across R (pure a : Serving σ ρ α) := fun _ => refl _

theorem across_throw (e : ProtocolError) : Across R (throw e : Serving σ ρ α) := fun _ => refl _

theorem across_write (msgType : UInt8) (payload : Bytes) : Across R (write E msgType payload : Serving σ ρ Unit) :=
  fun l => by
    rw [exec_write]
    cases E.refusal l.sent.length ⟨msgType, payload⟩ <;> exact refl _

theorem across_decode [Deserialize α] (payload : Bytes) : Across R (decode E payload : Serving σ ρ α) := fun l => by
  rw [exec_decode]
  exact refl _

theorem across_handle (request : ServiceRequest) :
    Across R (handle E request : Serving σ ρ ServiceResponse) := fun _ => refl _

theorem across_onHandshake (request : HandshakeRequest) :
    Across R (onHandshake E request : Serving σ ρ HandshakeResponse) := fun _ => refl _

end Across

end Serving

/-! ### Sessions -/

/-- Whether the loop goes on. -/
inductive Flow where
  | next
  | stop
  deriving DecidableEq

/-- A server: its greeting, from the first message, and one turn of its loop. -/
structure Service (σ ρ G : Type) where
  greet : Frame → Serving σ ρ G
  serve : G → Timed (Result Frame) → Serving σ ρ Flow

inductive Phase (G : Type) where
  | handshaking
  | looping (g : G)
  | finished (r : Result Unit)

structure Session (σ ρ G : Type) where
  phase : Phase G
  link : Link σ ρ

namespace Session

/-- A connection that was just accepted. -/
def accepted (handler : σ) (aside : ρ) : Session σ ρ G := ⟨.handshaking, .fresh handler aside⟩

/-- The task behind the greeting. -/
def greeted : Result G × Link σ ρ → Session σ ρ G
  | (.ok g, link) => ⟨.looping g, link⟩
  | (.error e, link) => ⟨.finished (.error e), link⟩

/-- The task behind a turn of its loop. -/
def turned (g : G) : Result Flow × Link σ ρ → Session σ ρ G
  | (.ok .next, link) => ⟨.looping g, link⟩
  | (.ok .stop, link) => ⟨.finished (.ok ()), link⟩
  | (.error e, link) => ⟨.finished (.error e), link⟩

/-- What the task does with one reading. The first message is read without a timer,
and the first error is the last. -/
def step (A : Service σ ρ G) (s : Session σ ρ G) (h : Timed (Result Frame)) : Session σ ρ G :=
  match s.phase, h with
  | .handshaking, .inTime r => greeted ((Serving.ofResult r >>= A.greet).exec s.link)
  | .looping g, h => turned g ((A.serve g h).exec s.link)
  | _, _ => s

def run (A : Service σ ρ G) (s : Session σ ρ G) (hs : List (Timed (Result Frame))) : Session σ ρ G :=
  hs.foldl (step A) s

def Finished (s : Session σ ρ G) : Prop := ∃ r, s.phase = .finished r

theorem step_finished {A : Service σ ρ G} {s : Session σ ρ G} (hs : s.Finished)
    (h : Timed (Result Frame)) : s.step A h = s := by
  obtain ⟨r, hr⟩ := hs
  simp [step, hr]

theorem run_finished {A : Service σ ρ G} {s : Session σ ρ G} (h : s.Finished)
    (hs : List (Timed (Result Frame))) : s.run A hs = s := by
  induction hs with
  | nil => rfl
  | cons r rest ih => rw [run, List.foldl_cons, step_finished h, ← run, ih]

theorem run_append (A : Service σ ρ G) (s : Session σ ρ G) (a b : List (Timed (Result Frame))) :
    s.run A (a ++ b) = (s.run A a).run A b := List.foldl_append ..

theorem greeted_phase (x : Result G × Link σ ρ) : (greeted x).phase ≠ .handshaking := by
  obtain ⟨_ | _, _⟩ := x <;> exact nofun

/-- The handshake comes once. -/
theorem run_phase {A : Service σ ρ G} {s : Session σ ρ G} (h : s.phase ≠ .handshaking)
    (hs : List (Timed (Result Frame))) : (s.run A hs).phase ≠ .handshaking := by
  induction hs generalizing s with
  | nil => exact h
  | cons r rest ih =>
    rw [run, List.foldl_cons]
    refine ih ?_
    obtain ⟨phase, link⟩ := s
    cases phase with
    | handshaking => exact absurd rfl h
    | looping g =>
      show (turned g _).phase ≠ _
      rcases (A.serve g r).exec link with ⟨_ | _ | _, _⟩ <;> exact nofun
    | finished r => exact nofun

theorem step_unread (A : Service σ ρ G) (handler : σ) (aside : ρ) (e : ProtocolError) :
    (accepted handler aside).step A (.inTime (.error e)) = ⟨.finished (.error e), .fresh handler aside⟩ :=
  rfl

end Session

/-! ### What a greeting does -/

/-- The message that answers a handshake. -/
def Site.ack (E : Site σ) (response : HandshakeResponse) : Frame :=
  ⟨Wire.msgHandshakeAck, E.codec.toVec response⟩

/-- The handler's answer to a handshake and its state then, if the answer can be written. -/
def Site.opening (E : Site σ) (request : HandshakeRequest) (s : σ) : Option (HandshakeResponse × σ) :=
  let o := E.handler.onHandshake request s
  if Writable E 0 (E.ack o.1) then some o else none

/-- The greeting goes through with one answer, or the task ends before any request is handled. -/
def Greeted (E : Site σ) (x : Result G × Link σ ρ) : Option (HandshakeResponse × σ) → Prop
  | some o => ∃ g a, x = (.ok g, { handler := o.2, handled := [], sent := [E.ack o.1], aside := a })
  | none => ∃ e l, x = (.error e, l) ∧ l.handled = []

/-- Each greeting goes as `opened` says. -/
def Service.Greets (A : Service σ ρ G) (E : Site σ)
    (opened : Frame → σ → ρ → Option (HandshakeResponse × σ)) : Prop :=
  ∀ f s a, Greeted E ((A.greet f).exec (.fresh s a)) (opened f s a)

section Greets
variable {E : Site σ}

/-- Ask the handler, write its answer, and go on to the loop. -/
theorem greeted_opening (request : HandshakeRequest) (s : σ) (a : ρ) (g : G) :
    Greeted E ((Serving.onHandshake E request >>= fun response =>
        Serving.write E Wire.msgHandshakeAck (E.codec.toVec response) >>= fun _ => pure g).exec
      (.fresh s a)) (E.opening request s) := by
  let response := (E.handler.onHandshake request s).1
  let l : Link σ ρ := { Link.fresh s a with handler := (E.handler.onHandshake request s).2 }
  show Greeted E ((Serving.write E Wire.msgHandshakeAck (E.codec.toVec response) >>= fun _ => pure g).exec l) _
  rw [Serving.exec_bind]
  by_cases hw : Writable E 0 (E.ack response)
  · rw [show E.opening request s = _ from if_pos hw, Serving.exec_write_of l E hw]
    exact ⟨g, a, rfl⟩
  · obtain ⟨e, he⟩ := Serving.exec_write_of_not l E hw
    rw [show E.opening request s = _ from if_neg hw, he]
    exact ⟨e, l, rfl, rfl⟩

/-- Write a message and give up. -/
theorem greeted_refusal {p : Serving σ ρ G} (h : ∀ l, ∃ e, p.exec l = (.error e, l)) (msgType : UInt8)
    (payload : Bytes) (s : σ) (a : ρ) :
    Greeted E ((Serving.write E msgType payload >>= fun _ => p).exec (.fresh s a)) none := by
  rw [Serving.exec_bind]
  by_cases hw : Writable E 0 ⟨msgType, payload⟩
  · rw [Serving.exec_write_of (.fresh s a) E hw]
    obtain ⟨e, he⟩ := h { Link.fresh s a with sent := [⟨msgType, payload⟩] }
    exact ⟨e, _, he, rfl⟩
  · obtain ⟨e, he⟩ := Serving.exec_write_of_not (.fresh s a) E hw
    rw [he]
    exact ⟨e, _, rfl, rfl⟩

variable {A : Service σ ρ G} {opened : Frame → σ → ρ → Option (HandshakeResponse × σ)} {f : Frame}
  {s : σ} {a : ρ}

theorem Service.Greets.opens (hA : A.Greets E opened) {o : HandshakeResponse × σ} (ho : opened f s a = some o) :
    ∃ g a', (Session.accepted s a).step A (.inTime (.ok f)) =
      ⟨.looping g, { handler := o.2, handled := [], sent := [E.ack o.1], aside := a' }⟩ := by
  obtain ⟨g, a', hx⟩ := (show Greeted E _ (some o) from ho ▸ hA f s a)
  exact ⟨g, a', congrArg Session.greeted hx⟩

theorem Service.Greets.refuses (hA : A.Greets E opened) (ho : opened f s a = none) :
    ∃ r l, (Session.accepted s a).step A (.inTime (.ok f)) = ⟨.finished r, l⟩ ∧ l.handled = [] := by
  obtain ⟨e, l, hx, hl⟩ := (show Greeted E _ none from ho ▸ hA f s a)
  exact ⟨.error e, l, congrArg Session.greeted hx, hl⟩

end Greets

/-! ### What a turn of the loop does -/

/-- What one reading asks of a loop. -/
inductive Ask where
  /-- Call the handler, perhaps behind a message of its own, and reply. -/
  | service (before : Option Frame) (request : ServiceRequest) (reply : ServiceResponse → Frame)
  | answer (f : Frame)
  | pass
  | leave

section Asks
variable (E : Site σ)

/-- Write one message, and go on unless that fails. -/
def Link.put (l : Link σ Unit) (f : Frame) : Bool × Link σ Unit :=
  if Writable E l.sent.length f then (true, { l with sent := l.sent ++ [f] }) else (false, l)

/-- Call the handler and reply. -/
def Link.reply (l : Link σ Unit) (request : ServiceRequest) (reply : ServiceResponse → Frame) :
    Bool × Link σ Unit :=
  let (response, handler) := E.handler.handle request l.handler
  Link.put E { l with handler, handled := l.handled ++ [request] } (reply response)

/-- Whether the loop goes on behind what it is asked, and the connection then. -/
def Link.after (l : Link σ Unit) : Ask → Bool × Link σ Unit
  | .service none request reply => l.reply E request reply
  | .service (some f) request reply =>
    match l.put E f with
    | (true, l) => l.reply E request reply
    | (false, l) => (false, l)
  | .answer f => l.put E f
  | .pass => (true, l)
  | .leave => (false, l)

/-- A turn that ends in `x` is one that does `y`. -/
def Turn (x : Result Flow × Link σ ρ) (y : Bool × Link σ Unit) : Prop :=
  (x.1 = .ok .next ↔ y.1 = true) ∧ x.2.line = y.2

/-- Each turn of the loop does what its reading asks. -/
def Service.Loops (A : Service σ ρ G) (g : G) (ask : Timed (Result Frame) → Ask) : Prop :=
  ∀ h l, Turn ((A.serve g h).exec l) (Link.after E l.line (ask h))

/-! Rules for turns. What stands behind the last message of a turn leaves the
connection alone. -/

/-- The loop goes on, and nothing happened on the connection. -/
def Rests (p : Serving σ ρ Flow) : Prop := ∀ l, Turn (p.exec l) (true, l.line)

theorem rests_next : Rests (pure .next : Serving σ ρ Flow) := fun _ => ⟨by simp, rfl⟩

theorem turn_stop (l : Link σ ρ) : Turn ((pure .stop : Serving σ ρ Flow).exec l) (false, l.line) :=
  ⟨by simp, rfl⟩

theorem rests_modifyAside {p : Serving σ ρ Flow} (h : Rests p) (f : ρ → ρ) :
    Rests (Serving.modifyAside f >>= fun _ => p) := fun l => by
  rw [Serving.exec_bind, Serving.exec_modifyAside]
  exact h _

variable {E}

theorem turn_modifyAside {p : Serving σ ρ Flow} {f : ρ → ρ} {l : Link σ ρ} {y : Bool × Link σ Unit}
    (h : Turn (p.exec { l with aside := f l.aside }) y) :
    Turn ((Serving.modifyAside f >>= fun _ => p).exec l) y := by
  rw [Serving.exec_bind, Serving.exec_modifyAside]
  exact h

theorem turn_write {p : Serving σ ρ Flow} (h : Rests p) (l : Link σ ρ) (msgType : UInt8) (payload : Bytes) :
    Turn ((Serving.write E msgType payload >>= fun _ => p).exec l) (l.line.put E ⟨msgType, payload⟩) := by
  rw [Serving.exec_bind, Link.put]
  by_cases hw : Writable E l.sent.length ⟨msgType, payload⟩
  · rw [Serving.exec_write_of l E hw, if_pos (by exact hw)]
    exact h _
  · obtain ⟨e, he⟩ := Serving.exec_write_of_not l E hw
    rw [he, if_neg (by exact hw)]
    exact ⟨by simp, rfl⟩

theorem turn_handle {p : ServiceResponse → Serving σ ρ Flow} (h : ∀ r, Rests (p r)) (l : Link σ ρ)
    (request : ServiceRequest) (msgType : UInt8) (body : ServiceResponse → Bytes) :
    Turn ((Serving.handle E request >>= fun response =>
        Serving.write E msgType (body response) >>= fun _ => p response).exec l)
      (l.line.reply E request fun response => ⟨msgType, body response⟩) := by
  rw [Serving.exec_bind, Serving.exec_handle]
  exact turn_write (h _) _ msgType _

theorem turn_write_handle {p : Serving σ ρ Flow} {request : ServiceRequest}
    {reply : ServiceResponse → Frame} (h : ∀ l, Turn (p.exec l) (l.line.reply E request reply))
    (l : Link σ ρ) (msgType : UInt8) (payload : Bytes) :
    Turn ((Serving.write E msgType payload >>= fun _ => p).exec l)
      (l.line.after E (.service (some ⟨msgType, payload⟩) request reply)) := by
  rw [Serving.exec_bind, Link.after, Link.put]
  by_cases hw : Writable E l.sent.length ⟨msgType, payload⟩
  · rw [Serving.exec_write_of l E hw, if_pos (by exact hw)]
    exact h _
  · obtain ⟨e, he⟩ := Serving.exec_write_of_not l E hw
    rw [he, if_neg (by exact hw)]
    exact ⟨by simp, rfl⟩

variable (E) (ask : Timed (Result Frame) → Ask)

/-- The loop is left at one of the readings, from handler state `s` and behind `n` messages. -/
def Leaves : σ → (n : Nat) → List (Timed (Result Frame)) → Prop
  | _, _, [] => False
  | s, n, h :: rest =>
    match ask h with
    | .service none request reply =>
      let (response, s) := E.handler.handle request s
      ¬ Writable E n (reply response) ∨ Leaves s (n + 1) rest
    | .service (some f) request reply =>
      let (response, s) := E.handler.handle request s
      ¬ Writable E n f ∨ ¬ Writable E (n + 1) (reply response) ∨ Leaves s (n + 2) rest
    | .answer f => ¬ Writable E n f ∨ Leaves s (n + 1) rest
    | .pass => Leaves s n rest
    | .leave => True

/-- A reading that asks for the handler comes before the loop is left. -/
def Reaches : (n : Nat) → List (Timed (Result Frame)) → Prop
  | _, [] => False
  | n, h :: rest =>
    match ask h with
    | .service none _ _ => True
    | .service (some f) _ _ => Writable E n f
    | .answer f => Writable E n f ∧ Reaches (n + 1) rest
    | .pass => Reaches n rest
    | .leave => False

end Asks

section After
variable {E : Site σ} {ask : Timed (Result Frame) → Ask} (l : Link σ Unit)

variable (E ask) in
theorem leaves_cons (h : Timed (Result Frame)) (rest : List (Timed (Result Frame))) :
    Leaves E ask l.handler l.sent.length (h :: rest) ↔
      ((l.after E (ask h)).1 = true →
        Leaves E ask (l.after E (ask h)).2.handler (l.after E (ask h)).2.sent.length rest) := by
  rw [Leaves]
  cases ask h with
  | service before request reply =>
    cases before with
    | none => by_cases hw : Writable E l.sent.length (reply (E.handler.handle request l.handler).1) <;>
        simp [Link.after, Link.reply, Link.put, hw]
    | some f =>
      by_cases hf : Writable E l.sent.length f <;>
        by_cases hw : Writable E (l.sent.length + 1) (reply (E.handler.handle request l.handler).1) <;>
          simp [Link.after, Link.reply, Link.put, hf, hw]
  | answer f => by_cases hf : Writable E l.sent.length f <;> simp [Link.after, Link.put, hf]
  | pass => simp [Link.after]
  | leave => simp [Link.after]

@[simp] theorem put_handled (f : Frame) : (l.put E f).2.handled = l.handled := by
  unfold Link.put
  split <;> rfl

@[simp] theorem reply_handled (request : ServiceRequest) (reply : ServiceResponse → Frame) :
    (l.reply E request reply).2.handled = l.handled ++ [request] := put_handled ..

/-- What a turn passes to the handler comes behind what was passed to it before. -/
theorem handled_after (a : Ask) : l.handled <+: (l.after E a).2.handled := by
  cases a with
  | service before request reply =>
    cases before with
    | none => simp [Link.after]
    | some f => by_cases hf : Writable E l.sent.length f <;> simp [Link.after, Link.put, hf]
  | _ => simp [Link.after]

variable (E ask) in
theorem reaches_cons (h : Timed (Result Frame)) (rest : List (Timed (Result Frame))) :
    Reaches E ask l.sent.length (h :: rest) ↔
      (l.after E (ask h)).2.handled ≠ l.handled ∨
        (l.after E (ask h)).2.handled = l.handled ∧ (l.after E (ask h)).1 = true ∧
          Reaches E ask (l.after E (ask h)).2.sent.length rest := by
  rw [Reaches]
  cases ask h with
  | service before request reply =>
    cases before with
    | none => simp [Link.after]
    | some f => by_cases hf : Writable E l.sent.length f <;> simp [Link.after, Link.put, hf]
  | answer f => by_cases hf : Writable E l.sent.length f <;> simp [Link.after, Link.put, hf]
  | pass => simp [Link.after]
  | leave => simp [Link.after]

end After

namespace Service.Loops
variable {E : Site σ} {A : Service σ ρ G} {g : G} {ask : Timed (Result Frame) → Ask}

/-- One turn of a session that loops. -/
theorem step (hA : A.Loops E g ask) (l : Link σ ρ) (h : Timed (Result Frame)) :
    ∃ l', l'.line = (l.line.after E (ask h)).2 ∧
      (((l.line.after E (ask h)).1 = true ∧ (⟨.looping g, l⟩ : Session σ ρ G).step A h = ⟨.looping g, l'⟩) ∨
      ((l.line.after E (ask h)).1 = false ∧
        ∃ r, (⟨.looping g, l⟩ : Session σ ρ G).step A h = ⟨.finished r, l'⟩)) := by
  obtain ⟨hflow, hline⟩ := hA h l
  refine ⟨_, hline, ?_⟩
  rcases hx : (A.serve g h).exec l with ⟨r, l'⟩
  rw [hx] at hflow
  simp only [Session.step, hx]
  rcases r with e | _ | _ <;> simpa [Session.turned] using hflow

/-- **A session that loops ends exactly when one of its readings makes it leave.** -/
theorem finished_iff_leaves (hA : A.Loops E g ask) (hs : List (Timed (Result Frame)))
    (l : Link σ ρ) :
    ((⟨.looping g, l⟩ : Session σ ρ G).run A hs).Finished ↔
      Leaves E ask l.handler l.sent.length hs := by
  induction hs generalizing l with
  | nil => simp [Session.run, Session.Finished, Leaves]
  | cons h rest ih =>
    obtain ⟨l', hline, ⟨hgo, hstep⟩ | ⟨hstop, r, hstep⟩⟩ := hA.step l h
    · have hcons := leaves_cons E ask l.line h rest
      rw [← hline, hgo] at hcons
      rw [Session.run, List.foldl_cons, hstep, ← Session.run, ih]
      exact (hcons.trans (by simp only [forall_const]; rfl)).symm
    · have hcons := leaves_cons E ask l.line h rest
      rw [hstop] at hcons
      rw [Session.run, List.foldl_cons, hstep, ← Session.run, Session.run_finished ⟨r, rfl⟩]
      exact iff_of_true ⟨r, rfl⟩ (hcons.mpr nofun)

/-- Along a session, too. -/
theorem handled_run (hA : A.Loops E g ask) (hs : List (Timed (Result Frame))) (l : Link σ ρ) :
    l.handled <+: ((⟨.looping g, l⟩ : Session σ ρ G).run A hs).link.handled := by
  induction hs generalizing l with
  | nil => exact List.prefix_rfl
  | cons h rest ih =>
    obtain ⟨l', hline, hnext⟩ := hA.step l h
    have hle : l.handled <+: l'.handled := (congrArg Link.handled hline) ▸ handled_after l.line (ask h)
    rw [Session.run, List.foldl_cons, ← Session.run]
    rcases hnext with ⟨-, hstep⟩ | ⟨-, r, hstep⟩
    · rw [hstep]
      exact hle.trans (ih l')
    · rw [hstep, Session.run_finished ⟨r, rfl⟩]
      exact hle

/-- **A session that loops calls the handler exactly when a reading asks for it in time.** -/
theorem handled_iff_reaches (hA : A.Loops E g ask) (hs : List (Timed (Result Frame)))
    (l : Link σ ρ) :
    ((⟨.looping g, l⟩ : Session σ ρ G).run A hs).link.handled ≠ l.handled ↔
      Reaches E ask l.sent.length hs := by
  induction hs generalizing l with
  | nil => simp [Session.run, Reaches]
  | cons h rest ih =>
    obtain ⟨l', hline, hnext⟩ := hA.step l h
    have hcons := reaches_cons E ask l.line h rest
    rw [← hline] at hcons
    rw [Session.run, List.foldl_cons, ← Session.run]
    by_cases heq : l'.handled = l.handled
    · rcases hnext with ⟨hgo, hstep⟩ | ⟨hstop, r, hstep⟩
      · rw [hstep, ← heq, ih]
        exact (hcons.trans (by simp [heq, hgo])).symm
      · rw [hstep, Session.run_finished ⟨r, rfl⟩]
        exact (hcons.trans (by simp [heq, hstop])).symm
    · refine iff_of_true ?_ (hcons.mpr (.inl heq))
      rcases hnext with ⟨-, hstep⟩ | ⟨-, r, hstep⟩
      · rw [hstep]
        have hmore := hA.handled_run rest l'
        have hle : l.handled <+: l'.handled := (congrArg Link.handled hline) ▸ handled_after l.line (ask h)
        intro hback
        rw [hback] at hmore
        exact heq (hmore.eq_of_length_le hle.length_le)
      · rw [hstep, Session.run_finished ⟨r, rfl⟩]
        exact heq

end Service.Loops

end XProtocol
