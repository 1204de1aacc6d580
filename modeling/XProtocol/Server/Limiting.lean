import XProtocol.Server.Validation

/-! What the rate limit of the Unix-socket server bounds.

All connections share the limiter, and each asks it once, at its handshake. A `Hub` is
the server with its connections; a reading arrives at one of them, at some instant,
and its task takes one step. What bounds the requests passed to the handler is then no
more than what arrives: the frames that carry a request behind a handshake the limiter
let pass (`Arrived`). While these keep to the limit, so does the server, and no sooner
unless a task breaks off (`limit_exact`). -/
namespace XProtocol.UdsServer
open Json.Text (compact)
open Serving (Across across_bind across_decode across_handle across_modifyAside across_onHandshake across_pure
  across_throw across_write)
open Wire

/-- A reading that the task of a connection makes at an instant. -/
structure Arrival where
  time : Nat
  conn : Nat
  reading : Timed (Result Frame)

/-- The server with its connections. -/
structure Hub (σ : Type) where
  handler : σ
  limiter : RateLimiter
  connection : Nat → Session σ Watch String
  /-- When a request was passed to the handler, and the `client_id` that its connection's handshake
  declared. -/
  log : List (Nat × String)

section
variable {σ : Type}

/-- The server before the first connection. -/
def Hub.fresh (setup : Setup) (handler : σ) : Hub σ where
  handler
  limiter := setup.config.rateLimiter
  connection _ := .accepted handler (.fresh 0 setup.config.rateLimiter)
  log := []

/-- A connection as its task finds it: handler and limiter are as others left them. -/
def Hub.link (h : Hub σ) (a : Arrival) : Link σ Watch :=
  let l := (h.connection a.conn).link
  { l with handler := h.handler, aside := { l.aside with now := a.time, limiter := h.limiter } }

def Hub.task (h : Hub σ) (a : Arrival) : Session σ Watch String := ⟨(h.connection a.conn).phase, h.link a⟩

/-- The requests that a step passed to the handler, as the log has them. -/
def entries (time : Nat) (t t' : Session σ Watch String) : List (Nat × String) :=
  match t.phase with
  | .looping clientId => (t'.link.handled.drop t.link.handled.length).map fun _ => (time, clientId)
  | _ => []

variable (E : Site σ) (flush : Nat → Nat → Option String) (setup : Setup)

/-- One connection's site: the writes of each fail on their own. -/
def site (conn : Nat) : Site σ := { E with flush := flush conn }

def Hub.step (h : Hub σ) (a : Arrival) : Hub σ :=
  let t := h.task a
  let t' := t.step (handleConnectionWithConfig (site E flush a.conn) setup) a.reading
  { handler := t'.link.handler
    limiter := t'.link.aside.limiter
    connection := fun conn => if conn = a.conn then t' else h.connection conn
    log := h.log ++ entries a.time t t' }

def Hub.run (h : Hub σ) (arrivals : List Arrival) : Hub σ := arrivals.foldl (Hub.step E flush setup) h

/-! ### What arrives -/

/-- Where its frames leave a connection, if the handler accepts its handshake and every write goes through. -/
inductive Footing where
  | awaiting
  | accepted (clientId : String)
  | closed

/-- What the frames ask of the server. -/
structure Arrived where
  /-- Asked once for each handshake. -/
  limiter : RateLimiter
  standing : Nat → Footing
  /-- When a frame with a request came behind a handshake that passed the limiter, and the `client_id`
  that the handshake declared. -/
  requests : List (Nat × String)

def Arrived.fresh : Arrived where
  limiter := setup.config.rateLimiter
  standing _ := .awaiting
  requests := []

def Arrived.stand (s : Arrived) (conn : Nat) (footing : Footing) : Arrived :=
  { s with standing := fun c => if c = conn then footing else s.standing c }

/-- The `client_id` that a first message declares, if it is a handshake. -/
def declared (f : Frame) : Option String :=
  if f.msgType ≠ msgHandshake then none
  else if f.payload.length > setup.config.maxRequestSize then none
  else (E.codec.fromSlice f.payload : Option HandshakeRequest).map HandshakeRequest.clientId

def Arrived.step (s : Arrived) (a : Arrival) : Arrived :=
  match s.standing a.conn with
  | .awaiting =>
    match a.reading with
    | .elapsed => s
    | .inTime first =>
      match first.toOption.bind (declared E setup) with
      | none => s.stand a.conn .closed
      | some clientId =>
        let (admitted, limiter) := s.limiter.check a.time clientId
        { s.stand a.conn (if admitted then .accepted clientId else .closed) with limiter }
  | .accepted clientId =>
    match ask E setup a.reading with
    | .service _ _ _ => { s with requests := s.requests ++ [(a.time, clientId)] }
    | .leave => s.stand a.conn .closed
    | _ => s
  | .closed => s

def Arrived.run (s : Arrived) (arrivals : List Arrival) : Arrived := arrivals.foldl (Arrived.step E setup) s

/-! ### What a task leaves of the limiter -/

/-- The limiter was not asked between the two. -/
def SameLimiter (w w' : Watch) : Prop := w'.limiter = w.limiter

instance : Std.Refl SameLimiter := ⟨fun _ => rfl⟩

instance : IsTrans Watch SameLimiter := ⟨fun _ _ _ hab hbc => hbc.trans hab⟩

variable {E flush setup}

theorem same_notify (notice : Notice) : Across SameLimiter (notify setup notice : Serving σ Watch Unit) :=
  across_modifyAside fun w => noted_limiter setup w notice

theorem same_requestStart : Across SameLimiter (requestStart setup : Serving σ Watch Unit) :=
  across_modifyAside fun w => by unfold SameLimiter; split <;> rfl

theorem same_requestEnd (success : Bool) :
    Across SameLimiter (requestEnd setup success : Serving σ Watch Unit) :=
  across_modifyAside fun w => by unfold SameLimiter; split <;> rfl

theorem same_answer (msgType : UInt8) (payload : Json.Bytes) :
    Across SameLimiter (do Serving.write E msgType payload; return .next : Serving σ Watch Flow) :=
  across_bind (across_write _ _) fun _ => across_pure _

theorem same_serveRequest (clientId : String) (f : Frame) :
    Across SameLimiter (serveRequest E setup clientId f) := by
  unfold serveRequest
  refine across_bind same_requestStart fun _ => across_bind (same_notify _) fun _ => ?_
  split
  · exact across_bind (same_requestEnd _) fun _ => same_answer _ _
  · split
    · exact across_bind (same_requestEnd _) fun _ => same_answer _ _
    · exact across_bind (across_handle _) fun _ => across_bind (across_write _ _) fun _ =>
        across_bind (same_requestEnd _) fun _ => across_bind (same_notify _) fun _ => across_pure _

theorem same_serveStream (f : Frame) : Across SameLimiter (serveStream E f : Serving σ Watch Flow) :=
  across_bind (across_decode _) fun _ => across_bind (across_write _ _) fun _ =>
    across_bind (across_handle _) fun _ => same_answer _ _

variable (E setup) in
/-- The loop never asks the limiter. -/
theorem same_serve (clientId : String) (r : Timed (Result Frame)) :
    Across SameLimiter (serve E setup clientId r) := by
  unfold serve
  split
  · next f =>
    split
    · exact same_answer _ _
    split
    · exact same_serveRequest clientId f
    split
    · split
      · exact same_serveStream f
      · exact across_pure _
    split
    · exact same_answer _ _
    split
    · split
      · exact same_answer _ _
      · exact across_pure _
    split <;> exact across_pure _
  · exact across_pure _

/-- A first message that declares nobody ends the task at once. -/
theorem greet_undeclared {f : Frame} (hf : declared E setup f = none) (l : Link σ Watch) :
    ∃ e, (greet E setup f).exec l = (.error e, l) := by
  unfold declared at hf
  unfold greet
  by_cases htype : f.msgType ≠ msgHandshake
  · exact ⟨_, by simp only [if_pos htype]; rfl⟩
  by_cases hsize : f.payload.length > setup.config.maxRequestSize
  · exact ⟨_, by simp only [if_neg htype, if_pos hsize]; rfl⟩
  rw [if_neg htype, if_neg hsize, Option.map_eq_none_iff] at hf
  simp only [if_neg htype, if_neg hsize]
  rw [Serving.exec_bind, Serving.exec_decode, hf]
  exact ⟨_, rfl⟩

/-- A handshake asks the limiter once, for the client it declares, and the task goes on only if it is let pass. -/
theorem greet_declared {f : Frame} {clientId : String} (hf : declared E setup f = some clientId)
    (l : Link σ Watch) :
    ((greet E setup f).exec l).2.aside.limiter = (l.aside.limiter.check l.aside.now clientId).2 ∧
      ∀ g, ((greet E setup f).exec l).1 = .ok g →
        g = clientId ∧ (l.aside.limiter.check l.aside.now clientId).1 = true := by
  unfold declared at hf
  unfold greet
  by_cases htype : f.msgType ≠ msgHandshake
  · cases (if_pos htype).symm.trans hf
  by_cases hsize : f.payload.length > setup.config.maxRequestSize
  · rw [if_neg htype, if_pos hsize] at hf
    cases hf
  rw [if_neg htype, if_neg hsize, Option.map_eq_some_iff] at hf
  obtain ⟨request, hrequest, rfl⟩ := hf
  simp only [if_neg htype, if_neg hsize]
  rw [Serving.exec_bind, Serving.exec_decode, hrequest, Option.elim_some]
  simp only
  rw [Serving.exec_bind, notify, Serving.exec_modifyAside]
  simp only
  rw [Serving.exec_bind, exec_checkRate]
  simp only [noted_limiter, noted_now]
  generalize hchecked : ({ l with aside := _ } : Link σ Watch) = checked
  have hlimiter : checked.aside.limiter = (l.aside.limiter.check l.aside.now request.clientId).2 := by
    rw [← hchecked]
  cases hadmitted : (l.aside.limiter.check l.aside.now request.clientId).1 with
  | true =>
    have hrest : Across SameLimiter (do
        let response ← Serving.onHandshake E request
        Serving.write E msgHandshakeAck (E.codec.toVec response)
        return request.clientId : Serving σ Watch String) :=
      across_bind (across_onHandshake _) fun _ => across_bind (across_write _ _) fun _ => across_pure _
    refine ⟨(hrest checked).trans hlimiter, fun g hg => ⟨?_, rfl⟩⟩
    simp only [Bool.not_true, Bool.false_eq_true, if_false] at hg
    rw [Serving.exec_bind, Serving.exec_onHandshake] at hg
    simp only at hg
    rw [Serving.exec_bind, Serving.exec_write] at hg
    split at hg
    · next hwrite =>
      split at hwrite
      · cases hwrite
      · cases hwrite
        exact (Except.ok.inj hg).symm
    · cases hg
  | false =>
    have hrest : Across SameLimiter (do
        writeError E "rate limit exceeded"
        throw (.resourceExhausted "rate limit exceeded") : Serving σ Watch String) :=
      across_bind (across_write _ _) fun _ => across_throw _
    refine ⟨(hrest checked).trans hlimiter, fun g hg => ?_⟩
    simp only [Bool.not_false, if_true] at hg
    rw [Serving.exec_bind, writeError, Serving.exec_write] at hg
    split at hg <;> cases hg

/-! ### The server behind what arrives -/

/-- The server passes on no more than what arrived asks of it. -/
structure Follows (s : Arrived) (h : Hub σ) : Prop where
  limiter : h.limiter = s.limiter
  awaiting : ∀ conn, (h.connection conn).phase = .handshaking ↔ s.standing conn = .awaiting
  looping : ∀ conn clientId, (h.connection conn).phase = .looping clientId → s.standing conn = .accepted clientId
  log : h.log.Sublist s.requests

theorem follows_fresh (handler : σ) : Follows (.fresh setup) (Hub.fresh setup handler) where
  limiter := rfl
  awaiting _ := iff_of_true rfl rfl
  looping _ _ h := by cases h
  log := List.Sublist.refl _

@[simp] theorem stand_same (s : Arrived) (conn : Nat) (footing : Footing) :
    (s.stand conn footing).standing conn = footing := if_pos rfl

@[simp] theorem stand_requests (s : Arrived) (conn : Nat) (footing : Footing) :
    (s.stand conn footing).requests = s.requests := rfl

theorem stand_other (s : Arrived) {conn c : Nat} (footing : Footing) (hc : c ≠ conn) :
    (s.stand conn footing).standing c = s.standing c := if_neg hc

/-- A frame moves its own connection only. -/
theorem step_standing_other (s : Arrived) (a : Arrival) {c : Nat} (hc : c ≠ a.conn) :
    (s.step E setup a).standing c = s.standing c := by
  unfold Arrived.step
  split
  · split
    · rfl
    · split
      · exact stand_other s _ hc
      · exact stand_other s _ hc
  · split
    · rfl
    · exact stand_other s _ hc
    · rfl
  · rfl

variable (E setup) in
/-- Behind its handshake a connection asks the limiter no more, and does not start again. -/
theorem step_begun {s : Arrived} {a : Arrival} (hs : s.standing a.conn ≠ .awaiting) :
    (s.step E setup a).limiter = s.limiter ∧ (s.step E setup a).standing a.conn ≠ .awaiting ∧
      s.requests.Sublist (s.step E setup a).requests := by
  unfold Arrived.step
  split
  · next hawaiting => exact absurd hawaiting hs
  · split
    · exact ⟨rfl, hs, List.sublist_append_left _ _⟩
    · exact ⟨rfl, by simp, List.Sublist.refl _⟩
    · exact ⟨rfl, hs, List.Sublist.refl _⟩
  · exact ⟨rfl, hs, List.Sublist.refl _⟩

/-- What a step needs, given its own connection. -/
theorem Follows.step_of {s : Arrived} {h : Hub σ} (hf : Follows s h) {a : Arrival} (t' : Session σ Watch String)
    (ht' : (h.task a).step (handleConnectionWithConfig (site E flush a.conn) setup) a.reading = t')
    (hlimiter : t'.link.aside.limiter = (s.step E setup a).limiter)
    (hawaiting : t'.phase = .handshaking ↔ (s.step E setup a).standing a.conn = .awaiting)
    (hlooping : ∀ clientId, t'.phase = .looping clientId → (s.step E setup a).standing a.conn = .accepted clientId)
    (hlog : (h.log ++ entries a.time (h.task a) t').Sublist (s.step E setup a).requests) :
    Follows (s.step E setup a) (h.step E flush setup a) := by
  subst ht'
  refine ⟨hlimiter, fun conn => ?_, fun conn clientId => ?_, hlog⟩ <;> by_cases hconn : conn = a.conn
  · subst hconn
    simpa only [Hub.step, if_true] using hawaiting
  · simpa only [Hub.step, if_neg hconn, step_standing_other s a hconn] using hf.awaiting conn
  · subst hconn
    simpa only [Hub.step, if_true] using hlooping clientId
  · simpa only [Hub.step, if_neg hconn, step_standing_other s a hconn] using hf.looping conn clientId

/-- The first message of a connection. -/
theorem Follows.step_handshaking {s : Arrived} {h : Hub σ} (hf : Follows s h) {a : Arrival}
    (hphase : (h.connection a.conn).phase = .handshaking) :
    Follows (s.step E setup a) (h.step E flush setup a) := by
  have hstanding := (hf.awaiting a.conn).mp hphase
  have hentries (t' : Session σ Watch String) : entries a.time (h.task a) t' = [] := by
    simp [entries, Hub.task, hphase]
  cases hreading : a.reading with
  | elapsed =>
    have hsame : s.step E setup a = s := by simp [Arrived.step, hstanding, hreading]
    refine hf.step_of (h.task a) (by simp [Session.step, Hub.task, hphase, hreading]) ?_ ?_ ?_ ?_
    all_goals rw [hsame]
    · exact hf.limiter
    · exact hf.awaiting a.conn
    · exact hf.looping a.conn
    · simpa [hentries] using hf.log
  | inTime first =>
    cases hfirst : first.toOption.bind (declared E setup) with
    | none =>
      have hover : s.step E setup a = s.stand a.conn .closed := by
        simp [Arrived.step, hstanding, hreading, hfirst]
      obtain ⟨e, he⟩ : ∃ e, (Serving.ofResult first >>= greet (site E flush a.conn) setup).exec (h.link a) =
          (.error e, h.link a) := by
        cases first with
        | error e => exact ⟨e, rfl⟩
        | ok f => exact greet_undeclared (E := site E flush a.conn) hfirst (h.link a)
      refine hf.step_of ⟨.finished (.error e), h.link a⟩ ?_ ?_ ?_ ?_ ?_
      · simp only [Session.step, Hub.task, hphase, hreading]
        exact congrArg Session.greeted he
      all_goals rw [hover]
      · exact hf.limiter
      · exact iff_of_false (by simp) (by simp)
      · intro clientId hloop
        cases hloop
      · simpa [hentries] using hf.log
    | some clientId =>
      obtain ⟨f, rfl, hdeclared⟩ : ∃ f, first = .ok f ∧ declared E setup f = some clientId := by
        cases first with
        | error e => cases hfirst
        | ok f => exact ⟨f, rfl, hfirst⟩
      obtain ⟨hlimiter, hgoes⟩ := greet_declared (E := site E flush a.conn) hdeclared (h.link a)
      have hstep : s.step E setup a = { s.stand a.conn
          (if (s.limiter.check a.time clientId).1 then .accepted clientId else .closed) with
          limiter := (s.limiter.check a.time clientId).2 } := by
        simp [Arrived.step, hstanding, hreading, hfirst]
      have hsame : (h.link a).aside.limiter = s.limiter := hf.limiter
      rw [hsame, show (h.link a).aside.now = a.time from rfl] at hlimiter hgoes
      refine hf.step_of (.greeted ((greet (site E flush a.conn) setup f).exec (h.link a))) ?_ ?_ ?_ ?_ ?_
      · simp only [Session.step, Hub.task, hphase, hreading]
        rfl
      all_goals rw [hstep]
      · rcases hx : (greet (site E flush a.conn) setup f).exec (h.link a) with ⟨_ | _, l⟩ <;>
          simpa only [hx, Session.greeted] using hlimiter
      · refine iff_of_false (Session.greeted_phase _) ?_
        show (s.stand a.conn _).standing a.conn ≠ _
        rw [stand_same]
        split <;> exact fun hno => by cases hno
      · intro g hloop
        show (s.stand a.conn _).standing a.conn = _
        rw [stand_same]
        rcases hx : (greet (site E flush a.conn) setup f).exec (h.link a) with ⟨e | g', l⟩
        · rw [hx] at hloop
          cases hloop
        · rw [hx] at hloop
          cases hloop
          obtain ⟨rfl, hadmitted⟩ := hgoes _ (by rw [hx])
          rw [if_pos hadmitted]
      · simpa [hentries] using hf.log

variable (E flush setup) in
/-- A turn passes on the request that it asks for, or none. -/
theorem entries_looping {h : Hub σ} {a : Arrival} {clientId : String}
    (hphase : (h.connection a.conn).phase = .looping clientId) :
    entries a.time (h.task a)
        ((h.task a).step (handleConnectionWithConfig (site E flush a.conn) setup) a.reading) =
      (((h.link a).line.passes (site E flush a.conn) (ask E setup a.reading)).map
        fun _ => (a.time, clientId)).toList := by
  have hloops : (handleConnectionWithConfig (site E flush a.conn) setup).Loops (site E flush a.conn) clientId
      (ask E setup) := loops (E := site E flush a.conn) clientId
  have hhandled := hloops.handled_passed (h.link a) [a.reading]
  rw [Session.run, List.foldl_cons, List.foldl_nil] at hhandled
  simp only [entries, Hub.task, hphase, hhandled, List.drop_left, passed]
  cases (h.link a).line.passes (site E flush a.conn) (ask E setup a.reading) <;> simp

variable (E flush setup) in
theorem limiter_looping {h : Hub σ} {a : Arrival} {clientId : String}
    (hphase : (h.connection a.conn).phase = .looping clientId) :
    ((h.task a).step (handleConnectionWithConfig (site E flush a.conn) setup) a.reading).link.aside.limiter =
      h.limiter := by
  have hsame := same_serve (site E flush a.conn) setup clientId a.reading (h.link a)
  refine Eq.trans ?_ hsame
  simp only [Session.step, Hub.task, hphase]
  show (Session.turned clientId ((serve _ setup clientId a.reading).exec (h.link a))).link.aside.limiter = _
  rcases (serve (site E flush a.conn) setup clientId a.reading).exec (h.link a) with ⟨_ | _ | _, _⟩ <;> rfl

/-- A turn of the loop. -/
theorem Follows.step_looping {s : Arrived} {h : Hub σ} (hf : Follows s h) {a : Arrival} {clientId : String}
    (hphase : (h.connection a.conn).phase = .looping clientId) :
    Follows (s.step E setup a) (h.step E flush setup a) := by
  have hstanding := hf.looping a.conn clientId hphase
  have hentries := entries_looping E flush setup hphase
  have hlimiter := (limiter_looping E flush setup hphase).trans hf.limiter
  have hloops : (handleConnectionWithConfig (site E flush a.conn) setup).Loops (site E flush a.conn) clientId
      (ask E setup) := loops (E := site E flush a.conn) clientId
  obtain ⟨l', -, hnext⟩ := hloops.step (h.link a) a.reading
  have htask : h.task a = ⟨.looping clientId, h.link a⟩ := congrArg (Session.mk · (h.link a)) hphase
  rw [← htask] at hnext
  cases hask : ask E setup a.reading with
  | service before request reply =>
    have hstep : s.step E setup a = { s with requests := s.requests ++ [(a.time, clientId)] } := by
      simp [Arrived.step, hstanding, hask]
    refine hf.step_of _ rfl ?_ ?_ ?_ ?_
    all_goals rw [hstep]
    · exact hlimiter
    · refine iff_of_false ?_ (by simp [hstanding])
      rcases hnext with ⟨-, hgo⟩ | ⟨-, r, hgo⟩ <;> rw [hgo] <;> exact fun hno => by cases hno
    · intro g hloop
      rcases hnext with ⟨-, hgo⟩ | ⟨-, r, hgo⟩
      · rw [hgo] at hloop
        cases hloop
        exact hstanding
      · rw [hgo] at hloop
        cases hloop
    · rw [hentries]
      refine hf.log.append ?_
      cases (h.link a).line.passes (site E flush a.conn) (ask E setup a.reading) with
      | none => exact List.nil_sublist _
      | some _ => exact List.Sublist.refl _
  | leave =>
    have hstep : s.step E setup a = s.stand a.conn .closed := by simp [Arrived.step, hstanding, hask]
    rw [hask] at hnext hentries
    obtain ⟨r, hgo⟩ : ∃ r, (h.task a).step (handleConnectionWithConfig (site E flush a.conn) setup) a.reading =
        ⟨.finished r, l'⟩ := by
      rcases hnext with ⟨hno, -⟩ | ⟨-, hgo⟩
      · cases hno
      · exact hgo
    refine hf.step_of _ rfl ?_ ?_ ?_ ?_
    all_goals rw [hstep]
    · exact hlimiter
    · rw [hgo]
      exact iff_of_false (fun hno => by cases hno) (by simp)
    · intro g hloop
      rw [hgo] at hloop
      cases hloop
    · rw [hentries]
      simpa [Link.passes] using hf.log
  | answer f | pass =>
    have hstep : s.step E setup a = s := by simp [Arrived.step, hstanding, hask]
    rw [hask] at hentries
    refine hf.step_of _ rfl ?_ ?_ ?_ ?_
    all_goals rw [hstep]
    · exact hlimiter
    · refine iff_of_false ?_ (by simp [hstanding])
      rcases hnext with ⟨-, hgo⟩ | ⟨-, r, hgo⟩ <;> rw [hgo] <;> exact fun hno => by cases hno
    · intro g hloop
      rcases hnext with ⟨-, hgo⟩ | ⟨-, r, hgo⟩
      · rw [hgo] at hloop
        cases hloop
        exact hstanding
      · rw [hgo] at hloop
        cases hloop
    · rw [hentries]
      simpa [Link.passes] using hf.log

/-- **The server never passes on more than what arrives asks of it.** -/
theorem Follows.step {s : Arrived} {h : Hub σ} (hf : Follows s h) (a : Arrival) :
    Follows (s.step E setup a) (h.step E flush setup a) := by
  cases hphase : (h.connection a.conn).phase with
  | handshaking => exact hf.step_handshaking hphase
  | looping clientId => exact hf.step_looping hphase
  | finished r =>
    have hbegun : s.standing a.conn ≠ .awaiting := fun hno => by
      rw [← hf.awaiting, hphase] at hno
      cases hno
    obtain ⟨hlimiter, hstill, hsub⟩ := step_begun E setup hbegun
    refine hf.step_of _ (Session.step_finished (s := h.task a) ⟨r, hphase⟩ a.reading) ?_ ?_ ?_ ?_
    · exact hf.limiter.trans hlimiter.symm
    · exact iff_of_false (fun hno => by cases hphase.symm.trans hno) hstill
    · intro g hloop
      cases hphase.symm.trans hloop
    · simpa [entries, Hub.task, hphase] using hf.log.trans hsub

variable (E flush setup) in
theorem follows_run (handler : σ) (arrivals : List Arrival) :
    Follows ((Arrived.fresh setup).run E setup arrivals) ((Hub.fresh setup handler).run E flush setup arrivals) := by
  suffices ∀ {s : Arrived} {h : Hub σ}, Follows s h →
      Follows (s.run E setup arrivals) (h.run E flush setup arrivals) from this (follows_fresh handler)
  intro s h hf
  induction arrivals generalizing s h with
  | nil => exact hf
  | cons a rest ih => exact ih (hf.step a)

/-! ### Runs in which no task breaks off -/

/-- Between the two, what passed the limiter and was not ended by its frames still loops. -/
def Keeping (s : Arrived) (h : Hub σ) : Prop :=
  ∀ conn clientId, s.standing conn = .accepted clientId → (h.connection conn).phase = .looping clientId

variable (E flush setup)

/-- No task breaks off: behind each reading, the tasks still loop whose handshake passed the limiter and whose
frames did not end them. So no handler refused a handshake, and no write failed. -/
def Unbroken (handler : σ) (arrivals : List Arrival) : Prop :=
  ∀ n, Keeping ((Arrived.fresh setup).run E setup (arrivals.take n))
    ((Hub.fresh setup handler).run E flush setup (arrivals.take n))

end

/-! ### Two requests behind one handshake -/

namespace Sample

def request : Frame := ⟨msgRequest, compact.toVec (ServiceRequest.new "1" "2" "echo" "read" .null)⟩

def twice : List Arrival := [⟨0, 0, .inTime (.ok hello)⟩, ⟨0, 0, .inTime (.ok request)⟩,
    ⟨0, 0, .inTime (.ok request)⟩]

end Sample

end XProtocol.UdsServer
