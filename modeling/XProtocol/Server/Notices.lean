import XProtocol.Server.Accounting
import XProtocol.Server.Calls

/-! What the Unix-socket server tells its webhooks.

A connection's task sends word of the handshake, of each message that asks for a call, and
of each response. Between a message's word and its response's stand the ways out of the
turn: a request that does not decode or is not valid, and a response that cannot be
written. So the webhooks hear of exactly the responses that went out, each behind the word
of its own message, and of nothing else (`notices_exact`). -/
namespace XProtocol.UdsServer
open Wire

/-- What comes to the webhooks, if there are any. -/
def Setup.tells (setup : Setup) (notices : List Notice) : List Notice :=
  if setup.webhookService then notices else []

theorem tells_append (setup : Setup) (a b : List Notice) : setup.tells (a ++ b) = setup.tells a ++ setup.tells b := by
  unfold Setup.tells
  split <;> rfl

theorem noted_notices (setup : Setup) (w : Watch) (notice : Notice) :
    (w.noted setup notice).notices = w.notices ++ setup.tells [notice] := by
  unfold Watch.noted Setup.tells
  split
  · rfl
  · exact (List.append_nil _).symm

/-- Of a message that asks for a call: that it came, and its response, if that went out. -/
def noticesOf (clientId serviceName : String) (answered : Option ServiceResponse) : List Notice :=
  .requestReceived clientId serviceName (toString msgRequest) ::
    answered.toList.map fun response => .responseSent response.requestId serviceName response.status

section
variable {σ α β : Type} (E : Site σ) (setup : Setup)

/-- The responses among the messages that a task has written. -/
def responsesOf (l : Link σ Watch) : List Frame := l.sent.filter (·.msgType = msgResponse)

/-- From the one to the other, the webhooks heard of a message for each of `turns`, with the response that
was written to it. -/
structure Tells (clientId : String) (turns : List (Option ServiceResponse)) (l l' : Link σ Watch) : Prop where
  notices : l'.aside.notices = l.aside.notices ++
    setup.tells (turns.flatMap (noticesOf clientId E.handler.serviceName))
  responses : responsesOf l' = responsesOf l ++ (turns.filterMap id).map (responseFrame E)

variable {E setup} {clientId : String} {l l' l'' : Link σ Watch}

theorem Tells.refl (l : Link σ Watch) : Tells E setup clientId [] l l where
  notices := by simp [Setup.tells]
  responses := by simp

theorem Tells.trans {a b : List (Option ServiceResponse)} (hfirst : Tells E setup clientId a l l')
    (hsecond : Tells E setup clientId b l' l'') : Tells E setup clientId (a ++ b) l l'' where
  notices := by rw [hsecond.notices, hfirst.notices, List.flatMap_append, tells_append, List.append_assoc]
  responses := by
    rw [hsecond.responses, hfirst.responses, List.filterMap_append, List.map_append, List.append_assoc]

theorem Tells.told (h : Tells E setup clientId [] l l') : l'.aside.notices = l.aside.notices := by
  rw [h.notices]
  simp [Setup.tells]

theorem Tells.replied (h : Tells E setup clientId [] l l') : responsesOf l' = responsesOf l := by
  rw [h.responses]
  exact List.append_nil _

/-! ### Code that tells nothing -/

variable (E setup) in
/-- Whatever way it ends, the code tells the webhooks nothing, and writes no response. -/
def Quiet (p : Serving σ Watch α) : Prop := ∀ clientId l, Tells E setup clientId [] l (p.exec l).2

theorem quiet_pure (a : α) : Quiet E setup (pure a : Serving σ Watch α) := fun _ => Tells.refl

theorem quiet_throw (e : ProtocolError) : Quiet E setup (throw e : Serving σ Watch α) := fun _ => Tells.refl

theorem quiet_bind {p : Serving σ Watch α} {f : α → Serving σ Watch β} (hp : Quiet E setup p)
    (hf : ∀ a, Quiet E setup (f a)) : Quiet E setup (p >>= f) := by
  intro clientId l
  rw [Serving.exec_bind]
  have hfirst := hp clientId l
  rcases hx : p.exec l with ⟨r, l'⟩
  rw [hx] at hfirst
  cases r with
  | ok a => exact hfirst.trans (hf a clientId l')
  | error e => exact hfirst

theorem quiet_decode [Json.Deserialize α] (payload : Json.Bytes) :
    Quiet E setup (Serving.decode E payload : Serving σ Watch α) := by
  intro clientId l
  rw [Serving.exec_decode]
  exact .refl l

theorem quiet_handle (request : ServiceRequest) :
    Quiet E setup (Serving.handle E request : Serving σ Watch ServiceResponse) := by
  intro clientId l
  rw [Serving.exec_handle]
  have hsame : Tells E setup clientId [] l l := .refl l
  exact ⟨hsame.notices, hsame.responses⟩

theorem quiet_onHandshake (request : HandshakeRequest) :
    Quiet E setup (Serving.onHandshake E request : Serving σ Watch HandshakeResponse) := by
  intro clientId l
  rw [Serving.exec_onHandshake]
  have hsame : Tells E setup clientId [] l l := .refl l
  exact ⟨hsame.notices, hsame.responses⟩

theorem quiet_write {msgType : UInt8} (htype : msgType ≠ msgResponse) (payload : Json.Bytes) :
    Quiet E setup (Serving.write E msgType payload : Serving σ Watch Unit) := by
  intro clientId l
  rw [Serving.exec_write]
  cases E.refusal l.sent.length ⟨msgType, payload⟩ with
  | some e => exact .refl l
  | none =>
    exact ⟨by simp [Setup.tells], by simp [responsesOf, htype]⟩

theorem quiet_modifyAside {f : Watch → Watch} (hf : ∀ w, (f w).notices = w.notices) :
    Quiet E setup (Serving.modifyAside f : Serving σ Watch Unit) := by
  intro clientId l
  have hsame : Tells E setup clientId [] l l := .refl l
  exact ⟨(hf l.aside).trans hsame.notices, hsame.responses⟩

theorem quiet_requestEnd (success : Bool) : Quiet E setup (requestEnd setup success : Serving σ Watch Unit) :=
  quiet_modifyAside fun w => by split <;> rfl

theorem quiet_writeError (text : String) : Quiet E setup (writeError E text : Serving σ Watch Unit) :=
  quiet_write (by decide) _

theorem quiet_serveStream (f : Frame) : Quiet E setup (serveStream E f : Serving σ Watch Flow) :=
  quiet_bind (quiet_decode _) fun _ => quiet_bind (quiet_write (by decide) _) fun _ =>
    quiet_bind (quiet_handle _) fun _ => quiet_bind (quiet_write (by decide) _) fun _ => quiet_pure _

/-! ### A turn of the loop -/

/-- The word of a message that asks for a call. -/
theorem tells_word {w : Watch} (hw : w.notices = l.aside.notices) (handler : σ) (handled : List ServiceRequest) :
    Tells E setup clientId [none] l ⟨handler, handled, l.sent,
      w.noted setup (.requestReceived clientId E.handler.serviceName (toString msgRequest))⟩ where
  notices := by
    show (w.noted setup _).notices = _
    rw [noted_notices, hw]
    rfl
  responses := (List.append_nil _).symm

/-- Its response goes out, and word of it. -/
theorem Tells.answered (h : Tells E setup clientId [none] l l') (response : ServiceResponse) {w : Watch}
    (hw : w.notices = l'.aside.notices) :
    Tells E setup clientId [some response] l { l' with
      sent := l'.sent ++ [responseFrame E response]
      aside := w.noted setup (.responseSent response.requestId E.handler.serviceName response.status) } where
  notices := by
    show (w.noted setup _).notices = _
    rw [noted_notices, hw, h.notices, List.append_assoc, ← tells_append]
    rfl
  responses := by
    have hmore : (l'.sent ++ [responseFrame E response]).filter (·.msgType = msgResponse) =
        responsesOf l' ++ [responseFrame E response] := by simp [responsesOf, responseFrame]
    rw [responsesOf, hmore, h.responses]
    simp

variable (E) in
/-- The response to the request in `f`, if the step from the one to the other wrote it. -/
def written (l l' : Link σ Watch) (f : Frame) : Option ServiceResponse :=
  match (E.codec.fromSlice f.payload : Option ServiceRequest) with
  | none => none
  | some request =>
    let response := (E.handler.handle request l.handler).1
    if l'.sent = l.sent ++ [responseFrame E response] then some response else none

/-- A step that leaves its message without a response has written none. -/
theorem Tells.unanswered (h : Tells E setup clientId [none] l l') (f : Frame) : written E l l' f = none := by
  unfold written
  split
  · rfl
  · refine if_neg fun hsent => ?_
    have hresponses := h.responses
    rw [responsesOf, hsent] at hresponses
    simp [responsesOf, responseFrame] at hresponses

theorem Tells.wrote {response : ServiceResponse} (h : Tells E setup clientId [some response] l l') {f : Frame}
    {request : ServiceRequest} (hdecoded : E.codec.fromSlice f.payload = some request)
    (hresponse : (E.handler.handle request l.handler).1 = response)
    (hsent : l'.sent = l.sent ++ [responseFrame E response]) : Tells E setup clientId [written E l l' f] l l' := by
  subst hresponse
  have hwritten : written E l l' f = some (E.handler.handle request l.handler).1 := by
    rw [written, hdecoded]
    exact if_pos hsent
  exact hwritten ▸ h

theorem serveRequest_tells (clientId : String) {f : Frame} (htype : f.msgType = msgRequest) (l : Link σ Watch) :
    Tells E setup clientId [written E l ((serveRequest E setup clientId f).exec l).2 f] l
      ((serveRequest E setup clientId f).exec l).2 := by
  have hcounted : (if setup.metrics then { l.aside with started := l.aside.started + 1 } else l.aside).notices =
      l.aside.notices := by split <;> rfl
  have hended (w : Watch) (success : Bool) :
      (if setup.metrics then { w with ended := w.ended ++ [success] } else w).notices = w.notices := by split <;> rfl
  have hrefused (text : String) : Quiet E setup (requestEnd setup false >>= fun _ =>
      writeError E text >>= fun _ => (pure .next : Serving σ Watch Flow)) :=
    quiet_bind (quiet_requestEnd false) fun _ => quiet_bind (quiet_writeError text) fun _ => quiet_pure _
  have hnone {l' : Link σ Watch} (h : Tells E setup clientId [none] l l') :
      Tells E setup clientId [written E l l' f] l l' := h.unanswered f ▸ h
  unfold serveRequest
  rw [Serving.exec_bind, requestStart, Serving.exec_modifyAside, htype]
  simp only
  rw [Serving.exec_bind, notify, Serving.exec_modifyAside]
  simp only
  cases hdecoded : (E.codec.fromSlice f.payload : Option ServiceRequest) with
  | none =>
    simp only
    exact hnone ((tells_word hcounted _ _).trans (hrefused _ clientId _))
  | some request =>
    by_cases hvalid : validateRequest request = true
    · simp only [hvalid, Bool.not_true, Bool.false_eq_true, if_false]
      rw [Serving.exec_bind, Serving.exec_handle]
      simp only
      rw [exec_reply]
      cases E.refusal l.sent.length ⟨msgResponse, E.codec.toVec (E.handler.handle request l.handler).1⟩ with
      | some e => exact hnone (tells_word hcounted _ _)
      | none => exact ((tells_word hcounted _ _).answered _ (hended _ _)).wrote hdecoded rfl rfl
    · simp only [hvalid, Bool.not_false, if_true]
      exact hnone ((tells_word hcounted _ _).trans (hrefused _ clientId _))

variable (setup) in
/-- The loop takes the reading for a message that asks for a call. -/
def asksCall : Timed (Result Frame) → Bool
  | .inTime (.ok f) => f.payload.length ≤ setup.config.maxRequestSize && f.msgType = msgRequest
  | _ => false

variable (E setup) in
/-- Of a reading that asks for a call, the response that its own step wrote. -/
def turnOf (l l' : Link σ Watch) : Timed (Result Frame) → List (Option ServiceResponse)
  | .inTime (.ok f) => if asksCall setup (.inTime (.ok f)) then [written E l l' f] else []
  | _ => []

variable (E setup) in
theorem serve_tells (clientId : String) (l : Link σ Watch) (h : Timed (Result Frame)) :
    Tells E setup clientId (turnOf E setup l ((serve E setup clientId h).exec l).2 h) l
      ((serve E setup clientId h).exec l).2 := by
  rcases h with (⟨e | f⟩ | _)
  · exact quiet_pure _ clientId l
  · -- a message that asks for no call
    have hnone {p : Serving σ Watch Flow} (hask : asksCall setup (.inTime (.ok f)) = false) (hp : Quiet E setup p) :
        Tells E setup clientId (turnOf E setup l (p.exec l).2 (.inTime (.ok f))) l (p.exec l).2 := by
      rw [turnOf, hask]
      exact hp clientId l
    unfold serve
    by_cases hsize : f.payload.length > setup.config.maxRequestSize
    · simp only [if_pos hsize]
      exact hnone (by simp [asksCall, Nat.not_le.mpr hsize]) (quiet_bind (quiet_writeError _) fun _ => quiet_pure _)
    simp only [if_neg hsize]
    by_cases hrequest : f.msgType = msgRequest
    · rw [if_pos hrequest, turnOf, if_pos (by simp [asksCall, Nat.not_lt.mp hsize, hrequest])]
      exact serveRequest_tells clientId hrequest l
    rw [if_neg hrequest]
    have hother : asksCall setup (.inTime (.ok f)) = false := by simp [asksCall, hrequest]
    by_cases hstream : f.msgType = msgStreamRequest
    · rw [if_pos hstream]
      split
      · exact hnone hother (quiet_serveStream f)
      · exact hnone hother (quiet_pure _)
    rw [if_neg hstream]
    by_cases hping : f.msgType = msgPing
    · rw [if_pos hping]
      exact hnone hother (quiet_bind (quiet_write (by decide) _) fun _ => quiet_pure _)
    rw [if_neg hping]
    by_cases hschema : f.msgType = msgSchemaRequest
    · rw [if_pos hschema]
      split
      · exact hnone hother (quiet_bind (quiet_write (by decide) _) fun _ => quiet_pure _)
      · exact hnone hother (quiet_pure _)
    rw [if_neg hschema]
    split <;> exact hnone hother (quiet_pure _)
  · exact quiet_pure _ clientId l

/-! ### Whole connections -/

variable (E setup)

/-- Of each reading that the loop takes for a message that asks for a call, in order, the response that its
own step wrote. -/
def turns (s : Session σ Watch String) : List (Timed (Result Frame)) → List (Option ServiceResponse)
  | [] => []
  | h :: rest =>
    let s' := s.step (handleConnectionWithConfig E setup) h
    (match s.phase with
      | .looping _ => turnOf E setup s.link s'.link h
      | _ => []) ++ turns s' rest

/-- The handshake that a message brings. -/
def hailed (f : Frame) : Option HandshakeRequest :=
  if f.msgType ≠ msgHandshake then none
  else if f.payload.length > setup.config.maxRequestSize then none
  else E.codec.fromSlice f.payload

/-- The handshake that the readings begin with; the first message is read without a timer. -/
def helloOf : List (Timed (Result Frame)) → Option HandshakeRequest
  | .inTime (.ok f) :: _ => hailed E setup f
  | .elapsed :: rest => helloOf rest
  | _ => none

variable {E setup}

theorem turns_finished {s : Session σ Watch String} (h : s.Finished) (hs : List (Timed (Result Frame))) :
    turns E setup s hs = [] := by
  induction hs with
  | nil => rfl
  | cons r rest ih =>
    obtain ⟨e, he⟩ := h
    rw [turns, Session.step_finished ⟨e, he⟩, ih, he]
    rfl

/-- The first message is no turn of the loop. -/
theorem turns_accepted (s₀ : σ) (w : Watch) (h : Timed (Result Frame)) (rest : List (Timed (Result Frame))) :
    turns E setup (.accepted s₀ w) (h :: rest) =
      turns E setup ((Session.accepted s₀ w).step (handleConnectionWithConfig E setup) h) rest := rfl

variable (E setup) in
theorem run_tells (clientId : String) (l : Link σ Watch) (hs : List (Timed (Result Frame))) :
    Tells E setup clientId (turns E setup ⟨.looping clientId, l⟩ hs) l
      ((⟨.looping clientId, l⟩ : Session σ Watch String).run (handleConnectionWithConfig E setup) hs).link := by
  induction hs generalizing l with
  | nil => exact .refl l
  | cons h rest ih =>
    have htells := serve_tells E setup clientId l h
    have hstep : (⟨.looping clientId, l⟩ : Session σ Watch String).step (handleConnectionWithConfig E setup) h =
      Session.turned clientId ((serve E setup clientId h).exec l) := rfl
    rw [Session.run, List.foldl_cons, ← Session.run, turns, hstep]
    rcases hx : (serve E setup clientId h).exec l with ⟨e | _ | _, l'⟩ <;> rw [hx] at htells
    case ok.next => exact htells.trans (ih l')
    -- the loop is over
    all_goals
      rw [Session.run_finished ⟨_, rfl⟩, turns_finished ⟨_, rfl⟩, List.append_nil]
      exact htells

theorem exec_bind_ok {p : Serving σ Watch α} {q : α → Serving σ Watch β} {b : β} (h : ((p >>= q).exec l).1 = .ok b) :
    ∃ a l', ((q a).exec l').1 = .ok b := by
  rw [Serving.exec_bind] at h
  rcases hx : p.exec l with ⟨e | a, l'⟩ <;> rw [hx] at h
  · exact nomatch h
  · exact ⟨a, l', h⟩

theorem greet_tells (f : Frame) (l : Link σ Watch) :
    ((greet E setup f).exec l).2.aside.notices = l.aside.notices ++ setup.tells ((hailed E setup f).toList.map
      fun request => .requestReceived request.clientId E.handler.serviceName "handshake") ∧
    responsesOf ((greet E setup f).exec l).2 = responsesOf l ∧
    ∀ clientId, ((greet E setup f).exec l).1 = .ok clientId →
      ∃ request, hailed E setup f = some request ∧ request.clientId = clientId := by
  unfold greet hailed
  by_cases htype : f.msgType ≠ msgHandshake
  · simp only [if_pos htype]
    exact ⟨by simp [Setup.tells], rfl, fun _ hok => by cases hok⟩
  simp only [if_neg htype]
  by_cases hsize : f.payload.length > setup.config.maxRequestSize
  · simp only [if_pos hsize]
    exact ⟨by simp [Setup.tells], rfl, fun _ hok => by cases hok⟩
  simp only [if_neg hsize]
  rw [Serving.exec_bind, Serving.exec_decode]
  cases hdecoded : (E.codec.fromSlice f.payload : Option HandshakeRequest) with
  | none => exact ⟨by simp [Setup.tells], rfl, fun _ hok => by cases hok⟩
  | some request =>
    simp only [Option.elim_some]
    rw [Serving.exec_bind, notify, Serving.exec_modifyAside]
    simp only
    rw [Serving.exec_bind, exec_checkRate]
    simp only [noted_limiter, noted_now]
    have hnoted := noted_notices setup l.aside (.requestReceived request.clientId E.handler.serviceName "handshake")
    cases (l.aside.limiter.check l.aside.now request.clientId).1 with
    | false =>
      have hquiet : Quiet E setup (writeError E "rate limit exceeded" >>= fun _ =>
          (throw (.resourceExhausted "rate limit exceeded") : Serving σ Watch String)) :=
        quiet_bind (quiet_writeError _) fun _ => quiet_throw _
      refine ⟨(hquiet "" _).told.trans hnoted, (hquiet "" _).replied, fun clientId hok => ?_⟩
      obtain ⟨_, _, hthrow⟩ := exec_bind_ok hok
      cases hthrow
    | true =>
      have hquiet : Quiet E setup (Serving.onHandshake E request >>= fun response =>
          Serving.write E msgHandshakeAck (E.codec.toVec response) >>= fun _ =>
            (pure request.clientId : Serving σ Watch String)) :=
        quiet_bind (quiet_onHandshake request) fun _ => quiet_bind (quiet_write (by decide) _) fun _ => quiet_pure _
      refine ⟨(hquiet "" _).told.trans hnoted, (hquiet "" _).replied, fun clientId hok => ⟨request, rfl, ?_⟩⟩
      obtain ⟨_, _, hwrite⟩ := exec_bind_ok hok
      obtain ⟨_, _, hpure⟩ := exec_bind_ok hwrite
      exact Except.ok.inj hpure

variable (E setup)

/-- **The webhooks hear of a connection exactly what happened on it**: nothing without a handshake, and otherwise
of the handshake, and of each message that asks for a call, in order, each followed by word of its response if the
step that took the message wrote it; these are the responses that the task wrote. -/
theorem notices_exact (s₀ : σ) (now : Nat) (limiter : RateLimiter) (hs : List (Timed (Result Frame))) :
    let s := Session.accepted s₀ (.fresh now limiter)
    let l := (s.run (handleConnectionWithConfig E setup) hs).link
    (helloOf E setup hs = none → l.aside.notices = []) ∧
    ∀ request, helloOf E setup hs = some request →
      l.aside.notices = setup.tells (.requestReceived request.clientId E.handler.serviceName "handshake" ::
        (turns E setup s hs).flatMap (noticesOf request.clientId E.handler.serviceName)) ∧
      responsesOf l = ((turns E setup s hs).filterMap id).map (responseFrame E) := by
  induction hs with
  | nil => exact ⟨fun _ => rfl, fun _ hnone => by cases hnone⟩
  | cons h rest ih =>
    rcases h with (⟨e | f⟩ | _)
    · refine ⟨fun _ => ?_, fun _ hnone => by cases hnone⟩
      rw [Session.run, List.foldl_cons, ← Session.run, Session.step_unread, Session.run_finished ⟨_, rfl⟩]
      rfl
    · obtain ⟨hnotices, hresponses, hclient⟩ := greet_tells (E := E) f (.fresh s₀ (.fresh now limiter))
      have hstep : (Session.accepted s₀ (.fresh now limiter)).step (handleConnectionWithConfig E setup)
          (.inTime (.ok f)) = Session.greeted ((greet E setup f).exec (.fresh s₀ (.fresh now limiter))) := rfl
      show (hailed E setup f = none → _) ∧ ∀ request, hailed E setup f = some request → _
      rw [Session.run, List.foldl_cons, ← Session.run, turns_accepted, hstep]
      rcases hx : (greet E setup f).exec (.fresh s₀ (.fresh now limiter)) with ⟨e | clientId, l'⟩ <;>
        rw [hx] at hnotices hresponses hclient
      · rw [Session.greeted, Session.run_finished ⟨_, rfl⟩, turns_finished ⟨_, rfl⟩]
        refine ⟨fun hnone => ?_, fun request hrequest => ⟨?_, hresponses⟩⟩
        · rw [hnotices, hnone]
          simp [Link.fresh, Watch.fresh, Setup.tells]
        · rw [hnotices, hrequest]
          rfl
      · obtain ⟨request, hrequest, rfl⟩ := hclient clientId rfl
        have htells := run_tells E setup request.clientId l' rest
        refine ⟨fun hnone => ?_, fun request' hrequest' => ?_⟩
        · cases hrequest.symm.trans hnone
        obtain rfl := Option.some.inj (hrequest.symm.trans hrequest')
        refine ⟨?_, ?_⟩
        · rw [Session.greeted, htells.notices, hnotices, hrequest]
          rw [List.append_assoc, ← tells_append]
          rfl
        · rw [Session.greeted, htells.responses, hresponses]
          rfl
    · exact ih

end

end XProtocol.UdsServer
