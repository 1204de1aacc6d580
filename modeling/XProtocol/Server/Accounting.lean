import Mathlib.Data.Nat.ModEq
import XProtocol.Metrics.Percentiles
import XProtocol.Server.Limiting

/-! Which requests the Unix-socket server leaves open in its metrics.

A turn of the loop calls `request_end` as often as `request_start`, but for one way out:
between the two calls stands the `write_message` of the response, and its error ends the
task. So a connection leaves its metrics balanced exactly if it comes to no request whose
response cannot be written (`balanced_iff`). -/
namespace XProtocol

/-! ### The calls of a connection -/

namespace ServiceMetrics

/-- Success and timeout of a request that has ended. -/
def Call.outcome : Call → Option (Bool × Bool)
  | .requestStart => none
  | .requestEnd _ success isTimeout => some (success, isTimeout)

theorem perform_end (m : ServiceMetrics) (latency : Nat) (success isTimeout : Bool) :
    (m.perform (.requestEnd latency success isTimeout)).activeRequests = fetchSub m.activeRequests 1 := by
  cases isTimeout <;> cases success <;> rfl

theorem fetchAdd_modEq (counter n : Nat) : fetchAdd counter n ≡ counter + n [MOD 2 ^ 64] := Nat.mod_modEq _ _

theorem sub_mod_modEq {M : Nat} (hM : 1 < M) (counter : Nat) : (counter + M - 1 % M) % M + 1 ≡ counter [MOD M] := by
  have hback : counter + M - 1 + 1 = counter + M := Nat.sub_add_cancel (by omega)
  rw [Nat.mod_eq_of_lt hM]
  calc (counter + M - 1) % M + 1 ≡ counter + M - 1 + 1 [MOD M] := (Nat.mod_modEq _ _).add_right 1
    _ = counter + M := hback
    _ ≡ counter [MOD M] := Nat.add_modEq_right

theorem fetchSub_modEq (counter : Nat) : fetchSub counter 1 + 1 ≡ counter [MOD 2 ^ 64] :=
  sub_mod_modEq (by decide) counter

/-- Starts raise the number of active requests, and ends lower it. -/
theorem foldl_active (calls : List Call) (m : ServiceMetrics) :
    (calls.foldl perform m).activeRequests + (calls.filterMap Call.outcome).length ≡
      m.activeRequests + started calls [MOD 2 ^ 64] := by
  induction calls generalizing m with
  | nil => exact Nat.ModEq.refl _
  | cons c rest ih =>
    have hrest := ih (m.perform c)
    rw [List.foldl_cons]
    cases c with
    | requestStart =>
      have hstarted : started (.requestStart :: rest) = started rest + 1 := List.countP_cons_of_pos rfl
      rw [hstarted, Nat.add_comm (started rest), ← Nat.add_assoc]
      exact hrest.trans ((fetchAdd_modEq m.activeRequests 1).add_right (started rest))
    | requestEnd latency success isTimeout =>
      have hstep := (fetchSub_modEq m.activeRequests).add_right (started rest)
      rw [Nat.add_right_comm] at hstep
      rw [perform_end] at hrest
      exact (hrest.add_right 1).trans hstep

theorem perform_lt (m : ServiceMetrics) (c : Call) : (m.perform c).activeRequests < 2 ^ 64 := by
  cases c with
  | requestStart => exact Nat.mod_lt _ (by decide)
  | requestEnd latency success isTimeout =>
    rw [perform_end]
    exact Nat.mod_lt _ (by decide)

theorem foldl_lt {m : ServiceMetrics} (hm : m.activeRequests < 2 ^ 64) (calls : List Call) :
    (calls.foldl perform m).activeRequests < 2 ^ 64 := by
  induction calls using List.reverseRecOn with
  | nil => exact hm
  | append_singleton calls c ih =>
    rw [List.foldl_concat]
    exact perform_lt _ c

/-- Every request that has ended did so in one way. -/
theorem after_ended {calls : List Call} (hlen : calls.length < 2 ^ 64) :
    (after calls).requestsSuccess + (after calls).requestsFailure + (after calls).requestsTimeout =
      (calls.filterMap Call.outcome).length := by
  induction calls using List.reverseRecOn with
  | nil => rfl
  | append_singleton calls c ih =>
    rw [List.length_append, List.length_singleton] at hlen
    have hsum := ih (by omega)
    have hle : (calls.filterMap Call.outcome).length ≤ calls.length := List.length_filterMap_le ..
    rw [after_snoc, List.filterMap_append, List.length_append]
    cases c with
    | requestStart => exact hsum
    | requestEnd latency success isTimeout =>
      cases isTimeout <;> cases success <;>
        simp only [perform, requestEnd, fetchAdd, Call.outcome, List.filterMap_cons, List.filterMap_nil,
          List.length_cons, List.length_nil, if_true, Bool.false_eq_true, if_false] <;>
        omega

end ServiceMetrics

namespace UdsServer
open Json (Bytes)
open ServiceMetrics (Call perform after)
open Serving (across_bind across_decode across_handle across_modifyAside across_onHandshake across_pure across_throw
  across_write)
open Wire

/-- These are the calls that a connection has made, at whatever times. -/
def Watch.Made (w : Watch) (calls : List Call) : Prop :=
  ServiceMetrics.started calls = w.started ∧
    calls.filterMap Call.outcome = w.ended.map fun success => (success, false)

/-- Every `request_start` is matched by a `request_end`. -/
structure Balanced (w : Watch) : Prop where
  matched : w.started = w.ended.length
  active : ∀ (calls : List Call) (m : ServiceMetrics), w.Made calls → m.activeRequests < 2 ^ 64 →
    (calls.foldl perform m).activeCount = m.activeCount
  total : ∀ calls : List Call, w.Made calls → calls.length < 2 ^ 64 →
    (after calls).requestsTotal =
      (after calls).requestsSuccess + (after calls).requestsFailure + (after calls).requestsTimeout

theorem balanced_iff_matched (w : Watch) : Balanced w ↔ w.started = w.ended.length := by
  refine ⟨Balanced.matched, fun h => ⟨h, ?_, ?_⟩⟩
  · rintro calls m ⟨hstarted, hended⟩ hm
    have hsame := ServiceMetrics.foldl_active calls m
    rw [hstarted, hended, List.length_map, h] at hsame
    exact (Nat.ModEq.add_right_cancel' _ hsame).eq_of_lt_of_lt (ServiceMetrics.foldl_lt hm calls) hm
  · rintro calls ⟨hstarted, hended⟩ hlen
    rw [ServiceMetrics.after_ended hlen, hended, List.length_map, (ServiceMetrics.after_counts hlen).1, hstarted, h]

/-! ### What the code counts -/

/-- Between the two, the code has closed what it opened. -/
def Closes (w w' : Watch) : Prop :=
  ∃ ended, w'.started = w.started + ended.length ∧ w'.ended = w.ended ++ ended

theorem Closes.refl (w : Watch) : Closes w w := ⟨[], by simp⟩

theorem Closes.trans {a b c : Watch} (hab : Closes a b) (hbc : Closes b c) : Closes a c := by
  obtain ⟨first, hfirst, hfirst'⟩ := hab
  obtain ⟨second, hsecond, hsecond'⟩ := hbc
  refine ⟨first ++ second, ?_, ?_⟩
  · rw [hsecond, hfirst, List.length_append, Nat.add_assoc]
  · rw [hsecond', hfirst', List.append_assoc]

theorem Closes.matched {w w' : Watch} (h : Closes w w') (hw : w.started = w.ended.length) :
    w'.started = w'.ended.length := by
  obtain ⟨ended, hstarted, hended⟩ := h
  rw [hstarted, hended, List.length_append, hw]

instance : Std.Refl Closes := ⟨Closes.refl⟩

instance : IsTrans Watch Closes := ⟨fun _ _ _ => Closes.trans⟩

theorem closes_of_same {w w' : Watch} (hstarted : w'.started = w.started) (hended : w'.ended = w.ended) :
    Closes w w' := ⟨[], by simpa using hstarted, by simpa using hended⟩

section
variable {σ α β : Type} {E : Site σ} {setup : Setup}

/-- Whatever way it ends, the code closes what it opens. -/
def Tidy (p : Serving σ Watch α) : Prop := Serving.Across Closes p

theorem closes_noted (w : Watch) (notice : Notice) : Closes w (w.noted setup notice) := by
  unfold Watch.noted
  split
  · exact closes_of_same rfl rfl
  · exact .refl w

theorem tidy_notify (notice : Notice) : Tidy (notify setup notice : Serving σ Watch Unit) :=
  across_modifyAside fun w => closes_noted w notice

theorem tidy_checkRate (clientId : String) : Tidy (checkRate clientId : Serving σ Watch Bool) := fun l => by
  rw [exec_checkRate]
  exact closes_of_same rfl rfl

theorem tidy_greet (f : Frame) : Tidy (greet E setup f) := by
  unfold greet
  by_cases htype : f.msgType ≠ msgHandshake
  · simp only [if_pos htype]
    exact across_throw _
  simp only [if_neg htype]
  by_cases hsize : f.payload.length > setup.config.maxRequestSize
  · simp only [if_pos hsize]
    exact across_throw _
  simp only [if_neg hsize]
  refine across_bind (across_decode _) fun request => across_bind (tidy_notify _) fun _ =>
    across_bind (tidy_checkRate _) fun admitted => ?_
  cases admitted with
  | true =>
    exact across_bind (across_onHandshake _) fun _ => across_bind (across_write _ _) fun _ => across_pure _
  | false => exact across_bind (across_write _ _) fun _ => across_throw _

theorem tidy_serveStream (f : Frame) : Tidy (serveStream E f : Serving σ Watch Flow) :=
  across_bind (across_decode _) fun _ => across_bind (across_write _ _) fun _ =>
    across_bind (across_handle _) fun _ => across_bind (across_write _ _) fun _ => across_pure _

@[simp] theorem noted_started (w : Watch) (notice : Notice) : (w.noted setup notice).started = w.started := by
  unfold Watch.noted
  split <;> rfl

@[simp] theorem noted_ended (w : Watch) (notice : Notice) : (w.noted setup notice).ended = w.ended := by
  unfold Watch.noted
  split <;> rfl

/-- A start and an end, with word to the webhooks between them. -/
theorem closes_pair (w : Watch) (notice : Notice) (success : Bool) :
    let opened := if setup.metrics then { w with started := w.started + 1 } else w
    let noted := opened.noted setup notice
    Closes w (if setup.metrics then { noted with ended := noted.ended ++ [success] } else noted) := by
  intro opened noted
  by_cases hmetrics : setup.metrics = true
  · rw [if_pos hmetrics]
    have hopened : opened = { w with started := w.started + 1 } := if_pos hmetrics
    exact ⟨[success], by simp [noted, hopened]⟩
  · rw [if_neg hmetrics]
    have hopened : opened = w := if_neg hmetrics
    exact hopened ▸ closes_noted opened notice

variable (E setup) in
/-- A valid request is counted, and its response cannot be written. -/
def Loses (l : Link σ Watch) : Timed (Result Frame) → Prop
  | .inTime (.ok f) =>
    f.payload.length ≤ setup.config.maxRequestSize ∧ f.msgType = msgRequest ∧
      match (E.codec.fromSlice f.payload : Option ServiceRequest) with
      | none => False
      | some request => setup.metrics = true ∧ validateRequest request = true ∧
        ¬ Writable E l.sent.length ⟨msgResponse, E.codec.toVec (E.handler.handle request l.handler).1⟩
  | _ => False

/-- What follows the handler's answer: the call of `request_end` comes behind the response. -/
theorem exec_reply (response : ServiceResponse) (l : Link σ Watch) :
    (do
      Serving.write E msgResponse (E.codec.toVec response)
      requestEnd setup (response.status == "success")
      notify setup (.responseSent response.requestId E.handler.serviceName response.status)
      return .next : Serving σ Watch Flow).exec l =
    match E.refusal l.sent.length ⟨msgResponse, E.codec.toVec response⟩ with
    | some e => (.error e, l)
    | none => (.ok .next, { l with
        sent := l.sent ++ [⟨msgResponse, E.codec.toVec response⟩]
        aside := (if setup.metrics then { l.aside with ended := l.aside.ended ++ [response.status == "success"] }
          else l.aside).noted setup (.responseSent response.requestId E.handler.serviceName response.status) }) := by
  rw [Serving.exec_bind, Serving.exec_write]
  cases E.refusal l.sent.length ⟨msgResponse, E.codec.toVec response⟩ <;> rfl

theorem serveRequest_closes (clientId : String) {f : Frame} {l : Link σ Watch}
    (hsize : f.payload.length ≤ setup.config.maxRequestSize) (htype : f.msgType = msgRequest)
    (hkept : ¬ Loses E setup l (.inTime (.ok f))) :
    Closes l.aside ((serveRequest E setup clientId f).exec l).2.aside := by
  unfold Loses at hkept
  unfold serveRequest
  rw [Serving.exec_bind, requestStart, Serving.exec_modifyAside]
  simp only
  rw [Serving.exec_bind, notify, Serving.exec_modifyAside]
  simp only
  cases hdecoded : (E.codec.fromSlice f.payload : Option ServiceRequest) with
  | none =>
    simp only
    rw [Serving.exec_bind, requestEnd, Serving.exec_modifyAside]
    simp only
    exact (closes_pair l.aside _ false).trans (across_bind (across_write _ _) (fun _ => across_pure _) _)
  | some request =>
    simp only [hdecoded, not_and, not_not] at hkept
    by_cases hvalid : validateRequest request = true
    · simp only [hvalid, Bool.not_true, Bool.false_eq_true, if_false]
      rw [Serving.exec_bind, Serving.exec_handle]
      simp only
      rw [exec_reply]
      cases hrefusal : E.refusal l.sent.length
        ⟨msgResponse, E.codec.toVec (E.handler.handle request l.handler).1⟩ with
      | none => exact (closes_pair l.aside _ _).trans (closes_noted _ _)
      | some e =>
        -- what is not counted is not missed
        have hmetrics : ¬ setup.metrics = true := fun hmetrics =>
          Option.some_ne_none e (hrefusal.symm.trans (hkept hsize htype hmetrics hvalid))
        simp only [if_neg hmetrics]
        exact closes_noted _ _
    · simp only [hvalid, Bool.not_false, if_true]
      rw [Serving.exec_bind, requestEnd, Serving.exec_modifyAside]
      simp only
      exact (closes_pair l.aside _ false).trans (across_bind (across_write _ _) (fun _ => across_pure _) _)

/-- The one way out on which a request stays open. -/
theorem serveRequest_loses (clientId : String) {f : Frame} {l : Link σ Watch}
    (hlost : Loses E setup l (.inTime (.ok f))) :
    ∃ e l', (serveRequest E setup clientId f).exec l = (.error e, l') ∧
      l'.aside.started = l.aside.started + 1 ∧ l'.aside.ended = l.aside.ended := by
  obtain ⟨-, -, hlost⟩ := hlost
  cases hdecoded : (E.codec.fromSlice f.payload : Option ServiceRequest) with
  | none => simp [hdecoded] at hlost
  | some request =>
    simp only [hdecoded] at hlost
    obtain ⟨hmetrics, hvalid, hw⟩ := hlost
    unfold serveRequest
    rw [Serving.exec_bind, requestStart, Serving.exec_modifyAside]
    simp only [if_pos hmetrics]
    rw [Serving.exec_bind, notify, Serving.exec_modifyAside]
    simp only [hdecoded, hvalid, Bool.not_true, Bool.false_eq_true, if_false]
    rw [Serving.exec_bind, Serving.exec_handle]
    simp only
    obtain ⟨e, he⟩ := Option.ne_none_iff_exists'.mp hw
    rw [exec_reply]
    simp only [he]
    exact ⟨e, _, rfl, by simp⟩

theorem serve_closes (clientId : String) {l : Link σ Watch} {h : Timed (Result Frame)}
    (hkept : ¬ Loses E setup l h) : Closes l.aside ((serve E setup clientId h).exec l).2.aside := by
  unfold serve
  split
  · next f =>
    by_cases hsize : f.payload.length > setup.config.maxRequestSize
    · rw [if_pos hsize]
      exact across_bind (across_write _ _) (fun _ => across_pure _) l
    rw [if_neg hsize]
    by_cases hrequest : f.msgType = msgRequest
    · rw [if_pos hrequest]
      exact serveRequest_closes clientId (Nat.not_lt.mp hsize) hrequest hkept
    rw [if_neg hrequest]
    by_cases hstream : f.msgType = msgStreamRequest
    · rw [if_pos hstream]
      split
      · exact tidy_serveStream f l
      · exact across_pure _ l
    rw [if_neg hstream]
    by_cases hping : f.msgType = msgPing
    · rw [if_pos hping]
      exact across_bind (across_write _ _) (fun _ => across_pure _) l
    rw [if_neg hping]
    by_cases hschema : f.msgType = msgSchemaRequest
    · rw [if_pos hschema]
      split
      · exact across_bind (across_write _ _) (fun _ => across_pure _) l
      · exact across_pure _ l
    rw [if_neg hschema]
    split <;> exact across_pure _ l
  · exact across_pure _ l

theorem serve_loses (clientId : String) {l : Link σ Watch} {h : Timed (Result Frame)} (hlost : Loses E setup l h) :
    ∃ e l', (serve E setup clientId h).exec l = (.error e, l') ∧
      l'.aside.started = l.aside.started + 1 ∧ l'.aside.ended = l.aside.ended := by
  rcases h with (⟨e | f⟩ | _)
  · exact hlost.elim
  · have hsize : ¬ f.payload.length > setup.config.maxRequestSize := Nat.not_lt.mpr hlost.1
    have hserve : serve E setup clientId (.inTime (.ok f)) = serveRequest E setup clientId f := by
      simp only [serve, if_neg hsize, if_pos hlost.2.1]
    rw [hserve]
    exact serveRequest_loses clientId hlost
  · exact hlost.elim

end

/-! ### Whole connections -/

section
variable {σ : Type} (E : Site σ) (setup : Setup)

/-- From here on the loop comes to no request whose response cannot be written. -/
def Kept : Session σ Watch String → List (Timed (Result Frame)) → Prop
  | _, [] => True
  | s, h :: rest =>
    (∀ clientId, s.phase = .looping clientId → ¬ Loses E setup s.link h) ∧
      Kept (s.step (handleConnectionWithConfig E setup) h) rest

variable {E setup}

theorem greeted_link (x : Result String × Link σ Watch) : (Session.greeted x).link = x.2 := by
  obtain ⟨_ | _, _⟩ := x <;> rfl

theorem turned_link (clientId : String) (x : Result Flow × Link σ Watch) :
    (Session.turned clientId x).link = x.2 := by
  obtain ⟨_ | _ | _, _⟩ := x <;> rfl

variable (E setup)

/-- One reading: what has started stays matched, or the task ends and leaves a request open. -/
theorem step_matched {s : Session σ Watch String} (hs : s.link.aside.started = s.link.aside.ended.length)
    (h : Timed (Result Frame)) :
    let s' := s.step (handleConnectionWithConfig E setup) h
    ((∀ clientId, s.phase = .looping clientId → ¬ Loses E setup s.link h) ∧
        s'.link.aside.started = s'.link.aside.ended.length) ∨
      ((∃ clientId, s.phase = .looping clientId ∧ Loses E setup s.link h) ∧ s'.Finished ∧
        s'.link.aside.started ≠ s'.link.aside.ended.length) := by
  obtain ⟨phase, l⟩ := s
  cases phase with
  | handshaking =>
    refine .inl ⟨nofun, ?_⟩
    cases h with
    | inTime r =>
      have htidy : Tidy (Serving.ofResult r >>= greet E setup) := across_bind (fun _ => .refl _) tidy_greet
      have hlink : ((⟨.handshaking, l⟩ : Session σ Watch String).step
          (handleConnectionWithConfig E setup) (.inTime r)).link =
            ((Serving.ofResult r >>= greet E setup).exec l).2 := greeted_link _
      rw [hlink]
      exact (htidy l).matched hs
    | elapsed => exact hs
  | looping clientId =>
    have hlink : ((⟨.looping clientId, l⟩ : Session σ Watch String).step
        (handleConnectionWithConfig E setup) h).link = ((serve E setup clientId h).exec l).2 := turned_link ..
    by_cases hlost : Loses E setup l h
    · obtain ⟨e, l', hexec, hstarted, hended⟩ := serve_loses clientId hlost
      have hs : l.aside.started = l.aside.ended.length := hs
      refine .inr ⟨⟨clientId, rfl, hlost⟩, ⟨.error e, ?_⟩, ?_⟩
      · exact congrArg (fun x => (Session.turned clientId x).phase) hexec
      · rw [hlink, hexec, hstarted, hended, hs]
        exact Nat.succ_ne_self _
    · refine .inl ⟨fun _ _ => hlost, ?_⟩
      rw [hlink]
      exact (serve_closes clientId hlost).matched hs
  | finished r => exact .inl ⟨nofun, hs⟩

/-- A session is matched as long as it keeps every request; once it loses one, it is over. -/
theorem run_matched {s : Session σ Watch String} (hs : s.link.aside.started = s.link.aside.ended.length)
    (hs' : List (Timed (Result Frame))) :
    let s' := s.run (handleConnectionWithConfig E setup) hs'
    (Kept E setup s hs' ∧ s'.link.aside.started = s'.link.aside.ended.length) ∨
      (¬ Kept E setup s hs' ∧ s'.Finished ∧ s'.link.aside.started ≠ s'.link.aside.ended.length) := by
  induction hs' generalizing s with
  | nil => exact .inl ⟨trivial, hs⟩
  | cons h rest ih =>
    obtain ⟨hkept, hmatched⟩ | ⟨⟨clientId, hloop, hlost⟩, hfinished, hopen⟩ :=
      step_matched E setup hs h
    · obtain ⟨hrest, hdone⟩ | ⟨hrest, hdone⟩ := ih hmatched
      · exact .inl ⟨⟨hkept, hrest⟩, hdone⟩
      · exact .inr ⟨fun h => hrest h.2, hdone⟩
    · refine .inr ⟨fun h => h.1 clientId hloop hlost, ?_⟩
      rw [Session.run, List.foldl_cons, ← Session.run, Session.run_finished hfinished]
      exact ⟨hfinished, hopen⟩

/-- **A connection leaves its metrics balanced exactly if it comes to no request whose response
cannot be written**: between two readings, and when it has ended. -/
theorem balanced_iff (handler : σ) (now : Nat) (limiter : RateLimiter) (hs : List (Timed (Result Frame))) :
    Balanced ((Session.accepted handler (.fresh now limiter)).run
        (handleConnectionWithConfig E setup) hs).link.aside ↔
      Kept E setup (.accepted handler (.fresh now limiter)) hs := by
  rw [balanced_iff_matched]
  obtain ⟨hkept, hmatched⟩ | ⟨hkept, -, hopen⟩ :=
    run_matched E setup (s := .accepted handler (.fresh now limiter)) rfl hs
  · exact iff_of_true hmatched hkept
  · exact iff_of_false hopen hkept

end

/-! ### A client that is gone before its response -/

namespace Sample

/-- The client reads the answer to its handshake, and no more. -/
def gone : Site Nat := { site with flush := fun n => if n = 1 then some "Broken pipe (os error 32)" else none }

def counting : Setup := { setup with metrics := true }

def left : Session Nat Watch String :=
  (Session.accepted 0 watch).run (handleConnectionWithConfig gone counting) [.inTime (.ok hello),
    .inTime (.ok request)]

/-- Its request stays active. -/
theorem request_left_open : left.Finished ∧ ¬ Balanced left.link.aside := by
  have hopen : left.link.aside.started ≠ left.link.aside.ended.length := by decide +kernel
  obtain ⟨-, hmatched⟩ | ⟨-, hfinished, -⟩ := run_matched gone counting
    (s := .accepted 0 watch) rfl [.inTime (.ok hello), .inTime (.ok request)]
  · exact absurd hmatched hopen
  · exact ⟨hfinished, fun h => hopen h.matched⟩

end Sample

end UdsServer

end XProtocol
