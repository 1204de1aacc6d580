import XProtocol.Json.Text
import XProtocol.Serving.Turns
import XProtocol.Server.Session

/-! Which requests reach the handler of the Unix-socket server.

Every payload meets the size guard, but only the arm of `MSG_REQUEST` asks
`validate_request`; that of `MSG_STREAM_REQUEST` passes on what it decodes. So the
handler sees valid requests alone exactly if all stream requests that are served
are valid. -/
namespace XProtocol.UdsServer
open Json.Text (compact)
open Wire

section
variable {σ : Type} {E : Site σ} {setup : Setup}

/-- What `validate_request` asks of a request. -/
def Valid (request : ServiceRequest) : Prop :=
  (request.serviceName ≠ "" ∧ request.serviceName.utf8ByteSize ≤ 256) ∧
  (request.method ≠ "" ∧ request.method.utf8ByteSize ≤ 256) ∧
  request.requestId ≠ "" ∧ request.requestId.utf8ByteSize ≤ 128

instance (request : ServiceRequest) : Decidable (Valid request) := by
  unfold Valid
  infer_instance

theorem validateRequest_iff (request : ServiceRequest) : validateRequest request = true ↔ Valid request := by
  unfold validateRequest Valid
  simp only [Bool.or_eq_true, String.isEmpty_iff, decide_eq_true_eq, gt_iff_lt]
  split_ifs with hname hmethod hid
  · exact iff_of_false nofun fun h => hname.elim h.1.1 (Nat.not_lt.mpr h.1.2)
  · exact iff_of_false nofun fun h => hmethod.elim h.2.1.1 (Nat.not_lt.mpr h.2.1.2)
  · exact iff_of_false nofun fun h => hid.elim h.2.2.1 (Nat.not_lt.mpr h.2.2.2)
  · simp only [not_or, Nat.not_lt] at hname hmethod hid
    exact iff_of_true rfl ⟨hname, hmethod, hid⟩

/-- The reading is a payload of at most `max_request_size` bytes with this request in it, a valid one. -/
def Validated (E : Site σ) (setup : Setup) (h : Timed (Result Frame)) (request : ServiceRequest) : Prop :=
  ∃ f, h = .inTime (.ok f) ∧ f.payload.length ≤ setup.config.maxRequestSize ∧
    E.codec.fromSlice f.payload = some request ∧ Valid request

/-- The request of a stream that is served is valid. -/
def ValidStream (E : Site σ) (setup : Setup) (l : Link σ Unit) (h : Timed (Result Frame)) : Prop :=
  ∀ f request, h = .inTime (.ok f) → f.payload.length ≤ setup.config.maxRequestSize →
    f.msgType = msgStreamRequest → setup.config.enableStreaming = true →
    E.codec.fromSlice f.payload = some request →
    Writable E l.sent.length ⟨msgStreamStart, E.codec.toVec (startBody request)⟩ → Valid request

theorem ask_request {f : Frame} (hsize : f.payload.length ≤ setup.config.maxRequestSize)
    (htype : f.msgType = msgRequest) {request : ServiceRequest}
    (hdecoded : E.codec.fromSlice f.payload = some request) (hvalid : Valid request) :
    ask E setup (.inTime (.ok f)) =
      .service none request fun response => ⟨msgResponse, E.codec.toVec response⟩ := by
  have hcheck := (validateRequest_iff request).mpr hvalid
  simp only [ask, if_neg (Nat.not_lt.mpr hsize), if_pos htype, hdecoded, hcheck, Bool.not_true,
    Bool.false_eq_true, if_false]

theorem ask_stream {f : Frame} (hsize : f.payload.length ≤ setup.config.maxRequestSize)
    (htype : f.msgType = msgStreamRequest) (henabled : setup.config.enableStreaming = true)
    {request : ServiceRequest} (hdecoded : E.codec.fromSlice f.payload = some request) :
    ask E setup (.inTime (.ok f)) =
      .service (some ⟨msgStreamStart, E.codec.toVec (startBody request)⟩) request
        fun response => ⟨msgStreamEnd, E.codec.toVec (endBody response)⟩ := by
  have hother : f.msgType ≠ msgRequest := by rw [htype]; decide
  simp only [ask, if_neg (Nat.not_lt.mpr hsize), if_neg hother, if_pos htype, henabled, hdecoded, if_true]

/-- What the loop calls the handler with: what a `MSG_REQUEST` holds, if it is valid, or what a
`MSG_STREAM_REQUEST` holds. -/
theorem ask_service {h : Timed (Result Frame)} {before : Option Frame} {request : ServiceRequest}
    {reply : ServiceResponse → Frame} (hask : ask E setup h = .service before request reply) :
    ∃ f, h = .inTime (.ok f) ∧ f.payload.length ≤ setup.config.maxRequestSize ∧
      E.codec.fromSlice f.payload = some request ∧
      (f.msgType = msgRequest ∧ Valid request ∧ before = none ∨
        f.msgType = msgStreamRequest ∧ setup.config.enableStreaming = true ∧
          before = some ⟨msgStreamStart, E.codec.toVec (startBody request)⟩) := by
  unfold ask at hask
  split at hask
  · next f =>
    refine ⟨f, rfl, ?_⟩
    split_ifs at hask with hsize hrequest hstream henabled
    · split at hask
      · cases hask
      · next r hdecoded =>
        split_ifs at hask with hcheck
        cases hask
        refine ⟨Nat.not_lt.mp hsize, hdecoded, .inl ⟨hrequest, (validateRequest_iff request).mp ?_, rfl⟩⟩
        simpa using hcheck
    · split at hask
      · cases hask
      · next r hdecoded =>
        cases hask
        exact ⟨Nat.not_lt.mp hsize, hdecoded, .inr ⟨hstream, henabled, rfl⟩⟩
  · cases hask

theorem passes_ask (l : Link σ Unit) (h : Timed (Result Frame)) (request : ServiceRequest) :
    l.passes E (ask E setup h) = some request ↔
      ∃ f, h = .inTime (.ok f) ∧ f.payload.length ≤ setup.config.maxRequestSize ∧
        E.codec.fromSlice f.payload = some request ∧
        (f.msgType = msgRequest ∧ Valid request ∨
          f.msgType = msgStreamRequest ∧ setup.config.enableStreaming = true ∧
            Writable E l.sent.length ⟨msgStreamStart, E.codec.toVec (startBody request)⟩) := by
  constructor
  · intro hpasses
    obtain ⟨before, reply, hask⟩ := passes_eq_some hpasses
    obtain ⟨f, rfl, hsize, hdecoded, ⟨htype, hvalid, -⟩ | ⟨htype, henabled, rfl⟩⟩ := ask_service hask
    · exact ⟨f, rfl, hsize, hdecoded, .inl ⟨htype, hvalid⟩⟩
    · rw [hask, Link.passes] at hpasses
      exact ⟨f, rfl, hsize, hdecoded, .inr ⟨htype, henabled, (Option.ite_none_right_eq_some.mp hpasses).1⟩⟩
  · rintro ⟨f, rfl, hsize, hdecoded, ⟨htype, hvalid⟩ | ⟨htype, henabled, hwritable⟩⟩
    · rw [ask_request hsize htype hdecoded hvalid]
      rfl
    · rw [ask_stream hsize htype henabled hdecoded, Link.passes, if_pos hwritable]

/-- A turn passes on validated requests only exactly if a stream it serves is valid. -/
theorem passes_validated (l : Link σ Unit) (h : Timed (Result Frame)) :
    (∀ request, l.passes E (ask E setup h) = some request → Validated E setup h request) ↔
      ValidStream E setup l h := by
  constructor
  · rintro hall f request rfl hsize htype henabled hdecoded hwritable
    obtain ⟨_, ⟨⟩, -, hdecoded', hvalid⟩ := hall request
      ((passes_ask l _ request).mpr ⟨f, rfl, hsize, hdecoded, .inr ⟨htype, henabled, hwritable⟩⟩)
    exact hvalid
  · intro hstream request hpasses
    obtain ⟨f, rfl, hsize, hdecoded, ⟨-, hvalid⟩ | ⟨htype, henabled, hwritable⟩⟩ :=
      (passes_ask l h request).mp hpasses
    · exact ⟨f, rfl, hsize, hdecoded, hvalid⟩
    · exact ⟨f, rfl, hsize, hdecoded, hstream f request rfl hsize htype henabled hdecoded hwritable⟩

/-- In a loop that has passed nothing to the handler yet. -/
theorem validated_loop (clientId : String) {l : Link σ Watch} (hl : l.handled = [])
    (rest : List (Timed (Result Frame))) :
    Sourced (Validated E setup) rest
        ((⟨.looping clientId, l⟩ : Session σ Watch String).run
          (handleConnectionWithConfig E setup) rest).link.handled ↔
      Along E (ask E setup) (ValidStream E setup) l.line rest := by
  rw [(loops clientId).handled_passed, hl, List.nil_append,
    ← along_congr fun l h => passes_validated l h, ← forall_passed (Q := Validated E setup)]
  refine ⟨fun hsourced x hx => ?_, sourced_passed⟩
  obtain ⟨before, reply, hask⟩ := passed_asked hx
  obtain ⟨f, hf, hsize, hdecoded, -⟩ := ask_service hask
  obtain ⟨_, _, _, _, _, _, hvalid⟩ := hsourced.forall_mem (List.mem_map_of_mem hx)
  exact ⟨f, hf, hsize, hdecoded, hvalid⟩

/-- **The handler is passed validated requests only exactly if each stream request that is served
is valid**: for every configuration, handler and outcome of the writes, and whatever the client
sends. -/
theorem validation_exact (E : Site σ) (setup : Setup) (s : σ) (w : Watch) (first : Result Frame)
    (rest : List (Timed (Result Frame))) :
    Sourced (Validated E setup) rest
        ((Session.accepted s w).run (handleConnectionWithConfig E setup) (.inTime first :: rest)).link.handled ↔
      ∀ f o, first = .ok f → opened E setup f s w = some o →
        Along E (ask E setup) (ValidStream E setup) (E.begun o) rest := by
  refine (greets E setup).exact (P := fun t => Sourced (Validated E setup) rest
    (t.run (handleConnectionWithConfig E setup) rest).link.handled) (fun t ht hnone => ?_)
    (fun clientId l o hl => ?_) s w first
  · rw [Session.run_finished ht, hnone]
    exact sourced_nil
  · rw [validated_loop clientId (congrArg Link.handled hl), hl]

end

/-! ### A stream request that `validate_request` rejects -/

namespace Sample

/-- A handler that accepts everyone and answers with success; nothing fails. -/
def site : Site Nat where
  codec := compact
  handler := FnServiceHandler.new "echo" (fun r => .success r .null) fun _ => "session"
  flush _ := none

def setup : Setup := { config := .default, webhookService := false, metrics := false }

def hello : Frame :=
  ⟨msgHandshake, compact.toVec
    ({ clientId := "client", serviceName := "echo", capabilities := [] } : HandshakeRequest)⟩

/-- A stream request without a method. -/
def stream : Frame := ⟨msgStreamRequest, compact.toVec (ServiceRequest.new "1" "2" "echo" "" .null)⟩

def asked : List (Timed (Result Frame)) := [.inTime (.ok stream)]

def watch : Watch := .fresh 0 ServerConfig.default.rateLimiter

def link : Link Nat Watch :=
  ((Session.accepted 0 watch).run (handleConnectionWithConfig site setup) (.inTime (.ok hello) :: asked)).link

/-- It is passed to the handler. -/
theorem stream_handled : ¬ Sourced (Validated site setup) asked link.handled := by
  have hhandled : link.handled.any fun request => !validateRequest request := by decide +kernel
  obtain ⟨request, hmem, hinvalid⟩ := List.any_eq_true.mp hhandled
  intro hsourced
  obtain ⟨_, _, _, _, _, _, hvalid⟩ := hsourced.forall_mem hmem
  rw [(validateRequest_iff request).mpr hvalid] at hinvalid
  exact nomatch hinvalid

end Sample

end XProtocol.UdsServer
