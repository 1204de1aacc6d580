import XProtocol.Server.Validation

/-! What the Unix-socket server answers.

A client that asks waits for a message that ends the answer. The loop writes exactly
one for each frame that asks, before it reads on, with three exceptions, where it
writes none: a stream request while streaming is disabled, one that does not decode,
and a schema request while introspection is disabled. -/
namespace XProtocol
open Wire

/-- The message expects an answer. -/
def Expects (f : Frame) : Prop := f.msgType ∈ [msgRequest, msgStreamRequest, msgSchemaRequest, msgPing]

/-- The message ends an answer. -/
def Terminal (f : Frame) : Prop :=
  f.msgType ∈ [msgResponse, msgStreamEnd, msgSchemaResponse, msgPong, msgError]

instance (f : Frame) : Decidable (Terminal f) := inferInstanceAs (Decidable (_ ∈ _))

section
variable {σ ρ : Type} (E : Site σ)

/-- The messages of a connection that end an answer. -/
def Link.answers (l : Link σ ρ) : List Frame := l.sent.filter Terminal

/-- The messages of a turn fit the size limit, and can be written. -/
def Link.Carries (l : Link σ Unit) : Ask → Prop
  | .service none request reply =>
    Writable E l.sent.length (reply (E.handler.handle request l.handler).1)
  | .service (some f) request reply =>
    Writable E l.sent.length f ∧
      Writable E (l.sent.length + 1) (reply (E.handler.handle request l.handler).1)
  | .answer f => Writable E l.sent.length f
  | .pass => True
  | .leave => True

/-- What is asked is to write one message that ends an answer, and no other of that kind. -/
def Ask.Terminates : Ask → Prop
  | .service before _ reply => (∀ f, before = some f → ¬ Terminal f) ∧ ∀ response, Terminal (reply response)
  | .answer f => Terminal f
  | _ => False

variable {E}

theorem answers_put {l : Link σ Unit} {f : Frame} (hf : Terminal f) (hwritable : Writable E l.sent.length f) :
    (l.put E f).2.answers = l.answers ++ [f] := by
  rw [Link.put, if_pos hwritable, Link.answers, List.filter_append, List.filter_cons_of_pos (by simpa using hf)]
  rfl

theorem answers_after {l : Link σ Unit} {a : Ask} (ha : a.Terminates) (hl : l.Carries E a) :
    ∃ answer, (l.after E a).2.answers = l.answers ++ [answer] := by
  cases a with
  | service before request reply =>
    let l' : Link σ Unit :=
      { l with handler := (E.handler.handle request l.handler).2, handled := l.handled ++ [request] }
    cases before with
    | none => exact ⟨_, answers_put (l := l') (ha.2 _) hl⟩
    | some f =>
      obtain ⟨hf, hreply⟩ := hl
      let l₁ : Link σ Unit := { l' with sent := l.sent ++ [f] }
      have hstart : l₁.answers = l.answers := by
        show (l.sent ++ [f]).filter _ = _
        rw [List.filter_append, List.filter_cons_of_neg (by simpa using ha.1 f rfl), List.filter_nil,
          List.append_nil]
        rfl
      rw [Link.after, Link.put, if_pos hf, ← hstart]
      refine ⟨_, answers_put (l := l₁) (ha.2 _) ?_⟩
      rwa [List.length_append]
  | answer f => exact ⟨f, answers_put ha hl⟩
  | pass => exact ha.elim
  | leave => exact ha.elim

end

namespace UdsServer
section
variable {σ : Type} {E : Site σ} {setup : Setup}

/-- Every frame that expects an answer and that the loop reads is answered by exactly one message that ends
an answer, before the loop reads on, if what it is answered with fits and can be written. -/
def AnswersEach (E : Site σ) (setup : Setup) (t : Session σ Watch String)
    (hs : List (Timed (Result Frame))) : Prop :=
  ∀ before f behind clientId l, hs = before ++ .inTime (.ok f) :: behind →
    t.run (handleConnectionWithConfig E setup) before = ⟨.looping clientId, l⟩ →
    Expects f → l.line.Carries E (ask E setup (.inTime (.ok f))) →
    ∃ answer, (t.run (handleConnectionWithConfig E setup) (before ++ [.inTime (.ok f)])).link.answers =
      l.answers ++ [answer]

/-- A frame within the size limit asks for a stream only while streaming is enabled, and with a
request, and for the schema only while introspection is enabled. -/
def Answerable (E : Site σ) (setup : Setup) (f : Frame) : Prop :=
  f.payload.length ≤ setup.config.maxRequestSize →
    (f.msgType = msgStreamRequest →
      setup.config.enableStreaming = true ∧ (E.codec.fromSlice f.payload : Option ServiceRequest).isSome) ∧
    (f.msgType = msgSchemaRequest → setup.config.enableSchemaIntrospection = true)

theorem ask_terminates {f : Frame} (hf : Expects f) (hanswerable : Answerable E setup f) :
    (ask E setup (.inTime (.ok f))).Terminates := by
  have herror (text : String) : (Ask.answer (errorFrame E text)).Terminates :=
    (by decide : msgError ∈ [msgResponse, msgStreamEnd, msgSchemaResponse, msgPong, msgError])
  unfold ask
  simp only
  split_ifs with hsize hrequest hstream henabled hping hschema hintrospection hclose
  · exact herror _
  · split
    · exact herror _
    · split_ifs
      · exact herror _
      · exact ⟨nofun, fun _ => by simp [Terminal]⟩
  · split
    · next hnone =>
      have hdecoded := ((hanswerable (Nat.not_lt.mp hsize)).1 hstream).2
      rw [hnone] at hdecoded
      exact nomatch hdecoded
    · refine ⟨fun f hf => ?_, fun _ => by simp [Terminal]⟩
      cases hf
      exact (by decide : msgStreamStart ∉ [msgResponse, msgStreamEnd, msgSchemaResponse, msgPong, msgError])
  · exact henabled ((hanswerable (Nat.not_lt.mp hsize)).1 hstream).1
  · simp [Ask.Terminates, Terminal]
  · simp [Ask.Terminates, Terminal]
  · exact hintrospection ((hanswerable (Nat.not_lt.mp hsize)).2 hschema)
  · simp [Expects, hrequest, hstream, hping, hschema] at hf
  · simp [Expects, hrequest, hstream, hping, hschema] at hf

/-- The others are not answered. -/
theorem ask_silent {f : Frame} (hsilent : ¬ Answerable E setup f) :
    ask E setup (.inTime (.ok f)) = .pass ∨ ask E setup (.inTime (.ok f)) = .leave := by
  unfold Answerable at hsilent
  simp only [Classical.not_imp, not_and_or] at hsilent
  obtain ⟨hsize, ⟨hstream, hcase⟩ | ⟨hschema, hdisabled⟩⟩ := hsilent
  · have hrequest : f.msgType ≠ msgRequest := by rw [hstream]; decide
    simp only [ask, if_neg (Nat.not_lt.mpr hsize), if_neg hrequest, if_pos hstream]
    by_cases henabled : setup.config.enableStreaming = true
    · have hnone : (E.codec.fromSlice f.payload : Option ServiceRequest) = none := by
        simpa [henabled] using hcase
      right
      simp only [henabled, if_true, hnone]
    · left
      rw [if_neg henabled]
  · have hne (t : UInt8) (ht : msgSchemaRequest ≠ t) : f.msgType ≠ t := by rwa [hschema]
    left
    simp only [ask, if_neg (Nat.not_lt.mpr hsize), if_neg (hne msgRequest (by decide)),
      if_neg (hne msgStreamRequest (by decide)), if_neg (hne msgPing (by decide)), if_pos hschema,
      if_neg hdisabled]

/-- A frame that expects an answer is answered in its turn exactly if it is answerable. -/
theorem answered_iff (l : Link σ Unit) (f : Frame) :
    (Expects f → l.Carries E (ask E setup (.inTime (.ok f))) →
      ∃ answer, (l.after E (ask E setup (.inTime (.ok f)))).2.answers = l.answers ++ [answer]) ↔
    Answerable E setup f := by
  by_cases hanswerable : Answerable E setup f
  · exact iff_of_true (fun hf hl => answers_after (ask_terminates hf hanswerable) hl) hanswerable
  · refine iff_of_false (fun hall => ?_) hanswerable
    have hexpects : Expects f := by
      by_contra hother
      refine hanswerable fun _ => ⟨fun hstream => ?_, fun hschema => ?_⟩
      · exact absurd (show Expects f by simp [Expects, hstream]) hother
      · exact absurd (show Expects f by simp [Expects, hschema]) hother
    have hunchanged : (l.after E (ask E setup (.inTime (.ok f)))).2.answers = l.answers ∧
        l.Carries E (ask E setup (.inTime (.ok f))) := by
      rcases ask_silent hanswerable with hask | hask <;> rw [hask] <;> exact ⟨rfl, trivial⟩
    obtain ⟨answer, hanswer⟩ := hall hexpects hunchanged.2
    rw [hunchanged.1] at hanswer
    exact List.cons_ne_nil answer [] (List.self_eq_append_right.mp hanswer)

theorem answersEach_loop (clientId : String) (l : Link σ Watch) (hs : List (Timed (Result Frame))) :
    AnswersEach E setup ⟨.looping clientId, l⟩ hs ↔
      Along E (ask E setup) (fun _ h => ∀ f, h = .inTime (.ok f) → Answerable E setup f) l.line hs := by
  have hloops : (handleConnectionWithConfig E setup).Loops E clientId (ask E setup) := loops clientId
  have hturns := hloops.along_iff
    (fun l h => ∀ f, h = .inTime (.ok f) → Expects f → l.Carries E (ask E setup h) →
      ∃ answer, (l.after E (ask E setup h)).2.answers = l.answers ++ [answer]) l hs
  have hcongr (l : Link σ Unit) (h : Timed (Result Frame)) :
      (∀ f, h = .inTime (.ok f) → Expects f → l.Carries E (ask E setup h) →
        ∃ answer, (l.after E (ask E setup h)).2.answers = l.answers ++ [answer]) ↔
      ∀ f, h = .inTime (.ok f) → Answerable E setup f := by
    refine forall_congr' fun f => forall_congr' fun hf => ?_
    rw [hf]
    exact answered_iff l f
  rw [← along_congr hcongr, ← hturns]
  -- the answers of a turn are those of the connection behind it
  have hstep (before : List (Timed (Result Frame))) (f : Frame) (c : String) (l' : Link σ Watch)
      (hrun : (⟨.looping clientId, l⟩ : Session σ Watch String).run (handleConnectionWithConfig E setup) before =
        ⟨.looping c, l'⟩) :
      c = clientId ∧
        ((⟨.looping clientId, l⟩ : Session σ Watch String).run (handleConnectionWithConfig E setup)
          (before ++ [.inTime (.ok f)])).link.answers =
        (l'.line.after E (ask E setup (.inTime (.ok f)))).2.answers := by
    obtain rfl := hloops.run_looping hrun
    exact ⟨rfl, congrArg Link.answers (hloops.run_snoc hrun (.inTime (.ok f)))⟩
  constructor
  · intro heach before h behind l' hs hrun f hf hexpects hl
    subst hf
    obtain ⟨answer, hanswer⟩ := heach before f behind clientId l' hs hrun hexpects hl
    exact ⟨answer, (hstep before f clientId l' hrun).2 ▸ hanswer⟩
  · intro hall before f behind c l' hs hrun hexpects hl
    obtain ⟨rfl, hanswers⟩ := hstep before f c l' hrun
    rw [hanswers]
    exact hall before _ behind l' hs hrun f rfl hexpects hl

/-- The first message is not answered as those in the loop are. -/
theorem answersEach_accepted (s : σ) (w : Watch) (first : Result Frame) (rest : List (Timed (Result Frame))) :
    AnswersEach E setup (.accepted s w) (.inTime first :: rest) ↔
      AnswersEach E setup ((Session.accepted s w).step (handleConnectionWithConfig E setup)
        (.inTime first)) rest := by
  constructor
  · intro heach before f behind c l hs hrun
    exact heach (.inTime first :: before) f behind c l (by rw [hs, List.cons_append]) hrun
  · intro heach before f behind c l hs hrun
    cases before with
    | nil => exact nomatch hrun
    | cons b before =>
      obtain ⟨rfl, rfl⟩ := List.cons.inj hs
      exact heach before f behind c l rfl hrun

/-- **The server answers everything that asks exactly if everything that its loop reads is
answerable**: for every configuration, handler and outcome of the writes, whatever the client sends
behind the handshake, whenever it comes. -/
theorem answers_exact (E : Site σ) (setup : Setup) (s : σ) (w : Watch) (first : Result Frame)
    (rest : List (Timed (Result Frame))) :
    AnswersEach E setup (.accepted s w) (.inTime first :: rest) ↔
      ∀ f o, first = .ok f → opened E setup f s w = some o →
        Along E (ask E setup) (fun _ h => ∀ f, h = .inTime (.ok f) → Answerable E setup f) (E.begun o) rest := by
  rw [answersEach_accepted]
  refine (greets E setup).exact (P := fun t => AnswersEach E setup t rest) (fun t ht _ => ?_)
    (fun clientId l o hl => ?_) s w first
  · intro before f behind c l hs hrun
    obtain ⟨r, hr⟩ := ht
    rw [Session.run_finished ⟨r, hr⟩] at hrun
    exact nomatch hr.symm.trans (congrArg Session.phase hrun)
  · rw [answersEach_loop, hl]

end

/-! ### A client that asks for the schema, and is told nothing -/

namespace Sample

def closed : Setup := { setup with config := { ServerConfig.default with enableSchemaIntrospection := false } }

def asksSchema : List (Timed (Result Frame)) := [.inTime (.ok hello), .inTime (.ok ⟨msgSchemaRequest, []⟩)]

/-- With introspection disabled the request is read, and the loop goes on without a word. -/
theorem schema_ignored : ¬ AnswersEach site closed (.accepted 0 watch) asksSchema := by
  intro heach
  have hnone : ((Session.accepted 0 watch).run (handleConnectionWithConfig site closed) asksSchema).link.answers =
      [] := by decide +kernel
  obtain ⟨answer, hanswer⟩ := heach [.inTime (.ok hello)] ⟨msgSchemaRequest, []⟩ [] "client" _ rfl rfl
    (by simp [Expects]) trivial
  exact List.cons_ne_nil answer [] (List.append_eq_nil_iff.mp (hanswer.symm.trans hnone)).2

end Sample
end UdsServer

end XProtocol
