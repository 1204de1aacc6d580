import XProtocol.Async.Scripted
import XProtocol.Binary64
import XProtocol.Client.Reliable
import XProtocol.Json.Text

/-! Which calls are counted.

A client's calls come one after the other, and the network does with them what it likes. A call
counts itself when its reading times out and when it has read its response; it ends uncounted
wherever it ends before that, and when it cannot read what came. An answer that is no response is
counted, but then the call waits for the stream that it holds itself, and does not return. So a
client counts all that returns exactly if every call ends with the one or the other
(`statistics_iff`). -/
namespace XProtocol

/-- `success_rate`: the counters as floating-point numbers. -/
def ConnectionStats.successRate (s : ConnectionStats) : ℚ :=
  if s.totalRequests = 0 then 1
  else Binary64.round (Binary64.round s.successfulRequests / Binary64.round s.totalRequests)

namespace ReliableUdsClient
open Async
open Json (Value Codec)
open Json.Text (compact)
open Wire

/-- The counters of requests. -/
structure Tally where
  total : Nat
  successful : Nat
  failed : Nat

def Tally.count (n : Tally) (success : Bool) : Tally where
  total := n.total + 1
  successful := n.successful + if success then 1 else 0
  failed := n.failed + if success then 0 else 1

def tally (s : ConnectionStats) : Tally := ⟨s.totalRequests, s.successfulRequests, s.failedRequests⟩

def isNet : NetOp Fields → Bool
  | .net _ => true
  | .own _ => false

/-! ### What a call counts -/

/-- What is known of a call: whether it holds the stream, what has been counted, and what it has heard. -/
structure Account where
  holding : Bool
  tally : Tally
  heard : Story (NetWith Fields)

def Account.after (g : Account) : (o : NetOp Fields) → (NetWith Fields).Ret o → Account
  | .net o, r => { g with heard := g.heard ++ [⟨.net o, r⟩] }
  | .own .lockStream, _ => { g with holding := true }
  | .own .unlockStream, _ => { g with holding := false }
  | .own (.recordRequest success), _ => { g with tally := g.tally.count success }
  | .own _, _ => g

/-- The mutex is not taken by who holds it. -/
def counting : Discipline (NetWith Fields) Account where
  demand _ _ := True
  move g o r g' := (o = .own .lockStream → g.holding = false) ∧ g' = g.after o r

/-- The operation leaves what is known. -/
def Idle : Op → Bool
  | .lockStream | .unlockStream | .recordRequest _ => false
  | _ => true

section
variable {α : Type} {Q : Account → α → Prop} {R : Account → ProtocolError → Prop} {g : Account}

theorem own_counting {o : Op} {f : Fields.Ret o → Code α}
    (h : ∀ r, (o = .lockStream → g.holding = false) → Meets counting (f r) Q R (g.after (.own o) r)) :
    Meets counting (own o >>= f) Q R g := by
  refine meets_bind.mpr ((@Code.meets_own Fields Account counting R g o _).mpr ⟨trivial, ?_⟩)
  rintro r g' ⟨hfree, rfl⟩
  exact h r fun ho => hfree (congrArg NetOp.own ho)

theorem own_idle {o : Op} (ho : Idle o = true) {f : Fields.Ret o → Code α} (h : ∀ r, Meets counting (f r) Q R g) :
    Meets counting (own o >>= f) Q R g := by
  refine own_counting fun r _ => ?_
  have hafter : g.after (.own o) r = g := by
    cases o with
    | lockStream | unlockStream | recordRequest => cases ho
    | _ => rfl
  rw [hafter]
  exact h r

theorem net_counting {o : Net.Op} {f : o.Ret → Code α}
    (h : ∀ r, Meets counting (f r) Q R { g with heard := g.heard ++ [⟨.net o, r⟩] }) :
    Meets counting (Code.net o >>= f) Q R g := by
  refine meets_bind.mpr ((Code.meets_net o _).mpr ⟨trivial, ?_⟩)
  rintro r g' ⟨-, rfl⟩
  exact h r

theorem writeState_counting (s : ConnectionState) {f : Unit → Code α} (h : Meets counting (f ()) Q R g) :
    Meets counting (writeState s >>= f) Q R g := by
  rw [writeState, bind_assoc]
  exact own_idle rfl fun _ => own_idle rfl fun _ => h

/-- Whoever holds the stream does not get any further. -/
theorem putStream_counting (stream : Option ConnId) {f : Unit → Code α}
    (h : g.holding = false → Meets counting (f ()) Q R g) : Meets counting (putStream stream >>= f) Q R g := by
  rw [putStream]
  simp only [bind_assoc]
  refine own_counting fun _ hfree => own_idle rfl fun _ => own_counting fun _ _ => ?_
  have hg : { g with holding := false } = g := by rw [← hfree rfl]
  exact hg ▸ h (hfree rfl)

end

/-- A call that counted nothing yet and was told of nothing but attempts to connect. -/
structure Connecting (n : Tally) (g : Account) : Prop where
  holding : g.holding = false
  tally : g.tally = n
  heard : ∀ x ∈ g.heard, x.1 = .net (.connect true)

theorem Connecting.dial {n : Tally} {g : Account} (h : Connecting n g) (r : Timed (Except String ConnId)) :
    Connecting n { g with heard := g.heard ++ [⟨.net (.connect true), r⟩] } where
  holding := h.holding
  tally := h.tally
  heard := List.forall_mem_append.mpr ⟨h.heard, List.forall_mem_singleton.mpr rfl⟩

theorem connect_counting {n : Tally} {g : Account} (h : Connecting n g) :
    Meets counting connect (fun g _ => Connecting n g) (fun g _ => Connecting n g) g := by
  have hawait {f : Bool → Code Unit} (hf : ∀ b,
      Meets counting (f b) (fun g _ => Connecting n g) (fun g _ => Connecting n g) g) :
      Meets counting (awaitOther >>= f) (fun g _ => Connecting n g) (fun g _ => Connecting n g) g := by
    rw [awaitOther, bind_assoc]
    refine own_idle rfl fun state => ?_
    split
    · simp only [bind_assoc]
      exact own_idle rfl fun _ => own_idle rfl fun _ => own_idle rfl fun _ => hf _
    · simp only [bind_assoc]
      exact own_idle rfl fun _ => hf _
  unfold connect
  refine hawait fun other => ?_
  split
  · exact h
  refine own_idle rfl fun _ => own_idle rfl fun _ => own_idle rfl fun _ => ?_
  split
  · exact own_idle rfl fun _ => h
  refine writeState_counting _ (net_counting fun r => ?_)
  cases r with
  | inTime r =>
    cases r with
    | ok c =>
      simp only [established, bind_assoc]
      refine putStream_counting _ fun _ => writeState_counting _ (own_idle rfl fun _ => own_idle rfl fun _ => ?_)
      exact own_idle rfl fun _ => h.dial _
    | error text => exact writeState_counting _ (own_idle rfl fun _ => own_idle rfl fun _ => h.dial _)
  | elapsed => exact writeState_counting _ (own_idle rfl fun _ => own_idle rfl fun _ => h.dial _)

/-- The last that was heard of the network is a reading under the timer that timed out, or brought a response. -/
def Settled (S : Codec) (heard : Story (NetWith Fields)) : Prop :=
  ∃ before c r, heard = before ++ [⟨.net (.read c true), r⟩] ∧
    (r = .elapsed ∨ ∃ f : Frame, ∃ response : ServiceResponse, r = .inTime (.ok f) ∧ f.msgType = msgResponse ∧
      S.fromSlice f.payload = some response)

/-- A call that has ended has counted itself exactly if it is settled. -/
def Accounted (S : Codec) (n : Tally) (success : Bool) (g : Account) : Prop :=
  Settled S g.heard ∧ g.tally = n.count success ∨ ¬ Settled S g.heard ∧ success = false ∧ g.tally = n

section
variable {S : Codec} {before : Story (NetWith Fields)} {c : ConnId}

theorem not_settled {x : (o : NetOp Fields) × (NetWith Fields).Ret o} (hx : ∀ c, x.1 ≠ .net (.read c true)) :
    ¬ Settled S (before ++ [x]) := by
  rintro ⟨before', c, r, heq, -⟩
  exact hx c (congrArg Sigma.fst (List.cons.inj (List.append_inj' heq rfl).2).1)

theorem settled_read {r : Timed (Result Frame)} : Settled S (before ++ [⟨.net (.read c true), r⟩]) ↔
    r = .elapsed ∨ ∃ f : Frame, ∃ response : ServiceResponse, r = .inTime (.ok f) ∧ f.msgType = msgResponse ∧
      S.fromSlice f.payload = some response := by
  constructor
  · rintro ⟨before', c', r', heq, h⟩
    have hlast := (List.cons.inj (List.append_inj' heq rfl).2).1
    cases hlast
    exact h
  · exact fun h => ⟨before, c, r, rfl, h⟩

theorem Connecting.not_settled {n : Tally} {g : Account} (h : Connecting n g) : ¬ Settled S g.heard := by
  rintro ⟨before, c, r, heq, -⟩
  have hmem : (⟨.net (.read c true), r⟩ : (o : NetOp Fields) × (NetWith Fields).Ret o) ∈ g.heard :=
    heq ▸ List.mem_append_right _ (List.mem_singleton_self _)
  exact nomatch h.heard _ hmem

theorem not_settled_frame {f : Frame}
    (h : f.msgType ≠ msgResponse ∨ (S.fromSlice f.payload : Option ServiceResponse) = none) :
    ¬ Settled S (before ++ [⟨.net (.read c true), Timed.inTime (.ok f)⟩]) := by
  rw [settled_read]
  rintro (h' | ⟨f', response, h', htype, hresponse⟩)
  · cases h'
  · cases h'
    rcases h with hne | hnone
    · exact hne htype
    · exact nomatch hnone.symm.trans hresponse

end

variable (S : Codec)

/-- Whoever gives up while holding the stream waits for itself. -/
theorem giveUp_counting {α : Type} (e : ProtocolError) {Q : Account → α → Prop}
    {R : Account → ProtocolError → Prop} {g : Account}
    (hholding : g.holding = true) : Meets counting (giveUp e) Q R g := by
  unfold giveUp
  refine own_counting fun _ _ => putStream_counting none fun hfree => ?_
  exact absurd (hholding.symm.trans hfree) Bool.true_eq_false.mp

theorem exchange_counting (c : ConnId) (service method : String) (payload : Value) {n : Tally} {g : Account}
    (hholding : g.holding = true) (htally : g.tally = n) :
    Meets counting (exchange S c service method payload) (fun g _ => Accounted S n true g)
      (fun g _ => Accounted S n false g) g := by
  unfold exchange Code.write
  refine net_counting fun _ => net_counting fun request => ?_
  rw [bind_assoc]
  refine net_counting fun written => ?_
  cases written with
  | error e => exact .inr ⟨not_settled nofun, rfl, htally⟩
  | ok _ =>
  refine net_counting fun reading => ?_
  cases reading with
  | elapsed =>
    refine own_counting fun _ _ => .inl ⟨settled_read.mpr (.inl rfl), ?_⟩
    exact congrArg (Tally.count · false) htally
  | inTime result =>
  cases result with
  | error e =>
    refine .inr ⟨?_, rfl, htally⟩
    rw [settled_read]
    rintro (h | ⟨f, response, h, -⟩) <;> cases h
  | ok f =>
  have hread : (Code.ofResult (.ok f) : Code Frame) = pure f := rfl
  simp only [hread, pure_bind]
  split
  · next herror =>
    have hne : f.msgType ≠ msgResponse := by rw [herror]; decide
    unfold Code.decode
    cases (S.fromSlice f.payload : Option Value) with
    | none => exact .inr ⟨not_settled_frame (.inl hne), rfl, htally⟩
    | some error => exact giveUp_counting _ hholding
  split
  · exact giveUp_counting _ hholding
  · next hresponse =>
    unfold Code.decode
    cases hdecoded : (S.fromSlice f.payload : Option ServiceResponse) with
    | none => exact .inr ⟨not_settled_frame (.inr hdecoded), rfl, htally⟩
    | some response =>
      refine own_counting fun _ _ => own_idle rfl fun _ => .inl ⟨settled_read.mpr (.inr ?_), ?_⟩
      · exact ⟨f, response, rfl, not_not.mp hresponse, hdecoded⟩
      · exact congrArg (Tally.count · true) htally

/-- What is given back at the end changes nothing that counts. -/
theorem released_counting {α : Type} {body : Code α} {Q : Account → α → Prop} {R : Account → ProtocolError → Prop}
    {g : Account} (h : Meets counting body Q R g) (hQ : ∀ g a, Q g a → Q { g with holding := false } a)
    (hR : ∀ g e, R g e → R { g with holding := false } e) : Meets counting (released body) Q R g := by
  unfold released
  refine meets_bind.mpr (meets_lift.mpr (safe_mono h fun g r hr => ?_))
  refine own_counting fun _ _ => own_idle rfl fun _ => ?_
  cases r with
  | ok a => exact hQ g a hr
  | error e => exact hR g e hr

theorem call_counting (service method : String) (payload : Value) {n : Tally} {g : Account} (h : Connecting n g) :
    Meets counting (call S service method payload) (fun g _ => Accounted S n true g)
      (fun g _ => Accounted S n false g) g := by
  have hrest {g : Account} (h : Connecting n g) : Meets counting (callBehind S service method payload)
      (fun g _ => Accounted S n true g) (fun g _ => Accounted S n false g) g := by
    refine own_idle rfl fun _ => own_counting fun _ _ => own_idle rfl fun stream => ?_
    cases stream with
    | some c =>
      exact released_counting (exchange_counting S c service method payload rfl h.tally)
        (fun _ _ h => h) fun _ _ h => h
    | none =>
      refine released_counting (writeState_counting _ ?_) (fun _ _ h => h) fun _ _ h => h
      exact .inr ⟨h.not_settled, rfl, h.tally⟩
  unfold call isConnected
  rw [bind_assoc]
  refine own_idle rfl fun state => ?_
  rw [pure_bind]
  split
  · rw [meets_bind]
    refine meets_mono (connect_counting h) (fun g _ hg => hrest hg) fun g _ hg => ?_
    exact .inr ⟨hg.not_settled, rfl, hg.tally⟩
  · exact hrest h

/-! ### One call after the other -/

/-- What is known of a call is so. -/
structure Knows (told : Story (NetWith Fields)) (g : Account)
    (s : Client ReliableUdsClient × Story (NetWith Fields)) : Prop where
  holding : g.holding = true → s.1.fields.streamLock ≠ none
  tally : ReliableUdsClient.tally s.1.fields.stats = g.tally
  heard : s.2 = told ++ g.heard

theorem tally_recordRequest (s : ConnectionStats) (now : Nat) (success : Bool) :
    tally (s.recordRequest now success) = (tally s).count success := by
  cases success <;> rfl

theorem tally_recordReconnect (s : ConnectionStats) (now : Nat) (success : Bool) :
    tally (s.recordReconnect now success) = tally s := by
  cases success <;> rfl

/-- What the operation leaves of what is known of the client itself. -/
theorem perform_known {o : Op} {choice : Choice} {u u' : ReliableUdsClient} {r : Fields.Ret o} {g : Account}
    (h : perform 0 o choice u = some (r, u')) (hholding : g.holding = true → u.streamLock ≠ none)
    (htally : tally u.stats = g.tally) :
    (o = .lockStream → g.holding = false) ∧ ((g.after (.own o) r).holding = true → u'.streamLock ≠ none) ∧
      tally u'.stats = (g.after (.own o) r).tally := by
  cases o with
  | lockStream =>
    cases choice with
    | go =>
      obtain ⟨hfree, heq⟩ := Option.ite_none_right_eq_some.mp h
      cases heq
      exact ⟨fun _ => Bool.eq_false_of_not_eq_true fun hheld => hholding hheld hfree, nofun, htally⟩
    | _ => cases h
  | unlockStream =>
    cases choice with
    | go =>
      cases h
      exact ⟨nofun, nofun, htally⟩
    | _ => cases h
  | recordRequest success =>
    cases choice with
    | clock now =>
      cases h
      exact ⟨nofun, hholding, (tally_recordRequest ..).trans (congrArg (Tally.count · success) htally)⟩
    | _ => cases h
  | recordReconnect success =>
    cases choice with
    | clock now =>
      cases h
      exact ⟨nofun, hholding, (tally_recordReconnect ..).trans htally⟩
    | _ => cases h
  | lock | readState | guardState | writeState =>
    cases choice with
    | go =>
      obtain ⟨-, heq⟩ := Option.ite_none_right_eq_some.mp h
      cases heq
      exact ⟨nofun, hholding, htally⟩
    | _ => cases h
  | panic => cases r
  | _ =>
    cases choice <;> cases h
    exact ⟨nofun, hholding, htally⟩

variable {choose : Story (NetWith Fields) → NetOp Fields → Choice}

theorem Knows.step {told : Story (NetWith Fields)} {g : Account}
    {s s' : Client ReliableUdsClient × Story (NetWith Fields)} {o : NetOp Fields}
    {r : (NetWith Fields).Ret o} (h : Knows told g s)
    (hanswer : machine.scripted isNet choose o s = (some r, s')) :
    ∃ g', counting.move g o r g' ∧ Knows told g' s' := by
  obtain ⟨hperform, hstory⟩ := scripted_eq_some hanswer
  cases o with
  | net o =>
    obtain ⟨⟨r', net⟩, -, heq⟩ := Option.map_eq_some_iff.mp hperform
    obtain ⟨rfl, hs'⟩ := Prod.mk.inj heq
    refine ⟨g.after (.net o) r', ⟨nofun, rfl⟩, ?_, ?_, ?_⟩
    · rw [← hs']
      exact h.holding
    · rw [← hs']
      exact h.tally
    · rw [hstory, h.heard]
      exact List.append_assoc ..
  | own o =>
    obtain ⟨⟨r', u⟩, hu, heq⟩ := Option.map_eq_some_iff.mp hperform
    obtain ⟨rfl, hs'⟩ := Prod.mk.inj heq
    obtain ⟨hfree, hholding, htally⟩ := perform_known hu h.holding h.tally
    refine ⟨g.after (.own o) r', ⟨fun ho => hfree (NetOp.own.inj ho), rfl⟩, ?_, ?_, ?_⟩
    · rw [← hs']
      exact hholding
    · rw [← hs']
      exact htally
    · rw [hstory, h.heard]
      cases o <;> rfl

/-- A call, and what it has made of the counters. -/
structure Round where
  before : ConnectionStats
  outcome : Option (Result ServiceResponse)
  after : ConnectionStats
  /-- What it heard of the network. -/
  heard : Story (NetWith Fields)

/-- The calls up to the first that does not return. -/
def rounds (choose : Story (NetWith Fields) → NetOp Fields → Choice) :
    List (String × String × Value) → Client ReliableUdsClient × Story (NetWith Fields) → List Round
  | [], _ => []
  | (service, method, payload) :: rest, s =>
    let (outcome, s') := (call S service method payload).run.play (machine.scripted isNet choose) s
    ⟨s.1.fields.stats, outcome, s'.1.fields.stats, s'.2.drop s.2.length⟩ ::
      if outcome.isSome then rounds choose rest s' else []

def isOk : Result ServiceResponse → Bool
  | .ok _ => true
  | .error _ => false

theorem Accounted.iff {n : Tally} {success : Bool} {g : Account} (h : Accounted S n success g) :
    g.tally = n.count success ↔ Settled S g.heard := by
  rcases h with ⟨hsettled, hcounted⟩ | ⟨hnot, -, hsame⟩
  · exact iff_of_true hcounted hsettled
  · refine iff_of_false (fun hcounted => ?_) hnot
    exact Nat.succ_ne_self _ (congrArg Tally.total (hcounted.symm.trans hsame))

/-- **A call that returns has counted itself exactly if it is settled.** -/
theorem counts_iff (service method : String) (payload : Value) {result : Result ServiceResponse}
    {s s' : Client ReliableUdsClient × Story (NetWith Fields)}
    (h : (call S service method payload).run.play (machine.scripted isNet choose) s = (some result, s')) :
    tally s'.1.fields.stats = (tally s.1.fields.stats).count (isOk result) ↔
      Settled S (s'.2.drop s.2.length) := by
  let g : Account := ⟨false, tally s.1.fields.stats, []⟩
  have hstart : Connecting (tally s.1.fields.stats) g := ⟨rfl, rfl, nofun⟩
  have hknows : Knows s.2 g s := ⟨nofun, rfl, (List.append_nil _).symm⟩
  obtain ⟨g', hends, hknows'⟩ := Program.play_safe (D := counting) (R := Knows s.2)
    (fun _ _ _ _ _ hk _ ha => hk.step ha) (call_counting S service method payload hstart) hknows h
  rw [hknows'.heard, List.drop_left, hknows'.tally]
  cases result with
  | ok response => exact Accounted.iff S hends
  | error e => exact Accounted.iff S hends

/-- Every call that has returned counted itself. -/
def CountsEach (rounds : List Round) : Prop :=
  ∀ round ∈ rounds, ∀ result, round.outcome = some result →
    tally round.after = (tally round.before).count (isOk result)

/-- The calls that have returned, and those among them that succeeded. -/
def returned (rounds : List Round) : Nat := rounds.countP fun round => round.outcome.isSome

def succeeded (rounds : List Round) : Nat := rounds.countP fun round => round.outcome.any isOk

/-- The success rate is at all times the part of the calls so far that succeeded. -/
def TrueRate (rounds : List Round) : Prop :=
  ∀ earlier round rest, rounds = earlier ++ round :: rest → round.outcome.isSome = true →
    round.after.successRate = Binary64.round (Binary64.round (succeeded (earlier ++ [round])) /
      Binary64.round (returned (earlier ++ [round])))

theorem returned_cons (round : Round) (rounds : List Round) :
    returned (round :: rounds) = returned rounds + if round.outcome.isSome then 1 else 0 := List.countP_cons

theorem succeeded_cons (round : Round) (rounds : List Round) :
    succeeded (round :: rounds) = succeeded rounds + if round.outcome.any isOk then 1 else 0 := List.countP_cons

variable (choose) in
/-- The call that comes first, and what it leaves to the others. -/
theorem rounds_cons (call : String × String × Value) (rest : List (String × String × Value))
    (s : Client ReliableUdsClient × Story (NetWith Fields)) : ∃ outcome s',
      (ReliableUdsClient.call S call.1 call.2.1 call.2.2).run.play (machine.scripted isNet choose) s =
        (outcome, s') ∧
        rounds S choose (call :: rest) s = ⟨s.1.fields.stats, outcome, s'.1.fields.stats, s'.2.drop s.2.length⟩ ::
          if outcome.isSome then rounds S choose rest s' else [] :=
  ⟨_, _, rfl, rfl⟩

/-- Each round is a call. -/
theorem mem_rounds {calls : List (String × String × Value)}
    {s : Client ReliableUdsClient × Story (NetWith Fields)}
    {round : Round} (h : round ∈ rounds S choose calls s) : ∃ (call : String × String × Value) (s₁ : _) (s₂ : _),
      (ReliableUdsClient.call S call.1 call.2.1 call.2.2).run.play (machine.scripted isNet choose) s₁ =
        (round.outcome, s₂) ∧
      round = ⟨s₁.1.fields.stats, round.outcome, s₂.1.fields.stats, s₂.2.drop s₁.2.length⟩ := by
  induction calls generalizing s with
  | nil => cases h
  | cons call calls ih =>
    obtain ⟨outcome, s', hplay, hrounds⟩ := rounds_cons S choose call calls s
    rw [hrounds] at h
    rcases List.mem_cons.mp h with rfl | hrest
    · exact ⟨call, s, s', hplay, rfl⟩
    · cases outcome with
      | none => cases hrest
      | some result => exact ih hrest

/-- Calls that are counted add up. -/
theorem rounds_tally {calls : List (String × String × Value)}
    {s : Client ReliableUdsClient × Story (NetWith Fields)}
    (h : CountsEach (rounds S choose calls s)) {earlier rest : List Round} {round : Round}
    (heq : rounds S choose calls s = earlier ++ round :: rest) (hreturned : round.outcome.isSome = true) :
    (tally round.after).total = (tally s.1.fields.stats).total + returned (earlier ++ [round]) ∧
      (tally round.after).successful = (tally s.1.fields.stats).successful + succeeded (earlier ++ [round]) := by
  induction calls generalizing s earlier with
  | nil => cases earlier <;> cases heq
  | cons call calls ih =>
    obtain ⟨outcome, s', hplay, hrounds⟩ := rounds_cons S choose call calls s
    rw [hrounds] at heq h
    obtain ⟨hfirst, hothers⟩ := List.forall_mem_cons.mp h
    cases earlier with
    | nil =>
      obtain ⟨rfl, -⟩ := List.cons.inj heq
      obtain ⟨result, rfl⟩ := Option.isSome_iff_exists.mp hreturned
      have hcounted := hfirst result rfl
      rw [hcounted]
      cases result <;> exact ⟨rfl, rfl⟩
    | cons first earlier =>
      obtain ⟨rfl, htail⟩ := List.cons.inj heq
      cases outcome with
      | none => cases earlier <;> cases htail
      | some result =>
        have hcounted : tally s'.1.fields.stats = (tally s.1.fields.stats).count (isOk result) :=
          hfirst result rfl
        obtain ⟨htotal, hsuccessful⟩ := ih hothers htail
        rw [hcounted] at htotal hsuccessful
        rw [List.cons_append, returned_cons, succeeded_cons, htotal, hsuccessful]
        cases result <;> simp [Tally.count, isOk] <;> omega

/-- **A client counts every call that returns, and its success rate is true, exactly if every such call
is settled**: its reading timed out, or brought a response that could be read. -/
theorem statistics_iff (choose : Story (NetWith Fields) → NetOp Fields → Choice)
    (calls : List (String × String × Value))
    (s : Client ReliableUdsClient × Story (NetWith Fields)) :
    CountsEach (rounds S choose calls s) ∧
        (s.1.fields.stats = .new → TrueRate (rounds S choose calls s)) ↔
      ∀ round ∈ rounds S choose calls s, round.outcome.isSome = true → Settled S round.heard := by
  have heach : CountsEach (rounds S choose calls s) ↔
      ∀ round ∈ rounds S choose calls s, round.outcome.isSome = true → Settled S round.heard := by
    refine forall₂_congr fun round hround => ?_
    obtain ⟨call, s₁, s₂, hplay, heq⟩ := mem_rounds S hround
    rw [heq]
    constructor
    · intro h hreturned
      obtain ⟨result, hresult⟩ := Option.isSome_iff_exists.mp hreturned
      exact (counts_iff S call.1 call.2.1 call.2.2 (hplay.trans (by rw [hresult]))).mp (h result hresult)
    · intro h result hresult
      exact (counts_iff S call.1 call.2.1 call.2.2 (hplay.trans (by rw [hresult]))).mpr
        (h (Option.isSome_iff_exists.mpr ⟨result, hresult⟩))
  rw [← heach]
  refine and_iff_left_of_imp fun h hnew earlier round rest heq hreturned => ?_
  obtain ⟨htotal, hsuccessful⟩ := rounds_tally S h heq hreturned
  rw [hnew] at htotal hsuccessful
  have hpos : 0 < returned (earlier ++ [round]) :=
    List.countP_pos_iff.mpr ⟨round, List.mem_append_right _ (List.mem_singleton_self _), hreturned⟩
  have htotal : round.after.totalRequests = returned (earlier ++ [round]) := htotal.trans (Nat.zero_add _)
  have hsuccessful : round.after.successfulRequests = succeeded (earlier ++ [round]) :=
    hsuccessful.trans (Nat.zero_add _)
  rw [ConnectionStats.successRate, htotal, hsuccessful, if_neg (Nat.pos_iff_ne_zero.mp hpos)]

/-- Nobody takes the connections of the client. -/
def refusing (_ : Story (NetWith Fields)) : NetOp Fields → Choice
  | .net _ => .fail 0 [] "refused"
  | .own (.recordReconnect _) => .clock 0
  | .own _ => .go

/-- A call that could not connect is not counted, and the success rate is 1. -/
theorem refused_uncounted :
    (∃ round ∈ rounds compact refusing [("echo", "say", .null)] (⟨.new, .empty⟩, []), ∃ e,
      round.outcome = some (.error e) ∧ round.after.totalRequests = 0 ∧ round.after.successRate = 1) ∧
    ¬ CountsEach (rounds compact refusing [("echo", "say", .null)] (⟨.new, .empty⟩, [])) := by
  have hend : (rounds compact refusing [("echo", "say", .null)] (⟨.new, .empty⟩, [])).any (fun round =>
      round.outcome.any (fun r => !isOk r) && decide (round.after.totalRequests = 0)) = true := by decide +kernel
  obtain ⟨round, hround, hround'⟩ := List.any_eq_true.mp hend
  obtain ⟨hfailed, hzero⟩ := Bool.and_eq_true_iff.mp hround'
  have hzero : round.after.totalRequests = 0 := of_decide_eq_true hzero
  obtain ⟨result, hresult, hnot⟩ := (Option.any_eq_true _ _).mp hfailed
  obtain ⟨e, rfl⟩ : ∃ e, result = .error e := by
    cases result with
    | ok response => cases hnot
    | error e => exact ⟨e, rfl⟩
  refine ⟨⟨round, hround, e, hresult, hzero, if_pos hzero⟩, fun h => ?_⟩
  have htotal := congrArg Tally.total (h round hround _ hresult)
  exact nomatch hzero.symm.trans htotal

end ReliableUdsClient

end XProtocol
