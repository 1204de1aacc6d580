import XProtocol.Metrics
import XProtocol.Threads.Maximum

/-! The maxima of the metrics.

Both are raised without a lock, by calls that interleave at every atomic operation: the largest
number of connections at a time, and the largest latency. No interleaving loses a value
(`maxima_exact`). -/
namespace XProtocol
open Threads

structure ConnectionTracker where
  totalConnections : Nat
  activeConnections : Nat
  peakConnections : Nat
  closedConnections : Nat
  connectionErrors : Nat

namespace ConnectionTracker

def new : ConnectionTracker where
  totalConnections := 0
  activeConnections := 0
  peakConnections := 0
  closedConnections := 0
  connectionErrors := 0

/-- Where a thread is that calls `connection_opened`, and later `connection_closed`. -/
inductive Place where
  | idle
  /-- In `connection_opened`: the connection is in the total, and not yet active. -/
  | counted
  /-- In `connection_opened`: in the loop. -/
  | raising (l : Raising)
  /-- In `connection_opened`: `+ 1` has overflowed. -/
  | panicked
  | opened
  /-- In `connection_closed`: the connection is not active any more, and not yet closed. -/
  | uncounted
  | closed
deriving DecidableEq

def Place.raising? : Place → Option Raising
  | .raising l => some l
  | _ => none

/-- One atomic operation. A build with overflow `checks` panics where `active` is beyond 64 bits. -/
def move (checks : Bool) : Move ConnectionTracker Place Unit
  | .idle, _, c => some (.counted, { c with totalConnections := fetchAdd c.totalConnections 1 }, [])
  | .counted, _, c =>
    let active := c.activeConnections + 1
    let next := if checks && active = 2 ^ 64 then Place.panicked else .raising (.load (active % 2 ^ 64))
    some (next, { c with activeConnections := fetchAdd c.activeConnections 1 }, [])
  | .raising l, _, c =>
    let next := l.step c.peakConnections
    some (next.1.elim .opened .raising, { c with peakConnections := next.2 }, [])
  | .opened, _, c => some (.uncounted, { c with activeConnections := fetchSub c.activeConnections 1 }, [])
  | .uncounted, _, c => some (.closed, { c with closedConnections := fetchAdd c.closedConnections 1 }, [])
  | .panicked, _, _ => none
  | .closed, _, _ => none

def start (n : Nat) : State ConnectionTracker Place := ⟨new, List.replicate n .idle⟩

/-- No call is in progress. -/
def Quiet (s : State ConnectionTracker Place) : Prop :=
  ∀ p ∈ s.places, p = .idle ∨ p = .opened ∨ p = .closed ∨ p = .panicked

theorem offering (checks : Bool) : Offering (move checks) peakConnections Place.raising? where
  goes p c w p' w' new l hmove hl := by
    cases p with
    | raising l' =>
      cases hl
      cases hmove
      cases h : (l.step w.peakConnections).1 <;> simp [Place.raising?, h, Prod.ext_iff]
    | _ => cases hl
  begins p c w p' w' new hmove hl := by
    cases p with
    | counted =>
      cases hmove
      refine ⟨rfl, fun l hl => ?_⟩
      split at hl <;> cases hl
      rfl
    | raising l => cases hl
    | _ =>
      cases hmove <;> exact ⟨rfl, fun _ h => nomatch h⟩
  starts p c w p' w' new hmove q hq := by
    cases p <;> cases hmove <;> cases hq

/-- The connection is in the total. -/
def Place.begun : Place → Bool
  | .idle => false
  | _ => true

/-- The connection is active. -/
def Place.held : Place → Bool
  | .raising _ => true
  | .panicked => true
  | .opened => true
  | _ => false

/-- The connection is closed. -/
def Place.ended : Place → Bool
  | .closed => true
  | _ => false

/-- Of `n` threads, every counter is what their places say, and the largest number of active connections
so far is `top`. -/
structure Exact (n top : Nat) (s : State ConnectionTracker Place) : Prop where
  length : s.places.length = n
  total : s.world.totalConnections = s.count Place.begun % 2 ^ 64
  active : s.world.activeConnections = s.count Place.held % 2 ^ 64
  closed : s.world.closedConnections = s.count Place.ended % 2 ^ 64
  reached : min (s.count Place.held) (2 ^ 64 - 1) ≤ top
  covered : Covered peakConnections Place.raising? top s

variable {checks : Bool} {n top : Nat} {s s' : State ConnectionTracker Place}

theorem start_raising (n : Nat) : ∀ p ∈ (start n).places, p.raising? = none :=
  fun _ hp => List.eq_of_mem_replicate hp ▸ rfl

theorem exact_start (n : Nat) : Exact n 0 (start n) where
  length := List.length_replicate
  total := by simp [start, State.count, List.countP_replicate, Place.begun, new]
  active := by simp [start, State.count, List.countP_replicate, Place.held, new]
  closed := by simp [start, State.count, List.countP_replicate, Place.ended, new]
  reached := by simp [start, State.count, List.countP_replicate, Place.held]
  covered := covered_start (s := start n) (start_raising n)

/-- A counter of 64 bits that follows whether a thread is at a place that it counts. -/
def follow (f : Place → Bool) (p p' : Place) (counter : Nat) : Nat :=
  (counter + 2 ^ 64 + (f p').toNat - (f p).toNat) % 2 ^ 64

theorem follow_count {f : Place → Bool} {t counter : Nat} {p : Place} (hp : s.places[t]? = some p)
    (hcounter : counter = s.count f % 2 ^ 64) (p' : Place) (w : ConnectionTracker) :
    follow f p p' counter = State.count f ⟨w, s.places.set t p' ++ []⟩ % 2 ^ 64 := by
  have hcount := s.count_moved_alone hp f p' w
  have hle : (f p).toNat ≤ 1 := Bool.toNat_le _
  rw [follow]
  omega

section Follow
variable {f : Place → Bool} {p p' : Place} {counter : Nat}

theorem follow_same (h : f p' = f p) (hlt : counter < 2 ^ 64) : counter = follow f p p' counter := by
  have hle : (f p).toNat ≤ 1 := Bool.toNat_le _
  rw [follow, h]
  omega

theorem follow_add (h : f p = false) (h' : f p' = true) : fetchAdd counter 1 = follow f p p' counter := by
  simp only [follow, fetchAdd, h, h', Bool.toNat_true, Bool.toNat_false]
  omega

theorem follow_sub (h : f p = true) (h' : f p' = false) : fetchSub counter 1 = follow f p p' counter := by
  simp only [follow, fetchSub, h, h', Bool.toNat_true, Bool.toNat_false]
  omega

end Follow

/-- Every counter follows the place, and whoever becomes active offers the new number. -/
theorem move_spec {p p' : Place} {c : Unit} {w w' : ConnectionTracker} {new : List Place}
    (htotal : w.totalConnections < 2 ^ 64) (hactive : w.activeConnections < 2 ^ 64)
    (hclosed : w.closedConnections < 2 ^ 64) (h : move checks p c w = some (p', w', new)) :
    new = [] ∧ w'.totalConnections = follow Place.begun p p' w.totalConnections ∧
      w'.activeConnections = follow Place.held p p' w.activeConnections ∧
      w'.closedConnections = follow Place.ended p p' w.closedConnections ∧
      (p'.held = true ∧ p.held = false ∧ offered Place.raising? p p' = w'.activeConnections ∨
        p'.held.toNat ≤ p.held.toNat ∧ offered Place.raising? p p' = 0) := by
  cases p with
  | idle =>
    cases h
    exact ⟨rfl, follow_add rfl rfl, follow_same rfl hactive, follow_same rfl hclosed, .inr ⟨Nat.le_refl _, rfl⟩⟩
  | counted =>
    by_cases hover : checks && w.activeConnections + 1 = 2 ^ 64
    · have hwraps : w.activeConnections + 1 = 2 ^ 64 := by simpa using (Bool.and_eq_true_iff.mp hover).2
      simp only [move, hover] at h
      cases h
      refine ⟨rfl, follow_same rfl htotal, follow_add rfl rfl, follow_same rfl hclosed, .inl ⟨rfl, rfl, ?_⟩⟩
      rw [fetchAdd, hwraps]
      rfl
    · simp only [move, hover] at h
      cases h
      exact ⟨rfl, follow_same rfl htotal, follow_add rfl rfl, follow_same rfl hclosed, .inl ⟨rfl, rfl, rfl⟩⟩
  | raising l =>
    cases h
    cases (l.step w.peakConnections).1 <;>
      exact ⟨rfl, follow_same rfl htotal, follow_same rfl hactive, follow_same rfl hclosed,
        .inr ⟨Nat.le_refl _, rfl⟩⟩
  | opened =>
    cases h
    exact ⟨rfl, follow_same rfl htotal, follow_sub rfl rfl, follow_same rfl hclosed, .inr ⟨Nat.zero_le _, rfl⟩⟩
  | uncounted =>
    cases h
    exact ⟨rfl, follow_same rfl htotal, follow_same rfl hactive, follow_add rfl rfl, .inr ⟨Nat.le_refl _, rfl⟩⟩
  | _ => cases h

/-- **One atomic operation** keeps the counters, lowers no maximum, and has the new number of active
connections offered if it is the largest. -/
theorem Exact.step (hs : Exact n top s) {l : Nat × Unit} (hstep : s.step (move checks) l = some s') :
    Exact n (max top s'.world.activeConnections) s' := by
  obtain ⟨t, c⟩ := l
  obtain ⟨p, p', w, new, hp, hmove, rfl⟩ := State.step_eq_some hstep
  have hcovered := (hs.covered.step (offering checks) hp hmove).2
  have hlt (n : Nat) : n % 2 ^ 64 < 2 ^ 64 := Nat.mod_lt _ (by decide)
  obtain ⟨rfl, htotal, hactive, hclosed, hoffered⟩ :=
    move_spec (hs.total ▸ hlt _) (hs.active ▸ hlt _) (hs.closed ▸ hlt _) hmove
  have hactive := hactive.trans (follow_count hp hs.active p' w)
  have hheld := s.count_moved_alone hp Place.held p' w
  have hreached := hs.reached
  have htop : max top (offered Place.raising? p p') = max top w.activeConnections ∧
      min (State.count Place.held ⟨w, s.places.set t p' ++ []⟩) (2 ^ 64 - 1) ≤ max top w.activeConnections := by
    rcases hoffered with ⟨hp', hp, hoffered⟩ | ⟨hle, hoffered⟩
    · simp only [hp', hp, Bool.toNat_true, Bool.toNat_false] at hheld
      omega
    · omega
  exact
    { length := by rw [List.append_nil, List.length_set, hs.length]
      total := htotal.trans (follow_count hp hs.total p' w)
      active := hactive
      closed := hclosed.trans (follow_count hp hs.closed p' w)
      reached := htop.2
      covered := htop.1 ▸ hcovered }

theorem run_exact {ls : List (Nat × Unit)} (hrun : (start n).run (move checks) ls = some s) :
    Exact n ((start n).largest (move checks) activeConnections ls) s :=
  State.run_keeps_largest (fun _ _ _ _ hs hstep => hs.step hstep) (exact_start n) hrun

theorem count_quiet (h : Quiet s) : s.count Place.begun = s.count Place.held + s.count Place.ended := by
  obtain ⟨c, places⟩ := s
  unfold Quiet State.count at *
  induction places with
  | nil => rfl
  | cons p rest ih =>
    obtain ⟨hp, hrest⟩ := List.forall_mem_cons.mp h
    have ih := ih hrest
    rcases hp with rfl | rfl | rfl | rfl <;>
      simp_all [List.countP_cons, Place.begun, Place.held, Place.ended] <;> omega

/-- When no call is in progress, the peak is the largest number so far, and every connection is active or closed. -/
theorem Exact.quiet (hs : Exact n top s) (h : Quiet s) :
    s.world.peakConnections = top ∧
      s.world.totalConnections = fetchAdd s.world.activeConnections s.world.closedConnections ∧
      (n < 2 ^ 64 →
        s.world.totalConnections = s.world.activeConnections + s.world.closedConnections) := by
  have hcount := count_quiet h
  have hle : s.count Place.begun ≤ n := hs.length ▸ List.countP_le_length
  have htotal := hs.total
  have hactive := hs.active
  have hclosed := hs.closed
  refine ⟨hs.covered.quiet fun p hp => ?_, ?_, fun hlt => ?_⟩
  · rcases h p hp with rfl | rfl | rfl | rfl <;> rfl
  · unfold fetchAdd
    omega
  · omega

end ConnectionTracker

namespace ServiceMetrics

/-- What `request_end` is called with. -/
structure Request where
  latency : Nat
  success : Bool
  isTimeout : Bool

/-- `latency.as_millis() as u64`. -/
def Request.millis (r : Request) : Nat := asMillis r.latency % 2 ^ 64

/-- Where a thread is in `request_end`. -/
inductive Ending where
  | begun
  | counting
  | summing
  /-- In the loop. -/
  | raising (l : Raising)
  | observing
  | outcome
  | ended

/-- The last operation of `request_end`. -/
def countOutcome (m : ServiceMetrics) (r : Request) : ServiceMetrics :=
  if r.isTimeout then { m with requestsTimeout := fetchAdd m.requestsTimeout 1 }
  else if r.success then { m with requestsSuccess := fetchAdd m.requestsSuccess 1 }
  else { m with requestsFailure := fetchAdd m.requestsFailure 1 }

/-- One atomic operation of `request_end`. -/
def ending : Move ServiceMetrics (Request × Ending) Unit
  | (r, .begun), _, m => some ((r, .counting), { m with activeRequests := fetchSub m.activeRequests 1 }, [])
  | (r, .counting), _, m => some ((r, .summing), { m with latencyCount := fetchAdd m.latencyCount 1 }, [])
  | (r, .summing), _, m =>
    some ((r, .raising (.load r.millis)), { m with latencySumMs := fetchAdd m.latencySumMs r.millis }, [])
  | (r, .raising l), _, m =>
    let next := l.step m.latencyMaxMs
    some ((r, next.1.elim .observing .raising), { m with latencyMaxMs := next.2 }, [])
  | (r, .observing), _, m =>
    some ((r, .outcome), { m with latencyHistogram := m.latencyHistogram.observe r.millis }, [])
  | (r, .outcome), _, m => some ((r, .ended), m.countOutcome r, [])
  | (_, .ended), _, _ => none

def ends (requests : List Request) : State ServiceMetrics (Request × Ending) := ⟨new, requests.map (·, .begun)⟩

def raising? : Request × Ending → Option Raising
  | (_, .raising l) => some l
  | _ => none

/-- What the thread has begun to offer. -/
def sent : Request × Ending → Nat
  | (_, .begun) => 0
  | (_, .counting) => 0
  | (_, .summing) => 0
  | (r, _) => r.millis

/-- No call is in progress. -/
def Quiet (s : State ServiceMetrics (Request × Ending)) : Prop :=
  ∀ p ∈ s.places, p.2 = .begun ∨ p.2 = .ended

def endedRequest : Request × Ending → Option Request
  | (r, .ended) => some r
  | _ => none

/-- The requests that have ended. -/
def endedRequests (s : State ServiceMetrics (Request × Ending)) : List Request := s.places.filterMap endedRequest

theorem ending_offering : Offering ending latencyMaxMs raising? where
  goes p c w p' w' new l hmove hl := by
    obtain ⟨r, e⟩ := p
    cases e with
    | raising l' =>
      cases hl
      cases hmove
      cases h : (l.step w.latencyMaxMs).1 <;> simp [raising?, h, Prod.ext_iff]
    | _ => cases hl
  begins p c w p' w' new hmove hl := by
    obtain ⟨r, e⟩ := p
    cases e with
    | raising l => cases hl
    | summing =>
      cases hmove
      exact ⟨rfl, fun l hl => by cases hl; rfl⟩
    | outcome =>
      cases hmove
      refine ⟨?_, fun _ h => nomatch h⟩
      unfold countOutcome
      split_ifs <;> rfl
    | _ => cases hmove <;> exact ⟨rfl, fun _ h => nomatch h⟩
  starts p c w p' w' new hmove q hq := by
    obtain ⟨r, e⟩ := p
    cases e <;> cases hmove <;> cases hq

/-- **A call alone does what `requestEnd` does.** -/
theorem ending_alone (m : ServiceMetrics) (r : Request) :
    ∃ ls, State.run ending ⟨m, [(r, .begun)]⟩ ls =
      some ⟨m.requestEnd r.latency r.success r.isTimeout, [(r, .ended)]⟩ := by
  have hend : m.requestEnd r.latency r.success r.isTimeout = countOutcome { m with
      activeRequests := fetchSub m.activeRequests 1
      latencyCount := fetchAdd m.latencyCount 1
      latencySumMs := fetchAdd m.latencySumMs r.millis
      latencyMaxMs := max m.latencyMaxMs r.millis
      latencyHistogram := m.latencyHistogram.observe r.millis } r := rfl
  rw [hend]
  by_cases hle : r.millis ≤ m.latencyMaxMs
  · refine ⟨List.replicate 6 (0, ()), ?_⟩
    rw [Nat.max_eq_left hle]
    simp [State.run, State.step, ending, Raising.step, hle]
  · refine ⟨List.replicate 7 (0, ()), ?_⟩
    rw [Nat.max_eq_right (Nat.le_of_not_le hle)]
    simp [State.run, State.step, ending, Raising.step, hle]

theorem sent_moved {p p' : Request × Ending} {c : Unit} {m m' : ServiceMetrics} {new : List (Request × Ending)}
    (h : ending p c m = some (p', m', new)) :
    sent p' = max (sent p) (offered raising? p p') ∧ ∀ q ∈ new, sent q = 0 := by
  obtain ⟨r, e⟩ := p
  cases e with
  | summing =>
    cases h
    exact ⟨(Nat.zero_max _).symm, fun _ hq => nomatch hq⟩
  | raising l =>
    cases h
    refine ⟨?_, fun _ hq => nomatch hq⟩
    cases (l.step m.latencyMaxMs).1 <;> exact (Nat.max_zero _).symm
  | _ => cases h <;> exact ⟨(Nat.max_zero _).symm, fun _ hq => nomatch hq⟩

theorem most_sent_quiet {s : State ServiceMetrics (Request × Ending)} (h : Quiet s) :
    s.most sent = ((endedRequests s).map Request.millis).foldr max 0 := by
  obtain ⟨m, places⟩ := s
  unfold Quiet State.most endedRequests at *
  induction places with
  | nil => rfl
  | cons p rest ih =>
    have ih := ih (List.forall_mem_cons.mp h).2
    obtain ⟨r, e⟩ := p
    rcases h (r, e) (List.mem_cons_self ..) with rfl | rfl
    · exact (Nat.zero_max _).trans ih
    · exact congrArg (max r.millis) ih

theorem ends_raising (requests : List Request) : ∀ p ∈ (ends requests).places, raising? p = none :=
  List.forall_mem_map.mpr fun _ _ => rfl

theorem run_sent {requests : List Request} {ls : List (Nat × Unit)} {s : State ServiceMetrics (Request × Ending)}
    (hrun : (ends requests).run ending ls = some s) : Covered latencyMaxMs raising? (s.most sent) s := by
  have h := run_covered_most ending_offering (fun _ _ _ _ _ _ => sent_moved)
    (fun p hp => ⟨ends_raising requests p hp, ?_⟩) hrun
  · rwa [show (ends requests).world.latencyMaxMs = 0 from rfl, Nat.zero_max] at h
  · revert p
    exact List.forall_mem_map.mpr fun _ _ => Nat.le_refl _

theorem covered_quiet {s : State ServiceMetrics (Request × Ending)}
    (h : Covered latencyMaxMs raising? (s.most sent) s)
    (hquiet : Quiet s) : s.world.latencyMaxMs = ((endedRequests s).map Request.millis).foldr max 0 := by
  refine (h.quiet fun p hp => ?_).trans (most_sent_quiet hquiet)
  obtain ⟨r, e⟩ := p
  rcases hquiet (r, e) hp with rfl | rfl <;> rfl

end ServiceMetrics

/-- **No interleaving loses a maximum.** Of any number of connections that are opened and later closed,
and of any number of requests that end: no step lowers a maximum; when no call is in progress, the peak is
the largest number of active connections that there has been, the total is what is active and what is closed,
and the largest latency is that of the requests that have ended; and whoever has to start over
has been overtaken by another call. -/
theorem maxima_exact (checks : Bool) :
    (∀ n ls s, (ConnectionTracker.start n).run (ConnectionTracker.move checks) ls = some s →
      (∀ l s', s.step (ConnectionTracker.move checks) l = some s' →
        s.world.peakConnections ≤ s'.world.peakConnections) ∧
      (ConnectionTracker.Quiet s →
        s.world.peakConnections =
            (ConnectionTracker.start n).largest (ConnectionTracker.move checks) (·.activeConnections) ls ∧
          s.world.totalConnections = fetchAdd s.world.activeConnections s.world.closedConnections ∧
          (n < 2 ^ 64 →
            s.world.totalConnections = s.world.activeConnections + s.world.closedConnections)) ∧
      ∀ t value seen, Stands ConnectionTracker.Place.raising? s t (.exchange value seen) →
        s.world.peakConnections ≠ seen →
        Overtaken (ConnectionTracker.move checks) (·.peakConnections) ConnectionTracker.Place.raising?
          (ConnectionTracker.start n) ls t (.exchange value seen)) ∧
    ∀ requests ls s, (ServiceMetrics.ends requests).run ServiceMetrics.ending ls = some s →
      (∀ l s', s.step ServiceMetrics.ending l = some s' → s.world.latencyMaxMs ≤ s'.world.latencyMaxMs) ∧
      (ServiceMetrics.Quiet s →
        s.world.latencyMaxMs = ((ServiceMetrics.endedRequests s).map ServiceMetrics.Request.millis).foldr max 0 ∧
          ((∀ r ∈ ServiceMetrics.endedRequests s, ServiceMetrics.asMillis r.latency < 2 ^ 64) →
            s.world.latencyMaxMs =
              ((ServiceMetrics.endedRequests s).map fun r => ServiceMetrics.asMillis r.latency).foldr max 0)) ∧
      ∀ t value seen, Stands ServiceMetrics.raising? s t (.exchange value seen) → s.world.latencyMaxMs ≠ seen →
        Overtaken ServiceMetrics.ending (·.latencyMaxMs) ServiceMetrics.raising? (ServiceMetrics.ends requests) ls t
          (.exchange value seen) := by
  constructor
  · intro n ls s hrun
    have hexact := ConnectionTracker.run_exact hrun
    refine ⟨fun l s' hstep => ?_, hexact.quiet, fun t value seen => ?_⟩
    · obtain ⟨p, p', w, new, hp, hmove, rfl⟩ := State.step_eq_some hstep
      exact (hexact.covered.step (ConnectionTracker.offering checks) hp hmove).1
    · exact retry_caused (ConnectionTracker.offering checks) (ConnectionTracker.start_raising n) hrun
  · intro requests ls s hrun
    have hcovered := ServiceMetrics.run_sent hrun
    refine ⟨fun l s' hstep => ?_, fun hquiet => ?_, fun t value seen => ?_⟩
    · obtain ⟨p, p', w, new, hp, hmove, rfl⟩ := State.step_eq_some hstep
      exact (hcovered.step ServiceMetrics.ending_offering hp hmove).1
    · have hmax := (ServiceMetrics.covered_quiet hcovered hquiet)
      exact ⟨hmax, fun hsmall => hmax.trans
        (congrArg (List.foldr max 0) (List.map_congr_left fun r hr => Nat.mod_eq_of_lt (hsmall r hr)))⟩
    · exact retry_caused ServiceMetrics.ending_offering (ServiceMetrics.ends_raising requests) hrun

/-- Two connections are opened at a time: the first one is overtaken and starts over, the peak is two. A
request ends that took five milliseconds. -/
theorem maxima_exact_raced :
    Overtaken (ConnectionTracker.move true) (·.peakConnections) ConnectionTracker.Place.raising?
        (ConnectionTracker.start 2) ([0, 0, 0, 1, 1, 1, 1].map (·, ())) 0 (.exchange 1 0) ∧
      2 = (ConnectionTracker.start 2).largest (ConnectionTracker.move true) (·.activeConnections)
        ([0, 0, 0, 1, 1, 1, 1, 0, 0].map (·, ())) ∧
      ∃ s, (ServiceMetrics.ends [⟨5 * 10 ^ 6, true, false⟩]).run ServiceMetrics.ending (List.replicate 7 (0, ())) =
          some s ∧
        s.world.latencyMaxMs =
          ((ServiceMetrics.endedRequests s).map fun r => ServiceMetrics.asMillis r.latency).foldr max 0 := by
  refine ⟨?_, ?_, ?_⟩
  · exact ((maxima_exact true).1 2 _
      ⟨⟨2, 2, 2, 0, 0⟩, [.raising (.exchange 1 0), .opened]⟩ rfl).2.2 0 1 0 rfl (by decide)
  · exact (((maxima_exact true).1 2 _ ⟨⟨2, 2, 2, 0, 0⟩, [.opened, .opened]⟩ rfl).2.1
      (by unfold ConnectionTracker.Quiet; decide)).1
  · have hrun :
        (ServiceMetrics.ends [⟨5 * 10 ^ 6, true, false⟩]).run ServiceMetrics.ending (List.replicate 7 (0, ())) =
          some ⟨_, [(⟨5 * 10 ^ 6, true, false⟩, .ended)]⟩ := rfl
    refine ⟨_, hrun, (((maxima_exact true).2 _ _ _ hrun).2.1 fun p hp => ?_).2 fun r hr => ?_⟩
    · exact .inr (List.mem_singleton.mp hp ▸ rfl)
    · exact List.mem_singleton.mp hr ▸ by decide

end XProtocol
