import XProtocol.Async.Alone
import XProtocol.Pool.Accounts
import XProtocol.Pool.Breaker

/-! How often the breaker of the production pool has opened.

A pool tells its counters and its breaker's state to whoever asks, beside the calls
(`metrics`, `circuit_breaker_state`). One of the counters is for the times at which the breaker
opened, and nothing ever counts there. So it tells the truth exactly as long as the
breaker has not opened (`openings_iff`). -/
namespace XProtocol

/-- `{:?}` of it. -/
def CircuitState.debug : CircuitState → String
  | .closed => "Closed"
  | .opened => "Open"
  | .halfOpen => "HalfOpen"

/-- What `metrics` returns. -/
structure PoolMetricsReport where
  totalRequests : Nat
  successfulRequests : Nat
  failedRequests : Nat
  circuitBreakerOpens : Nat
  circuitBreakerState : String
  timeoutErrors : Nat
  activeRequests : Nat

namespace ProductionPool
open Async
open Json (Codec)
open Json.Text (compact)

/-- What an observer does to the pool. -/
inductive Observation where
  | load (counter : Counter)
  | loadOpens
  | state

/-- The operations of calls, and those of observers. -/
abbrev Watched : Interface where
  Op := Op ⊕ Observation
  Ret
    | .inl o => Calls.Ret o
    | .inr (.load _) => Nat
    | .inr .loadOpens => Nat
    | .inr .state => CircuitState

def watch (o : Observation) : Program Watched (Watched.Ret (.inr o)) := @Program.op Watched (.inr o)

def metrics : Program Watched PoolMetricsReport := do
  let totalRequests ← watch (.load .totalRequests)
  let successfulRequests ← watch (.load .successfulRequests)
  let failedRequests ← watch (.load .failedRequests)
  let circuitBreakerOpens ← watch .loadOpens
  let circuitBreakerState ← watch .state
  let timeoutErrors ← watch (.load .timeoutErrors)
  let activeRequests ← watch (.load .activeRequests)
  return { totalRequests, successfulRequests, failedRequests, circuitBreakerOpens,
           circuitBreakerState := circuitBreakerState.debug, timeoutErrors, activeRequests }

def circuitBreakerState : Program Watched CircuitState := watch .state

def load (m : PoolMetrics) : Counter → Nat
  | .totalRequests => m.totalRequests
  | .successfulRequests => m.successfulRequests
  | .failedRequests => m.failedRequests
  | .timeoutErrors => m.timeoutErrors
  | .activeRequests => m.activeRequests

def watching : Machine Watched ProductionPool Choice where
  perform t
    | .inl o, choice, w => machine.perform t o choice w
    | .inr (.load counter), .go, w => some (load w.pool.metrics counter, w)
    | .inr .loadOpens, .go, w => some (w.pool.metrics.circuitBreakerOpens, w)
    | .inr .state, .clock now, w =>
      let (state, breaker) := w.pool.breaker.observe now
      some (state, { w with pool := { w.pool with breaker } })
    | _, _, _ => none

/-- What is asked of a pool. -/
inductive Ask where
  | job (j : Job)
  | metrics
  | circuitBreakerState

/-- What comes back. -/
inductive Seen where
  | outcome (o : Outcome)
  | metrics (m : PoolMetricsReport)
  | state (s : CircuitState)

def Ask.tasks (S : Codec) : Ask → List (Program Watched Seen)
  | .job j => (j.tasks S).map fun p => Seen.outcome <$> p.embed Sum.inl fun _ r => r
  | .metrics => [Seen.metrics <$> ProductionPool.metrics]
  | .circuitBreakerState => [Seen.state <$> ProductionPool.circuitBreakerState]

/-- A new pool, its callers, and those who look at it. -/
def watched (S : Codec) (config : PoolConfig) (asks : List Ask) : Config Watched ProductionPool Seen :=
  ⟨.withConfig config, asks.flatMap (Ask.tasks S)⟩

/-- The breaker has opened between these. -/
def Opened (w w' : ProductionPool) : Bool := w.pool.breaker.state ≠ .opened && w'.pool.breaker.state = .opened

/-- How often the breaker opens in the run. -/
def openings (s : Config Watched ProductionPool Seen) (ls : List (Nat × Choice)) : Nat :=
  s.changes watching Opened ls

/-- Whoever asks for the metrics now is told of `n` openings. -/
def Counted (s : Config Watched ProductionPool Seen) (n : Nat) : Prop :=
  (⟨s.world, [metrics]⟩ : Config Watched ProductionPool PoolMetricsReport).Inevitably watching
    (Config.Performs fun _ _ _ _ => True) fun s' => ∃ report, s'.returned 0 = some report ∧
      report.circuitBreakerOpens = n

/-- Everything that has begun is over. -/
def Quiet (ls : List (Nat × Choice)) (s : Config Watched ProductionPool Seen) : Prop :=
  ∀ t ∈ ls.map Prod.fst, (s.returned t).isSome = true

/-- No failure is recorded that is one too many for a breaker that is not open. -/
def NoOpening (w : ProductionPool) (_ : Nat) (o : Watched.Op) (_ : Choice) : Prop :=
  o = .inl .recordFailure →
    w.pool.breaker.state = .opened ∨ w.pool.breaker.failures + 1 < w.pool.breaker.threshold

/-! ### What a step does -/

variable {t : Nat} {choice : Choice} {w w' : ProductionPool}

/-- Nothing counts the openings. -/
theorem entry_opens (m : PoolMetrics) (o : Op) : (entry m o).circuitBreakerOpens = m.circuitBreakerOpens := by
  cases o with
  | add counter | sub counter => cases counter <;> rfl
  | _ => rfl

/-- Only a failure opens the breaker. -/
theorem perform_opened {o : Op} {r : Calls.Ret o} (ho : o ≠ .recordFailure)
    (h : machine.perform t o choice w = some (r, w')) (hopened : w'.pool.breaker.state = .opened) :
    w.pool.breaker.state = .opened := by
  cases o with
  | recordFailure => exact absurd rfl ho
  | timed client o => rwa [timed_pool h] at hopened
  | plain client o => rwa [plain_pool h] at hopened
  | canExecute =>
    obtain ⟨⟨r', p'⟩, hp, heq⟩ := Option.map_eq_some_iff.mp h
    cases heq
    cases choice with
    | clock now =>
      obtain ⟨-, rfl⟩ := Prod.mk.inj (Option.some.inj hp)
      exact CircuitBreaker.opened_of_canExecute hopened
    | _ => cases hp
  | recordSuccess =>
    obtain ⟨⟨r', p'⟩, hp, heq⟩ := Option.map_eq_some_iff.mp h
    cases heq
    cases choice with
    | go =>
      cases hp
      exact CircuitBreaker.opened_of_recordSuccess hopened
    | _ => cases hp
  | _ =>
    obtain ⟨⟨r', p'⟩, hp, heq⟩ := Option.map_eq_some_iff.mp h
    cases heq
    exact breaker_unmoved rfl hp ▸ hopened

theorem opens_unmoved {o : Watched.Op} {r : Watched.Ret o} (h : watching.perform t o choice w = some (r, w')) :
    w'.pool.metrics.circuitBreakerOpens = w.pool.metrics.circuitBreakerOpens := by
  rcases o with o | o
  · rw [metrics_entry h, entry_opens]
  · cases o <;> cases choice <;> cases h <;> rfl

theorem opened_iff {o : Watched.Op} {r : Watched.Ret o} (h : watching.perform t o choice w = some (r, w')) :
    Opened w w' = false ↔ NoOpening w t o choice := by
  have hnot (hopened : w'.pool.breaker.state = .opened → w.pool.breaker.state = .opened) :
    Opened w w' = false := by
    unfold Opened
    by_cases hw : w.pool.breaker.state = .opened
    · simp [hw]
    · simp [mt hopened hw]
  rcases o with o | o
  · by_cases ho : o = .recordFailure
    · subst ho
      obtain ⟨⟨r', p'⟩, hp, heq⟩ := Option.map_eq_some_iff.mp h
      cases heq
      cases choice with
      | clock now =>
        cases hp
        by_cases hw : w.pool.breaker.state = .opened <;>
          by_cases hfew : w.pool.breaker.failures + 1 < w.pool.breaker.threshold <;>
            simp [Opened, NoOpening, CircuitBreaker.recordFailure, hw, hfew, Nat.not_le.mpr, Nat.le_of_not_lt]
      | _ => cases hp
    · exact iff_of_true (hnot (perform_opened ho h)) fun heq => absurd (Sum.inl.inj heq) ho
  · refine iff_of_true (hnot fun hopened => ?_) fun heq => by cases heq
    cases o with
    | state =>
      cases choice with
      | clock now =>
        obtain ⟨-, rfl⟩ := Prod.mk.inj (Option.some.inj h)
        have hobserved : (w.pool.breaker.observe now).2.state = .opened := hopened
        rcases w.pool.breaker.observe_cases now with heq | ⟨hw, -, -⟩
        · rwa [heq] at hobserved
        · exact hw
      | _ => cases h
    | _ =>
      cases choice with
      | go =>
        cases h
        exact hopened
      | _ => cases h

theorem openings_eq_zero {s s' : Config Watched ProductionPool Seen} {ls : List (Nat × Choice)}
    (hrun : s.run watching ls = some s') :
    openings s ls = 0 ↔ s.Along watching (Config.Performs NoOpening) ls := by
  unfold openings
  rw [Config.changes_eq_zero]
  refine Config.along_iff ?_ hrun
  rintro s ⟨t, choice⟩ s' hs
  obtain ⟨o, k, r, w, ho, hw, rfl⟩ := Config.step_eq_some hs
  constructor
  · intro h o' k' ho'
    cases ho.symm.trans ho'
    exact (opened_iff hw).mp (h _ hs)
  · intro h s' hs'
    cases hs.symm.trans hs'
    exact (opened_iff hw).mpr (h o k ho)

/-- Nothing is refused to an observer, and it leaves the counters alone. -/
theorem safe_watch {α : Type} {o : Observation} {f : Watched.Ret (.inr o) → Program Watched α}
    {Q : ProductionPool → α → Prop} (h : ∀ c r w', watching.perform 0 (.inr o) c w = some (r, w') →
      w'.pool.metrics = w.pool.metrics → Safe (watching.sure fun _ _ _ => True) (f r) Q w') :
    Safe (watching.sure fun _ _ _ => True) (watch o >>= f) Q w := by
  constructor
  · cases o with
    | state => exact ⟨.clock 0, _, trivial, rfl⟩
    | _ => exact ⟨.go, _, trivial, rfl⟩
  · rintro r w' ⟨c, -, hc⟩
    refine h c r w' hc ?_
    cases o <;> cases c <;> cases hc <;> rfl

theorem metrics_safe (w : ProductionPool) : Safe (watching.sure fun _ _ _ => True) metrics
    (fun _ report => report.circuitBreakerOpens = w.pool.metrics.circuitBreakerOpens) w := by
  unfold metrics
  refine safe_watch fun _ _ w₁ _ h₁ => safe_watch fun _ _ w₂ _ h₂ => safe_watch fun _ _ w₃ _ h₃ => ?_
  refine safe_watch fun c opens w₄ hopens _ => ?_
  have hread : opens = w₃.pool.metrics.circuitBreakerOpens := by
    cases c <;> cases hopens
    rfl
  refine safe_watch fun _ _ _ _ _ => safe_watch fun _ _ _ _ _ => safe_watch fun _ _ _ _ _ => ?_
  show opens = _
  rw [hread, h₃, h₂, h₁]

theorem counted_iff (s : Config Watched ProductionPool Seen) (n : Nat) :
    Counted s n ↔ s.world.pool.metrics.circuitBreakerOpens = n := by
  constructor
  · intro h
    obtain ⟨ls, s', hrun, hall, report, hreport, rfl⟩ := h.reaches
    have hreturns : Returns watching (fun _ _ _ => True) metrics s.world report s'.world :=
      ⟨ls, s', hrun, hall, hreport, rfl⟩
    exact (hreturns.safe (safe_alone (metrics_safe s.world))).symm
  · rintro rfl
    exact inevitably_returns (metrics_safe s.world) |>.mono fun s' ⟨report, hreport, hopens⟩ =>
      ⟨report, hreport, hopens⟩

variable (S : Codec) (config : PoolConfig) (asks : List Ask)

theorem opens_zero {ls : List (Nat × Choice)} {s : Config Watched ProductionPool Seen}
    (hrun : (watched S config asks).run watching ls = some s) : s.world.pool.metrics.circuitBreakerOpens = 0 := by
  refine Config.run_keeps (P := fun _ _ => True)
    (I := fun s => s.world.pool.metrics.circuitBreakerOpens = 0) ?_ hrun
    (Config.along_of_forall (fun _ _ => trivial) _ _) rfl
  rintro s ⟨t, choice⟩ s' hs - hstep
  obtain ⟨o, k, r, w, -, hw, rfl⟩ := Config.step_eq_some hstep
  exact (opens_unmoved hw).trans hs

/-- **The pool tells how often its breaker has opened exactly if it never has**: if, wherever a failure was
recorded, the breaker was open, or it took yet another one to open it. -/
theorem openings_iff {ls : List (Nat × Choice)} {s : Config Watched ProductionPool Seen}
    (hrun : (watched S config asks).run watching ls = some s) :
    Counted s (openings (watched S config asks) ls) ↔
      (watched S config asks).Along watching (Config.Performs NoOpening) ls := by
  rw [counted_iff, opens_zero S config asks hrun, eq_comm, openings_eq_zero hrun]

/-- Somebody who calls once. -/
def oneAsk : List Ask := [.job asking]

/-- The one call, up to its end. -/
def refusedOnce : List (Nat × Choice) := refused ++ goes 0 1

/-- A breaker that takes two failures has not opened. -/
theorem openings_iff_refused :
    ∃ s, (watched compact { tight with circuitBreakerThreshold := 2 } oneAsk).run watching refusedOnce = some s ∧
      (Counted s
          (openings (watched compact { tight with circuitBreakerThreshold := 2 } oneAsk) refusedOnce) ↔
        (watched compact { tight with circuitBreakerThreshold := 2 } oneAsk).Along watching
          (Config.Performs NoOpening) refusedOnce) := by
  have hrun : ((watched compact { tight with circuitBreakerThreshold := 2 } oneAsk).run watching
      refusedOnce).isSome = true := by decide +kernel
  obtain ⟨s, hs⟩ := Option.isSome_iff_exists.mp hrun
  exact ⟨s, hs, openings_iff compact _ oneAsk hs⟩

/-- The breaker opens once, and the pool tells of no opening. -/
theorem opened_once : ∃ s, (watched compact tight oneAsk).run watching refusedOnce = some s ∧
    Quiet refusedOnce s ∧ openings (watched compact tight oneAsk) refusedOnce = 1 ∧ Counted s 0 ∧
      ¬ Counted s 1 := by
  have hend : ((watched compact tight oneAsk).run watching refusedOnce).any (fun s =>
      (refusedOnce.map Prod.fst).all (fun t => (s.returned t).isSome) &&
        s.world.pool.metrics.circuitBreakerOpens = 0) = true := by decide +kernel
  obtain ⟨s, hrun, hs⟩ := (Option.any_eq_true _ _).mp hend
  obtain ⟨hquiet, hopens⟩ := Bool.and_eq_true_iff.mp hs
  have hzero : s.world.pool.metrics.circuitBreakerOpens = 0 := of_decide_eq_true hopens
  refine ⟨s, hrun, fun t ht => List.all_eq_true.mp hquiet t ht, by decide +kernel,
    (counted_iff s 0).mpr hzero, ?_⟩
  rw [counted_iff, hzero]
  decide

end ProductionPool

end XProtocol
