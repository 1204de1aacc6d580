import XProtocol.Binary64

/-! Request metrics.

Every counter is an atomic of 64 bits and wraps around. A histogram counts the observed
values by bucket: one for each bound, and one for what is beyond the last. -/
namespace XProtocol

/-- `fetch_add`, on 64 bits. -/
def fetchAdd (counter n : Nat) : Nat := (counter + n) % 2 ^ 64

/-- `fetch_sub`, on 64 bits. -/
def fetchSub (counter n : Nat) : Nat := (counter + 2 ^ 64 - n % 2 ^ 64) % 2 ^ 64

structure Histogram where
  buckets : List Nat
  bounds : List Nat

namespace Histogram

def new (bounds : List Nat) : Histogram := { buckets := List.replicate (bounds.length + 1) 0, bounds }

/-- What `bounds.binary_search(&value)` finds in increasing bounds: where `value` is, or would be. -/
def index (bounds : List Nat) (value : Nat) : Nat := (bounds.takeWhile (· < value)).length

def observe (h : Histogram) (value : Nat) : Histogram :=
  { h with buckets := h.buckets.modify (index h.bounds value) (fetchAdd · 1) }

/-- `*bounds.last().unwrap_or(&100)`. -/
def lastBound (bounds : List Nat) : Nat := bounds.getLast?.getD 100

/-- `(total as f64 * p / 100.0).ceil() as u64`. -/
def target (p : ℚ) (total : Nat) : Nat :=
  min ⌈Binary64.round (Binary64.round (Binary64.round total * p) / 100)⌉.toNat (2 ^ 64 - 1)

/-- The loop of `percentile`, from the i-th bucket on. -/
def scan (bounds : List Nat) (target : Nat) : (i cumulative : Nat) → List Nat → Nat
  | _, _, [] => lastBound bounds
  | i, cumulative, bucket :: rest =>
    let cumulative := cumulative + bucket
    if cumulative ≥ target then bounds[i]?.getD (lastBound bounds)
    else scan bounds target (i + 1) cumulative rest

def percentile (h : Histogram) (p : ℚ) (total : Nat) : Nat :=
  if total = 0 then 0 else scan h.bounds (target p total) 0 0 h.buckets

end Histogram

structure RequestMetrics where
  total : Nat
  success : Nat
  failure : Nat
  timeout : Nat
  latencyAvgMs : Nat
  latencyP50Ms : Nat
  latencyP95Ms : Nat
  latencyP99Ms : Nat
  latencyMaxMs : Nat

structure ServiceMetrics where
  requestsTotal : Nat
  requestsSuccess : Nat
  requestsFailure : Nat
  requestsTimeout : Nat
  latencySumMs : Nat
  latencyCount : Nat
  latencyMaxMs : Nat
  activeRequests : Nat
  latencyHistogram : Histogram

namespace ServiceMetrics

def latencyBounds : List Nat := [10, 50, 100, 250, 500, 1000, 2500, 5000, 10000, 30000, 60000]

def new : ServiceMetrics where
  requestsTotal := 0
  requestsSuccess := 0
  requestsFailure := 0
  requestsTimeout := 0
  latencySumMs := 0
  latencyCount := 0
  latencyMaxMs := 0
  activeRequests := 0
  latencyHistogram := .new latencyBounds

def requestStart (m : ServiceMetrics) : ServiceMetrics :=
  { m with requestsTotal := fetchAdd m.requestsTotal 1, activeRequests := fetchAdd m.activeRequests 1 }

/-- `latency.as_millis()`; a latency is in nanoseconds. -/
def asMillis (latency : Nat) : Nat := latency / 10 ^ 6

/-- `request_end`: the milliseconds are cut off at 64 bits. -/
def requestEnd (m : ServiceMetrics) (latency : Nat) (success isTimeout : Bool) : ServiceMetrics :=
  let latencyMs := asMillis latency % 2 ^ 64
  let m := { m with
    activeRequests := fetchSub m.activeRequests 1
    latencyCount := fetchAdd m.latencyCount 1
    latencySumMs := fetchAdd m.latencySumMs latencyMs
    latencyMaxMs := max m.latencyMaxMs latencyMs
    latencyHistogram := m.latencyHistogram.observe latencyMs }
  if isTimeout then { m with requestsTimeout := fetchAdd m.requestsTimeout 1 }
  else if success then { m with requestsSuccess := fetchAdd m.requestsSuccess 1 }
  else { m with requestsFailure := fetchAdd m.requestsFailure 1 }

def snapshot (m : ServiceMetrics) : RequestMetrics where
  total := m.requestsTotal
  success := m.requestsSuccess
  failure := m.requestsFailure
  timeout := m.requestsTimeout
  latencyAvgMs := if m.latencyCount > 0 then m.latencySumMs / m.latencyCount else 0
  latencyP50Ms := m.latencyHistogram.percentile 50 m.requestsTotal
  latencyP95Ms := m.latencyHistogram.percentile 95 m.requestsTotal
  latencyP99Ms := m.latencyHistogram.percentile 99 m.requestsTotal
  latencyMaxMs := m.latencyMaxMs

def activeCount (m : ServiceMetrics) : Nat := m.activeRequests

end ServiceMetrics

/-- The metrics of every service, by name. -/
structure MetricsCollector where
  services : List (String × ServiceMetrics)

def MetricsCollector.snapshotAll (c : MetricsCollector) : List (String × RequestMetrics) :=
  c.services.map fun s => (s.1, s.2.snapshot)

/-! ### Alerts -/

inductive AlertCondition where
  | latencyP99Above (threshold : Nat)
  /-- The threshold is a finite number. -/
  | errorRateAbove (threshold : ℚ)
  | activeConnectionsAbove (threshold : Nat)
  | circuitBreakerOpen

structure AlertRule where
  name : String
  metric : String
  condition : AlertCondition
  /-- In nanoseconds, as times are. -/
  cooldown : Nat

inductive AlertSeverity where
  | warning
  | critical

structure Alert where
  ruleName : String
  message : String
  severity : AlertSeverity
  timestamp : Nat

namespace AlertManager

def shouldAlert (snapshot : RequestMetrics) : AlertCondition → Bool
  | .latencyP99Above threshold => decide (snapshot.latencyP99Ms > threshold)
  | .errorRateAbove threshold =>
    if snapshot.total > 0 then
      decide (Binary64.round (Binary64.round snapshot.failure / Binary64.round snapshot.total) > threshold)
    else false
  | .circuitBreakerOpen => false
  | .activeConnectionsAbove _ => false

/-- `check`: the alerts that each callback is given. -/
def check (rules : List AlertRule) (now : Nat) (metrics : MetricsCollector) : List Alert :=
  metrics.snapshotAll.flatMap fun s =>
    (rules.filter fun rule => rule.metric = s.1 && shouldAlert s.2 rule.condition).map fun rule =>
      { ruleName := rule.name, message := s!"{s.1}: threshold exceeded", severity := .warning, timestamp := now }

end AlertManager

end XProtocol
