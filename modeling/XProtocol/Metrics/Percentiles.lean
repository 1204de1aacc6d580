import Mathlib.Algebra.Order.Floor.Div
import Mathlib.Data.List.Induction
import Mathlib.GroupTheory.GroupAction.Ring
import XProtocol.Metrics

/-! What the latency percentiles describe.

A histogram knows how many values are at or below each of its bounds, so that a percentile
is the first bound that reaches the rank it is asked for (`percentile_eq`). The rank comes
from the number of requests that were started, and the documented one from the number of
those that have ended. A snapshot describes the completed requests if the two numbers have
the same ranks, as they have while nothing is in flight, and if they have not, then it does
not describe them for some latencies (`described_iff`). -/
namespace XProtocol

namespace Histogram
variable {bounds : List Nat}

/-- The buckets count `values`. -/
def Counts (h : Histogram) (values : List Nat) : Prop :=
  h.buckets = (List.range (h.bounds.length + 1)).map fun i => values.countP fun v => index h.bounds v = i

theorem counts_new (bounds : List Nat) : (new bounds).Counts [] := by
  unfold Counts new
  simp [List.map_const']

theorem observe_counts {h : Histogram} {values : List Nat} (hcounts : h.Counts values)
    (hlen : values.length + 1 < 2 ^ 64) (value : Nat) : (h.observe value).Counts (values ++ [value]) := by
  unfold Counts observe at *
  simp only [hcounts]
  refine List.ext_getElem (by simp) fun i hi _ => ?_
  have hle : values.countP (fun v => index h.bounds v = i) ≤ values.length := List.countP_le_length
  simp only [List.getElem_modify, List.getElem_map, List.getElem_range, List.countP_append,
    List.countP_singleton, fetchAdd, decide_eq_true_eq]
  split
  · rw [Nat.mod_eq_of_lt (by omega)]
  · rw [Nat.add_zero]

/-- A value lies in the first buckets exactly if the bound of the next one holds it. -/
theorem index_le_iff {before after : List Nat} {b : Nat} (hsorted : (before ++ b :: after).Pairwise (· < ·))
    (value : Nat) : index (before ++ b :: after) value ≤ before.length ↔ value ≤ b := by
  obtain ⟨-, -, hbelow⟩ := List.pairwise_append.mp hsorted
  unfold index
  constructor
  · intro h
    by_contra hlt
    have hall : ∀ x ∈ before, decide (x < value) = true := fun x hx => by
      have := hbelow x hx b (List.mem_cons_self ..)
      simp only [decide_eq_true_eq]
      omega
    rw [List.takeWhile_append_of_pos hall, List.takeWhile_cons, if_pos (by simp; omega)] at h
    simp at h
  · intro h
    rw [List.takeWhile_append]
    split
    · rw [List.takeWhile_cons, if_neg (by simp; omega)]
      simp
    · exact (List.takeWhile_prefix _).length_le

theorem countP_lt_succ (f : Nat → Nat) (values : List Nat) (n : Nat) :
    (values.countP fun v => f v < n) + (values.countP fun v => f v = n) =
      values.countP fun v => f v < n + 1 := by
  induction values with
  | nil => rfl
  | cons v rest ih =>
    simp only [List.countP_cons, decide_eq_true_eq]
    split_ifs <;> omega

/-- The loop stops at the first bound that reaches the rank, from where it is. -/
theorem scan_eq (values : List Nat) (rank : Nat) {before after : List Nat} (hbounds : bounds = before ++ after)
    (hsorted : bounds.Pairwise (· < ·)) :
    scan bounds rank before.length (values.countP fun v => index bounds v < before.length)
        ((List.range' before.length (after.length + 1)).map fun i => values.countP fun v => index bounds v = i) =
      (after.find? fun b => rank ≤ values.countP (· ≤ b)).getD (lastBound bounds) := by
  induction after generalizing before with
  | nil =>
    subst hbounds
    simp [scan]
  | cons b after ih =>
    rw [List.length_cons, List.range'_succ, List.map_cons, scan]
    simp only [countP_lt_succ (index bounds)]
    have hreached : (values.countP fun v => index bounds v < before.length + 1) = values.countP (· ≤ b) := by
      subst hbounds
      refine List.countP_congr fun v _ => ?_
      simp only [decide_eq_true_eq, Nat.lt_succ_iff]
      exact index_le_iff hsorted v
    have hnext := @ih (before ++ [b]) (by rw [hbounds, List.append_assoc]; rfl)
    rw [List.length_append, List.length_singleton] at hnext
    rw [hnext, hreached]
    by_cases h : rank ≤ values.countP (· ≤ b)
    · rw [if_pos h, List.find?_cons_of_pos (by simpa using h), hbounds]
      simp
    · rw [if_neg h, List.find?_cons_of_neg (by simpa using h)]

/-- As long as the product has 53 bits, the rank is the ceiling that is meant. -/
theorem target_eq {p total : Nat} (hprod : total * p < 2 ^ 53) (htotal : total < 2 ^ 53) :
    target p total = (total * p) ⌈/⌉ 100 := by
  unfold target
  have hmul : (total : ℚ) * p = (total * p : ℕ) := by push_cast; rfl
  have hdiv : ((total * p : ℕ) : ℚ) / 100 = (total * p : ℕ) / (100 : ℕ) := by norm_num
  rw [Binary64.round_natCast htotal, hmul, Binary64.round_natCast hprod, Binary64.ceil_round_div hprod, hdiv,
    Rat.ceil_natCast_div_natCast, Nat.ceilDiv_eq_add_pred_div]
  omega

/-- **A percentile is the first bound that reaches its rank**, or the last one. -/
theorem percentile_eq {h : Histogram} {values : List Nat} (hcounts : h.Counts values)
    (hsorted : h.bounds.Pairwise (· < ·)) {p : ℚ} {total : Nat} (htotal : 0 < total) :
    h.percentile p total =
      (h.bounds.find? fun b => target p total ≤ values.countP (· ≤ b)).getD (lastBound h.bounds) := by
  unfold percentile
  rw [if_neg htotal.ne', hcounts, List.range_eq_range']
  have hscan := scan_eq values (target p total) (List.nil_append h.bounds).symm hsorted
  simpa using hscan

theorem lastBound_cons (a b : Nat) (rest : List Nat) : lastBound (a :: b :: rest) = lastBound (b :: rest) := by
  simp [lastBound]

theorem lastBound_mem (b : Nat) (rest : List Nat) : lastBound (b :: rest) ∈ b :: rest := by
  simp [lastBound, List.getLast?_eq_some_getLast, List.getLast_mem]

/-- Two ranks stop at the same bound exactly if no bound below the last tells them apart. -/
theorem first_eq_iff (hsorted : bounds.Pairwise (· < ·)) {P Q : Nat → Prop} [DecidablePred P] [DecidablePred Q]
    (hP : ∀ a b, a ≤ b → P a → P b) (hQ : ∀ a b, a ≤ b → Q a → Q b) :
    (bounds.find? fun b => P b).getD (lastBound bounds) = (bounds.find? fun b => Q b).getD (lastBound bounds) ↔
      ∀ b ∈ bounds.dropLast, P b ↔ Q b := by
  induction bounds with
  | nil => simp
  | cons a rest ih =>
    obtain ⟨hlt, hrest⟩ := List.pairwise_cons.mp hsorted
    cases rest with
    | nil => by_cases ha : P a <;> by_cases hb : Q a <;> simp [lastBound, ha, hb]
    | cons b rest =>
      -- what is found behind `a` is not `a`
      have hlater (R : Nat → Prop) [DecidablePred R] :
          ((b :: rest).find? fun b => R b).getD (lastBound (b :: rest)) ≠ a := by
        cases hfind : (b :: rest).find? fun b => R b with
        | none => exact (hlt _ (lastBound_mem b rest)).ne'
        | some x => exact (hlt x (List.mem_of_find?_eq_some hfind)).ne'
      have hhit (R : Nat → Prop) [DecidablePred R] (h : R a) :
          (a :: b :: rest).find? (fun b => R b) = some a := List.find?_cons_of_pos (by simpa using h)
      have hmiss (R : Nat → Prop) [DecidablePred R] (h : ¬ R a) :
          (a :: b :: rest).find? (fun b => R b) = (b :: rest).find? fun b => R b :=
        List.find?_cons_of_neg (by simpa using h)
      rw [lastBound_cons, List.dropLast_cons_cons, List.forall_mem_cons]
      by_cases ha : P a <;> by_cases hb : Q a
      · rw [hhit P ha, hhit Q hb]
        refine iff_of_true rfl ⟨iff_of_true ha hb, fun x hx => ?_⟩
        have hle := (hlt x (List.mem_of_mem_dropLast hx)).le
        exact iff_of_true (hP a x hle ha) (hQ a x hle hb)
      · rw [hhit P ha, hmiss Q hb]
        exact iff_of_false (hlater Q).symm fun h => hb (h.1.mp ha)
      · rw [hmiss P ha, hhit Q hb]
        exact iff_of_false (hlater P) fun h => ha (h.1.mpr hb)
      · rw [hmiss P ha, hmiss Q hb, ih hrest]
        simp [ha, hb]

end Histogram

/-- What the callbacks are told when `rule` is broken. -/
def AlertManager.raised (now : Nat) (service : String) (rule : AlertRule) : Alert where
  ruleName := rule.name
  message := s!"{service}: threshold exceeded"
  severity := .warning
  timestamp := now

theorem AlertManager.check_middle (rules : List AlertRule) (now : Nat) (front back : List (String × ServiceMetrics))
    (service : String) (m : ServiceMetrics) :
    check rules now ⟨front ++ (service, m) :: back⟩ =
      check rules now ⟨front⟩ ++
        (rules.filter fun rule => rule.metric = service && shouldAlert m.snapshot rule.condition).map
          (raised now service) ++
        check rules now ⟨back⟩ := by
  unfold check MetricsCollector.snapshotAll
  rw [List.map_append, List.map_cons, List.flatMap_append, List.flatMap_cons, List.append_assoc]
  rfl

/-! ### What is called -/

namespace ServiceMetrics

inductive Call where
  | requestStart
  | requestEnd (latency : Nat) (success isTimeout : Bool)

def perform (m : ServiceMetrics) : Call → ServiceMetrics
  | .requestStart => m.requestStart
  | .requestEnd latency success isTimeout => m.requestEnd latency success isTimeout

def after (calls : List Call) : ServiceMetrics := calls.foldl perform new

def Call.starts : Call → Bool
  | .requestStart => true
  | .requestEnd .. => false

/-- The latency of a request that has ended, in whole milliseconds. -/
def Call.millis : Call → Option Nat
  | .requestStart => none
  | .requestEnd latency _ _ => some (asMillis latency)

/-- How many requests have started. -/
def started (calls : List Call) : Nat := calls.countP Call.starts

/-- The latencies of the completed requests. -/
def completed (calls : List Call) : List Nat := calls.filterMap Call.millis

theorem completed_snoc (calls : List Call) (c : Call) :
    completed (calls ++ [c]) = completed calls ++ c.millis.toList := by
  cases c <;> simp [completed, Call.millis]

theorem after_snoc (calls : List Call) (c : Call) : after (calls ++ [c]) = (after calls).perform c :=
  List.foldl_concat ..

@[simp] theorem requestEnd_requestsTotal (m : ServiceMetrics) (latency : Nat) (success isTimeout : Bool) :
    (m.requestEnd latency success isTimeout).requestsTotal = m.requestsTotal := by
  unfold requestEnd
  cases isTimeout <;> cases success <;> rfl

@[simp] theorem requestEnd_latencyHistogram (m : ServiceMetrics) (latency : Nat) (success isTimeout : Bool) :
    (m.requestEnd latency success isTimeout).latencyHistogram =
      m.latencyHistogram.observe (asMillis latency % 2 ^ 64) := by
  unfold requestEnd
  cases isTimeout <;> cases success <;> rfl

/-- What the counters say of the calls, as long as none wraps around. -/
theorem after_counts {calls : List Call} (hlen : calls.length < 2 ^ 64) :
    (after calls).requestsTotal = started calls ∧ (after calls).latencyHistogram.bounds = latencyBounds ∧
      (after calls).latencyHistogram.Counts ((completed calls).map (· % 2 ^ 64)) := by
  induction calls using List.reverseRecOn with
  | nil => exact ⟨rfl, rfl, Histogram.counts_new _⟩
  | append_singleton calls c ih =>
    rw [List.length_append, List.length_singleton] at hlen
    obtain ⟨htotal, hbounds, hcounts⟩ := ih (by omega)
    have hstarted : started calls ≤ calls.length := List.countP_le_length
    have hcompleted : (completed calls).length ≤ calls.length := List.length_filterMap_le ..
    rw [after_snoc]
    cases c with
    | requestStart =>
      refine ⟨?_, hbounds, ?_⟩
      · show fetchAdd (after calls).requestsTotal 1 = _
        rw [htotal, fetchAdd, Nat.mod_eq_of_lt (by omega)]
        simp [started, Call.starts]
      · show (after calls).latencyHistogram.Counts _
        rw [completed_snoc]
        simpa [Call.millis] using hcounts
    | requestEnd latency success isTimeout =>
      refine ⟨?_, ?_, ?_⟩
      · simpa [perform, started, Call.starts] using htotal
      · simpa [perform, Histogram.observe] using hbounds
      · have hobserved := Histogram.observe_counts hcounts (by rw [List.length_map]; omega)
          (asMillis latency % 2 ^ 64)
        simpa [perform, completed, Call.millis] using hobserved

/-! ### What a snapshot describes -/

/-- The percentile of `latencies` that is asked for. -/
def documented (p : Nat) (latencies : List Nat) : Nat :=
  if latencies = [] then 0
  else (latencyBounds.find? fun b => (latencies.length * p) ⌈/⌉ 100 ≤ latencies.countP (· ≤ b)).getD
    (Histogram.lastBound latencyBounds)

/-- A snapshot and the alerts tell of the completed requests alone. -/
structure Described (calls : List Call) : Prop where
  p50 : (after calls).snapshot.latencyP50Ms = documented 50 (completed calls)
  p95 : (after calls).snapshot.latencyP95Ms = documented 95 (completed calls)
  p99 : (after calls).snapshot.latencyP99Ms = documented 99 (completed calls)
  alerts : ∀ (rules : List AlertRule) (now : Nat) (front back : List (String × ServiceMetrics)) (service : String),
    AlertManager.check rules now ⟨front ++ (service, after calls) :: back⟩ =
      AlertManager.check rules now ⟨front⟩ ++
        (rules.filter fun rule => rule.metric = service && AlertManager.shouldAlert
          { (after calls).snapshot with latencyP99Ms := documented 99 (completed calls) } rule.condition).map
            (AlertManager.raised now service) ++
        AlertManager.check rules now ⟨back⟩

/-- No bound but the last lies between the rank taken from the requests that have started and
the one taken from those that have ended. -/
structure Steady (p : Nat) (calls : List Call) : Prop where
  some_iff : 0 < started calls ↔ completed calls ≠ []
  same : ∀ b ∈ latencyBounds.dropLast,
    Histogram.target p (started calls) ≤ (completed calls).countP (fun ms => ms % 2 ^ 64 ≤ b) ↔
      ((completed calls).length * p) ⌈/⌉ 100 ≤ (completed calls).countP (· ≤ b)

theorem find_ne_zero (P : Nat → Bool) : (latencyBounds.find? P).getD (Histogram.lastBound latencyBounds) ≠ 0 := by
  have hpos : ∀ b ∈ latencyBounds, b ≠ 0 := by decide
  cases hfind : latencyBounds.find? P with
  | none => decide
  | some b => exact hpos b (List.mem_of_find?_eq_some hfind)

theorem countP_le_mono (f : Nat → Nat) (values : List Nat) {a b : Nat} (hab : a ≤ b) :
    values.countP (fun v => f v ≤ a) ≤ values.countP (fun v => f v ≤ b) :=
  List.countP_mono_left fun v _ h => by
    simp only [decide_eq_true_eq] at h ⊢
    omega

/-- A percentile is the documented one exactly if the two ranks stop at the same bound. -/
theorem percentile_iff {calls : List Call} (hlen : calls.length < 2 ^ 64) (p : Nat) :
    (after calls).latencyHistogram.percentile p (after calls).requestsTotal = documented p (completed calls) ↔
      Steady p calls := by
  obtain ⟨htotal, hbounds, hcounts⟩ := after_counts hlen
  have hsorted : latencyBounds.Pairwise (· < ·) := by decide
  rw [htotal]
  by_cases hstarted : 0 < started calls
  · rw [Histogram.percentile_eq hcounts (hbounds ▸ hsorted) hstarted, hbounds]
    by_cases hcompleted : completed calls = []
    · rw [documented, if_pos hcompleted]
      exact iff_of_false (find_ne_zero _) fun h => h.some_iff.mp hstarted hcompleted
    · rw [documented, if_neg hcompleted]
      simp only [List.countP_map, Function.comp_def]
      rw [Histogram.first_eq_iff hsorted (fun _ _ hab h => h.trans (countP_le_mono (· % 2 ^ 64) _ hab))
        fun _ _ hab h => h.trans (countP_le_mono id _ hab)]
      exact ⟨fun h => ⟨iff_of_true hstarted hcompleted, h⟩, Steady.same⟩
  · have hzero : started calls = 0 := by omega
    rw [Histogram.percentile, if_pos hzero]
    by_cases hcompleted : completed calls = []
    · refine iff_of_true (by rw [documented, if_pos hcompleted]) ⟨by simp [hzero, hcompleted], fun b _ => ?_⟩
      rw [hzero, hcompleted]
      simp [Histogram.target, Binary64.round, Binary64.nearest]
    · rw [documented, if_neg hcompleted]
      exact iff_of_false (find_ne_zero _).symm fun h => hstarted (h.some_iff.mpr hcompleted)

theorem Described.steady {calls : List Call} (h : Described calls) (hlen : calls.length < 2 ^ 64) :
    ∀ p ∈ [50, 95, 99], Steady p calls := by
  intro p hp
  simp only [List.mem_cons, List.not_mem_nil, or_false] at hp
  rcases hp with rfl | rfl | rfl
  exacts [(percentile_iff hlen 50).mp h.p50, (percentile_iff hlen 95).mp h.p95, (percentile_iff hlen 99).mp h.p99]

theorem described_of_steady {calls : List Call} (hlen : calls.length < 2 ^ 64)
    (h : ∀ p ∈ [50, 95, 99], Steady p calls) : Described calls := by
  have h99 := (percentile_iff hlen 99).mpr (h 99 (by decide))
  refine ⟨(percentile_iff hlen 50).mpr (h 50 (by decide)), (percentile_iff hlen 95).mpr (h 95 (by decide)), h99, ?_⟩
  intro rules now front back service
  rw [AlertManager.check_middle, ← h99]
  rfl

/-! ### The numbers of requests -/

/-- The requests that have started, and those that have ended, have the same rank. -/
def Level (p : Nat) (calls : List Call) : Prop :=
  (started calls * p) ⌈/⌉ 100 = ((completed calls).length * p) ⌈/⌉ 100

/-- There are no more requests than a double counts exactly, and none takes longer than 64 bits say. -/
structure Moderate (calls : List Call) : Prop where
  few : started calls ≤ 2 ^ 46
  short : ∀ ms ∈ completed calls, ms < 2 ^ 64

theorem level_of_idle {calls : List Call} (hidle : started calls = (completed calls).length) (p : Nat) :
    Level p calls := by
  rw [Level, hidle]

theorem rank_eq {p k : Nat} (hp : p ≤ 100) (hk : k ≤ 2 ^ 46) : Histogram.target p k = (k * p) ⌈/⌉ 100 := by
  have hprod : k * p < 2 ^ 53 := by
    calc k * p ≤ 2 ^ 46 * 100 := Nat.mul_le_mul hk hp
      _ < 2 ^ 53 := by decide
  exact Histogram.target_eq hprod (by omega)

theorem rank_pos {p n : Nat} (hp : 0 < p) : 0 < (n * p) ⌈/⌉ 100 ↔ 0 < n := by
  rw [Nat.ceilDiv_eq_add_pred_div]
  rcases Nat.eq_zero_or_pos n with rfl | hn
  · simp
  · have hprod := Nat.mul_pos hn hp
    exact iff_of_true (Nat.div_pos (by omega) (by decide)) hn

/-- Where the ranks are the same, no bound tells them apart. -/
theorem steady_of_level {p : Nat} {calls : List Call} (hp : 0 < p ∧ p ≤ 100) (hmoderate : Moderate calls)
    (hlevel : Level p calls) : Steady p calls := by
  refine ⟨?_, fun b _ => ?_⟩
  · rw [← rank_pos (n := started calls) hp.1, show _ = _ from hlevel, rank_pos hp.1, List.length_pos_iff]
  · rw [rank_eq hp.2 hmoderate.few, show _ = _ from hlevel]
    refine Iff.of_eq (congrArg _ (List.countP_congr fun ms hms => ?_))
    rw [Nat.mod_eq_of_lt (hmoderate.short ms hms)]

/-- The same calls, but the first `k` requests that end take no time, and the others more than a minute. -/
def retimed : (k : Nat) → List Call → List Call
  | _, [] => []
  | k, .requestStart :: rest => .requestStart :: retimed k rest
  | 0, .requestEnd _ success isTimeout :: rest => .requestEnd 60001000000 success isTimeout :: retimed 0 rest
  | k + 1, .requestEnd _ success isTimeout :: rest => .requestEnd 0 success isTimeout :: retimed k rest

theorem retimed_starts (k : Nat) (calls : List Call) : (retimed k calls).map Call.starts = calls.map Call.starts := by
  fun_induction retimed k calls with
  | case1 => rfl
  | case2 k rest ih => simp only [List.map_cons, ih]
  | case3 latency success isTimeout rest ih =>
    simp only [List.map_cons, ih]
    rfl
  | case4 k latency success isTimeout rest ih =>
    simp only [List.map_cons, ih]
    rfl

theorem retimed_completed (k : Nat) (calls : List Call) :
    (completed (retimed k calls)).length = (completed calls).length ∧
      (∀ ms ∈ completed (retimed k calls), ms = 0 ∨ ms = 60001) ∧
      (completed (retimed k calls)).countP (· ≤ 10) = min k (completed calls).length := by
  fun_induction retimed k calls with
  | case1 k => simp [completed]
  | case2 k rest ih => exact ih
  | case3 latency success isTimeout rest ih =>
    obtain ⟨hlength, hall, hcount⟩ := ih
    have hslow : asMillis 60001000000 = 60001 := by decide
    refine ⟨by simpa [completed, Call.millis] using hlength, ?_, ?_⟩
    · intro ms hms
      rcases List.mem_cons.mp hms with rfl | hms
      · exact .inr hslow
      · exact hall ms hms
    · simpa [completed, Call.millis, hslow] using hcount
  | case4 k latency success isTimeout rest ih =>
    obtain ⟨hlength, hall, hcount⟩ := ih
    have hquick : asMillis 0 = 0 := by decide
    refine ⟨by simpa [completed, Call.millis] using hlength, ?_, ?_⟩
    · intro ms hms
      rcases List.mem_cons.mp hms with rfl | hms
      · exact .inl hquick
      · exact hall ms hms
    · simp only [completed, Call.millis, hquick, List.filterMap_cons, List.countP_cons, List.length_cons] at hcount ⊢
      simp only [hcount]
      simp

theorem started_congr {calls calls' : List Call} (h : calls'.map Call.starts = calls.map Call.starts) :
    started calls' = started calls := by
  have hcount (calls : List Call) : started calls = (calls.map Call.starts).countP id := by
    rw [started, List.countP_map]
    rfl
  rw [hcount, hcount, h]

/-- Where the ranks differ, the lesser of them is a number of requests within the first bound that tells. -/
theorem not_steady_of_not_level {p : Nat} {calls : List Call} (hp : p ≤ 100) (hfew : started calls ≤ 2 ^ 46)
    (hlevel : ¬ Level p calls) :
    ∃ calls', calls'.map Call.starts = calls.map Call.starts ∧ Moderate calls' ∧ ¬ Steady p calls' := by
  let k := min ((started calls * p) ⌈/⌉ 100) (((completed calls).length * p) ⌈/⌉ 100)
  obtain ⟨hlength, hall, hcount⟩ := retimed_completed k calls
  have hstarted := started_congr (retimed_starts k calls)
  have hshort : ∀ ms ∈ completed (retimed k calls), ms < 2 ^ 64 := by
    intro ms hms
    rcases hall ms hms with rfl | rfl <;> decide
  have hle : k ≤ (completed calls).length := by
    have hrank : ((completed calls).length * p) ⌈/⌉ 100 ≤ (completed calls).length := by
      rw [Nat.ceilDiv_eq_add_pred_div]
      have hprod := Nat.mul_le_mul_left (completed calls).length hp
      omega
    exact (Nat.min_le_right ..).trans hrank
  refine ⟨retimed k calls, retimed_starts k calls, ⟨hstarted ▸ hfew, hshort⟩, fun hsteady => hlevel ?_⟩
  have hsame := hsteady.same 10 (by decide)
  have hmod : (completed (retimed k calls)).countP (fun ms => ms % 2 ^ 64 ≤ 10) = k := by
    rw [List.countP_congr fun ms hms => by rw [Nat.mod_eq_of_lt (hshort ms hms)], hcount, Nat.min_eq_left hle]
  rw [hmod, hcount, Nat.min_eq_left hle, hstarted, hlength, rank_eq hp hfew] at hsame
  have hk : k = min ((started calls * p) ⌈/⌉ 100) (((completed calls).length * p) ⌈/⌉ 100) := rfl
  rw [Level]
  omega

/-- **The percentiles describe the completed requests where these have the ranks of the requests that were
started**, as they have while nothing is in flight; and where one of the three ranks differs, there are latencies
with which they do not. -/
theorem described_iff (calls : List Call) (hlen : calls.length < 2 ^ 64) :
    (Moderate calls → (∀ p ∈ [50, 95, 99], Level p calls) → Described calls) ∧
    (started calls ≤ 2 ^ 46 → (∃ p ∈ [50, 95, 99], ¬ Level p calls) →
      ∃ calls', calls'.map Call.starts = calls.map Call.starts ∧ Moderate calls' ∧ ¬ Described calls') := by
  have hpercent : ∀ p ∈ [50, 95, 99], 0 < p ∧ p ≤ 100 := by decide
  constructor
  · intro hmoderate hlevel
    exact described_of_steady hlen fun p hp => steady_of_level (hpercent p hp) hmoderate (hlevel p hp)
  · rintro hfew ⟨p, hp, hlevel⟩
    obtain ⟨calls', hstarts, hmoderate, hsteady⟩ := not_steady_of_not_level (hpercent p hp).2 hfew hlevel
    have hlen' : calls'.length < 2 ^ 64 := by
      rw [← List.length_map (f := Call.starts), hstarts, List.length_map]
      exact hlen
    exact ⟨calls', hstarts, hmoderate, fun h => hsteady (h.steady hlen' p hp)⟩

/-- One request, come and gone within 5 ms. -/
theorem described_one : Described [.requestStart, .requestEnd (5 * 10 ^ 6) true false] :=
  (described_iff [.requestStart, .requestEnd (5 * 10 ^ 6) true false] (by decide)).1 ⟨by decide, by decide⟩
    fun p _ => level_of_idle rfl p

/-- Two requests, of which one has ended after 5 ms: the percentiles tell of a minute. -/
theorem one_in_flight :
    ¬ Described [.requestStart, .requestStart, .requestEnd (5 * 10 ^ 6) true false] := fun h =>
  absurd h.p99 (by decide +kernel)

end ServiceMetrics

end XProtocol
