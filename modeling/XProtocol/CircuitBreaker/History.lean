import Mathlib.Data.List.Induction
import Mathlib.Tactic.ByContra
import XProtocol.CircuitBreaker

/-! The circuit breaker over whole histories.

The breaker keeps a counter, a state and an instant, and each of them moves by rules of
its own. Over a history the counter is the number of failures since the last success,
and the instant that of the last failure (`tracks`); the state is what
`breaker_safe` says of it.

A success that comes late, while the breaker is open, clears the counter and leaves the
state. Then the next probe may fail without opening the breaker again; it opens exactly
if the failures since that success reach the threshold (`failed_probe_exact`). -/
namespace XProtocol.CircuitBreaker

inductive Call where
  | recordSuccess
  | recordFailure
  | state
  | isAvailable
  | canExecute
  deriving DecidableEq

structure Event where
  time : Nat
  call : Call

/-- The call looks at the state, and may change it. -/
def Call.Looks : Call → Prop
  | .recordSuccess | .recordFailure => False
  | _ => True

def after (b : CircuitBreaker) (e : Event) : CircuitBreaker :=
  match e.call with
  | .recordSuccess => b.recordSuccess
  | .recordFailure => b.recordFailure e.time
  | .state => (b.observe e.time).2
  | .isAvailable => (b.isAvailable e.time).2
  | .canExecute => (b.canExecute e.time).2

def run (b : CircuitBreaker) (history : List Event) : CircuitBreaker := history.foldl after b

/-- A new breaker. -/
def fresh (threshold timeout : Nat) : CircuitBreaker := (new threshold).withTimeout timeout

/-! ### What a history says -/

/-- The failures recorded since the last success. -/
def sinceSuccess (history : List Event) : Nat :=
  history.foldl (fun n e => match e.call with
    | .recordSuccess => 0
    | .recordFailure => n + 1
    | _ => n) 0

/-- The time of the last failure. -/
def lastFailureIn (history : List Event) : Option Nat :=
  history.foldl (fun last e => if e.call = .recordFailure then some e.time else last) none

/-- Nobody looks at the breaker more than `timeout` after the last failure. -/
def Prompt (timeout : Nat) (history es : List Event) : Prop :=
  ∀ pre e post, es = pre ++ e :: post → e.call.Looks →
    ∀ last, lastFailureIn (history ++ pre) = some last → e.time - last ≤ timeout

section Histories
variable (b : CircuitBreaker) (history : List Event) (e : Event)

theorem run_append (es : List Event) : b.run (history ++ es) = (b.run history).run es :=
  List.foldl_append ..

theorem run_snoc : b.run (history ++ [e]) = (b.run history).after e := run_append ..

theorem sinceSuccess_snoc :
    sinceSuccess (history ++ [e]) = match e.call with
      | .recordSuccess => 0
      | .recordFailure => sinceSuccess history + 1
      | _ => sinceSuccess history :=
  List.foldl_append ..

theorem lastFailureIn_snoc :
    lastFailureIn (history ++ [e]) = if e.call = .recordFailure then some e.time else lastFailureIn history :=
  List.foldl_append ..

end Histories

/-! ### What a call does -/

section Calls
variable (b : CircuitBreaker) (e : Event)

/-- A look changes the state only, and only from open to half open, when the last failure is
more than the timeout ago. -/
theorem observe_cases (now : Nat) :
    (b.observe now).2 = b ∨
      (b.state = .opened ∧ (∃ last, b.lastFailure = some last ∧ now - last > b.timeout) ∧
        (b.observe now).2 = { b with state := .halfOpen }) := by
  unfold observe
  split
  · next last hopened hlast =>
    by_cases hlate : now - last > b.timeout
    · rw [if_pos hlate]
      exact .inr ⟨hopened, ⟨last, hlast, hlate⟩, rfl⟩
    · rw [if_neg hlate]
      exact .inl rfl
  · exact .inl rfl

/-- An open breaker refuses, and stays as it is, for as long as the timeout runs. -/
theorem observe_open {last : Nat} (hopened : b.state = .opened) (hlast : b.lastFailure = some last) {now : Nat}
    (hnow : now - last ≤ b.timeout) : b.observe now = (.opened, b) := by
  simp [observe, hopened, hlast, Nat.not_lt.mpr hnow]

theorem canExecute_open {last : Nat} (hopened : b.state = .opened) (hlast : b.lastFailure = some last)
    {now : Nat} (hnow : now - last ≤ b.timeout) :
    b.canExecute now = (.error (.connectionFailed "circuit breaker open"), b) := by
  simp [canExecute, b.observe_open hopened hlast hnow]

/-- Every look leaves the breaker as `state` does. -/
theorem after_looks (h : e.call.Looks) : b.after e = (b.observe e.time).2 := by
  obtain ⟨time, call⟩ := e
  cases call with
  | recordSuccess => exact h.elim
  | recordFailure => exact h.elim
  | state => rfl
  | isAvailable => rfl
  | canExecute =>
    simp only [after, canExecute]
    split <;> next heq => rw [heq]

/-- What a look leaves alone. -/
theorem after_looks_fields (h : e.call.Looks) :
    (b.after e).failures = b.failures ∧ (b.after e).lastFailure = b.lastFailure ∧
      (b.after e).threshold = b.threshold ∧ (b.after e).timeout = b.timeout := by
  rw [b.after_looks e h]
  rcases b.observe_cases e.time with hsame | ⟨-, -, hhalf⟩
  · rw [hsame]
    exact ⟨rfl, rfl, rfl, rfl⟩
  · rw [hhalf]
    exact ⟨rfl, rfl, rfl, rfl⟩

end Calls

/-! ### Along a history -/

/-- The fields are what the history says, and a closed breaker is below its threshold. -/
structure Tracks (threshold timeout : Nat) (history : List Event) (b : CircuitBreaker) : Prop where
  threshold : b.threshold = threshold
  timeout : b.timeout = timeout
  failures : b.failures = sinceSuccess history
  lastFailure : b.lastFailure = lastFailureIn history
  closed : b.state = .closed → 1 ≤ b.threshold → b.failures < b.threshold

section Tracks
variable {threshold timeout : Nat} {history : List Event} {b : CircuitBreaker}

theorem Tracks.snoc (h : Tracks threshold timeout history b) (e : Event) :
    Tracks threshold timeout (history ++ [e]) (b.after e) := by
  have hsince := sinceSuccess_snoc history e
  have hlast := lastFailureIn_snoc history e
  by_cases hlooks : e.call.Looks
  · have hkeeps := b.after_looks_fields e hlooks
    obtain ⟨hfailures, hlastFailure, hthreshold, htimeout⟩ := hkeeps
    have hclosed : (b.after e).state = .closed → b.state = .closed := by
      rw [b.after_looks e hlooks]
      rcases b.observe_cases e.time with hsame | ⟨-, -, hhalf⟩
      · rw [hsame]
        exact id
      · rw [hhalf]
        exact nofun
    refine ⟨hthreshold.trans h.threshold, htimeout.trans h.timeout, ?_, ?_, fun hs ht => ?_⟩
    · rw [hfailures, h.failures, hsince]
      obtain ⟨time, call⟩ := e
      cases call <;> first | rfl | exact absurd hlooks id
    · rw [hlastFailure, h.lastFailure, hlast, if_neg]
      intro hcall
      rw [hcall] at hlooks
      exact hlooks
    · rw [hfailures, hthreshold] at *
      exact h.closed (hclosed hs) ht
  obtain ⟨time, call⟩ := e
  cases call with
  | recordSuccess => exact ⟨h.threshold, h.timeout, hsince.symm, h.lastFailure.trans hlast.symm, fun _ ht => ht⟩
  | recordFailure =>
    refine ⟨h.threshold, h.timeout, ?_, hlast.symm, fun hs _ => ?_⟩
    · show b.failures + 1 = _
      rw [h.failures, hsince]
    · show b.failures + 1 < b.threshold
      by_contra hlt
      have hopened : (b.recordFailure time).state = .opened := if_pos (Nat.not_lt.mp hlt)
      exact nomatch hopened.symm.trans hs
  | _ => exact absurd trivial hlooks

/-- **A breaker keeps track of its history.** -/
theorem tracks (threshold timeout : Nat) (history : List Event) :
    Tracks threshold timeout history ((fresh threshold timeout).run history) := by
  induction history using List.reverseRecOn with
  | nil => exact ⟨rfl, rfl, rfl, rfl, fun _ ht => ht⟩
  | append_singleton history e ih =>
    rw [run_snoc]
    exact ih.snoc e

/-- A failure opens a closed breaker exactly if it is the one that reaches the threshold. -/
theorem Tracks.opens (h : Tracks threshold timeout history b) (hthreshold : 1 ≤ threshold)
    (hclosed : b.state = .closed) (e : Event) :
    (b.after e).state = .opened ↔ e.call = .recordFailure ∧ sinceSuccess (history ++ [e]) = threshold := by
  have hbelow := h.closed hclosed (by rwa [h.threshold])
  rw [h.threshold] at hbelow
  rw [sinceSuccess_snoc, ← h.failures]
  by_cases hlooks : e.call.Looks
  · rw [b.after_looks e hlooks]
    refine iff_of_false ?_ ?_
    · rcases b.observe_cases e.time with hsame | ⟨hopened, -⟩
      · rw [hsame, hclosed]
        exact nofun
      · exact nomatch hclosed.symm.trans hopened
    · rintro ⟨hcall, -⟩
      rw [hcall] at hlooks
      exact hlooks
  obtain ⟨time, call⟩ := e
  cases call with
  | recordSuccess => simp [after, recordSuccess, hclosed]
  | recordFailure =>
    simp only [after, recordFailure, hclosed, h.threshold, true_and]
    split <;> simp <;> omega
  | _ => exact absurd trivial hlooks

/-- Half open comes after open, when the timeout has run out. -/
theorem halfOpen_of_after {e : Event} (hnot : b.state ≠ .halfOpen) (h : (b.after e).state = .halfOpen) :
    b.state = .opened ∧ e.call.Looks ∧ ∃ last, b.lastFailure = some last ∧ e.time - last > b.timeout := by
  by_cases hlooks : e.call.Looks
  · rw [b.after_looks e hlooks] at h
    rcases b.observe_cases e.time with hsame | ⟨hopened, hlate, -⟩
    · rw [hsame] at h
      exact absurd h hnot
    · exact ⟨hopened, hlooks, hlate⟩
  obtain ⟨time, call⟩ := e
  cases call with
  | recordSuccess =>
    simp only [after, recordSuccess, if_neg hnot] at h
    exact absurd h hnot
  | recordFailure =>
    simp only [after, recordFailure] at h
    split at h
    · cases h
    · exact absurd h hnot
  | _ => exact absurd trivial hlooks

/-- Closed comes after half open, by a success. -/
theorem closed_of_after {e : Event} (hnot : b.state ≠ .closed) (h : (b.after e).state = .closed) :
    b.state = .halfOpen ∧ e.call = .recordSuccess := by
  by_cases hlooks : e.call.Looks
  · rw [b.after_looks e hlooks] at h
    rcases b.observe_cases e.time with hsame | ⟨-, -, hhalf⟩
    · rw [hsame] at h
      exact absurd h hnot
    · rw [hhalf] at h
      cases h
  obtain ⟨time, call⟩ := e
  cases call with
  | recordSuccess =>
    simp only [after, recordSuccess] at h
    split at h
    · next hhalf => exact ⟨hhalf, rfl⟩
    · exact absurd h hnot
  | recordFailure =>
    simp only [after, recordFailure] at h
    split at h
    · cases h
    · exact absurd h hnot
  | _ => exact absurd trivial hlooks

/-- What is recorded leaves an open breaker open. -/
theorem opened_of_record {e : Event} (hopened : b.state = .opened) (hlooks : ¬ e.call.Looks) :
    (b.after e).state = .opened := by
  obtain ⟨time, call⟩ := e
  cases call with
  | recordSuccess => simp [after, recordSuccess, hopened]
  | recordFailure => simp [after, recordFailure, hopened]
  | _ => exact absurd trivial hlooks

/-- An open breaker stays open while nobody looks at it too late. -/
theorem Tracks.stays (h : Tracks threshold timeout history b) (hopened : b.state = .opened) {es : List Event}
    (hprompt : Prompt timeout history es) :
    (b.run es).state = .opened ∧ Tracks threshold timeout (history ++ es) (b.run es) := by
  induction es using List.reverseRecOn with
  | nil => exact ⟨hopened, by rwa [List.append_nil]⟩
  | append_singleton es e ih =>
    obtain ⟨hopen, htracks⟩ := ih fun pre x post heq => hprompt pre x (post ++ [e]) (by simp [heq])
    rw [run_snoc, ← List.append_assoc]
    refine ⟨?_, htracks.snoc e⟩
    by_cases hlooks : e.call.Looks
    · rw [after_looks _ _ hlooks]
      rcases observe_cases (b.run es) e.time with hsame | ⟨-, ⟨last, hlast, hlate⟩, -⟩
      · rwa [hsame]
      · rw [htracks.lastFailure] at hlast
        have hle := hprompt es e [] rfl hlooks last hlast
        rw [htracks.timeout] at hlate
        omega
    · exact opened_of_record hopen hlooks

end Tracks

/-! ### Over whole histories -/

/-- The answer of a breaker that refuses. -/
def Refuses (b : CircuitBreaker) (now : Nat) : Prop :=
  (b.canExecute now).1 = .error (.connectionFailed "circuit breaker open")

/-- **The breaker is safe.** While it is closed, the failures since the last success are fewer than
the threshold, and it opens with the one that reaches it. While it is open it refuses at every
time at most the timeout after the last failure, whatever was recorded meanwhile. Half open it
becomes when the timeout has run out, and closed again by a success. -/
theorem breaker_safe (threshold timeout : Nat) (hthreshold : 1 ≤ threshold) (history : List Event) :
    let b := (fresh threshold timeout).run history
    (b.state = .closed → sinceSuccess history < threshold ∧
      ∀ e, (b.after e).state = .opened ↔
        e.call = .recordFailure ∧ sinceSuccess (history ++ [e]) = threshold) ∧
    (b.state = .opened → ∀ es, Prompt timeout history es →
      ∀ last now, lastFailureIn (history ++ es) = some last → now - last ≤ timeout → (b.run es).Refuses now) ∧
    (∀ e, b.state ≠ .halfOpen → (b.after e).state = .halfOpen →
      b.state = .opened ∧ e.call.Looks ∧
        ∃ last, lastFailureIn history = some last ∧ e.time - last > timeout) ∧
    ∀ e, b.state ≠ .closed → (b.after e).state = .closed → b.state = .halfOpen ∧ e.call = .recordSuccess := by
  intro b
  have h : Tracks threshold timeout history b := tracks threshold timeout history
  refine ⟨fun hclosed => ⟨?_, fun e => h.opens hthreshold hclosed e⟩,
    fun hopened es hprompt last now hlast hnow => ?_, fun e hnot hhalf => ?_,
    fun e hnot hclosed => closed_of_after hnot hclosed⟩
  · have hbelow := h.closed hclosed (by rwa [h.threshold])
    rwa [h.failures, h.threshold] at hbelow
  · obtain ⟨hopen, htracks⟩ := h.stays hopened hprompt
    have hrefused := canExecute_open _ hopen (htracks.lastFailure.trans hlast)
      (show now - last ≤ (b.run es).timeout by rwa [htracks.timeout])
    exact congrArg Prod.fst hrefused
  · have hafter := halfOpen_of_after hnot hhalf
    rwa [h.lastFailure, h.timeout] at hafter

/-- Two failures open it, and a success and a failure later it still refuses. -/
theorem breaker_safe_open : ((fresh 2 10).run
    [⟨0, .recordFailure⟩, ⟨1, .recordFailure⟩, ⟨2, .recordSuccess⟩, ⟨3, .recordFailure⟩]).Refuses 13 := by
  refine (breaker_safe 2 10 (by decide) [⟨0, .recordFailure⟩, ⟨1, .recordFailure⟩]).2.1 rfl
    [⟨2, .recordSuccess⟩, ⟨3, .recordFailure⟩] (fun pre e post heq hlooks => ?_) 3 13 rfl (by decide)
  have he : e ∈ [⟨2, .recordSuccess⟩, ⟨3, .recordFailure⟩] := heq ▸ by simp
  rcases List.mem_cons.mp he with rfl | he
  · exact hlooks.elim
  · obtain rfl := List.mem_singleton.mp he
    exact hlooks.elim

/-! ### A probe that fails -/

/-- A failure at `now` opens the breaker, and whatever happens until the timeout has run out it
refuses. -/
def Reopens (b : CircuitBreaker) (now : Nat) : Prop :=
  (b.recordFailure now).state = .opened ∧ ∀ es : List Event,
    (∀ e ∈ es, now ≤ e.time ∧ e.time - now ≤ b.timeout) →
      ∀ t, t - now ≤ b.timeout → ((b.recordFailure now).run es).Refuses t

/-- An open breaker whose last failure is not before `now` stays open while the timeout runs. -/
theorem opened_run {b : CircuitBreaker} {now : Nat} {es : List Event} (hopened : b.state = .opened)
    (hlast : ∃ last, b.lastFailure = some last ∧ now ≤ last)
    (hes : ∀ e ∈ es, now ≤ e.time ∧ e.time - now ≤ b.timeout) :
    (b.run es).state = .opened ∧ (b.run es).timeout = b.timeout ∧
      ∃ last, (b.run es).lastFailure = some last ∧ now ≤ last := by
  induction es generalizing b with
  | nil => exact ⟨hopened, rfl, hlast⟩
  | cons e rest ih =>
    obtain ⟨last, hsome, hle⟩ := hlast
    obtain ⟨hfrom, huntil⟩ := hes e (List.mem_cons_self ..)
    have hnext : (b.after e).state = .opened ∧ (b.after e).timeout = b.timeout ∧
        ∃ last, (b.after e).lastFailure = some last ∧ now ≤ last := by
      by_cases hlooks : e.call.Looks
      · rw [b.after_looks e hlooks, b.observe_open hopened hsome (by omega)]
        exact ⟨hopened, rfl, last, hsome, hle⟩
      · refine ⟨opened_of_record hopened hlooks, ?_⟩
        obtain ⟨time, call⟩ := e
        cases call with
        | recordSuccess => exact ⟨rfl, last, hsome, hle⟩
        | recordFailure => exact ⟨rfl, time, rfl, hfrom⟩
        | _ => exact absurd trivial hlooks
    obtain ⟨hstate, htimeout, hlast'⟩ := hnext
    obtain ⟨hopened', htimeout', hlast''⟩ := ih hstate hlast' fun x hx => by
      rw [htimeout]
      exact hes x (List.mem_cons_of_mem _ hx)
    exact ⟨hopened', htimeout'.trans htimeout, hlast''⟩

/-- **A failed probe opens the breaker again exactly if the failures since the last success, with
this one, reach the threshold.** -/
theorem failed_probe_exact (threshold timeout : Nat) (history : List Event) (now : Nat)
    (hhalf : ((fresh threshold timeout).run history).state = .halfOpen) :
    ((fresh threshold timeout).run history).Reopens now ↔ threshold ≤ sinceSuccess history + 1 := by
  have h := tracks threshold timeout history
  generalize (fresh threshold timeout).run history = b at h hhalf
  have hstate : (b.recordFailure now).state = .opened ↔ threshold ≤ sinceSuccess history + 1 := by
    simp only [recordFailure, hhalf, h.threshold, h.failures]
    split
    · next hge => exact iff_of_true rfl hge
    · next hlt => exact iff_of_false nofun hlt
  rw [← hstate]
  refine ⟨fun hre => hre.1, fun hopened => ⟨hopened, fun es hes t ht => ?_⟩⟩
  obtain ⟨hopen, htimeout, last, hlast, hle⟩ := opened_run hopened ⟨now, rfl, Nat.le_refl _⟩ hes
  have htimeout : ((b.recordFailure now).run es).timeout = b.timeout := htimeout
  exact congrArg Prod.fst (canExecute_open _ hopen hlast (by omega))

/-- With a threshold of one every failed probe opens it. -/
theorem failed_probe_exact_one :
    ((fresh 1 10).run [⟨0, .recordFailure⟩, ⟨11, .state⟩]).Reopens 12 :=
  (failed_probe_exact 1 10 [⟨0, .recordFailure⟩, ⟨11, .state⟩] 12 rfl).mpr (by decide)

/-- A success that comes in while the breaker is open keeps the probe's failure from opening it. -/
theorem late_success_keeps_halfOpen :
    ¬ ∀ (threshold timeout : Nat) (history : List Event) (now : Nat), 1 ≤ threshold →
      ((history.map Event.time) ++ [now]).Pairwise (· ≤ ·) →
      ((fresh threshold timeout).run history).state = .halfOpen →
        ((fresh threshold timeout).run history).Reopens now := by
  intro h
  obtain ⟨hopened, -⟩ := h 2 10 [⟨0, .recordFailure⟩, ⟨1, .recordFailure⟩, ⟨5, .recordSuccess⟩, ⟨12, .state⟩] 13
    (by decide) (by decide) rfl
  exact nomatch hopened

end XProtocol.CircuitBreaker
