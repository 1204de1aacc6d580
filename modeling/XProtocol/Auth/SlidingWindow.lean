import XProtocol.Auth.Contention
import XProtocol.Chronicle

/-! What a rate limiter answers, asked one thing at a time.

The limiter forgets admissions when it is asked to `check`, and not when it is asked what is
`remaining`. What it has forgotten does not count any more, then or later: the admissions it
keeps determine the count that its whole chronicle gives (`counted_recent`), so that it is an
exact sliding window for each of its clients (`sliding_window`). The limiter of `utils`
gives the answers that a single client gets. -/
namespace XProtocol
open Chronicle

namespace RateLimiter

def remaining (l : RateLimiter) (now : Nat) (clientId : String) : Nat :=
  l.maxRequests - (l.recent now clientId).length

def reset (l : RateLimiter) (clientId : String) : RateLimiter := l.set clientId []

inductive Query where
  | check (clientId : String)
  | remaining (clientId : String)
  | reset (clientId : String)
  deriving DecidableEq

inductive Answer where
  | admitted (b : Bool)
  | remaining (n : Nat)
  | reset
  deriving DecidableEq

def Query.clientId : Query → String
  | .check clientId | .remaining clientId | .reset clientId => clientId

def Query.isRemaining : Query → Bool
  | .remaining _ => true
  | _ => false

def perform (l : RateLimiter) (now : Nat) : Query → Answer × RateLimiter
  | .check clientId => (.admitted (l.check now clientId).1, (l.check now clientId).2)
  | .remaining clientId => (.remaining (l.remaining now clientId), l)
  | .reset clientId => (.reset, l.reset clientId)

/-! ### What the chronicle says -/

/-- The checks of a client that were admitted since its last reset, and less than a window ago. -/
def counted (window : Nat) (log : List (Entry Query Answer)) (now : Nat) (clientId : String) :
    List (Entry Query Answer) :=
  (log.reverse.takeWhile fun e => e.query ≠ .reset clientId).filter fun e =>
    e.query = .check clientId ∧ e.answer = .admitted true ∧ now - e.time < window

/-- The answer of an exact sliding window. -/
def due (maxRequests window : Nat) (log : List (Entry Query Answer)) (now : Nat) : Query → Answer
  | .check clientId => .admitted (decide ((counted window log now clientId).length < maxRequests))
  | .remaining clientId => .remaining (maxRequests - (counted window log now clientId).length)
  | .reset _ => .reset

theorem counted_snoc (window : Nat) (log : List (Entry Query Answer)) (e : Entry Query Answer) (now : Nat)
    (clientId : String) : counted window (log ++ [e]) now clientId =
      if e.query = .reset clientId then []
      else (if e.query = .check clientId ∧ e.answer = .admitted true ∧ now - e.time < window then [e] else []) ++
        counted window log now clientId := by
  unfold counted
  rw [List.reverse_append, List.reverse_singleton, List.singleton_append, List.takeWhile_cons]
  by_cases hreset : e.query = .reset clientId
  · simp [hreset]
  · rw [if_pos (decide_eq_true hreset), if_neg hreset, List.filter_cons]
    by_cases hcounts : e.query = .check clientId ∧ e.answer = .admitted true ∧ now - e.time < window <;>
      simp [hcounts]

/-! ### What the limiter keeps -/

section
variable {l : RateLimiter} {t now : Nat} {c d : String}

/-- What a check that is refused leaves of the window at a later instant: all of it. -/
theorem recent_refused (hrefused : (l.check t d).1 = false) (hle : t ≤ now) (c : String) :
    (l.check t d).2.recent now c = l.recent now c := by
  have hfull : ¬ (l.recent t d).length < l.maxRequests := fun h =>
    Bool.false_ne_true (hrefused.symm.trans ((check_eq l t d).mpr h))
  have hcheck : (l.check t d).2 = l.set d (l.recent t d) := by
    unfold check
    simp only [if_neg hfull]
  rw [hcheck]
  unfold recent set
  by_cases hd : d = c
  · subst hd
    simpa using filter_later l.window hle (l.requests d)
  · simp [Ne.symm hd]

theorem recent_reset (l : RateLimiter) (now : Nat) (d c : String) :
    (l.reset d).recent now c = if d = c then [] else l.recent now c := by
  unfold reset recent set
  by_cases hd : d = c
  · simp [hd]
  · simp [hd, Ne.symm hd]

end

/-- The limiter keeps what counts, now and later. -/
structure Keeps (maxRequests window : Nat) (log : List (Entry Query Answer)) (l : RateLimiter) : Prop where
  maxRequests_eq : l.maxRequests = maxRequests
  window_eq : l.window = window
  counted_recent : ∀ now, (∀ e ∈ log, e.time ≤ now) → ∀ clientId,
    (l.recent now clientId).length = (counted window log now clientId).length

variable {maxRequests window : Nat} {log : List (Entry Query Answer)} {l : RateLimiter} {now : Nat}

theorem keeps_new (maxRequests window : Nat) : Keeps maxRequests window [] (new maxRequests window) :=
  ⟨rfl, rfl, fun _ _ _ => rfl⟩

theorem Keeps.answer (h : Keeps maxRequests window log l) (htimes : ∀ e ∈ log, e.time ≤ now) (q : Query) :
    (l.perform now q).1 = due maxRequests window log now q := by
  cases q with
  | check clientId =>
    have hcheck := check_eq l now clientId
    rw [h.counted_recent now htimes, h.maxRequests_eq] at hcheck
    exact congrArg Answer.admitted (Bool.eq_iff_iff.mpr (hcheck.trans decide_eq_true_iff.symm))
  | remaining clientId =>
    show Answer.remaining (l.maxRequests - _) = _
    rw [h.counted_recent now htimes, h.maxRequests_eq]
    rfl
  | reset clientId => rfl

theorem Keeps.step (h : Keeps maxRequests window log l) (now : Nat) (q : Query) :
    Keeps maxRequests window (log ++ [⟨now, q, (l.perform now q).1⟩]) (l.perform now q).2 := by
  cases q with
  | check d =>
    refine ⟨(check_maxRequests ..).trans h.maxRequests_eq, (check_window ..).trans h.window_eq,
      fun later hlater c => ?_⟩
    obtain ⟨hlog, hlast⟩ := List.forall_mem_append.mp hlater
    have hnow : now ≤ later := hlast _ (List.mem_singleton_self _)
    rw [counted_snoc, if_neg nofun]
    cases hadmitted : (l.check now d).1 with
    | false =>
      have hnone : ¬ (Query.check d = .check c ∧ (l.perform now (.check d)).1 = .admitted true ∧
          later - now < window) := by
        rintro ⟨-, hanswer, -⟩
        exact Bool.false_ne_true (hadmitted.symm.trans (Answer.admitted.inj hanswer))
      rw [if_neg hnone, List.nil_append, ← h.counted_recent later hlog c]
      exact congrArg List.length (recent_refused hadmitted hnow c)
    | true =>
      have hiff : (Query.check d = .check c ∧ (l.perform now (.check d)).1 = .admitted true ∧
          later - now < window) ↔ d = c ∧ later - now < l.window := by
        rw [h.window_eq]
        simp [perform, hadmitted]
      show ((l.check now d).2.recent later c).length = _
      rw [recent_check hadmitted hnow, List.length_append, List.length_append, h.counted_recent later hlog c,
        Nat.add_comm]
      congr 1
      by_cases hcounts : d = c ∧ later - now < l.window
      · rw [if_pos hcounts, if_pos (hiff.mpr hcounts)]
        rfl
      · rw [if_neg hcounts, if_neg (mt hiff.mp hcounts)]
        rfl
  | remaining d =>
    refine ⟨h.maxRequests_eq, h.window_eq, fun later hlater c => ?_⟩
    rw [counted_snoc, if_neg nofun, if_neg (fun hcheck => nomatch hcheck.1), List.nil_append]
    exact h.counted_recent later (List.forall_mem_append.mp hlater).1 c
  | reset d =>
    refine ⟨h.maxRequests_eq, h.window_eq, fun later hlater c => ?_⟩
    show ((l.reset d).recent later c).length = _
    rw [counted_snoc, recent_reset]
    by_cases hd : d = c
    · rw [if_pos hd, if_pos (congrArg Query.reset hd)]
      rfl
    · rw [if_neg hd, if_neg (fun hreset => hd (Query.reset.inj hreset)), if_neg (fun hcheck => nomatch hcheck.1),
        List.nil_append]
      exact h.counted_recent later (List.forall_mem_append.mp hlater).1 c

/-! ### Clients -/

/-- Two limiters that are the same for a client. -/
def SameFor (c : String) (l l' : RateLimiter) : Prop :=
  l.maxRequests = l'.maxRequests ∧ l.window = l'.window ∧ l.requests c = l'.requests c

theorem sameFor_asked {l l' : RateLimiter} {c : String} (h : SameFor c l l') (now : Nat) {q : Query}
    (hq : q.clientId = c) :
    (l.perform now q).1 = (l'.perform now q).1 ∧ SameFor c (l.perform now q).2 (l'.perform now q).2 := by
  obtain ⟨hmax, hwindow, hrequests⟩ := h
  have hrecent : l.recent now c = l'.recent now c := by rw [recent, recent, hrequests, hwindow]
  cases q with
  | check d =>
    obtain rfl : d = c := hq
    unfold perform check
    simp only [hrecent, hmax]
    split
    · exact ⟨rfl, hmax, hwindow, by simp [set]⟩
    · exact ⟨rfl, hmax, hwindow, by simp [set]⟩
  | remaining d =>
    obtain rfl : d = c := hq
    exact ⟨congrArg Answer.remaining (by rw [remaining, remaining, hrecent, hmax]), hmax, hwindow, hrequests⟩
  | reset d =>
    obtain rfl : d = c := hq
    exact ⟨rfl, hmax, hwindow, by simp [perform, reset, set]⟩

/-- What is asked of another client. -/
theorem sameFor_other {l l' : RateLimiter} {c : String} (h : SameFor c l l') (now : Nat) {q : Query}
    (hq : q.clientId ≠ c) : SameFor c (l.perform now q).2 l' := by
  obtain ⟨hmax, hwindow, hrequests⟩ := h
  cases q with
  | check d =>
    have hne : c ≠ d := Ne.symm hq
    refine ⟨(check_maxRequests ..).trans hmax, (check_window ..).trans hwindow, ?_⟩
    show (l.check now d).2.requests c = _
    unfold check
    simp only
    split <;> simpa [set, hne] using hrequests
  | remaining d => exact ⟨hmax, hwindow, hrequests⟩
  | reset d =>
    have hne : c ≠ d := Ne.symm hq
    exact ⟨hmax, hwindow, by simpa [perform, reset, set, hne] using hrequests⟩

end RateLimiter

/-! ### The limiter without clients -/

namespace Utils.RateLimiter

/-- `available`, behind the reading of the clock: it forgets like `try_acquire`. -/
def available (l : RateLimiter) (now : Nat) : Nat × RateLimiter :=
  let requests := l.requests.filter fun t => now - t < l.window
  (l.maxRequests - requests.length, { l with requests })

inductive Query where
  | tryAcquire
  | available

/-- What a client asks instead. -/
def Query.by (clientId : String) : Query → XProtocol.RateLimiter.Query
  | .tryAcquire => .check clientId
  | .available => .remaining clientId

def perform (l : RateLimiter) (now : Nat) : Query → XProtocol.RateLimiter.Answer × RateLimiter
  | .tryAcquire => (.admitted (l.tryAcquire now).1, (l.tryAcquire now).2)
  | .available => (.remaining (l.available now).1, (l.available now).2)

/-- The admissions that both keep from now on. -/
structure Stands (clientId : String) (now : Nat) (l : XProtocol.RateLimiter) (u : RateLimiter) : Prop where
  maxRequests_eq : l.maxRequests = u.maxRequests
  window_eq : l.window = u.window
  recent_eq : ∀ later, now ≤ later →
    l.recent later clientId = u.requests.filter fun t => later - t < u.window

theorem stands_new (maxRequests window : Nat) (clientId : String) :
    Stands clientId 0 (.new maxRequests window) (new maxRequests window) := ⟨rfl, rfl, fun _ _ => rfl⟩

theorem Stands.later {clientId : String} {now later : Nat} {l : XProtocol.RateLimiter} {u : RateLimiter}
    (h : Stands clientId now l u) (hle : now ≤ later) : Stands clientId later l u :=
  ⟨h.maxRequests_eq, h.window_eq, fun t ht => h.recent_eq t (Nat.le_trans hle ht)⟩

theorem stands_step {clientId : String} {now : Nat} {l : XProtocol.RateLimiter} {u : RateLimiter}
    (h : Stands clientId now l u) (q : Query) :
    (l.perform now (q.by clientId)).1 = (u.perform now q).1 ∧
      Stands clientId now (l.perform now (q.by clientId)).2 (u.perform now q).2 := by
  obtain ⟨hmax, hwindow, hrecent⟩ := h
  have hnow := hrecent now (Nat.le_refl now)
  cases q with
  | tryAcquire =>
    simp only [Query.by, XProtocol.RateLimiter.perform, perform, XProtocol.RateLimiter.check,
      tryAcquire, hnow, hmax]
    split
    · exact ⟨rfl, hmax, hwindow, fun later _ => by
        simp [XProtocol.RateLimiter.recent, XProtocol.RateLimiter.set, hwindow]⟩
    · exact ⟨rfl, hmax, hwindow, fun later _ => by
        simp [XProtocol.RateLimiter.recent, XProtocol.RateLimiter.set, hwindow]⟩
  | available =>
    refine ⟨?_, hmax, hwindow, fun later hle => ?_⟩
    · show XProtocol.RateLimiter.Answer.remaining (l.maxRequests - (l.recent now clientId).length) = _
      rw [hnow, hmax]
      rfl
    · exact (hrecent later hle).trans (XProtocol.RateLimiter.filter_later u.window hle u.requests).symm

end Utils.RateLimiter

namespace RateLimiter

/-- **A rate limiter is an exact sliding window**: every answer is the one its chronicle makes due,
and other clients, or the question what remains, play no part in it. The limiter of `utils` answers
as one client's. -/
theorem sliding_window (maxRequests window : Nat) {asked : List (Nat × Query)}
    (hsorted : asked.Pairwise fun a b => a.1 ≤ b.1) :
    Due (due maxRequests window) (chronicle perform (new maxRequests window) asked) ∧
    (∀ clientId,
      (chronicle perform (new maxRequests window) asked).filter (fun e => e.query.clientId = clientId) =
        chronicle perform (new maxRequests window) (asked.filter fun q => q.2.clientId = clientId)) ∧
    (chronicle perform (new maxRequests window) asked).filter (fun e => !e.query.isRemaining) =
      chronicle perform (new maxRequests window) (asked.filter fun q => !q.2.isRemaining) ∧
    ∀ (clientId : String) (asked : List (Nat × Utils.RateLimiter.Query)),
      (asked.Pairwise fun a b => a.1 ≤ b.1) →
      (chronicle Utils.RateLimiter.perform (.new maxRequests window) asked).map Entry.answer =
        (chronicle perform (new maxRequests window) (asked.map fun q => (q.1, q.2.by clientId))).map
          Entry.answer := by
  refine ⟨?_, fun clientId => ?_, ?_, fun clientId asked hsorted => ?_⟩
  · exact due_of_step (keeps_new maxRequests window) (fun _ _ _ q h htimes => h.answer htimes q)
      (fun _ _ now q h _ => h.step now q) hsorted
  · refine chronicle_filter (R := SameFor clientId) (fun q => decide (q.clientId = clientId)) ?_ ?_
      ⟨rfl, rfl, rfl⟩ asked
    · exact fun l l' now q h hq => sameFor_asked h now (of_decide_eq_true hq)
    · exact fun l l' now q h hq => sameFor_other h now (of_decide_eq_false hq)
  · refine chronicle_filter (R := Eq) (fun q => !q.isRemaining) ?_ ?_ rfl asked
    · rintro l _ now q rfl -
      exact ⟨rfl, rfl⟩
    · rintro l _ now q rfl hq
      cases q with
      | remaining d => rfl
      | check d => cases hq
      | reset d => cases hq
  · refine (chronicle_simulated (R := Utils.RateLimiter.Stands clientId) (g := id) (fun _ _ _ q h =>
      Utils.RateLimiter.stands_step h q) (fun _ _ _ _ h hle => h.later hle)
      (Utils.RateLimiter.stands_new maxRequests window clientId) (fun _ _ => Nat.zero_le _) hsorted).symm

/-- Two requests in a window of ten: the third waits for the first to be ten old. -/
example : (chronicle perform (new 2 10) [(0, .check "client"), (3, .check "client"), (9, .check "client"),
    (9, .check "other"), (10, .remaining "client"), (10, .check "client")]).map Entry.answer =
      [.admitted true, .admitted true, .admitted false, .admitted true, .remaining 1, .admitted true] := by
  decide

theorem sliding_window_three : ([(0, .check "client"), (4, .check "client"), (9, .remaining "client")] :
    List (Nat × Query)).Pairwise (fun a b => a.1 ≤ b.1) ∧
      Due (due 1 5) (chronicle perform (new 1 5)
        [(0, .check "client"), (4, .check "client"), (9, .remaining "client")]) :=
  ⟨by decide, (sliding_window 1 5 (by decide)).1⟩

end RateLimiter

end XProtocol
