import Mathlib.Data.Finset.Card
import Mathlib.Data.List.Chain
import XProtocol.Auth.Contention

/-! Waiting for a rate limiter.

`acquire` tries until it is admitted, and sleeps between two tries. A try that is refused
has found as many admissions of its last window as there may be. So of tries of one call
that are refused a window apart, each has found other admissions, and each admission ends
another call: a call is refused for no more windows than the others can fill
(`acquire_bounded`), if it is not held up between its tries. -/
namespace XProtocol.Utils.RateLimiter

/-- How long `acquire` sleeps, in nanoseconds. -/
def pause : Nat := 10000000

/-- Where a call of `acquire` is. -/
inductive Place where
  /-- It reads the clock next, at `due` or later. -/
  | sleeping (due : Nat)
  /-- It has read the clock, and waits for the lock. -/
  | trying (now : Nat)
  | returned

/-- A try: whose it is, what it read, and when it ran its locked section. -/
structure Try where
  task : Nat
  reading : Nat
  time : Nat
  deriving DecidableEq

/-- The admissions of other calls that the try still counts. -/
def Try.counts (window : Nat) (r a : Try) : Bool :=
  a.task ≠ r.task && r.reading < a.reading + window && a.reading ≤ r.time

/-- A limiter, and `tasks` calls of `acquire`. -/
structure Waiting where
  clock : Nat
  limiter : RateLimiter
  tasks : Nat
  places : Nat → Place
  admitted : List Try
  refused : List Try

namespace Waiting

inductive Event where
  | tick (d : Nat)
  | read (task : Nat)
  | lock (task : Nat)

def fresh (maxRequests window tasks : Nat) : Waiting where
  clock := 0
  limiter := .new maxRequests window
  tasks
  places _ := .sleeping 0
  admitted := []
  refused := []

/-- One step; what a call cannot do now changes nothing. -/
def step (s : Waiting) : Event → Waiting
  | .tick d => { s with clock := s.clock + d }
  | .read task =>
    match s.places task with
    | .sleeping due =>
      if task < s.tasks ∧ due ≤ s.clock then { s with places := Function.update s.places task (.trying s.clock) }
      else s
    | _ => s
  | .lock task =>
    match s.places task with
    | .trying now =>
      let (admits, limiter) := s.limiter.tryAcquire now
      if admits then
        { s with
          limiter
          places := Function.update s.places task .returned
          admitted := s.admitted ++ [⟨task, now, s.clock⟩] }
      else
        { s with
          limiter
          places := Function.update s.places task (.sleeping (s.clock + pause))
          refused := s.refused ++ [⟨task, now, s.clock⟩] }
    | _ => s

def run (s : Waiting) (events : List Event) : Waiting := events.foldl step s

/-! ### What a refusal has found -/

/-- What holds of a call, wherever it is: it reads the clock a pause after each of its refusals. -/
def Fits (s : Waiting) (task : Nat) : Place → Prop
  | .sleeping due => ∀ r ∈ s.refused, r.task = task → r.time + pause ≤ due
  | .trying now => task < s.tasks ∧ now ≤ s.clock ∧ ∀ r ∈ s.refused, r.task = task → r.time + pause ≤ now
  | .returned => True

/-- The limiter keeps admissions that were made; each of them ended another call; and each refusal has found the
limiter full. -/
structure Sound (maxRequests window : Nat) (s : Waiting) : Prop where
  maxRequests_eq : s.limiter.maxRequests = maxRequests
  window_eq : s.limiter.window = window
  kept : s.limiter.requests.Sublist (s.admitted.map Try.reading)
  fits : ∀ task, s.Fits task (s.places task)
  past : ∀ a ∈ s.admitted, a.reading ≤ s.clock
  returned : ∀ a ∈ s.admitted, a.task < s.tasks ∧ s.places a.task = .returned
  distinct : (s.admitted.map Try.task).Nodup
  timed : ∀ r ∈ s.refused, r.task < s.tasks ∧ r.reading ≤ r.time ∧ r.time ≤ s.clock
  full : ∀ r ∈ s.refused, maxRequests ≤ s.admitted.countP (r.counts window)
  later : s.refused.Pairwise fun r r' => r.task = r'.task → r.time + pause ≤ r'.reading

section
variable {maxRequests window task now : Nat} {s : Waiting}

theorem sound_fresh (maxRequests window tasks : Nat) : (fresh maxRequests window tasks).Sound maxRequests window where
  maxRequests_eq := rfl
  window_eq := rfl
  kept := List.Sublist.refl _
  fits _ _ := nofun
  past := nofun
  returned := nofun
  distinct := List.nodup_nil
  timed := nofun
  full := nofun
  later := List.Pairwise.nil

theorem Fits.tick {place : Place} (h : s.Fits task place) (d : Nat) :
    Fits { s with clock := s.clock + d } task place := by
  cases place with
  | sleeping due => exact h
  | trying now => exact ⟨h.1, Nat.le_add_right_of_le h.2.1, h.2.2⟩
  | returned => exact trivial

theorem Sound.tick (h : s.Sound maxRequests window) (d : Nat) : (s.step (.tick d)).Sound maxRequests window where
  __ := h
  fits task := Fits.tick (h.fits task) d
  past a ha := Nat.le_add_right_of_le (h.past a ha)
  timed r hr := by
    obtain ⟨ht, hreading, htime⟩ := h.timed r hr
    exact ⟨ht, hreading, Nat.le_add_right_of_le htime⟩

/-- Another call is refused. -/
theorem Fits.refused {place : Place} (h : s.Fits task place) {r : Try} (hr : r.task ≠ task) {limiter : RateLimiter}
    {places : Nat → Place} :
    Fits { s with limiter, places, refused := s.refused ++ [r] } task place := by
  have hmore {bound : Nat} (h : ∀ r ∈ s.refused, r.task = task → r.time + pause ≤ bound) :
      ∀ r' ∈ s.refused ++ [r], r'.task = task → r'.time + pause ≤ bound :=
    List.forall_mem_append.mpr ⟨h, List.forall_mem_singleton.mpr fun heq => absurd heq hr⟩
  cases place with
  | sleeping due => exact hmore h
  | trying now => exact ⟨h.1, h.2.1, hmore h.2.2⟩
  | returned => exact trivial

/-- No admission is that of a call that has not returned. -/
theorem Sound.others (h : s.Sound maxRequests window) (hp : s.places task ≠ .returned) :
    ∀ a ∈ s.admitted, a.task ≠ task :=
  fun a ha heq => hp (heq ▸ (h.returned a ha).2)

theorem Sound.stays_returned (h : s.Sound maxRequests window) (hp : s.places task ≠ .returned) (place : Place) :
    ∀ a ∈ s.admitted, a.task < s.tasks ∧ Function.update s.places task place a.task = .returned := by
  intro a ha
  obtain ⟨hat, hreturned⟩ := h.returned a ha
  exact ⟨hat, (Function.update_of_ne (h.others hp a ha) ..).trans hreturned⟩

theorem Sound.reads {due : Nat} (h : s.Sound maxRequests window) (hp : s.places task = .sleeping due)
    (ht : task < s.tasks) (hdue : due ≤ s.clock) :
    Sound maxRequests window { s with places := Function.update s.places task (.trying s.clock) } := by
  have hfits : s.Fits task (.sleeping due) := hp ▸ h.fits task
  refine { h with fits := ?_, returned := h.stays_returned (by simp [hp]) _ }
  refine (Function.forall_update_iff s.places (p := fun t place => s.Fits t place)).mpr
    ⟨⟨ht, Nat.le_refl _, fun r hr hrt => (hfits r hr hrt).trans hdue⟩, fun t _ => h.fits t⟩

/-- A try that is admitted. -/
theorem Sound.admits (h : s.Sound maxRequests window) (hp : s.places task = .trying now) :
    Sound maxRequests window { s with
      limiter := { s.limiter with requests := (s.limiter.requests.filter fun t => now - t < s.limiter.window) ++ [now] }
      places := Function.update s.places task .returned
      admitted := s.admitted ++ [⟨task, now, s.clock⟩] } := by
  obtain ⟨ht, hnow, hdue⟩ : s.Fits task (.trying now) := hp ▸ h.fits task
  have hwaits : s.places task ≠ .returned := by simp [hp]
  have hothers := h.stays_returned hwaits .returned
  refine { h with kept := ?_, fits := ?_, past := ?_, returned := ?_, distinct := ?_, full := ?_ }
  · rw [List.map_append]
    exact (List.filter_sublist.trans h.kept).append (List.Sublist.refl _)
  · exact (Function.forall_update_iff s.places (p := fun t place => s.Fits t place)).mpr
      ⟨trivial, fun t _ => h.fits t⟩
  · exact List.forall_mem_append.mpr ⟨h.past, by simpa using hnow⟩
  · exact List.forall_mem_append.mpr ⟨hothers, by simpa using ht⟩
  · rw [List.map_append, List.nodup_append]
    refine ⟨h.distinct, List.nodup_singleton _, ?_⟩
    simpa using h.others hwaits
  · intro r hr
    rw [List.countP_append]
    exact Nat.le_add_right_of_le (h.full r hr)

/-- A try that is refused: it counts as many admissions as there may be, and none is its own. -/
theorem Sound.refuses (h : s.Sound maxRequests window) (hp : s.places task = .trying now)
    (hfull : maxRequests ≤ (s.limiter.requests.filter fun t => now - t < s.limiter.window).length) :
    Sound maxRequests window { s with
      limiter := { s.limiter with requests := s.limiter.requests.filter fun t => now - t < s.limiter.window }
      places := Function.update s.places task (.sleeping (s.clock + pause))
      refused := s.refused ++ [⟨task, now, s.clock⟩] } := by
  obtain ⟨ht, hnow, hdue⟩ : s.Fits task (.trying now) := hp ▸ h.fits task
  have hwaits : s.places task ≠ .returned := by simp [hp]
  have hothers := h.stays_returned hwaits (.sleeping (s.clock + pause))
  refine { h with kept := ?_, fits := ?_, returned := hothers, timed := ?_, full := ?_, later := ?_ }
  · exact List.filter_sublist.trans h.kept
  · refine (Function.forall_update_iff s.places (p := fun t place => Fits _ t place)).mpr ⟨?_, fun t hne => ?_⟩
    · exact List.forall_mem_append.mpr ⟨fun r hr _ => Nat.add_le_add_right (h.timed r hr).2.2 _, by simp⟩
    · exact (h.fits t).refused (Ne.symm hne)
  · exact List.forall_mem_append.mpr ⟨h.timed, by simpa using ⟨ht, hnow⟩⟩
  · refine List.forall_mem_append.mpr ⟨h.full, List.forall_mem_singleton.mpr ?_⟩
    calc maxRequests ≤ s.limiter.requests.countP (fun t => now - t < s.limiter.window) := by
          rwa [List.countP_eq_length_filter]
      _ ≤ (s.admitted.map Try.reading).countP (fun t => now - t < s.limiter.window) := h.kept.countP_le
      _ = s.admitted.countP (fun a => now - a.reading < s.limiter.window) := List.countP_map ..
      _ ≤ s.admitted.countP (Try.counts window ⟨task, now, s.clock⟩) := by
          refine List.countP_mono_left fun a ha hrecent => ?_
          have hne := h.others hwaits a ha
          have hpast := h.past a ha
          have hwindow := h.window_eq
          simp only [decide_eq_true_eq] at hrecent
          simp only [Try.counts, Bool.and_eq_true, decide_eq_true_eq]
          omega
  · refine List.pairwise_append.mpr ⟨h.later, List.pairwise_singleton .., ?_⟩
    simpa using hdue

theorem Sound.step (h : s.Sound maxRequests window) (e : Event) : (s.step e).Sound maxRequests window := by
  cases e with
  | tick d => exact h.tick d
  | read task =>
    cases hp : s.places task with
    | sleeping due =>
      simp only [Waiting.step, hp]
      split_ifs with hready
      · exact h.reads hp hready.1 hready.2
      · exact h
    | _ => simpa only [Waiting.step, hp] using h
  | lock task =>
    cases hp : s.places task with
    | trying now =>
      simp only [Waiting.step, hp, tryAcquire]
      by_cases hroom : (s.limiter.requests.filter fun t => now - t < s.limiter.window).length < s.limiter.maxRequests
      · simp only [if_pos hroom, if_true]
        exact h.admits hp
      · simp only [if_neg hroom, Bool.false_eq_true, if_false]
        exact h.refuses hp (h.maxRequests_eq ▸ Nat.not_lt.mp hroom)
    | _ => simpa only [Waiting.step, hp] using h

theorem run_sound (h : s.Sound maxRequests window) (events : List Event) :
    (s.run events).Sound maxRequests window := by
  induction events generalizing s with
  | nil => exact h
  | cons e rest ih => exact ih (h.step e)

theorem step_tasks (s : Waiting) (e : Event) : (s.step e).tasks = s.tasks := by
  cases e with
  | tick d => rfl
  | read task =>
    simp only [Waiting.step]
    split <;> [split_ifs; skip] <;> rfl
  | lock task =>
    simp only [Waiting.step]
    split <;> [split_ifs; skip] <;> rfl

theorem run_tasks (s : Waiting) (events : List Event) : (s.run events).tasks = s.tasks := by
  induction events generalizing s with
  | nil => rfl
  | cons e rest ih => exact (ih (s.step e)).trans (step_tasks s e)

/-! ### How long a call waits -/

/-- The refusals of a call, in order. -/
def refusals (s : Waiting) (task : Nat) : List Try := s.refused.filter (·.task = task)

/-- No more than `δ` passes from one refusal to the next. -/
def Prompt (δ : Nat) (rs : List Try) : Prop := rs.IsChain fun r r' => r'.time ≤ r.time + δ

theorem Sound.refusals_later (h : s.Sound maxRequests window) (task : Nat) :
    (s.refusals task).Pairwise fun r r' => r.time + pause ≤ r'.reading := by
  refine (h.later.filter _).imp_of_mem fun hr hr' hlater => hlater ?_
  exact (of_decide_eq_true (List.mem_filter.mp hr).2).trans (of_decide_eq_true (List.mem_filter.mp hr').2).symm

/-- A call's tries are never far from any time while it is refused. -/
theorem prompt_reading {δ bound : Nat} {first last : Try} {rest : List Try}
    (hprompt : Prompt δ (first :: rest)) (hlater : (first :: rest).Pairwise fun r r' => r.time + pause ≤ r'.reading)
    (hfirst : first.time ≤ bound + δ) (hmem : last ∈ first :: rest) (hlast : bound ≤ last.reading) :
    ∃ r ∈ first :: rest, bound ≤ r.reading ∧ r.time ≤ bound + 2 * δ := by
  induction rest generalizing first with
  | nil =>
    obtain rfl := List.mem_singleton.mp hmem
    exact ⟨last, List.mem_cons_self, hlast, by omega⟩
  | cons second rest ih =>
    by_cases hearly : bound ≤ first.reading
    · exact ⟨first, List.mem_cons_self, hearly, by omega⟩
    obtain ⟨htime, hprompt⟩ := List.isChain_cons_cons.mp hprompt
    obtain ⟨hreading, hlater⟩ := List.pairwise_cons.mp hlater
    have hreading := hreading second List.mem_cons_self
    by_cases hsecond : bound ≤ second.reading
    · exact ⟨second, by simp, hsecond, by omega⟩
    · have hmem : last ∈ second :: rest := by
        rcases List.mem_cons.mp hmem with rfl | hmem
        · exact absurd hlast hearly
        · exact hmem
      obtain ⟨r, hr, hbounds⟩ := ih hprompt hlater (by omega) hmem
      exact ⟨r, List.mem_cons_of_mem _ hr, hbounds⟩

theorem countP_add_le {α : Type} {p q r : α → Bool} (l : List α) (hp : ∀ a, p a = true → r a = true)
    (hq : ∀ a, q a = true → r a = true) (hpq : ∀ a, p a = true → q a = false) :
    l.countP p + l.countP q ≤ l.countP r := by
  induction l with
  | nil => exact Nat.le_refl _
  | cons a l ih =>
    simp only [List.countP_cons]
    cases hpa : p a with
    | true =>
      rw [hp a hpa, hpq a hpa]
      simp only [if_true, Bool.false_eq_true, if_false]
      omega
    | false =>
      cases hqa : q a with
      | true =>
        rw [hq a hqa]
        simp only [if_true, Bool.false_eq_true, if_false]
        omega
      | false =>
        simp only [Bool.false_eq_true, if_false]
        omega

/-- While a call is refused, a window after window is filled by others. -/
theorem Sound.filled (h : s.Sound maxRequests window) {δ : Nat} {first last : Try} {rest : List Try}
    (hrefused : s.refusals task = first :: rest) (hprompt : Prompt δ (first :: rest)) (hmem : last ∈ first :: rest)
    (k : Nat) (hlast : first.time + k * (window + 2 * δ) ≤ last.reading) :
    ∃ r ∈ first :: rest, r.time ≤ first.time + k * (window + 2 * δ) + 2 * δ ∧
      (k + 1) * maxRequests ≤ s.admitted.countP fun a => a.task ≠ task && a.reading ≤ r.time := by
  have hfull : ∀ r ∈ first :: rest,
      r.task = task ∧ r.reading ≤ r.time ∧ maxRequests ≤ s.admitted.countP (r.counts window) := by
    intro r hr
    rw [← hrefused, refusals, List.mem_filter] at hr
    exact ⟨of_decide_eq_true hr.2, (h.timed r hr.1).2.1, h.full r hr.1⟩
  have hlater : (first :: rest).Pairwise fun r r' => r.time + pause ≤ r'.reading := hrefused ▸ h.refusals_later task
  induction k with
  | zero =>
    obtain ⟨r, hr, -, htime⟩ := prompt_reading hprompt hlater (by omega) hmem hlast
    obtain ⟨htask, -, hcount⟩ := hfull r hr
    refine ⟨r, hr, htime, ?_⟩
    rw [Nat.zero_add, Nat.one_mul]
    refine hcount.trans (List.countP_mono_left fun a _ ha => ?_)
    simp only [Try.counts, Bool.and_eq_true, decide_eq_true_eq] at ha ⊢
    omega
  | succ k ih =>
    rw [Nat.succ_mul] at hlast ⊢
    obtain ⟨r, hr, htime, hcount⟩ := ih (by omega)
    obtain ⟨r', hr', hreading, htime'⟩ := prompt_reading hprompt hlater (by omega) hmem hlast
    obtain ⟨htask', hle, hcount'⟩ := hfull r' hr'
    refine ⟨r', hr', by omega, ?_⟩
    rw [Nat.succ_mul]
    -- what the one has counted is too old for the other
    refine (Nat.add_le_add hcount hcount').trans (countP_add_le _ ?_ ?_ ?_) <;> intro a ha
    · simp only [Bool.and_eq_true, decide_eq_true_eq] at ha ⊢
      omega
    · simp only [Try.counts, Bool.and_eq_true, decide_eq_true_eq] at ha ⊢
      omega
    · simp only [Bool.and_eq_true, decide_eq_true_eq] at ha
      simp only [Try.counts, Bool.and_eq_false_iff, decide_eq_false_iff_not]
      omega

/-- The other calls that have been admitted are all but one at most. -/
theorem Sound.others_le (h : s.Sound maxRequests window) (ht : task < s.tasks) (p : Try → Bool) :
    (s.admitted.countP fun a => a.task ≠ task && p a) ≤ s.tasks - 1 := by
  have hdistinct : ((s.admitted.filter (·.task ≠ task)).map Try.task).Nodup :=
    h.distinct.sublist (List.filter_sublist.map _)
  have hamong : ((s.admitted.filter (·.task ≠ task)).map Try.task).toFinset ⊆ (Finset.range s.tasks).erase task := by
    intro t ht'
    obtain ⟨a, ha, rfl⟩ := List.mem_map.mp (List.mem_toFinset.mp ht')
    obtain ⟨ha, hne⟩ := List.mem_filter.mp ha
    exact Finset.mem_erase.mpr ⟨of_decide_eq_true hne, Finset.mem_range.mpr (h.returned a ha).1⟩
  calc (s.admitted.countP fun a => a.task ≠ task && p a)
      ≤ s.admitted.countP (·.task ≠ task) := List.countP_mono_left fun a _ ha => (Bool.and_eq_true_iff.mp ha).1
    _ = ((s.admitted.filter (·.task ≠ task)).map Try.task).length := by
        rw [List.length_map, List.countP_eq_length_filter]
    _ ≤ ((Finset.range s.tasks).erase task).card := by
        rw [← List.toFinset_card_of_nodup hdistinct]
        exact Finset.card_le_card hamong
    _ = s.tasks - 1 := by rw [Finset.card_erase_of_mem (Finset.mem_range.mpr ht), Finset.card_range]

/-- A call sleeps before each of its further tries. -/
theorem spread_reading {first : Try} {rest : List Try}
    (hlater : (first :: rest).Pairwise fun r r' => r.time + pause ≤ r'.reading)
    (htimed : ∀ r ∈ rest, r.reading ≤ r.time) (hrest : rest ≠ []) :
    ∃ r ∈ rest, first.time + rest.length * pause ≤ r.reading := by
  induction rest generalizing first with
  | nil => exact absurd rfl hrest
  | cons second rest ih =>
    obtain ⟨hfirst, hlater⟩ := List.pairwise_cons.mp hlater
    have hsecond := hfirst second List.mem_cons_self
    rcases rest.eq_nil_or_concat with rfl | ⟨_, _, hne⟩
    · exact ⟨second, List.mem_cons_self, by simpa using hsecond⟩
    · obtain ⟨r, hr, hreading⟩ := ih hlater (fun r hr => htimed r (List.mem_cons_of_mem _ hr)) (by simp [hne])
      have hle := htimed second List.mem_cons_self
      refine ⟨r, List.mem_cons_of_mem _ hr, ?_⟩
      rw [List.length_cons, Nat.succ_mul]
      omega

end

/-- How long a call may be refused: as many windows as the others can fill, each with two delays. -/
def patience (maxRequests window δ tasks : Nat) : Nat := (tasks - 1) / maxRequests * (window + 2 * δ)

/-- **Every call of `acquire` is admitted in bounded time**: however the calls interleave, a try is not refused any
more once `patience` has passed since its call's first refusal, and behind the first the call is refused no more
often than it can sleep in this time. -/
theorem acquire_bounded (maxRequests window δ tasks : Nat) (hpos : 0 < maxRequests) (events : List Event) (task : Nat)
    (first : Try) (rest : List Try)
    (hrefused : ((fresh maxRequests window tasks).run events).refusals task = first :: rest)
    (hprompt : Prompt δ (first :: rest)) :
    (∀ r ∈ first :: rest, r.reading < first.time + patience maxRequests window δ tasks) ∧
      rest.length * pause ≤ patience maxRequests window δ tasks := by
  have hsound := run_sound (sound_fresh maxRequests window tasks) events
  have htasks : ((fresh maxRequests window tasks).run events).tasks = tasks := run_tasks _ events
  have hin : ∀ r ∈ first :: rest, r.task < tasks ∧ r.reading ≤ r.time ∧ r.task = task := by
    intro r hr
    rw [← hrefused, refusals, List.mem_filter] at hr
    obtain ⟨ht, hle, -⟩ := hsound.timed r hr.1
    exact ⟨htasks ▸ ht, hle, of_decide_eq_true hr.2⟩
  obtain ⟨ht, -, htask⟩ := hin first List.mem_cons_self
  have hbound : ∀ r ∈ first :: rest, r.reading < first.time + patience maxRequests window δ tasks := by
    intro r hr
    by_contra hge
    obtain ⟨r', -, -, hcount⟩ := hsound.filled hrefused hprompt hr _ (Nat.not_lt.mp hge)
    have hle := hcount.trans (hsound.others_le (by rwa [htasks, ← htask]) _)
    rw [htasks, ← Nat.le_div_iff_mul_le hpos] at hle
    exact Nat.not_succ_le_self _ hle
  refine ⟨hbound, ?_⟩
  rcases eq_or_ne rest [] with rfl | hrest
  · exact (Nat.zero_mul _).le.trans (Nat.zero_le _)
  · obtain ⟨r, hr, hreading⟩ := spread_reading (hrefused ▸ hsound.refusals_later task)
      (fun r hr => (hin r (List.mem_cons_of_mem _ hr)).2.1) hrest
    have hlt := hbound r (List.mem_cons_of_mem _ hr)
    omega

/-- One call in a window of fifteen milliseconds. The second call is refused twice. -/
def turnedAway : List Event :=
  [.read 0, .lock 0, .read 1, .lock 1, .tick pause, .read 1, .lock 1, .tick pause, .read 1, .lock 1]

theorem acquire_bounded_two :
    ((fresh 1 15000000 2).run turnedAway).refusals 1 = [⟨1, 0, 0⟩, ⟨1, pause, pause⟩] ∧
    ((fresh 1 15000000 2).run turnedAway).admitted = [⟨0, 0, 0⟩, ⟨1, 2 * pause, 2 * pause⟩] ∧
    (∀ r ∈ [(⟨1, 0, 0⟩ : Try), ⟨1, pause, pause⟩], r.reading < 0 + patience 1 15000000 pause 2) ∧
      1 * pause ≤ patience 1 15000000 pause 2 :=
  ⟨by decide +kernel, by decide +kernel,
    acquire_bounded 1 15000000 pause 2 (by decide) turnedAway 1 ⟨1, 0, 0⟩ [⟨1, pause, pause⟩] (by decide +kernel)
      (List.isChain_pair.mpr (by decide +kernel))⟩

end Waiting

end XProtocol.Utils.RateLimiter
