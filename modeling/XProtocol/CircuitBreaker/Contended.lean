import XProtocol.Async.Mutex
import XProtocol.Async.Order
import XProtocol.CircuitBreaker.Shared

/-! What the circuit breaker is under concurrent calls.

A call may find the breaker open, be overtaken, and make a closed breaker half open; but
never before the timeout is over (`contended_transitions`). A closed breaker does not open
before its threshold is reached (`contended_stays_closed`), and failures are not lost
(`contended_failures_open`). Nobody waits forever (`contended_completes`). -/
namespace XProtocol.SharedBreaker
open Async
open CircuitBreaker (Call)

/-! ### What a task knows -/

/-- What a task has found, and what it has of the locks. -/
structure Insight where
  /-- How many failures there were before its own. -/
  place : Option Nat := none
  /-- How many it has loaded. -/
  loaded : Option Nat := none
  clock : Nat := 0
  onLast : RwLock.Hold := .nothing
  onState : RwLock.Hold := .nothing
  /-- The last failure, as it has found it under its guard. -/
  last : Option (Option Nat) := none
  /-- The state, as it has found it under its guard. -/
  seen : Option CircuitState := none
  /-- It has found the breaker open. -/
  found : Bool := false
  /-- It has opened the breaker. -/
  opened : Bool := false

namespace Insight

def none : Insight := {}

def after (g : Insight) : (o : Op) → Calls.Ret o → Insight
  | .addFailure, n => { g with place := some n }
  | .loadFailures, n => { g with loaded := some n }
  | .now, now => { g with clock := now }
  | .guard .lastFailure use, _ => { g with onLast := .after use, last := Option.none }
  | .guard .state use, _ => { g with onState := .after use, seen := Option.none }
  | .loadLast, last => { g with last := some last }
  | .loadState, state => { g with seen := some state, found := state = .opened }
  | .setState state, _ => { g with seen := Option.none, opened := g.opened || state = .opened }
  | _, _ => g

/-- What is due where a breaker may be told of successes, or may not. -/
def due (threshold timeout : Nat) (successes : Bool) (g : Insight) : Op → Prop
  | .clearFailures => successes = true
  | .addFailure => g.place = Option.none ∧ g.loaded = Option.none
  -- the state is locked under the last failure, and not the other way round
  | .guard .lastFailure use => g.onLast = .before use ∧ g.onState = .nothing
  | .guard .state use => g.onState = .before use
  | .loadLast => g.onLast = .reading
  | .setLast _ => g.onLast = .writing
  | .loadState => g.onState = .reading ∨ g.onState = .writing
  | .setState state => g.onState = .writing ∧ match state with
    | .opened => ∃ n, g.loaded = some n ∧ threshold ≤ n
    | .halfOpen => g.found = true ∧ ∃ last, g.last = some (some last) ∧ last + timeout < g.clock
    | .closed => successes = true ∧ g.seen = some .halfOpen
  | _ => True

/-- A call that is over holds nothing; and whoever has loaded enough failures has opened the breaker. -/
def Over (threshold : Nat) (call : Call) (g : Insight) : Prop :=
  g.onLast = .nothing ∧ g.onState = .nothing ∧
    (call = .recordFailure → ∃ k n, g.place = some k ∧ g.loaded = some n ∧ (threshold ≤ n → g.opened = true))

end Insight

abbrev insight (threshold timeout : Nat) (successes : Bool) : Discipline Calls Insight :=
  owing (Insight.due threshold timeout successes) Insight.after

section
variable {threshold timeout : Nat} {successes : Bool}

theorem recordSuccess_due (h : successes = true) : Safe (insight threshold timeout successes) recordSuccess
    (fun g _ => g.onLast = .nothing ∧ g.onState = .nothing) .none := by
  unfold recordSuccess
  refine safe_owing.mpr ⟨trivial, fun _ => safe_owing.mpr ⟨h, fun _ => safe_owing.mpr ⟨rfl, fun _ =>
    safe_owing.mpr ⟨rfl, fun _ => safe_owing.mpr ⟨.inr rfl, fun state => ?_⟩⟩⟩⟩⟩
  show Safe _ (closeHalfOpen state >>= fun _ => op (.guard .state .endWrite)) _ _
  cases state with
  | halfOpen => exact safe_owing.mpr ⟨⟨rfl, h, rfl⟩, fun _ => safe_owing.mpr ⟨rfl, fun _ => ⟨rfl, rfl⟩⟩⟩
  | closed | opened => exact safe_owing.mpr ⟨rfl, fun _ => ⟨rfl, rfl⟩⟩

/-- Who has nothing of the state writes it, where that is due. -/
theorem assign_due {α : Type} {s : CircuitState} {k : Unit → Program Calls α} {Q : Insight → α → Prop} {g : Insight}
    (hout : g.onState = .nothing) (hdue : Insight.due threshold timeout successes
      { g with onState := .writing, seen := none } (.setState s))
    (hk : Safe (insight threshold timeout successes) (k ()) Q
      { g with onState := .nothing, seen := none, opened := g.opened || s = .opened }) :
    Safe (insight threshold timeout successes) (assign s >>= k) Q g :=
  safe_owing.mpr ⟨hout, fun _ => safe_owing.mpr ⟨rfl, fun _ => safe_owing.mpr ⟨hdue, fun _ =>
    safe_owing.mpr ⟨rfl, fun _ => hk⟩⟩⟩⟩

theorem recordFailure_due : Safe (insight threshold timeout successes) (recordFailure threshold)
    (fun g _ => g.Over threshold .recordFailure) .none := by
  unfold recordFailure
  refine safe_owing.mpr ⟨⟨rfl, rfl⟩, fun k => safe_owing.mpr ⟨trivial, fun now => safe_owing.mpr ⟨⟨rfl, rfl⟩, fun _ =>
    safe_owing.mpr ⟨⟨rfl, rfl⟩, fun _ => safe_owing.mpr ⟨rfl, fun _ => safe_owing.mpr ⟨⟨rfl, rfl⟩, fun _ =>
    safe_owing.mpr ⟨trivial, fun n => ?_⟩⟩⟩⟩⟩⟩⟩
  show Safe _ (if n ≥ threshold then _ else _) _ _
  split
  · next hmany =>
    rw [← bind_pure (assign .opened)]
    exact assign_due rfl ⟨rfl, n, rfl, hmany⟩ ⟨rfl, rfl, fun _ => ⟨k, n, rfl, rfl, fun _ => rfl⟩⟩
  · next hfew => exact ⟨rfl, rfl, fun _ => ⟨k, n, rfl, rfl, fun hmany => absurd hmany hfew⟩⟩

theorem state_due : Safe (insight threshold timeout successes) (state timeout)
    (fun g _ => g.onLast = .nothing ∧ g.onState = .nothing) .none := by
  unfold state
  refine safe_owing.mpr ⟨rfl, fun _ => safe_owing.mpr ⟨.inl rfl, fun current => safe_owing.mpr ⟨rfl, fun _ => ?_⟩⟩⟩
  cases current with
  | opened =>
    refine safe_owing.mpr ⟨⟨rfl, rfl⟩, fun _ => safe_owing.mpr ⟨rfl, fun last => ?_⟩⟩
    cases last with
    | none => exact safe_owing.mpr ⟨⟨rfl, rfl⟩, fun _ => ⟨rfl, rfl⟩⟩
    | some last =>
      refine safe_owing.mpr ⟨trivial, fun now => ?_⟩
      show Safe _ (if now - last > timeout then _ else _) _ _
      split
      · next hlong =>
        have hover : last + timeout < now := Nat.lt_sub_iff_add_lt'.mp hlong
        exact assign_due rfl ⟨rfl, rfl, last, rfl, hover⟩ (safe_owing.mpr ⟨⟨rfl, rfl⟩, fun _ => ⟨rfl, rfl⟩⟩)
      · exact safe_owing.mpr ⟨⟨rfl, rfl⟩, fun _ => ⟨rfl, rfl⟩⟩
  | closed | halfOpen => exact ⟨rfl, rfl⟩

theorem task_due (call : Call) (h : call = .recordSuccess → successes = true) :
    Safe (insight threshold timeout successes) (task threshold timeout call) (fun g _ => g.Over threshold call)
      .none := by
  cases call with
  | recordSuccess =>
    rw [task, map_eq_pure_bind, safe_bind]
    exact safe_mono (recordSuccess_due (h rfl)) fun _ _ hg => ⟨hg.1, hg.2, by simp⟩
  | recordFailure =>
    rw [task, map_eq_pure_bind, safe_bind]
    exact safe_mono recordFailure_due fun _ _ hg => hg
  | state =>
    rw [task, map_eq_pure_bind, safe_bind]
    exact safe_mono state_due fun _ _ hg => ⟨hg.1, hg.2, by simp⟩
  | isAvailable =>
    rw [task, map_eq_pure_bind, safe_bind, isAvailable, safe_bind]
    exact safe_mono state_due fun _ _ hg => ⟨hg.1, hg.2, by simp⟩
  | canExecute =>
    rw [task, map_eq_pure_bind, safe_bind, canExecute, safe_bind]
    refine safe_mono state_due fun _ current hg => ?_
    cases current <;> exact ⟨hg.1, hg.2, by simp⟩

end

/-! ### What is known of the breaker -/

/-- Who has what of the locks; and what each of the `count` tasks has found under its guard is still there. -/
structure Known (count : Nat) (w : SharedBreaker) (γ : Nat → Insight) : Prop where
  clock : ∀ t, (γ t).clock ≤ w.clock
  onLast : RwLock.Guards (w.lock .lastFailure) (Insight.onLast ∘ γ)
  onState : RwLock.Guards (w.lock .state) (Insight.onState ∘ γ)
  last : ∀ t last, (γ t).last = some last → (γ t).onLast = .reading ∧ w.breaker.lastFailure = last
  seen : ∀ t s, (γ t).seen = some s → ((γ t).onState = .reading ∨ (γ t).onState = .writing) ∧ w.breaker.state = s
  beyond : ∀ t, count ≤ t → γ t = .none

section
variable {threshold timeout count t : Nat} {successes : Bool} {w w' : SharedBreaker} {γ : Nat → Insight}

theorem known_free (count : Nat) (b : CircuitBreaker) (clock : Nat) : Known count (free b clock) fun _ => .none where
  clock _ := Nat.zero_le _
  onLast := RwLock.Guards.free
  onState := RwLock.Guards.free
  last _ _ h := nomatch h
  seen _ _ h := nomatch h
  beyond _ _ := rfl

/-- One task learns something, and the others know what they knew. -/
theorem Known.learns (h : Known count w γ) (ht : t < count) {g : Insight} (hlater : w.clock ≤ w'.clock)
    (hclock : g.clock ≤ w'.clock)
    (honLast : RwLock.Guards (w'.lock .lastFailure) (Function.update (Insight.onLast ∘ γ) t g.onLast))
    (honState : RwLock.Guards (w'.lock .state) (Function.update (Insight.onState ∘ γ) t g.onState))
    (hlast : ∀ last, g.last = some last → g.onLast = .reading ∧ w'.breaker.lastFailure = last)
    (hseen : ∀ s, g.seen = some s → (g.onState = .reading ∨ g.onState = .writing) ∧ w'.breaker.state = s)
    (hlast' : ∀ u, u ≠ t → (γ u).onLast = .reading → w'.breaker.lastFailure = w.breaker.lastFailure)
    (hstate' : ∀ u, u ≠ t → (γ u).onState = .reading ∨ (γ u).onState = .writing →
      w'.breaker.state = w.breaker.state) :
    Known count w' (Function.update γ t g) where
  clock := (Function.forall_update_iff γ (p := fun _ g => g.clock ≤ w'.clock)).mpr
    ⟨hclock, fun u _ => (h.clock u).trans hlater⟩
  onLast := by rwa [Function.comp_update]
  onState := by rwa [Function.comp_update]
  last := (Function.forall_update_iff γ
    (p := fun _ g => ∀ last, g.last = some last → g.onLast = .reading ∧ w'.breaker.lastFailure = last)).mpr
    ⟨hlast, fun u hu last hl => by
      obtain ⟨hreading, heq⟩ := h.last u last hl
      exact ⟨hreading, (hlast' u hu hreading).trans heq⟩⟩
  seen := (Function.forall_update_iff γ (p := fun _ g => ∀ s, g.seen = some s →
    (g.onState = .reading ∨ g.onState = .writing) ∧ w'.breaker.state = s)).mpr
    ⟨hseen, fun u hu s hs => by
      obtain ⟨hguard, heq⟩ := h.seen u s hs
      exact ⟨hguard, (hstate' u hu hguard).trans heq⟩⟩
  beyond u hu := by
    rw [Function.update_of_ne (by omega)]
    exact h.beyond u hu

/-- An operation on the counters. -/
theorem Known.stays (h : Known count w γ) (ht : t < count) {g : Insight} (hclock : g.clock = (γ t).clock)
    (honLast : g.onLast = (γ t).onLast) (honState : g.onState = (γ t).onState) (hlast : g.last = (γ t).last)
    (hseen : g.seen = (γ t).seen) {b : CircuitBreaker} (hfailure : b.lastFailure = w.breaker.lastFailure)
    (hstate : b.state = w.breaker.state) :
    Known count { w with breaker := b } (Function.update γ t g) := by
  refine h.learns ht (Nat.le_refl _) (hclock ▸ h.clock t) (honLast ▸ h.onLast.kept) (honState ▸ h.onState.kept) ?_ ?_
    (fun _ _ _ => hfailure) fun _ _ _ => hstate
  · rw [hlast, honLast, show ({ w with breaker := b } : SharedBreaker).breaker.lastFailure = _ from hfailure]
    exact h.last t
  · rw [hseen, honState, show ({ w with breaker := b } : SharedBreaker).breaker.state = _ from hstate]
    exact h.seen t

theorem known_upheld : Upheld machine (insight threshold timeout successes) (fun _ t _ _ => t < count) (Known count) := by
  intro w γ t o c r w' h hd ht hstep
  refine ⟨_, rfl, ?_⟩
  cases o with
  | now =>
    obtain ⟨hle, heq⟩ := Option.ite_none_right_eq_some.mp hstep
    obtain ⟨rfl, rfl⟩ := Prod.mk.inj (Option.some.inj heq)
    exact h.learns ht hle (Nat.le_refl _) h.onLast.kept h.onState.kept (h.last t) (h.seen t) (fun _ _ _ => rfl)
      fun _ _ _ => rfl
  | guard cell use =>
    obtain ⟨l, huse, heq⟩ := Option.map_eq_some_iff.mp hstep
    cases heq
    cases cell with
    | lastFailure =>
      exact h.learns ht (Nat.le_refl _) (h.clock t) (h.onLast.uses hd.1 huse) h.onState.kept nofun (h.seen t)
        (fun _ _ _ => rfl) fun _ _ _ => rfl
    | state =>
      exact h.learns ht (Nat.le_refl _) (h.clock t) h.onLast.kept (h.onState.uses hd huse) (h.last t) nofun
        (fun _ _ _ => rfl) fun _ _ _ => rfl
  | loadLast =>
    cases hstep
    exact h.learns ht (Nat.le_refl _) (h.clock t) h.onLast.kept h.onState.kept
      (fun last hl => ⟨hd, Option.some.inj hl⟩) (h.seen t) (fun _ _ _ => rfl) fun _ _ _ => rfl
  | setLast now =>
    cases hstep
    have hwriting : (γ t).onLast = .writing := hd
    refine h.learns ht (Nat.le_refl _) (h.clock t) h.onLast.kept h.onState.kept (fun last hl => ?_) (h.seen t)
      (fun u _ hu => absurd hu (h.onLast.not_reading hwriting)) fun _ _ _ => rfl
    have hreading := (h.last t last hl).1
    cases hwriting.symm.trans hreading
  | loadState =>
    cases hstep
    exact h.learns ht (Nat.le_refl _) (h.clock t) h.onLast.kept h.onState.kept (h.last t)
      (fun s hs => ⟨hd, Option.some.inj hs⟩) (fun _ _ _ => rfl) fun _ _ _ => rfl
  | setState s =>
    cases hstep
    have hwriting : (γ t).onState = .writing := hd.1
    refine h.learns ht (Nat.le_refl _) (h.clock t) h.onLast.kept h.onState.kept (h.last t) nofun (fun _ _ _ => rfl)
      fun u hut hu => ?_
    rcases hu with hreading | hother
    · exact absurd hreading (h.onState.not_reading hwriting)
    · exact absurd (h.onState.writing_unique hwriting hother) hut
  | _ =>
    cases hstep
    refine h.stays ht ?_ ?_ ?_ ?_ ?_ ?_ ?_ <;> rfl

end

theorem start_known (b : CircuitBreaker) (clock : Nat) {calls : List Call} {successes : Bool}
    (h : .recordSuccess ∈ calls → successes = true) {t : Nat} {p : Program Calls Outcome}
    (hp : (start b clock calls).tasks[t]? = some p) :
    ∃ call, calls[t]? = some call ∧
      Safe (insight b.threshold b.timeout successes) p (fun g _ => g.Over b.threshold call) .none := by
  obtain ⟨call, hcall, rfl⟩ := Option.map_eq_some_iff.mp (List.getElem?_map.symm.trans hp)
  exact ⟨call, hcall, task_due call fun heq => h (heq ▸ List.mem_of_getElem? hcall)⟩

/-! ### How the state turns -/

/-- When the state may turn: a breaker is closed from half open, and half opened when the timeout is over. -/
def Turns (timeout : Nat) (w : SharedBreaker) : CircuitState → Prop
  | .closed => w.breaker.state = .halfOpen
  | .halfOpen => ∃ last, w.breaker.lastFailure = some last ∧ last + timeout < w.clock
  | .opened => True

theorem turns_of_due {threshold timeout count t c : Nat} {successes : Bool} {w w' : SharedBreaker} {γ : Nat → Insight}
    {o : Op} {r : Calls.Ret o} (h : Known count w γ) (hd : (γ t).due threshold timeout successes o)
    (hstep : perform t o c w = some (r, w')) (hturn : w'.breaker.state ≠ w.breaker.state) :
    Turns timeout w w'.breaker.state := by
  cases o with
  | setState current =>
    cases hstep
    obtain ⟨-, hd⟩ := hd
    cases current with
    | closed => exact (h.seen t _ hd.2).2
    | opened => exact trivial
    | halfOpen =>
      obtain ⟨-, last, hlast, hover⟩ := hd
      exact ⟨last, (h.last t _ hlast).2, hover.trans_le (h.clock t)⟩
  | now =>
    obtain ⟨-, heq⟩ := Option.ite_none_right_eq_some.mp hstep
    cases heq
    exact absurd rfl hturn
  | guard cell use =>
    obtain ⟨l, -, heq⟩ := Option.map_eq_some_iff.mp hstep
    cases heq
    exact absurd rfl hturn
  | _ =>
    cases hstep
    exact absurd rfl hturn

/-- **However the calls interleave**, the breaker is closed only from half open, and half opened only when its last
failure is longer ago than the timeout. -/
theorem contended_transitions (b : CircuitBreaker) (clock : Nat) (calls : List Call) (run : List (Nat × Nat)) :
    (start b clock calls).Along machine (fun s l => ∀ s', s.step machine l = some s' →
      s'.world.breaker.state ≠ s.world.breaker.state → Turns b.timeout s.world s'.world.breaker.state) run := by
  have hkept : Kept (insight b.threshold b.timeout true) (Known (start b clock calls).tasks.length)
      (fun _ _ _ => True) (start b clock calls) := by
    refine ⟨fun _ => .none, known_free _ b clock, fun t p hp => ?_⟩
    obtain ⟨call, -, hsafe⟩ := start_known b clock (fun _ => rfl) hp
    exact safe_mono hsafe fun _ _ _ => trivial
  refine Config.along_of_throughout ?_ (throughout_safe known_upheld (Config.along_tasks _ run) hkept)
  rintro s ⟨t, c⟩ ⟨γ, hknown, hsafe⟩ s' hs hturn
  obtain ⟨o, k, r, w, hp, hstep, rfl⟩ := Config.step_eq_some hs
  exact turns_of_due hknown (hsafe t _ hp).1 hstep hturn

/-- Two calls find the breaker open; between the two a success closes it. -/
def overtaken : List (Nat × Nat) :=
  List.replicate 11 (0, 0) ++ List.replicate 3 (1, 0) ++ List.replicate 11 (2, 5) ++ List.replicate 7 (3, 5) ++
    List.replicate 8 (1, 6)

example : ((start (CircuitBreaker.fresh 1 0) 0 [.recordFailure, .state, .state, .recordSuccess]).run machine
      (overtaken.take 32)).map (·.world.breaker.state) = some .closed ∧
    ((start (CircuitBreaker.fresh 1 0) 0 [.recordFailure, .state, .state, .recordSuccess]).run machine
      overtaken).map (·.world.breaker.state) = some .halfOpen := by decide +kernel

/-! ### Few failures -/

/-- The breaker is closed, and nobody has found it open, or loaded enough failures to open it. -/
structure Calm (threshold : Nat) (w : SharedBreaker) (γ : Nat → Insight) : Prop where
  closed : w.breaker.state = .closed
  found : ∀ t, (γ t).found = false
  loaded : ∀ t n, (γ t).loaded = some n → n < threshold

theorem Calm.learns {threshold t : Nat} {w w' : SharedBreaker} {γ : Nat → Insight} (h : Calm threshold w γ)
    {g : Insight} (hclosed : w'.breaker.state = .closed) (hfound : g.found = false)
    (hloaded : ∀ n, g.loaded = some n → n < threshold) : Calm threshold w' (Function.update γ t g) where
  closed := hclosed
  found := (Function.forall_update_iff γ (p := fun _ g => g.found = false)).mpr ⟨hfound, fun u _ => h.found u⟩
  loaded := (Function.forall_update_iff γ (p := fun _ g => ∀ n, g.loaded = some n → n < threshold)).mpr
    ⟨hloaded, fun u _ => h.loaded u⟩

theorem calm_upheld {threshold timeout : Nat} {successes : Bool} : Upheld machine (insight threshold timeout successes)
    (fun w _ _ _ => w.breaker.failures < threshold) (Calm threshold) := by
  intro w γ t o c r w' h hd hfew hstep
  refine ⟨_, rfl, ?_⟩
  cases o with
  | setState current =>
    cases hstep
    obtain ⟨-, hd⟩ := hd
    cases current with
    | closed => exact h.learns rfl (h.found t) (h.loaded t)
    | opened =>
      obtain ⟨n, hloaded, hmany⟩ := hd
      exact absurd (h.loaded t n hloaded) (Nat.not_lt.mpr hmany)
    | halfOpen =>
      obtain ⟨hfound, -⟩ := hd
      cases (h.found t).symm.trans hfound
  | loadFailures =>
    cases hstep
    refine h.learns h.closed (h.found t) fun n hn => ?_
    obtain rfl := Option.some.inj hn
    exact hfew
  | loadState =>
    cases hstep
    refine h.learns h.closed ?_ (h.loaded t)
    simp [Insight.after, h.closed]
  | now =>
    obtain ⟨-, heq⟩ := Option.ite_none_right_eq_some.mp hstep
    cases heq
    exact h.learns h.closed (h.found t) (h.loaded t)
  | guard cell use =>
    obtain ⟨l, -, heq⟩ := Option.map_eq_some_iff.mp hstep
    cases heq
    cases cell <;> exact h.learns h.closed (h.found t) (h.loaded t)
  | _ =>
    cases hstep
    exact h.learns h.closed (h.found t) (h.loaded t)

/-- **A closed breaker stays closed** as long as fewer failures are counted than its threshold. -/
theorem contended_stays_closed (b : CircuitBreaker) (clock : Nat) (calls : List Call) (run : List (Nat × Nat))
    (hclosed : b.state = .closed) (hfew : (start b clock calls).Along machine
      (Config.Performs fun w _ _ _ => w.breaker.failures < b.threshold) run) :
    (start b clock calls).Throughout machine (fun s => s.world.breaker.state = .closed) run := by
  have hkept : Kept (insight b.threshold b.timeout true) (Calm b.threshold) (fun _ _ _ => True)
      (start b clock calls) := by
    refine ⟨fun _ => .none, ⟨hclosed, fun _ => rfl, fun _ _ h => nomatch h⟩, fun t p hp => ?_⟩
    obtain ⟨call, -, hsafe⟩ := start_known b clock (fun _ => rfl) hp
    exact safe_mono hsafe fun _ _ _ => trivial
  refine Config.throughout_mono ?_ (throughout_safe calm_upheld hfew hkept)
  rintro s ⟨γ, hcalm, -⟩
  exact hcalm.closed

/-- Two failures, and a success that clears the first. -/
def cleared : List (Nat × Nat) :=
  List.replicate 7 (0, 0) ++ List.replicate 6 (1, 0) ++ List.replicate 7 (2, 1) ++ List.replicate 3 (3, 1)

theorem contended_stays_closed_cleared :
    ((start (CircuitBreaker.fresh 2 9) 0 [.recordFailure, .recordSuccess, .recordFailure, .state]).run machine
      cleared).isSome = true ∧
    (start (CircuitBreaker.fresh 2 9) 0 [.recordFailure, .recordSuccess, .recordFailure, .state]).Throughout machine
      (fun s => s.world.breaker.state = .closed) cleared :=
  ⟨by decide +kernel, contended_stays_closed _ 0 _ cleared rfl (Config.along_of_checks (by decide +kernel))⟩

/-! ### Many failures -/

/-- Its own failure is not yet one of too many. -/
def Insight.low (threshold : Nat) (g : Insight) : Nat := (g.place.any fun k => k + 1 < threshold).toNat

/-- Failures are counted one after the other; and whoever has opened the breaker has not done so in vain. -/
structure Tallied (threshold count : Nat) (w : SharedBreaker) (γ : Nat → Insight) : Prop where
  low : total count (Insight.low threshold) γ ≤ min w.breaker.failures (threshold - 1)
  place : ∀ t k, (γ t).place = some k → k < w.breaker.failures
  loaded : ∀ t k n, (γ t).place = some k → (γ t).loaded = some n → k < n
  opened : ∀ t, (γ t).opened = true → w.breaker.state ≠ .closed

section
variable {threshold timeout count t : Nat} {w w' : SharedBreaker} {γ : Nat → Insight}

theorem Tallied.learns (h : Tallied threshold count w γ) (ht : t < count) {g : Insight}
    (hlow : g.low threshold = (γ t).low threshold) (hfailures : w'.breaker.failures = w.breaker.failures)
    (hplace : g.place = (γ t).place) (hloaded : ∀ k n, g.place = some k → g.loaded = some n → k < n)
    (hopened : g.opened = true → w'.breaker.state ≠ .closed)
    (hstate : w.breaker.state ≠ .closed → w'.breaker.state ≠ .closed) :
    Tallied threshold count w' (Function.update γ t g) where
  low := by
    have hupdate := total_update (f := Insight.low threshold) (γ := γ) ht g
    have hbefore := h.low
    rw [hfailures]
    omega
  place := by
    rw [hfailures]
    exact (Function.forall_update_iff γ (p := fun _ g => ∀ k, g.place = some k → k < w.breaker.failures)).mpr
      ⟨hplace ▸ h.place t, fun u _ => h.place u⟩
  loaded := (Function.forall_update_iff γ
    (p := fun _ g => ∀ k n, g.place = some k → g.loaded = some n → k < n)).mpr ⟨hloaded, fun u _ => h.loaded u⟩
  opened := (Function.forall_update_iff γ (p := fun _ g => g.opened = true → w'.breaker.state ≠ .closed)).mpr
    ⟨hopened, fun u _ hu => hstate (h.opened u hu)⟩

theorem Tallied.counts (h : Tallied threshold count w γ) (ht : t < count) (hplace : (γ t).place = none)
    (hloaded : (γ t).loaded = none) {b : CircuitBreaker} (hfailures : b.failures = w.breaker.failures + 1)
    (hstate : b.state = w.breaker.state) :
    Tallied threshold count { w with breaker := b }
      (Function.update γ t { γ t with place := some w.breaker.failures }) where
  low := by
    have hupdate := total_update (f := Insight.low threshold) (γ := γ) ht
      { γ t with place := some w.breaker.failures }
    have hbefore := h.low
    have hnone : (γ t).low threshold = 0 := by simp [Insight.low, hplace]
    have hown : Insight.low threshold { γ t with place := some w.breaker.failures } =
        if w.breaker.failures + 1 < threshold then 1 else 0 := by
      simp only [Insight.low, Option.any_some]
      split <;> simp [*]
    show total _ _ _ ≤ min b.failures _
    rw [hfailures]
    split at hown <;> omega
  place := (Function.forall_update_iff γ (p := fun _ g => ∀ k, g.place = some k → k < b.failures)).mpr
    ⟨fun k hk => by rw [← Option.some.inj hk]; omega, fun u _ k hk => by have := h.place u k hk; omega⟩
  loaded := (Function.forall_update_iff γ (p := fun _ g => ∀ k n, g.place = some k → g.loaded = some n → k < n)).mpr
    ⟨fun k n _ hn => (nomatch hloaded.symm.trans hn), fun u _ => h.loaded u⟩
  opened := by
    rw [show ({ w with breaker := b } : SharedBreaker).breaker.state = w.breaker.state from hstate]
    exact (Function.forall_update_iff γ (p := fun _ g => g.opened = true → w.breaker.state ≠ .closed)).mpr
      ⟨h.opened t, fun u _ => h.opened u⟩

theorem tallied_upheld :
    Upheld machine (insight threshold timeout false) (fun _ t _ _ => t < count) (Tallied threshold count) := by
  intro w γ t o c r w' h hd ht hstep
  refine ⟨_, rfl, ?_⟩
  cases o with
  | clearFailures => cases hd
  | addFailure =>
    cases hstep
    exact h.counts ht hd.1 hd.2 rfl rfl
  | loadFailures =>
    cases hstep
    refine h.learns ht rfl rfl rfl (fun k n hk hn => ?_) (h.opened t) id
    rw [← Option.some.inj hn]
    exact h.place t k hk
  | setState current =>
    cases hstep
    obtain ⟨-, hd⟩ := hd
    cases current with
    | closed => cases hd.1
    | opened => exact h.learns ht rfl rfl rfl (h.loaded t) (fun _ => nofun) fun _ => nofun
    | halfOpen => exact h.learns ht rfl rfl rfl (h.loaded t) (fun _ => nofun) fun _ => nofun
  | now =>
    obtain ⟨-, heq⟩ := Option.ite_none_right_eq_some.mp hstep
    cases heq
    exact h.learns ht rfl rfl rfl (h.loaded t) (h.opened t) id
  | guard cell use =>
    obtain ⟨l, -, heq⟩ := Option.map_eq_some_iff.mp hstep
    cases heq
    cases cell <;> exact h.learns ht rfl rfl rfl (h.loaded t) (h.opened t) id
  | _ =>
    cases hstep
    exact h.learns ht rfl rfl rfl (h.loaded t) (h.opened t) id

end

/-- How many failures have been recorded by calls that have returned. -/
def recorded (calls : List Call) (s : Config Calls SharedBreaker Outcome) : Nat :=
  (List.range calls.length).countP fun t => calls[t]? = some .recordFailure && (s.returned t).isSome

/-- **No failure is lost**: whatever the breaker was, where no success is recorded any more and as many failures are as
its threshold, it is not closed. -/
theorem contended_failures_open (b : CircuitBreaker) (clock : Nat) (calls : List Call) (run : List (Nat × Nat))
    (s : Config Calls SharedBreaker Outcome) (hthreshold : 0 < b.threshold) (hcalls : .recordSuccess ∉ calls)
    (hrun : (start b clock calls).run machine run = some s) (hmany : b.threshold ≤ recorded calls s) :
    s.world.breaker.state ≠ .closed := by
  have hkept : Kept (insight b.threshold b.timeout false) (Tallied b.threshold (start b clock calls).tasks.length)
      (fun t g _ => ∀ call, calls[t]? = some call → g.Over b.threshold call) (start b clock calls) := by
    refine ⟨fun _ => .none, ⟨?_, nofun, nofun, nofun⟩, fun t p hp => ?_⟩
    · have hnone : total (start b clock calls).tasks.length (Insight.low b.threshold) (fun _ => .none) = 0 :=
        total_eq_zero.mpr fun _ _ => rfl
      rw [hnone]
      exact Nat.zero_le _
    · obtain ⟨call, hcall, hsafe⟩ := start_known b clock (fun hmem => absurd hmem hcalls) hp
      refine safe_mono hsafe fun g _ hg call' hcall' => ?_
      obtain rfl := Option.some.inj (hcall.symm.trans hcall')
      exact hg
  obtain ⟨γ, htallied, hsafe⟩ := run_safe tallied_upheld hrun (Config.along_tasks _ run) hkept
  intro hclosed
  -- a call that has recorded a failure has not found as many as the threshold
  have hlow : recorded calls s ≤ total (List.range calls.length).length (Insight.low b.threshold) γ := by
    refine countP_le_total fun t t' ht' hrecorded => ?_
    obtain ⟨-, rfl⟩ : t < calls.length ∧ t = t' := by simpa [List.getElem?_eq_some_iff] using ht'
    obtain ⟨hcall, hreturned⟩ := Bool.and_eq_true_iff.mp hrecorded
    obtain ⟨a, ha⟩ := Option.isSome_iff_exists.mp hreturned
    have hdone : s.tasks[t]? = some (.done a) := by
      unfold Config.returned at ha
      split at ha
      · next hp => rw [hp, Option.some.inj ha]
      · cases ha
    obtain ⟨-, -, hfailure⟩ := hsafe t _ hdone _ (of_decide_eq_true hcall)
    obtain ⟨k, n, hplace, hloaded, hopens⟩ := hfailure rfl
    have hn : n < b.threshold := by
      by_contra hge
      exact htallied.opened t (hopens (Nat.le_of_not_lt hge)) hclosed
    have hk := htallied.loaded t k n hplace hloaded
    have hk' : k + 1 < b.threshold := by omega
    simp [Insight.low, hplace, hk']
  have hfew := htallied.low
  have hlength : (start b clock calls).tasks.length = (List.range calls.length).length := by simp [start]
  rw [hlength] at hfew
  omega

/-- Two failures side by side. -/
def overlapping : List (Nat × Nat) :=
  [(0, 0), (1, 0), (1, 0)] ++ List.replicate 6 (0, 1) ++ List.replicate 5 (1, 1) ++ List.replicate 4 (0, 1) ++
    List.replicate 4 (1, 1)

theorem contended_failures_open_overlapping : ∃ s,
    (start (CircuitBreaker.fresh 2 9) 0 [.recordFailure, .recordFailure]).run machine overlapping = some s ∧
      s.world.breaker.state ≠ .closed := by
  have hend : ((start (CircuitBreaker.fresh 2 9) 0 [.recordFailure, .recordFailure]).run machine overlapping).map
      (fun s => decide (2 ≤ recorded [.recordFailure, .recordFailure] s)) = some true := by decide +kernel
  obtain ⟨s, hs, hmany⟩ := Option.map_eq_some_iff.mp hend
  exact ⟨s, hs, contended_failures_open _ 0 _ overlapping s (by decide) (by decide) hs (of_decide_eq_true hmany)⟩

/-! ### Nobody waits forever -/

/-- The lock of the last failure comes before that of the state. -/
def rank : Op → Nat
  | .guard .lastFailure use => RwLock.rank use
  | .guard .state use => 2 + RwLock.rank use
  | _ => 5

/-- What a task has of the locks. -/
def Has (g : Insight) (r : Nat) : Prop := g.onLast.Bars r ∨ ∃ r', g.onState.Bars r' ∧ r = 2 + r'

theorem not_has {g : Insight} (honLast : g.onLast = .nothing) (honState : g.onState = .nothing) (r : Nat) :
    ¬ Has g r := by
  rintro (h | ⟨r', h, -⟩)
  · exact RwLock.Hold.not_bars r (honLast ▸ h)
  · exact RwLock.Hold.not_bars r' (honState ▸ h)

theorem ordered {threshold timeout count : Nat} {successes : Bool} :
    Ordered machine (insight threshold timeout successes) (Known count) count rank Has where
  bounded := ⟨5, fun o => by
    cases o with
    | guard cell use =>
      have hle := RwLock.rank_le use
      cases cell <;> simp only [rank] <;> omega
    | _ => exact Nat.le_refl _⟩
  due g o r hd hhas := by
    cases o with
    | guard cell use =>
      cases cell with
      | lastFailure =>
        rcases hhas with hhas | ⟨r', hhas, -⟩
        · exact RwLock.Hold.Bars.lt_rank (hd.1 ▸ hhas)
        · exact absurd (hd.2 ▸ hhas) (RwLock.Hold.not_bars r')
      | state =>
        rcases hhas with hhas | ⟨r', hhas, rfl⟩
        · exact Nat.lt_add_right _ (Nat.lt_succ_of_le hhas.le)
        · exact Nat.add_lt_add_left (RwLock.Hold.Bars.lt_rank ((show g.onState = _ from hd) ▸ hhas)) 2
    | _ =>
      rcases hhas with hhas | ⟨r', hhas, rfl⟩
      · exact Nat.lt_of_le_of_lt hhas.le (by simp [rank])
      · have hle := hhas.le
        simp only [rank]
        omega
  waits w γ t o h hd hblocked := by
    have hbelow {u r : Nat} (hu : Has (γ u) r) : u < count := by
      by_contra hge
      rw [h.beyond u (Nat.le_of_not_lt hge)] at hu
      exact not_has rfl rfl r hu
    have hmoves (hstep : (machine.perform t o w.clock w).isSome = true) : ∃ u < count, Has (γ u) (rank o) := by
      rw [hblocked w.clock] at hstep
      cases hstep
    cases o with
    | guard cell use =>
      have hwaits : (w.lock cell).use t use = none := Option.map_eq_none_iff.mp (hblocked w.clock)
      cases cell with
      | lastFailure =>
        obtain ⟨u, hu⟩ := h.onLast.waits hwaits
        exact ⟨u, hbelow (.inl hu), .inl hu⟩
      | state =>
        obtain ⟨u, hu⟩ := h.onState.waits hwaits
        have hhas : Has (γ u) (2 + RwLock.rank use) := .inr ⟨_, hu, rfl⟩
        exact ⟨u, hbelow hhas, hhas⟩
    | now => exact hmoves (by simp [machine, perform])
    | _ => exact hmoves rfl

/-- **Nobody waits forever** for a guard of the breaker. -/
theorem contended_completes (b : CircuitBreaker) (clock : Nat) (calls : List Call) :
    (start b clock calls).Completes machine := by
  have hordered : Ordered machine (insight b.threshold b.timeout true) (Known (start b clock calls).tasks.length)
      (start b clock calls).tasks.length rank Has := ordered
  refine hordered.completes (Q := fun _ g _ => g.onLast = .nothing ∧ g.onState = .nothing) known_upheld
    (Config.along_tasks _) rfl ⟨fun _ => .none, known_free _ b clock, fun t p hp => ?_⟩
    fun _ _ _ r hg => not_has hg.1 hg.2 r
  obtain ⟨call, -, hsafe⟩ := start_known b clock (fun _ => rfl) hp
  exact safe_mono hsafe fun _ _ hg => ⟨hg.1, hg.2.1⟩

end XProtocol.SharedBreaker
