import XProtocol.Async.Alone
import XProtocol.Async.RwLock
import XProtocol.CircuitBreaker.History

/-! The circuit breaker in many hands.

Nothing makes a method of the breaker one step. The counters are atomics, and the state and
the time of the last failure have a read-write lock each: to ask for a guard, to get it, to
read or write what is behind it and to give it back are operations of their own. A method
that finds the breaker open keeps its read guard of the time until it has made the breaker
half open. By itself each method does what its function does (`call_alone`). -/
namespace XProtocol
open Async (Program Interface RwLock)

namespace SharedBreaker

/-- What of a breaker is behind a lock. -/
inductive Cell where
  | lastFailure
  | state
  deriving DecidableEq

end SharedBreaker

/-- A breaker, its locks, and the latest reading of the clock. -/
structure SharedBreaker where
  breaker : CircuitBreaker
  lock : SharedBreaker.Cell → RwLock
  clock : Nat

namespace SharedBreaker
open CircuitBreaker (Call Event)

inductive Op where
  /-- `successes.fetch_add(1)`. -/
  | addSuccess
  /-- `failures.store(0)`. -/
  | clearFailures
  /-- `failures.fetch_add(1)`: what was there before. -/
  | addFailure
  | loadFailures
  /-- `Instant::now()`. -/
  | now
  /-- The `write()` and the `read()` of a lock, and the drops of their guards. -/
  | guard (cell : Cell) (use : RwLock.Use)
  | loadLast
  | setLast (now : Nat)
  | loadState
  | setState (state : CircuitState)

abbrev Calls : Interface where
  Op := Op
  Ret
    | .addFailure => Nat
    | .loadFailures => Nat
    | .now => Nat
    | .loadLast => Option Nat
    | .loadState => CircuitState
    | _ => Unit

/-! ### The methods -/

def op (o : Op) : Program Calls (Calls.Ret o) := @Program.op Calls o

/-- `if *state == CircuitState::HalfOpen { .. }`. -/
def closeHalfOpen (state : CircuitState) : Program Calls Unit :=
  if state = .halfOpen then op (.setState .closed) else pure ()

def recordSuccess : Program Calls Unit := do
  op .addSuccess
  op .clearFailures
  op (.guard .state .claim)
  op (.guard .state .write)
  let state ← op .loadState
  closeHalfOpen state
  op (.guard .state .endWrite)

/-- `*self.state.write() = state`. -/
def assign (state : CircuitState) : Program Calls Unit := do
  op (.guard .state .claim)
  op (.guard .state .write)
  op (.setState state)
  op (.guard .state .endWrite)

def recordFailure (threshold : Nat) : Program Calls Unit := do
  let _ ← op .addFailure
  let now ← op .now
  op (.guard .lastFailure .claim)
  op (.guard .lastFailure .write)
  op (.setLast now)
  op (.guard .lastFailure .endWrite)
  let failures ← op .loadFailures
  if failures ≥ threshold then
    assign .opened

/-- What `state()` does with a breaker that it has found open. -/
def halfOpening (timeout : Nat) : Program Calls CircuitState := do
  op (.guard .lastFailure .read)
  match ← op .loadLast with
  | some last =>
    let now ← op .now
    if now - last > timeout then
      assign .halfOpen
      op (.guard .lastFailure .endRead)
      return .halfOpen
    else
      op (.guard .lastFailure .endRead)
      return .opened
  | none =>
    op (.guard .lastFailure .endRead)
    return .opened

def state (timeout : Nat) : Program Calls CircuitState := do
  op (.guard .state .read)
  let state ← op .loadState
  op (.guard .state .endRead)
  match state with
  | .opened => halfOpening timeout
  | state => return state

def isAvailable (timeout : Nat) : Program Calls Bool := do
  let state ← state timeout
  return state ≠ .opened

def canExecute (timeout : Nat) : Program Calls (Result Unit) := do
  match ← state timeout with
  | .closed | .halfOpen => return .ok ()
  | .opened => return .error (.connectionFailed "circuit breaker open")

/-! ### The breaker as a machine -/

def setLock (w : SharedBreaker) (cell : Cell) (l : RwLock) : SharedBreaker :=
  { w with lock := Function.update w.lock cell l }

/-- An operation of task `t`; the clock never goes back. -/
def perform (t : Nat) : (o : Op) → Nat → SharedBreaker → Option (Calls.Ret o × SharedBreaker)
  | .addSuccess, _, w => some ((), { w with breaker := { w.breaker with successes := w.breaker.successes + 1 } })
  | .clearFailures, _, w => some ((), { w with breaker := { w.breaker with failures := 0 } })
  | .addFailure, _, w =>
    some (w.breaker.failures, { w with breaker := { w.breaker with failures := w.breaker.failures + 1 } })
  | .loadFailures, _, w => some (w.breaker.failures, w)
  | .now, now, w => if w.clock ≤ now then some (now, { w with clock := now }) else none
  | .guard cell use, _, w => ((w.lock cell).use t use).map fun l => ((), w.setLock cell l)
  | .loadLast, _, w => some (w.breaker.lastFailure, w)
  | .setLast now, _, w => some ((), { w with breaker := { w.breaker with lastFailure := some now } })
  | .loadState, _, w => some (w.breaker.state, w)
  | .setState state, _, w => some ((), { w with breaker := { w.breaker with state } })

def machine : Async.Machine Calls SharedBreaker Nat where
  perform t o c w := perform t o c w

/-- What a call of a method answers. -/
inductive Outcome where
  | recorded
  | state (state : CircuitState)
  | available (available : Bool)
  | execute (r : Result Unit)

def task (threshold timeout : Nat) : Call → Program Calls Outcome
  | .recordSuccess => (fun _ => .recorded) <$> recordSuccess
  | .recordFailure => (fun _ => .recorded) <$> recordFailure threshold
  | .state => .state <$> state timeout
  | .isAvailable => .available <$> isAvailable timeout
  | .canExecute => .execute <$> canExecute timeout

/-- A breaker that nobody uses. -/
def free (b : CircuitBreaker) (clock : Nat) : SharedBreaker := ⟨b, fun _ => .free, clock⟩

/-- A breaker, and the calls that are going to be made of it. -/
def start (b : CircuitBreaker) (clock : Nat) (calls : List Call) : Async.Config Calls SharedBreaker Outcome :=
  ⟨.free b clock, calls.map (task b.threshold b.timeout)⟩

/-! ### A call by itself -/

section Alone
open Async

/-- What the call answers where nobody else is. -/
def answer (b : CircuitBreaker) (e : Event) : Outcome :=
  match e.call with
  | .recordSuccess | .recordFailure => .recorded
  | .state => .state (b.observe e.time).1
  | .isAvailable => .available (b.isAvailable e.time).1
  | .canExecute => .execute (b.canExecute e.time).1

/-- The discipline of a call by itself: each operation can be performed. -/
abbrev unhindered : Discipline Calls SharedBreaker := machine.sure fun _ _ _ => True

section
variable {α : Type} {Q : SharedBreaker → α → Prop} {w w' : SharedBreaker} {b : CircuitBreaker} {clock : Nat}

/-- An operation that answers `r`, and what follows. -/
theorem safe_unhindered {o : Op} {k : Calls.Ret o → Program Calls α} {r : Calls.Ret o}
    (h : ∀ c, perform 0 o c w = some (r, w')) (hk : Safe unhindered (k r) Q w') :
    Safe unhindered (op o >>= k) Q w := by
  refine ⟨⟨w.clock, (r, w'), trivial, h _⟩, ?_⟩
  rintro r' w'' ⟨c, _, hr⟩
  obtain ⟨rfl, rfl⟩ : r = r' ∧ w' = w'' := by simpa using (h c).symm.trans hr
  exact hk

/-- The clock is read, and what follows. -/
theorem safe_now {k : Nat → Program Calls α}
    (hk : ∀ now, w.clock ≤ now → Safe unhindered (k now) Q { w with clock := now }) :
    Safe unhindered (op .now >>= k) Q w := by
  refine ⟨⟨w.clock, (w.clock, w), trivial, if_pos (Nat.le_refl _)⟩, ?_⟩
  rintro now w' ⟨c, _, h⟩
  obtain ⟨hle, heq⟩ := Option.ite_none_right_eq_some.mp h
  obtain ⟨rfl, rfl⟩ := Prod.mk.inj (Option.some.inj heq)
  exact hk c hle

@[simp] theorem setLock_lock (w : SharedBreaker) (cell : Cell) (l : RwLock) : (w.setLock cell l).lock cell = l :=
  Function.update_self ..

@[simp] theorem setLock_setLock (w : SharedBreaker) (cell : Cell) (l l' : RwLock) :
    (w.setLock cell l).setLock cell l' = w.setLock cell l' := by
  simp [setLock]

theorem setLock_self {cell : Cell} {l : RwLock} (h : w.lock cell = l) : w.setLock cell l = w := by
  subst h
  simp [setLock]

/-- A lock is used, and what follows. -/
theorem safe_guard {cell : Cell} {use : RwLock.Use} {l l' : RwLock} {k : Unit → Program Calls α} (hl : w.lock cell = l)
    (h : l.use 0 use = some l') (hk : Safe unhindered (k ()) Q (w.setLock cell l')) :
    Safe unhindered (op (.guard cell use) >>= k) Q w :=
  safe_unhindered (fun _ => by simp [perform, hl, h]) hk

/-- What is done under the write guard of a free lock, and what follows. -/
theorem safe_written (v : SharedBreaker) {cell : Cell} {p : Program Calls Unit} {k : Unit → Program Calls α}
    (hfree : w.lock cell = .free)
    (hp : Safe unhindered p (fun u _ => u = v.setLock cell ⟨some 0, []⟩) (w.setLock cell ⟨some 0, []⟩))
    (hfree' : v.lock cell = .free) (hk : Safe unhindered (k ()) Q v) :
    Safe unhindered (op (.guard cell .claim) >>= fun _ => op (.guard cell .write) >>= fun _ => p >>= fun _ =>
      op (.guard cell .endWrite) >>= k) Q w := by
  refine safe_guard hfree rfl (safe_guard (setLock_lock ..) rfl ?_)
  rw [setLock_setLock, safe_bind]
  refine safe_mono hp ?_
  rintro _ _ rfl
  refine safe_guard (setLock_lock ..) rfl ?_
  rw [setLock_setLock]
  show Safe unhindered (k ()) Q (v.setLock cell .free)
  rwa [setLock_self hfree']

theorem safe_assign {s : CircuitState} {k : Unit → Program Calls α} (hfree : w.lock .state = .free)
    (hk : Safe unhindered (k ()) Q { w with breaker := { w.breaker with state := s } }) :
    Safe unhindered (assign s >>= k) Q w := by
  refine safe_written { w with breaker := { w.breaker with state := s } } (p := op (.setState s)) hfree ?_ hfree hk
  show Safe unhindered (op (.setState s) >>= Program.done) _ _
  exact safe_unhindered (fun _ => rfl) ((safe_done ..).mpr rfl)

theorem recordSuccess_alone :
    Safe unhindered recordSuccess (fun w _ => w = free b.recordSuccess clock) (free b clock) := by
  unfold recordSuccess
  refine safe_unhindered (fun _ => rfl) (safe_unhindered (fun _ => rfl) ?_)
  show Safe unhindered (_ >>= fun _ => _ >>= fun _ => (op .loadState >>= closeHalfOpen) >>= fun _ =>
    op (.guard .state .endWrite) >>= Program.done) _ _
  refine safe_written (free b.recordSuccess clock) rfl (safe_unhindered (fun _ => rfl) ?_) rfl
    ((safe_done ..).mpr rfl)
  show Safe unhindered (closeHalfOpen b.state) _ _
  unfold closeHalfOpen
  by_cases hhalf : b.state = .halfOpen
  · rw [if_pos hhalf]
    refine safe_unhindered (k := Program.done) (fun _ => rfl) ((safe_done ..).mpr ?_)
    simp [setLock, free, CircuitBreaker.recordSuccess, hhalf]
  · rw [if_neg hhalf]
    refine (safe_done ..).mpr ?_
    simp [setLock, free, CircuitBreaker.recordSuccess, hhalf]

theorem recordFailure_alone : Safe unhindered (recordFailure b.threshold)
    (fun w _ => ∃ now, clock ≤ now ∧ w = free (b.recordFailure now) now) (free b clock) := by
  unfold recordFailure
  refine safe_unhindered (fun _ => rfl) (safe_now fun now hle => ?_)
  refine safe_written (free { b with failures := b.failures + 1, lastFailure := some now } now)
    (p := op (.setLast now)) rfl ?_ rfl (safe_unhindered (fun _ => rfl) ?_)
  · show Safe unhindered (op (.setLast now) >>= Program.done) _ _
    exact safe_unhindered (fun _ => rfl) ((safe_done ..).mpr rfl)
  show Safe unhindered (if b.failures + 1 ≥ b.threshold then assign .opened else pure ()) _ _
  by_cases hmany : b.failures + 1 ≥ b.threshold
  · rw [if_pos hmany, ← bind_pure (assign .opened)]
    refine safe_assign rfl ((safe_done ..).mpr ⟨now, hle, ?_⟩)
    rw [show b.recordFailure now = { b with failures := b.failures + 1, lastFailure := some now, state := .opened } by
      simp [CircuitBreaker.recordFailure, hmany]]
    rfl
  · rw [if_neg hmany]
    refine (safe_done ..).mpr ⟨now, hle, ?_⟩
    rw [show b.recordFailure now = { b with failures := b.failures + 1, lastFailure := some now } by
      simp [CircuitBreaker.recordFailure, hmany]]

/-- A read guard is given back, and nobody else has one. -/
theorem safe_endRead {cell : Cell} {k : Unit → Program Calls α} (hfree : w.lock cell = .free)
    (hk : Safe unhindered (k ()) Q w) :
    Safe unhindered (op (.guard cell .endRead) >>= k) Q (w.setLock cell ⟨none, [0]⟩) := by
  refine safe_guard (setLock_lock ..) rfl ?_
  rw [setLock_setLock]
  show Safe unhindered (k ()) Q (w.setLock cell .free)
  rwa [setLock_self hfree]

theorem halfOpening_alone (hopened : b.state = .opened) : Safe unhindered (halfOpening b.timeout)
    (fun w r => ∃ now, clock ≤ now ∧ r = (b.observe now).1 ∧ w = free (b.observe now).2 now) (free b clock) := by
  obtain ⟨failures, successes, current, threshold, timeout, lastFailure⟩ := b
  obtain rfl : current = .opened := hopened
  unfold halfOpening
  refine safe_guard rfl rfl (safe_unhindered (fun _ => rfl) ?_)
  cases lastFailure with
  | none => exact safe_endRead rfl ((safe_done ..).mpr ⟨clock, Nat.le_refl _, rfl, rfl⟩)
  | some last =>
    refine safe_now fun now hle => ?_
    by_cases hlong : now - last > timeout
    · rw [if_pos hlong]
      refine safe_assign rfl (safe_endRead (w := free _ now) rfl ((safe_done ..).mpr ⟨now, hle, ?_⟩))
      simp only [CircuitBreaker.observe, if_pos hlong]
      exact ⟨trivial, rfl⟩
    · rw [if_neg hlong]
      refine safe_endRead (w := free _ now) rfl ((safe_done ..).mpr ⟨now, hle, ?_⟩)
      simp only [CircuitBreaker.observe, if_neg hlong]
      exact ⟨trivial, rfl⟩

theorem state_alone : Safe unhindered (state b.timeout)
    (fun w r => ∃ now, clock ≤ now ∧ r = (b.observe now).1 ∧ w = free (b.observe now).2 now) (free b clock) := by
  obtain ⟨failures, successes, current, threshold, timeout, lastFailure⟩ := b
  unfold state
  refine safe_guard rfl rfl (safe_unhindered (fun _ => rfl) (safe_endRead rfl ?_))
  cases current with
  | opened =>
    show Safe unhindered (halfOpening timeout) _ _
    exact halfOpening_alone rfl
  | closed | halfOpen => exact (safe_done ..).mpr ⟨clock, Nat.le_refl _, rfl, rfl⟩

/-- **By itself, a call does what its function does**, at the time at which it reads the clock. -/
theorem call_alone (b : CircuitBreaker) (clock : Nat) (call : Call) :
    (start b clock [call]).Inevitably machine (Config.Performs fun _ _ _ _ => True) fun s => ∃ now, clock ≤ now ∧
      s.returned 0 = some (answer b ⟨now, call⟩) ∧ s.world = free (b.after ⟨now, call⟩) now := by
  have hsafe : Safe unhindered (task b.threshold b.timeout call) (fun w r => ∃ now, clock ≤ now ∧
      r = answer b ⟨now, call⟩ ∧ w = free (b.after ⟨now, call⟩) now) (free b clock) := by
    cases call with
    | recordSuccess =>
      rw [task, map_eq_pure_bind, safe_bind]
      refine safe_mono recordSuccess_alone ?_
      rintro _ _ rfl
      exact ⟨clock, Nat.le_refl _, rfl, rfl⟩
    | recordFailure =>
      rw [task, map_eq_pure_bind, safe_bind]
      refine safe_mono recordFailure_alone ?_
      rintro _ _ ⟨now, hle, rfl⟩
      exact ⟨now, hle, rfl, rfl⟩
    | state =>
      rw [task, map_eq_pure_bind, safe_bind]
      refine safe_mono state_alone ?_
      rintro _ _ ⟨now, hle, rfl, rfl⟩
      exact ⟨now, hle, rfl, rfl⟩
    | isAvailable =>
      rw [task, map_eq_pure_bind, safe_bind, isAvailable, safe_bind]
      refine safe_mono state_alone ?_
      rintro _ _ ⟨now, hle, rfl, rfl⟩
      exact ⟨now, hle, rfl, rfl⟩
    | canExecute =>
      rw [task, map_eq_pure_bind, safe_bind, canExecute, safe_bind]
      refine safe_mono state_alone ?_
      rintro _ _ ⟨now, hle, rfl, rfl⟩
      cases hobserve : b.observe now with
      | mk state b' =>
        cases state <;> exact ⟨now, hle, by simp [answer, CircuitBreaker.canExecute, hobserve],
          by simp [CircuitBreaker.after, CircuitBreaker.canExecute, hobserve]⟩
  refine Config.Inevitably.mono ?_ (inevitably_returns hsafe)
  rintro s ⟨_, ha, now, hle, rfl, hw⟩
  exact ⟨now, hle, ha, hw⟩

end

end Alone

end SharedBreaker

end XProtocol
