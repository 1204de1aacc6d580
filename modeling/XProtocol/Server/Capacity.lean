import XProtocol.Metrics
import XProtocol.Server.Limiting

/-! How many connections the Unix-socket server holds.

The accept loop raises `ACTIVE_CONNECTIONS`, and the task of each connection lowers it
again once `handle_connection_with_config` has returned. A handler that panics ends its
task before that. So the counter is the number of the connections that are alive and of
those that ended in a panic, and it is exact throughout a run exactly if the handler
never panics in it (`exact_iff`). -/
namespace XProtocol.UdsServer
open Wire

/-! ### The accept loop -/

/-- Where the accept loop stands. -/
inductive Stage where
  | accepting
  /-- The comparison with `max_connections` let a connection pass. -/
  | passed
  /-- The connection is counted, and its task not yet spawned. -/
  | counted
  deriving DecidableEq

/-- What has become of a connection's task. -/
inductive Status where
  | running
  /-- `handle_connection_with_config` has returned, with `Ok` or `Err`. -/
  | returned
  | ended
  | panicked
  deriving DecidableEq

def Status.alive : Status → Bool
  | .running | .returned => true
  | .ended | .panicked => false

/-- Where a handler panics, and how it leaves its state then. -/
structure Panics (σ : Type) where
  onHandshake : HandshakeRequest → σ → Option σ
  handle : ServiceRequest → σ → Option σ

/-- A server with its accept loop and the tasks it has spawned. -/
structure Listener (σ : Type) where
  hub : Hub σ
  activeConnections : Nat
  stage : Stage
  tasks : List Status

inductive Event where
  /-- `listener.accept()` gives a connection. -/
  | accept
  | acceptError
  | count
  | spawn
  /-- A task makes a reading. -/
  | read (a : Arrival)
  /-- A task lowers the counter and ends. -/
  | release (conn : Nat)

section
variable {σ : Type} (E : Site σ) (flush : Nat → Nat → Option String) (setup : Setup) (panics : Panics σ)
  (maxConnections : Nat)

/-- The handshake that the greeting passes to the handler, if it does. -/
def handshakeOf (l : Link σ Watch) : Timed (Result Frame) → Option HandshakeRequest
  | .inTime (.ok f) =>
    if f.msgType ≠ msgHandshake then none
    else if f.payload.length > setup.config.maxRequestSize then none
    else match (E.codec.fromSlice f.payload : Option HandshakeRequest) with
      | none => none
      | some request => if (l.aside.limiter.check l.aside.now request.clientId).1 then some request else none
  | _ => none

/-- The state that the handler is left in if it panics at this reading. -/
def Hub.panic (h : Hub σ) (a : Arrival) : Option σ :=
  match (h.connection a.conn).phase with
  | .handshaking => (handshakeOf E setup (h.link a) a.reading).bind
    fun request => panics.onHandshake request h.handler
  | .looping _ =>
    ((h.link a).line.passes (site E flush a.conn) (ask (site E flush a.conn) setup a.reading)).bind fun request =>
      panics.handle request h.handler
  | .finished _ => none

/-- The connection's `handle_connection_with_config` has returned. -/
def Hub.over (h : Hub σ) (conn : Nat) : Bool :=
  match (h.connection conn).phase with
  | .finished _ => true
  | _ => false

namespace Listener

def fresh (handler : σ) : Listener σ where
  hub := .fresh setup handler
  activeConnections := 0
  stage := .accepting
  tasks := []

/-- One step; an event that cannot be now changes nothing. -/
def step (s : Listener σ) : Event → Listener σ
  | .accept =>
    if s.stage = .accepting then
      if s.activeConnections ≥ maxConnections then s else { s with stage := .passed }
    else s
  | .acceptError => s
  | .count =>
    if s.stage = .passed then
      { s with activeConnections := fetchAdd s.activeConnections 1, stage := .counted }
    else s
  | .spawn => if s.stage = .counted then { s with stage := .accepting, tasks := s.tasks ++ [.running] } else s
  | .read a =>
    if s.tasks[a.conn]? = some .running then
      match s.hub.panic E flush setup panics a with
      | some handler =>
        -- the limiter was asked before; the rest of the turn is not run
        let limiter := (s.hub.step E flush setup a).limiter
        { s with hub := { s.hub with handler, limiter }, tasks := s.tasks.set a.conn .panicked }
      | none =>
        let hub := s.hub.step E flush setup a
        { s with hub, tasks := if hub.over a.conn then s.tasks.set a.conn .returned else s.tasks }
    else s
  | .release conn =>
    if s.tasks[conn]? = some .returned then
      { s with
        activeConnections := fetchSub s.activeConnections 1
        tasks := s.tasks.set conn .ended }
    else s

def run (s : Listener σ) (events : List Event) : Listener σ :=
  events.foldl (step E flush setup panics maxConnections) s

/-- The accepted connections whose task has not ended; one is accepted when it is counted. -/
def alive (s : Listener σ) : Nat := s.tasks.countP Status.alive + if s.stage = .counted then 1 else 0

/-- The counter is the number of the connections that are alive, and no connection is refused
while there are fewer than `max_connections`. -/
structure Exact (s : Listener σ) : Prop where
  counter : s.activeConnections = s.alive
  bound : s.activeConnections ≤ maxConnections
  refused : s.activeConnections ≥ maxConnections → s.alive = maxConnections

/-- The handler panics in this step. -/
def Panicking (s : Listener σ) (e : Event) : Prop :=
  ∃ a, e = .read a ∧ s.tasks[a.conn]? = some .running ∧ s.hub.panic E flush setup panics a ≠ none

/-- The handler does not panic, from here on. -/
def Calm : Listener σ → List Event → Prop
  | _, [] => True
  | s, e :: rest => ¬ s.Panicking E flush setup panics e ∧ Calm (s.step E flush setup panics maxConnections e) rest

/-- What the counter counts in every run. -/
structure Counts (s : Listener σ) : Prop where
  counter : s.activeConnections = s.alive + s.tasks.count .panicked
  bound : s.activeConnections ≤ maxConnections
  room : s.stage = .passed → s.activeConnections < maxConnections

variable {E flush setup panics maxConnections}

theorem counts_fresh (handler : σ) : Counts maxConnections (fresh setup handler) :=
  ⟨rfl, Nat.zero_le _, nofun⟩

/-- A task that becomes another. -/
theorem countP_set {tasks : List Status} {conn : Nat} {x : Status} (hx : tasks[conn]? = some x) (y : Status)
    (p : Status → Bool) :
    (tasks.set conn y).countP p + (if p x then 1 else 0) = tasks.countP p + (if p y then 1 else 0) := by
  obtain ⟨hlt, rfl⟩ := List.getElem?_eq_some_iff.mp hx
  have hle : (if p tasks[conn] then 1 else 0) ≤ tasks.countP p := by
    split
    · next h => exact List.countP_pos_iff.mpr ⟨_, List.getElem_mem hlt, h⟩
    · exact Nat.zero_le _
  rw [List.countP_set hlt]
  omega

variable (panics maxConnections) in
/-- What a step does to the counter and to the tasks, and whether the handler panics in it. -/
inductive Effect (s s' : Listener σ) : (panicked : Prop) → Prop where
  | stay {q : Prop} (hq : ¬ q) (hactive : s'.activeConnections = s.activeConnections) (hstage : s'.stage = s.stage)
      (halive : s'.tasks.countP Status.alive = s.tasks.countP Status.alive)
      (hpanicked : s'.tasks.count .panicked = s.tasks.count .panicked) : Effect s s' q
  | pass {q : Prop} (hq : ¬ q) (hbelow : s.activeConnections < maxConnections) (haccepting : s.stage = .accepting)
      (hs' : s' = { s with stage := .passed }) : Effect s s' q
  | count {q : Prop} (hq : ¬ q) (hpassed : s.stage = .passed)
      (hs' : s' = { s with activeConnections := fetchAdd s.activeConnections 1, stage := .counted }) : Effect s s' q
  | spawn {q : Prop} (hq : ¬ q) (hcounted : s.stage = .counted)
      (hs' : s' = { s with stage := .accepting, tasks := s.tasks ++ [.running] }) : Effect s s' q
  | panic {q : Prop} (hq : q) (hactive : s'.activeConnections = s.activeConnections) (hstage : s'.stage = s.stage)
      (halive : s'.tasks.countP Status.alive + 1 = s.tasks.countP Status.alive)
      (hpanicked : s'.tasks.count .panicked = s.tasks.count .panicked + 1) : Effect s s' q
  | release {q : Prop} (hq : ¬ q) (hactive : s'.activeConnections = fetchSub s.activeConnections 1)
      (hstage : s'.stage = s.stage) (halive : s'.tasks.countP Status.alive + 1 = s.tasks.countP Status.alive)
      (hpanicked : s'.tasks.count .panicked = s.tasks.count .panicked) : Effect s s' q

variable (E flush setup panics maxConnections) in
theorem step_effect (s : Listener σ) (e : Event) :
    Effect maxConnections s (s.step E flush setup panics maxConnections e)
      (s.Panicking E flush setup panics e) := by
  have hstay {q : Prop} (hq : ¬ q) : Effect maxConnections s s q := .stay hq rfl rfl rfl rfl
  cases e with
  | accept =>
    have hq : ¬ s.Panicking E flush setup panics .accept := nofun
    simp only [step]
    split
    · next haccepting =>
      split
      · exact hstay hq
      · next hbelow => exact .pass hq (Nat.lt_of_not_ge hbelow) haccepting rfl
    · exact hstay hq
  | acceptError => exact hstay nofun
  | count =>
    have hq : ¬ s.Panicking E flush setup panics .count := nofun
    simp only [step]
    split
    · next hpassed => exact .count hq hpassed rfl
    · exact hstay hq
  | spawn =>
    have hq : ¬ s.Panicking E flush setup panics .spawn := nofun
    simp only [step]
    split
    · next hcounted => exact .spawn hq hcounted rfl
    · exact hstay hq
  | read a =>
    simp only [step]
    split
    · next hrunning =>
      have hset := countP_set hrunning
      cases hpanic : s.hub.panic E flush setup panics a with
      | some handler =>
        exact .panic ⟨a, rfl, hrunning, hpanic ▸ Option.some_ne_none _⟩ rfl rfl (hset .panicked Status.alive)
          (hset .panicked (· == .panicked))
      | none =>
        have hq : ¬ s.Panicking E flush setup panics (.read a) := by
          rintro ⟨a', ha, -, hne⟩
          cases ha
          exact hne hpanic
        refine .stay hq rfl rfl ?_ ?_
        · dsimp only
          split
          · exact Nat.add_right_cancel (hset .returned Status.alive)
          · rfl
        · dsimp only
          split
          · exact hset .returned (· == .panicked)
          · rfl
    · next hrunning =>
      refine hstay ?_
      rintro ⟨a', ha, hrunning', -⟩
      cases ha
      exact hrunning hrunning'
  | release conn =>
    have hq : ¬ s.Panicking E flush setup panics (.release conn) := nofun
    simp only [step]
    split
    · next hreturned =>
      have hset := countP_set hreturned .ended
      exact .release hq rfl rfl (hset Status.alive) (hset (· == .panicked))
    · exact hstay hq

theorem step_counts (hmax : maxConnections < 2 ^ 64) {s : Listener σ} (hs : Counts maxConnections s) (e : Event) :
    Counts maxConnections (s.step E flush setup panics maxConnections e) := by
  obtain ⟨hcounter, hbound, hroom⟩ := hs
  unfold alive at hcounter
  cases step_effect E flush setup panics maxConnections s e with
  | stay hq hactive hstage halive hpanicked =>
    refine ⟨?_, hactive ▸ hbound, fun h => hactive ▸ hroom (hstage ▸ h)⟩
    rw [alive, hactive, hstage, halive, hpanicked, hcounter]
  | pass hq hbelow haccepting hs' =>
    rw [hs']
    refine ⟨?_, hbound, fun _ => hbelow⟩
    simpa [alive, haccepting] using hcounter
  | count hq hpassed hs' =>
    have hlt := hroom hpassed
    have hadd : fetchAdd s.activeConnections 1 = s.activeConnections + 1 := Nat.mod_eq_of_lt (by omega)
    rw [hs']
    refine ⟨?_, le_of_eq_of_le hadd hlt, nofun⟩
    simp only [hpassed, reduceCtorEq, if_false] at hcounter
    simp only [alive, hadd, if_true]
    omega
  | spawn hq hcounted hs' =>
    rw [hs']
    refine ⟨?_, hbound, nofun⟩
    simp only [hcounted, if_true] at hcounter
    simp [alive, hcounter, Status.alive]
  | panic hq hactive hstage halive hpanicked =>
    refine ⟨?_, hactive ▸ hbound, fun h => hactive ▸ hroom (hstage ▸ h)⟩
    rw [alive, hactive, hstage, hpanicked]
    omega
  | release hq hactive hstage halive hpanicked =>
    have hsub : fetchSub s.activeConnections 1 = s.activeConnections - 1 := by
      unfold fetchSub
      omega
    refine ⟨?_, by omega, fun h => ?_⟩
    · rw [alive, hactive, hstage, hpanicked]
      omega
    · have := hroom (hstage ▸ h)
      omega

variable (E flush setup panics maxConnections) in
theorem step_panicked (s : Listener σ) (e : Event) :
    (s.Panicking E flush setup panics e ∧
        (s.step E flush setup panics maxConnections e).tasks.count .panicked = s.tasks.count .panicked + 1) ∨
      (¬ s.Panicking E flush setup panics e ∧
        (s.step E flush setup panics maxConnections e).tasks.count .panicked = s.tasks.count .panicked) := by
  cases step_effect E flush setup panics maxConnections s e with
  | stay hq _ _ _ hpanicked => exact .inr ⟨hq, hpanicked⟩
  | pass hq _ _ hs' => exact .inr ⟨hq, by rw [hs']⟩
  | count hq _ hs' => exact .inr ⟨hq, by rw [hs']⟩
  | spawn hq _ hs' => exact .inr ⟨hq, by rw [hs']; simp⟩
  | panic hq _ _ _ hpanicked => exact .inl ⟨hq, hpanicked⟩
  | release hq _ _ _ hpanicked => exact .inr ⟨hq, hpanicked⟩

theorem run_counts (hmax : maxConnections < 2 ^ 64) {s : Listener σ} (hs : Counts maxConnections s)
    (events : List Event) : Counts maxConnections (s.run E flush setup panics maxConnections events) := by
  induction events generalizing s with
  | nil => exact hs
  | cons e rest ih => exact ih (step_counts hmax hs e)

variable (E flush setup panics maxConnections) in
/-- No task has panicked in the end exactly if none did on the way. -/
theorem run_panicked (s : Listener σ) (events : List Event) :
    s.tasks.count .panicked ≤ (s.run E flush setup panics maxConnections events).tasks.count .panicked ∧
      ((s.run E flush setup panics maxConnections events).tasks.count .panicked = s.tasks.count .panicked ↔
        s.Calm E flush setup panics maxConnections events) := by
  induction events generalizing s with
  | nil => exact ⟨Nat.le_refl _, iff_of_true rfl trivial⟩
  | cons e rest ih =>
    obtain ⟨hle, hiff⟩ := ih (s.step E flush setup panics maxConnections e)
    rw [run, List.foldl_cons, ← run, Calm]
    obtain ⟨hpanic, hcount⟩ | ⟨hcalm, hcount⟩ := step_panicked E flush setup panics maxConnections s e
    · rw [hcount] at hle
      exact ⟨Nat.le_of_succ_le hle, iff_of_false (Nat.ne_of_gt hle) fun h => h.1 hpanic⟩
    · rw [hcount] at hle hiff
      exact ⟨hle, hiff.trans (and_iff_right hcalm).symm⟩

theorem exact_of_counts {s : Listener σ} (hs : Counts maxConnections s) :
    s.Exact maxConnections ↔ s.tasks.count .panicked = 0 := by
  obtain ⟨hcounter, hbound, -⟩ := hs
  constructor
  · rintro ⟨hexact, -, -⟩
    omega
  · intro hzero
    exact ⟨by omega, hbound, fun h => by omega⟩

/-- **`ACTIVE_CONNECTIONS` is exact throughout a run exactly if the handler never panics in it**:
for every order of accepted connections, readings and ends of tasks, and for every handler. -/
theorem exact_iff (hmax : maxConnections < 2 ^ 64) (handler : σ) (events : List Event) :
    (∀ before, before <+: events →
        ((fresh setup handler).run E flush setup panics maxConnections before).Exact maxConnections) ↔
      (fresh setup handler).Calm E flush setup panics maxConnections events := by
  have hat (before : List Event) : ((fresh setup handler).run E flush setup panics maxConnections before).Exact
      maxConnections ↔ (fresh setup handler).Calm E flush setup panics maxConnections before :=
    (exact_of_counts (run_counts hmax (counts_fresh handler) before)).trans
      (run_panicked E flush setup panics maxConnections _ before).2
  constructor
  · exact fun h => (hat events).mp (h events List.prefix_rfl)
  · rintro h before ⟨rest, rfl⟩
    rw [← (run_panicked E flush setup panics maxConnections _ _).2, run, List.foldl_append, ← run, ← run] at h
    have hrest := (run_panicked E flush setup panics maxConnections
      ((fresh setup handler).run E flush setup panics maxConnections before) rest).1
    refine (hat before).mpr ((run_panicked E flush setup panics maxConnections _ before).2.mp
      (Nat.le_antisymm (le_of_le_of_eq hrest h) ?_))
    exact Nat.zero_le _

end Listener

end

/-! ### A handler that panics once -/

namespace Sample

/-- The handler panics at every request but not at a handshake. -/
def faulty : Panics Nat where
  onHandshake _ _ := none
  handle _ n := some n

/-- A connection is accepted, and the client sends its handshake and, where it is `asking`, a request. -/
def visit (conn : Nat) (asking : Bool) : List Event :=
  [.accept, .count, .spawn, .read ⟨0, conn, .inTime (.ok hello)⟩] ++
    if asking then [.read ⟨0, conn, .inTime (.ok request)⟩] else [.read ⟨0, conn, .elapsed⟩, .release conn]

theorem exact_one : 1 < 2 ^ 64 ∧ ∀ before, before <+: visit 0 false →
    ((Listener.fresh setup 0).run site (fun _ _ => none) setup faulty 1 before).Exact 1 :=
  ⟨by decide, (Listener.exact_iff (by decide) 0 (visit 0 false)).mpr
    ((Listener.run_panicked ..).2.mp (by decide +kernel))⟩

/-- One panic, and a server for one connection serves nobody any more. -/
theorem shut_out : let s := (Listener.fresh setup 0).run site (fun _ _ => none) setup faulty 1 (visit 0 true)
    ¬ s.Exact 1 ∧ s.stage = .accepting ∧ s.activeConnections ≥ 1 ∧ s.alive = 0 :=
  ⟨fun h => absurd h.counter (by decide +kernel), by decide +kernel, by decide +kernel, by decide +kernel⟩

end Sample

end XProtocol.UdsServer
