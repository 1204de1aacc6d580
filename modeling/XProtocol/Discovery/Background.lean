import XProtocol.Discovery.Health
import XProtocol.Threads

/-! The background health checker.

A flag keeps a second loop from being started beside the first. Nothing ever takes it back, so that
a checker can be started once: it is what it says it is as long as no loop ends
(`restartable_iff`). -/
namespace XProtocol
open Threads

structure BackgroundHealthChecker (B : Balancing) where
  serviceDiscovery : ServiceDiscovery B
  /-- In nanoseconds, as the timeout is. -/
  interval : Nat
  timeout : Nat
  running : Bool

namespace BackgroundHealthChecker
variable {B : Balancing}

def new (serviceDiscovery : ServiceDiscovery B) : BackgroundHealthChecker B where
  serviceDiscovery := serviceDiscovery
  interval := 30 * 10 ^ 9
  timeout := 5 * 10 ^ 9
  running := false

def withInterval (c : BackgroundHealthChecker B) (interval : Nat) : BackgroundHealthChecker B := { c with interval }

def withTimeout (c : BackgroundHealthChecker B) (timeout : Nat) : BackgroundHealthChecker B := { c with timeout }

def isRunning (c : BackgroundHealthChecker B) : Bool := c.running

/-- A checker, and which of the tokens are cancelled. -/
structure World (B : Balancing) where
  checker : BackgroundHealthChecker B
  cancelled : Nat → Bool

/-- Where the task is that `start` has spawned. -/
inductive Task where
  /-- Before its timer is built. -/
  | created
  | selecting
  /-- In `check_all_services`, with these services to go. -/
  | checking (services : List String)
  /-- The loop is over. -/
  | ended
  /-- The timer cannot be built. -/
  | panicked
deriving DecidableEq

inductive Place where
  /-- Before `start(token)`. -/
  | starting (token : Nat)
  /-- In `start(token)`: the flag was not set. -/
  | spawning (token : Nat)
  /-- Before `token.cancel()`. -/
  | cancelling (token : Nat)
  | returned
  | task (token : Nat) (t : Task)
deriving DecidableEq

/-- What the environment decides: which branch of a `select!` is taken, and what the probes find. -/
inductive Choice where
  | go
  | cancelled
  | tick
  | probed (healthy : String → String → Bool)

def move : Move (World B) Place Choice
  | .starting token, .go, w =>
    let old := w.checker.running
    some (if old then .returned else .spawning token, { w with checker.running := true }, [])
  | .spawning token, .go, w => some (.returned, w, [.task token .created])
  | .cancelling token, .go, w =>
    some (.returned, { w with cancelled := Function.update w.cancelled token true }, [])
  -- an interval of zero panics
  | .task token .created, .go, w =>
    some (.task token (if w.checker.interval = 0 then .panicked else .selecting), w, [])
  | .task token .selecting, .cancelled, w => if w.cancelled token then some (.task token .ended, w, []) else none
  | .task token .selecting, .tick, w =>
    some (.task token (.checking w.checker.serviceDiscovery.listServices), w, [])
  | .task token (.checking (name :: rest)), .probed healthy, w =>
    let d := w.checker.serviceDiscovery
    some (.task token (.checking rest),
      { w with checker.serviceDiscovery := d.run (d.checkAllServices [name] healthy) }, [])
  | .task token (.checking []), .go, w => some (.task token .selecting, w, [])
  | _, _, _ => none

inductive Call where
  | start (token : Nat)
  | cancel (token : Nat)

def Call.place : Call → Place
  | .start token => .starting token
  | .cancel token => .cancelling token

/-- A new checker, and calls that nobody has begun. -/
def initial (d : ServiceDiscovery B) (interval timeout : Nat) (calls : List Call) : State (World B) Place :=
  ⟨⟨((new d).withInterval interval).withTimeout timeout, fun _ => false⟩, calls.map Call.place⟩

/-! ### What the flag is for -/

/-- `start` is in progress. -/
def Place.inStart : Place → Bool
  | .spawning _ => true
  | _ => false

def Place.isTask : Place → Bool
  | .task .. => true
  | _ => false

/-- The thread is a background loop, which is not over. -/
def Place.alive : Place → Bool
  | .task _ .ended => false
  | .task _ .panicked => false
  | p => p.isTask

/-- A start that is issued now, and left alone, begins a loop. -/
def Begins (s : State (World B) Place) : Prop :=
  ∀ token, ∃ s', (⟨s.world, s.places ++ [.starting token]⟩ : State (World B) Place).run move
    [(s.places.length, .go), (s.places.length, .go)] = some s' ∧ s'.count Place.alive = s.count Place.alive + 1

/-- The flag is set exactly if a loop is alive, there is one at most, and there can be one again. -/
structure Restartable (s : State (World B) Place) : Prop where
  running : s.world.checker.isRunning = true ↔ 0 < s.count Place.alive
  single : s.count Place.alive ≤ 1
  again : s.count Place.alive = 0 → Begins s

/-- It is what it should be whenever no start is in progress. -/
def Sound (s : State (World B) Place) : Prop := s.count Place.inStart = 0 → Restartable s

/-- The move ends a loop: it has found its token cancelled, or it has no timer. -/
def EndsLoop : Place → Choice → World B → Prop
  | .task _ .selecting, .cancelled, _ => True
  | .task _ .created, .go, w => w.checker.interval = 0
  | _, _, _ => False

/-- The next step ends a loop. -/
def Ends (s : State (World B) Place) (l : Nat × Choice) : Prop :=
  ∃ p, s.places[l.1]? = some p ∧ EndsLoop p l.2 s.world

/-- The flag says whether a loop has ever been begun. -/
def Flagged (s : State (World B) Place) : Prop :=
  s.count Place.inStart + s.count Place.isTask = s.world.checker.running.toNat

variable {s s' : State (World B) Place}

/-- A start goes through as long as the flag is not set. -/
theorem begins_iff : Begins s ↔ s.world.checker.running = false := by
  obtain ⟨⟨c, cancelled⟩, places⟩ := s
  cases hrunning : c.running with
  | true =>
    refine iff_of_false (fun h => ?_) Bool.noConfusion
    obtain ⟨s', hrun, -⟩ := h 0
    simp [State.run, State.step, move, hrunning] at hrun
  | false =>
    refine iff_of_true (fun token => ?_) rfl
    refine ⟨⟨⟨{ c with running := true }, cancelled⟩, places ++ [.returned, .task token .created]⟩, ?_, ?_⟩
    · simp [State.run, State.step, move, hrunning]
    · simp [State.count, Place.alive, Place.isTask]

theorem alive_le (s : State (World B) Place) : s.count Place.alive ≤ s.count Place.isTask := by
  refine List.countP_mono_left fun p _ h => ?_
  cases p with
  | task token t => rfl
  | _ => cases h

/-- The flag is right exactly as long as no loop is over. -/
theorem sound_iff (h : Flagged s) : Sound s ↔ s.count Place.alive = s.count Place.isTask := by
  unfold Flagged at h
  have hle := alive_le s
  have htoNat : s.world.checker.running.toNat ≤ 1 := Bool.toNat_le _
  constructor
  · intro hsound
    by_cases hstart : s.count Place.inStart = 0
    · obtain ⟨hrunning, hsingle, -⟩ := hsound hstart
      unfold isRunning at hrunning
      cases hflag : s.world.checker.running <;> simp [hflag] at h hrunning <;> omega
    · omega
  · intro heq hstart
    refine ⟨?_, by omega, fun hnone => begins_iff.mpr ?_⟩
    · unfold isRunning
      cases hflag : s.world.checker.running <;> simp [hflag] at h ⊢ <;> omega
    · cases hflag : s.world.checker.running
      · rfl
      · simp [hflag] at h
        omega

/-- The flag is set by who begins a loop, and a loop is over only if the move ends it. -/
theorem move_spec {p p' : Place} {c : Choice} {w w' : World B} {new : List Place}
    (h : move p c w = some (p', w', new)) :
    p'.inStart.toNat + new.countP Place.inStart +
      (p'.isTask.toNat + new.countP Place.isTask) + w.checker.running.toNat =
        p.inStart.toNat + p.isTask.toNat + w'.checker.running.toNat ∧
      (p'.alive.toNat + new.countP Place.alive + p.isTask.toNat =
        p.alive.toNat + (p'.isTask.toNat + new.countP Place.isTask) ↔ ¬EndsLoop p c w) := by
  cases p with
  | starting token =>
    cases c <;> cases h
    cases hrunning : w.checker.running <;> simp [Place.inStart, Place.isTask, Place.alive, EndsLoop]
  | spawning token =>
    cases c <;> cases h
    simp [Place.inStart, Place.isTask, Place.alive, EndsLoop]
  | cancelling token =>
    cases c <;> cases h
    simp [Place.inStart, Place.isTask, Place.alive, EndsLoop]
  | returned => cases c <;> cases h
  | task token t =>
    cases t with
    | created =>
      cases c <;> cases h
      by_cases hzero : w.checker.interval = 0 <;>
        simp [Place.inStart, Place.isTask, Place.alive, EndsLoop, hzero]
    | selecting =>
      cases c with
      | cancelled =>
        obtain ⟨-, h⟩ := Option.ite_none_right_eq_some.mp h
        cases h
        simp [Place.inStart, Place.isTask, Place.alive, EndsLoop]
      | tick =>
        cases h
        simp [Place.inStart, Place.isTask, Place.alive, EndsLoop]
      | _ => cases h
    | checking services =>
      cases services <;> cases c <;> cases h <;> simp [Place.inStart, Place.isTask, Place.alive, EndsLoop]
    | ended => cases c <;> cases h
    | panicked => cases c <;> cases h

/-- **A step begins a loop only if the flag was not set**, and the flag stays right unless it ends one. -/
theorem step_sound {l : Nat × Choice} (h : Flagged s) (hsound : Sound s) (hstep : s.step move l = some s') :
    Flagged s' ∧ (Sound s' ↔ ¬Ends s l) := by
  obtain ⟨t, c⟩ := l
  obtain ⟨p, p', w, new, hp, hmove, rfl⟩ := State.step_eq_some hstep
  have hall := (sound_iff h).mp hsound
  obtain ⟨hflag, halive⟩ := move_spec hmove
  have hstarts := s.count_moved hp Place.inStart p' w new
  have htasks := s.count_moved hp Place.isTask p' w new
  have halives := s.count_moved hp Place.alive p' w new
  have hflagged : Flagged ⟨w, s.places.set t p' ++ new⟩ := by
    unfold Flagged at *
    dsimp only
    omega
  have hends : Ends s (t, c) ↔ EndsLoop p c s.world :=
    ⟨fun ⟨q, hq, hends⟩ => Option.some.inj (hp.symm.trans hq) ▸ hends, fun hends => ⟨p, hp, hends⟩⟩
  refine ⟨hflagged, ?_⟩
  rw [sound_iff hflagged, hends, ← halive]
  omega

/-- **The checker is what it should be exactly as long as no loop ends**, in every state of a run. -/
theorem restartable_iff (d : ServiceDiscovery B) (interval timeout : Nat) (calls : List Call)
    (ls : List (Nat × Choice)) :
    (initial d interval timeout calls).Throughout move Sound ls ↔
      (initial d interval timeout calls).Along move (fun s l => ¬Ends s l) ls := by
  have hstart : Flagged (initial d interval timeout calls) := by
    have hnone (f : Place → Bool) (hf : ∀ call : Call, f call.place = false) :
        (initial d interval timeout calls).count f = 0 :=
      List.countP_eq_zero.mpr (List.forall_mem_map.mpr fun call _ => by simp [hf])
    have hstarts := hnone Place.inStart fun call => by cases call <;> rfl
    have htasks := hnone Place.isTask fun call => by cases call <;> rfl
    rw [Flagged, hstarts, htasks]
    rfl
  refine State.throughout_iff_along (fun s l s' h hsound hstep => step_sound h hsound hstep) hstart ?_ ls
  refine (sound_iff hstart).mpr ?_
  have hle := alive_le (initial d interval timeout calls)
  have hnone : (initial d interval timeout calls).world.checker.running = false := rfl
  unfold Flagged at hstart
  rw [hnone, Bool.toNat_false] at hstart
  omega

/-- A checker is started, its token is cancelled and its loop ends: it is still said to be running, no
loop is alive, and another start begins none. -/
theorem stale_flag :
    ∃ s, (initial (.withStrategy (B := .listing fun _ => true) .roundRobin) (30 * 10 ^ 9) (5 * 10 ^ 9)
        [.start 0, .cancel 0, .start 1]).run move
        [(0, .go), (0, .go), (3, .go), (1, .go), (3, .cancelled), (2, .go)] = some s ∧
      s.places = [.returned, .returned, .returned, .task 0 .ended] ∧ s.world.checker.isRunning = true ∧
      s.count Place.alive = 0 ∧ ¬Begins s ∧ ¬Sound s :=
  ⟨_, rfl, rfl, rfl, rfl, fun h => Bool.noConfusion (begins_iff.mp h),
    fun h => Nat.lt_irrefl 0 ((h rfl).running.mp rfl)⟩

end BackgroundHealthChecker

end XProtocol
