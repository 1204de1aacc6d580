import XProtocol.Async.Dropping
import XProtocol.Pool.Hands

/-! How many clients the production pool has.

Nothing bounds the list of idle clients, and a call that finds none makes one. But it finds
none under its permit, and the permit goes back after the client: so there are never more
clients, idle and with calls, than permits to begin with (`clients_bounded`). This holds
too where callers drop their futures, at any point at which they wait: what a call has in
hand is dropped with it. -/
namespace XProtocol.ProductionPool
open Async
open Json (Bytes Value Codec)

/-! ### A future that is dropped -/

/-- The operations at which a call may be dropped. -/
def suspends : Op → Bool
  | .acquire | .lockPool => true
  | .timed _ o | .plain _ o => SharedUdsClient.suspends o
  | _ => false

/-- Task `t` is dropped at an operation: the permit and the lock it holds go back, its client goes
with it, and what it had begun on a client's connection is left there. -/
def letGo (t : Nat) (o : Op) (d : Nat × Bytes) (g : Hand) (w : ProductionPool) : ProductionPool :=
  let permits := w.pool.permits + g.grip.permit.toNat
  let poolLock := if w.pool.poolLock = some t then none else w.pool.poolLock
  { pool := { w.pool with permits, poolLock }
    clients := match o with
      | .timed client o | .plain client o => w.clients.abandon t client o d.1 d.2
      | _ => w.clients }

/-- The hand of a task that was dropped. -/
def Hand.bare (g : Hand) : Hand := { g with grip := {}, owes := false }

/-- The pool, under callers that may drop their futures. -/
def dropping : Async.Machine Calls.droppable (ProductionPool × (Nat → Hand)) (Choice ⊕ (Nat × Bytes)) :=
  machine.dropping Hand.after suspends letGo Hand.bare

/-- A new pool, and what its callers are going to ask of it, and may drop. -/
def startDropping (S : Codec) (config : PoolConfig) (jobs : List Job) :
    Config Calls.droppable (ProductionPool × (Nat → Hand)) (Option Outcome) :=
  ⟨(.withConfig config, fun _ => {}), (start S config jobs).tasks.map Program.dropping⟩

theorem store_letGo (t : Nat) (o : Op) (d : Nat × Bytes) (w : ProductionPool) (γ : Nat → Hand) :
    store (letGo t o d (γ t) w).pool (Function.update γ t (γ t).bare) = (store w.pool γ).act t .leave := by
  rw [store, Function.comp_update]
  rfl

theorem rationed_upheld (max n : Nat) :
    Upheld dropping (lettingGo Hand.demand Hand.after Hand.bare) (fun _ t _ _ => t < n)
      fun w γ => w.2 = γ ∧ Rationed max n (store w.1.pool γ) := by
  refine dropping_upheld (P := fun t => t < n) (J := fun (w : ProductionPool) γ => Rationed max n (store w.pool γ))
    (fun w γ t o choice r w' h hd ht hstep => ?_) fun w γ t o d h hd ht _ => ?_
  · obtain ⟨hstore, hanswers⟩ := store_after (perform_effect hstep) hd
    show Rationed max n (store w'.pool _)
    rw [hstore]
    exact Rationed.act h ht (Hand.due_of_demand hd r) hanswers
  · show Rationed max n (store (letGo t o d (γ t) w).pool _)
    rw [store_letGo]
    exact Rationed.act h ht trivial trivial

/-! ### Runs -/

/-- The task is inside its client's call. -/
def isCalling {α : Type} : Program Calls.droppable α → Bool
  | .perform (.timed ..) _ => true
  | _ => false

/-- The clients that calls hold. -/
def held (s : Config Calls.droppable (ProductionPool × (Nat → Hand)) (Option Outcome)) : List Nat :=
  (List.range s.tasks.length).filterMap fun t => (s.world.2 t).grip.thing

/-- There are no more than `max` clients, each in one place, and no more than `max` of them are called. -/
structure Bounded (max : Nat) (s : Config Calls.droppable (ProductionPool × (Nat → Hand)) (Option Outcome)) :
    Prop where
  clients : (s.world.1.pool.clientPool ++ held s).length ≤ max
  apart : (s.world.1.pool.clientPool ++ held s).Nodup
  calling : s.tasks.countP isCalling ≤ max

/-- **There are never more clients than permits**, whatever the calls, the batches and the closes do, and
wherever they are dropped. -/
theorem clients_bounded (S : Codec) (config : PoolConfig) (jobs : List Job)
    (ls : List (Nat × (Choice ⊕ (Nat × Bytes)))) :
    (startDropping S config jobs).Throughout dropping (Bounded config.maxConcurrent) ls := by
  have hstart : Kept (lettingGo Hand.demand Hand.after Hand.bare)
      (fun w γ => w.2 = γ ∧ Rationed config.maxConcurrent (startDropping S config jobs).tasks.length
        (store w.1.pool γ)) (fun _ _ _ => True) (startDropping S config jobs) := by
    refine ⟨fun _ => {}, ⟨rfl, Rationed.new config.maxConcurrent _⟩, fun t p hp => ?_⟩
    rw [startDropping, List.getElem?_map, Option.map_eq_some_iff] at hp
    obtain ⟨q, hq, rfl⟩ := hp
    exact safe_mono (safe_dropping (start_handled S config jobs hq)) fun _ _ _ => trivial
  have hkept := throughout_safe (rationed_upheld config.maxConcurrent _) (Config.along_tasks _ ls) hstart
  refine Config.throughout_mono (fun s hs => ?_) (Config.throughout_and hkept (Config.throughout_length _ ls))
  obtain ⟨⟨_, ⟨rfl, hrationed⟩, hsafe⟩, hlength⟩ := hs
  rw [← hlength] at hrationed
  refine ⟨hrationed.things.1, hrationed.things.2, ?_⟩
  -- Whoever is inside its client's call holds the client.
  have hholds (t : Nat) (p : Program Calls.droppable (Option Outcome)) (hp : s.tasks[t]? = some p)
      (hcall : isCalling p = true) : 1 ≤ (s.world.2 t).grip.claims := by
    have hp := hsafe t p hp
    unfold isCalling at hcall
    split at hcall
    · rw [Grip.claims, show (s.world.2 t).grip.thing = some _ from hp.1.1]
      exact Nat.le_add_right 1 _
    · cases hcall
  have hcount := countP_le_total (γ := Hand.grip ∘ s.world.2) (f := Grip.claims) hholds
  exact Nat.le_trans hcount (Nat.le_trans (Nat.le_add_left _ _) hrationed.bound)

end XProtocol.ProductionPool
