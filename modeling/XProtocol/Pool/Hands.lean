import XProtocol.Async.Lending
import XProtocol.Pool.Production

/-! What a call of the production pool has in hand.

The pool is a store of clients behind a semaphore: what an operation does to the permits and
the idle clients is an action on that store (`action`, `store_after`). The order in which a
call takes its permit and a client, and lets go of them, is entered into its account
(`Hand`), and each operation of a call is due with what the call has in hand
(`start_handled`). -/
namespace XProtocol.ProductionPool
open Async
open Json (Value Codec)

/-! ### What an operation does to the pool -/

/-- What an operation that answers `r` makes of the pool, but for the breaker and the metrics. -/
def moved (t : Nat) (p : PoolState) : (o : Op) → Calls.Ret o → PoolState
  | .shutDown, _ => { p with shutdown := true }
  | .acquire, true => { p with permits := p.permits - 1 }
  | .release, _ => { p with permits := p.permits + 1 }
  | .closeSemaphore, _ => { p with semaphoreClosed := true }
  | .lockPool, _ => { p with poolLock := some t }
  | .unlockPool, _ => { p with poolLock := none }
  | .pop, _ => { p with clientPool := p.clientPool.dropLast }
  | .push client, _ => { p with clientPool := p.clientPool ++ [client] }
  | .clear, _ => { p with clientPool := [] }
  | .newClient, _ => { p with born := p.born + 1 }
  | _, _ => p

/-- When the operation answers `r`. -/
def Allows (p : PoolState) : (o : Op) → Calls.Ret o → Prop
  | .acquire, true => p.semaphoreClosed = false ∧ p.permits ≠ 0
  | .acquire, false => p.semaphoreClosed = true
  | .lockPool, _ => p.poolLock = none
  | .pop, client => client = p.clientPool.getLast?
  | .newClient, client => client = p.born
  | _, _ => True

structure Effect (t : Nat) (p p' : PoolState) (o : Op) (r : Calls.Ret o) : Prop where
  allowed : Allows p o r
  moved : ∃ breaker metrics, p' = { moved t p o r with breaker, metrics }

theorem perform_effect {t : Nat} {o : Op} {choice : Choice} {w w' : ProductionPool} {r : Calls.Ret o}
    (h : machine.perform t o choice w = some (r, w')) : Effect t w.pool w'.pool o r := by
  cases o with
  | timed client o => exact ⟨trivial, _, _, timed_pool h⟩
  | plain client o => exact ⟨trivial, _, _, plain_pool h⟩
  | acquire =>
    obtain ⟨⟨answer, p⟩, hp, heq⟩ := Option.map_eq_some_iff.mp h
    cases heq
    cases choice with
    | go =>
      simp only [performPool] at hp
      split_ifs at hp with hclosed hpermits <;> cases hp
      · exact ⟨hclosed, _, _, rfl⟩
      · exact ⟨⟨by simpa using hclosed, hpermits⟩, _, _, rfl⟩
    | _ => cases hp
  | lockPool =>
    obtain ⟨⟨answer, p⟩, hp, heq⟩ := Option.map_eq_some_iff.mp h
    cases heq
    cases choice with
    | go =>
      obtain ⟨hlock, heq⟩ := Option.ite_none_right_eq_some.mp hp
      cases heq
      exact ⟨hlock, _, _, rfl⟩
    | _ => cases hp
  | pop | newClient =>
    cases choice <;> cases h
    exact ⟨rfl, _, _, rfl⟩
  | _ => cases choice <;> cases h <;> exact ⟨trivial, _, _, rfl⟩

/-- What an operation is to the store of clients. -/
def action : (o : Op) → Calls.Ret o → Store.Action
  | .acquire, true => .acquire
  | .release, _ => .leave
  | .pop, some client => .take client
  | .pop, none => .miss
  | .newClient, client => .make client
  | .push client, _ => .give client
  | .clear, _ => .clear
  | _, _ => .stay

/-! ### The account of a task -/

/-- What a task holds, and what it has come past. -/
structure Hand where
  grip : Grip := {}
  /-- It has obtained a permit. -/
  permitted : Bool := false
  /-- It has obtained a permit, and has not put its client back. -/
  owes : Bool := false
  /-- Its client's call has begun. -/
  started : Bool := false
  /-- It has closed the semaphore. -/
  closed : Bool := false
  /-- It has emptied the pool. -/
  cleared : Bool := false

namespace Hand

def after (g : Hand) : (o : Op) → Calls.Ret o → Hand
  | .acquire, true => { g with grip := g.grip.act .acquire, permitted := true, owes := true }
  | .push client, _ => { g with grip := g.grip.act (.give client), owes := false }
  | .timed .., _ => { g with started := true }
  | .closeSemaphore, _ => { g with closed := true }
  | .clear, _ => { g with cleared := true }
  | o, r => { g with grip := g.grip.act (action o r) }

def demand (g : Hand) : Op → Prop
  | .acquire => g.grip.permit = false
  | .release => g.grip.permit = true
  | .pop => g.grip.permit = true ∧ g.grip.thing = none
  | .newClient => g.grip.wanting = true
  | .push client => g.grip.thing = some client ∧ g.owes = true
  | .timed client _ => g.grip.thing = some client ∧ g.permitted = true
  | .clear => g.closed = true
  | _ => True

@[simp] theorem grip_after (g : Hand) (o : Op) (r : Calls.Ret o) :
    (g.after o r).grip = g.grip.act (action o r) := by
  unfold after
  split <;> rfl

theorem due_of_demand {g : Hand} {o : Op} (hd : g.demand o) (r : Calls.Ret o) : g.grip.Due (action o r) := by
  cases o with
  | acquire | pop => cases r <;> first | exact hd | trivial
  | push client => exact hd.1
  | newClient => exact hd
  | _ => trivial

/-- What a task that has returned has come past. -/
def Ended (g : Hand) : Outcome → Prop
  | .reply (.ok _) => g.permitted = true
  | .reply (.error _) => True
  | .closed => g.cleared = true

end Hand

open Hand (after demand)

/-- The store of clients. -/
def store (p : PoolState) (γ : Nat → Hand) : Store where
  permits := p.permits
  idle := p.clientPool
  born := p.born
  grips := Hand.grip ∘ γ

/-- **An operation on the pool is the action on the store.** -/
theorem store_after {t : Nat} {p p' : PoolState} {γ : Nat → Hand} {o : Op} {r : Calls.Ret o}
    (heffect : Effect t p p' o r) (hd : demand (γ t) o) :
    store p' (Function.update γ t (after (γ t) o r)) = (store p γ).act t (action o r) ∧
      (store p γ).Answers (action o r) := by
  have hgrips : Hand.grip ∘ Function.update γ t (after (γ t) o r) =
      Function.update (Hand.grip ∘ γ) t ((γ t).grip.act (action o r)) := by
    rw [Function.comp_update, Hand.grip_after]
  obtain ⟨hallowed, _, _, rfl⟩ := heffect
  cases o with
  | acquire =>
    cases r with
    | true => exact ⟨by rw [store, hgrips]; rfl, hallowed.2⟩
    | false => exact ⟨by rw [store, hgrips]; rfl, trivial⟩
  | pop =>
    cases r with
    | some client => exact ⟨by rw [store, hgrips]; rfl, hallowed.symm⟩
    | none =>
      have hempty : p.clientPool = [] := List.getLast?_eq_none_iff.mp hallowed.symm
      refine ⟨?_, hempty⟩
      rw [store, hgrips]
      show Store.mk p.permits p.clientPool.dropLast p.born _ = Store.mk p.permits p.clientPool p.born _
      rw [hempty, List.dropLast_nil]
      rfl
  | release =>
    refine ⟨?_, trivial⟩
    rw [store, hgrips]
    show Store.mk (p.permits + 1) p.clientPool p.born _ = Store.mk (p.permits + (γ t).grip.permit.toNat) _ _ _
    rw [show (γ t).grip.permit = true from hd]
    rfl
  | newClient => exact ⟨by rw [store, hgrips]; rfl, hallowed⟩
  | _ => exact ⟨by rw [store, hgrips]; rfl, trivial⟩

/-- The discipline of what the calls have in hand. -/
abbrev handling : Discipline Calls Hand := owing demand after

/-! ### The text of a call -/

theorem settle_handled (result : Option (Result ServiceResponse)) {g : Hand} (hg : g.permitted = true) :
    Meets handling (settle result) (fun g _ => g.permitted = true) (fun _ _ => True) g := by
  match result with
  | some (.ok response) => exact meets_owing trivial fun _ => meets_owing trivial fun _ => hg
  | some (.error e) => exact meets_owing trivial fun _ => meets_owing trivial fun _ => trivial
  | none =>
    exact meets_owing trivial fun _ => meets_owing trivial fun _ => meets_owing trivial fun _ => trivial

/-- A call has a client, and a permit. -/
structure Serving (client : Nat) (g : Hand) : Prop where
  grip : g.grip = { permit := true, thing := some client }
  permitted : g.permitted = true
  owes : g.owes = true

variable (S : Codec)

theorem timedCall_handled (client : Nat) (service method : String) (payload : Value) {g : Hand}
    (hg : Serving client g) :
    Safe handling (timedCall S client service method payload) (fun g _ => Serving client g) g := by
  refine safe_droppable_owing (fun g o h => ⟨?_, h.permitted⟩) (fun g o r h => ⟨?_, h.permitted, h.owes⟩) _ hg
  · rw [h.grip]
  · exact h.grip

theorem callWithTimeout_handled (service method : String) (payload : Value) :
    Meets handling (callWithTimeout S service method payload) (fun g _ => g.permitted = true) (fun _ _ => True)
      {} := by
  unfold callWithTimeout
  refine meets_owing trivial fun stopping => ?_
  split
  · trivial
  refine meets_owing trivial fun admitted => ?_
  rw [meets_bind, meets_mk]
  cases admitted with
  | error e => trivial
  | ok _ =>
  refine meets_owing trivial fun _ => meets_owing trivial fun _ => meets_owing rfl fun permit => ?_
  cases permit with
  | false => exact meets_owing trivial fun _ => trivial
  | true =>
  refine meets_owing trivial fun _ => meets_owing ⟨rfl, rfl⟩ fun popped => ?_
  have hcall (client : Nat) : Meets handling (do
      op .unlockPool
      let result ← monadLift (timedCall S client service method payload)
      op .lockPool
      op (.push client)
      op .unlockPool
      op .release
      op (.sub .activeRequests)
      settle result) (fun g _ => g.permitted = true) (fun _ _ => True)
      { grip := { permit := true, thing := some client }, permitted := true, owes := true } := by
    refine meets_owing trivial fun _ => ?_
    rw [meets_bind, meets_lift]
    refine safe_mono (timedCall_handled S client service method payload ⟨rfl, rfl, rfl⟩) fun g result hg => ?_
    obtain ⟨grip, permitted, owes, started, closed, cleared⟩ := g
    obtain ⟨rfl, rfl, rfl⟩ := hg
    exact meets_owing trivial fun _ => meets_owing ⟨rfl, rfl⟩ fun _ => meets_owing trivial fun _ =>
      meets_owing rfl fun _ => meets_owing trivial fun _ => settle_handled result rfl
  cases popped with
  | some client => exact hcall client
  | none => exact meets_owing rfl fun client => hcall client

theorem closeClients_handled (clients : List Nat) (g : Hand) :
    Meets handling (closeClients clients) (fun g' _ => g' = g) (fun _ _ => False) g := by
  induction clients with
  | nil => rfl
  | cons client rest ih =>
    unfold closeClients
    rw [meets_bind, meets_lift]
    refine safe_mono (safe_embed_owing (I := fun g' => g' = g) (fun _ _ _ => trivial) (fun _ _ _ h => h) _ rfl) ?_
    rintro _ _ rfl
    exact ih

theorem close_handled :
    Meets handling close (fun g _ => g.cleared = true) (fun _ _ => False) {} := by
  unfold close
  refine meets_owing trivial fun _ => meets_owing trivial fun _ => meets_owing trivial fun _ =>
    meets_owing trivial fun clients => ?_
  rw [meets_bind]
  refine meets_mono (closeClients_handled clients _) ?_ fun _ _ h => h
  rintro _ _ rfl
  exact meets_owing rfl fun _ => meets_lift.mpr ((safe_op ..).mpr ⟨trivial, fun _ _ hg => hg ▸ rfl⟩)

/-- **Every operation of every task is due with what the task has in hand.** -/
theorem start_handled (config : PoolConfig) (jobs : List Job) {t : Nat} {p : Program Calls Outcome}
    (hp : (start S config jobs).tasks[t]? = some p) : Safe handling p Hand.Ended {} := by
  rcases start_tasks hp with ⟨-, service, method, payload, rfl⟩ | ⟨-, rfl⟩
  · exact safe_map (callWithTimeout_handled S service method payload) (fun _ _ h => h) fun _ _ h => h
  · exact safe_map close_handled (fun _ _ h => h) fun _ _ h => h.elim

end XProtocol.ProductionPool
