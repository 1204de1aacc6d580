import XProtocol.Async.Lending
import XProtocol.Json.Text
import XProtocol.Pool.Uds

/-! How many clients the pool of Unix-socket clients has.

The pool is a store of clients behind a semaphore, as the production pool is: a call that
makes a client has found none idle, some time before and under its permit, and whether it
counted itself or looked again in vain makes no difference to that. So idle clients and
clients with calls are no more than permits, but for the clients of batch items that have
given back their permit first: these are too many as soon as another client is made beside
them (`limits_kept`). That the idle list is not longer than `maxPoolSize` is another
matter: a client is put back under the lock under which the list was found shorter. -/
namespace XProtocol.UdsClientPool
open Async
open Json (Value Codec)

/-! ### What an operation does to the pool -/

/-- What an operation that answers `r` makes of the pool. -/
def moved (t : Nat) (p : UdsClientPool) : (o : Op) → Calls.Ret o → UdsClientPool
  | .acquire, _ => { p with permits := p.permits - 1 }
  | .release, _ => { p with permits := p.permits + 1 }
  | .lockPool, _ => { p with poolLock := some t }
  | .unlockPool, _ => { p with poolLock := none }
  | .pop, _ => { p with pool := p.pool.dropLast }
  | .push client, _ => { p with pool := p.pool ++ [client] }
  | .clear, _ => { p with pool := [] }
  | .addCreated, _ => { p with createdClients := usizeSucc p.createdClients }
  | .subCreated, _ => { p with createdClients := usizePred p.createdClients }
  | .resetCreated, _ => { p with createdClients := 0 }
  | .newClient, _ => { p with born := p.born + 1 }
  | _, _ => p

/-- When the operation answers `r`. -/
def Allows (p : UdsClientPool) : (o : Op) → Calls.Ret o → Prop
  | .acquire, r => p.permits ≠ 0 ∧ r = true
  | .lockPool, _ => p.poolLock = none
  | .pop, client => client = p.pool.getLast?
  | .len, n => n = p.pool.length
  | .addCreated, created => created = p.createdClients
  | .newClient, client => client = p.born
  | _, _ => True

structure Effect (t : Nat) (p p' : UdsClientPool) (o : Op) (r : Calls.Ret o) : Prop where
  allowed : Allows p o r
  moved : p' = moved t p o r

theorem perform_effect {t : Nat} {o : Op} {choice : Choice} {w w' : World} {r : Calls.Ret o}
    (h : machine.perform t o choice w = some (r, w')) : Effect t w.pool w'.pool o r := by
  cases o with
  | on client o =>
    obtain ⟨x, -, heq⟩ := Option.map_eq_some_iff.mp h
    cases heq
    exact ⟨trivial, rfl⟩
  | acquire =>
    obtain ⟨⟨answer, p⟩, hp, heq⟩ := Option.map_eq_some_iff.mp h
    cases heq
    cases choice with
    | go =>
      obtain ⟨hpermits, heq⟩ := Option.ite_none_left_eq_some.mp hp
      cases heq
      exact ⟨⟨hpermits, rfl⟩, rfl⟩
    | _ => cases hp
  | lockPool =>
    obtain ⟨⟨answer, p⟩, hp, heq⟩ := Option.map_eq_some_iff.mp h
    cases heq
    cases choice with
    | go =>
      obtain ⟨hlock, heq⟩ := Option.ite_none_right_eq_some.mp hp
      cases heq
      exact ⟨hlock, rfl⟩
    | _ => cases hp
  | pop | len | addCreated | newClient =>
    cases choice <;> cases h
    exact ⟨rfl, rfl⟩
  | _ => cases choice <;> cases h <;> exact ⟨trivial, rfl⟩

/-- What an operation is to the store of clients. -/
def action : (o : Op) → Calls.Ret o → Store.Action
  | .acquire, true => .acquire
  | .release, _ => .leave
  | .pop, some client => .take client
  | .pop, none => .miss
  | .newClient, client => .make client
  | .push client, _ => .give client
  | .discard _, _ => .lose
  | .clear, _ => .clear
  | _, _ => .stay

/-! ### The account of a task -/

/-- What a task holds of a pool with places for `maxPoolSize` idle clients. -/
structure Hand where
  grip : Grip := {}
  locked : Bool := false
  /-- Under the lock, it has found a place for an idle client. -/
  room : Bool := false
  /-- It is counted in `createdClients`: by itself, or by the call that made its client. -/
  counted : Bool := false
  /-- It has found `createdClients` at `maxPoolSize` or above. -/
  spilled : Bool := false
  /-- It has emptied the pool, and not yet reset `createdClients`. -/
  clearing : Bool := false
  /-- It has given back its permit, and still has this client. -/
  lingering : Option Nat := none

namespace Hand
variable (maxPoolSize : Nat)

/-- The client that it has. -/
def client (g : Hand) : Option Nat := g.grip.thing.or g.lingering

def after (g : Hand) : (o : Op) → Calls.Ret o → Hand
  | .lockPool, _ => { g with locked := true }
  | .unlockPool, _ => { g with locked := false, room := false }
  | .len, n => { g with room := decide (n < maxPoolSize) }
  | .push client, _ => { g with grip := g.grip.act (.give client), room := false, counted := false }
  | .pop, some client => { g with grip := g.grip.act (.take client), counted := true }
  | .addCreated, created => { g with counted := true, spilled := g.spilled || decide (maxPoolSize ≤ created) }
  | .subCreated, _ => { g with counted := false }
  | .clear, _ => { g with clearing := true }
  | .resetCreated, _ => { g with clearing := false }
  | .release, _ => { g with grip := g.grip.act .leave, lingering := g.grip.thing }
  | .discard _, _ => { g with grip := g.grip.act .lose, lingering := none }
  | o, r => { g with grip := g.grip.act (action o r) }

def demand (g : Hand) : Op → Prop
  | .acquire => g.grip.permit = false
  | .release => g.grip.permit = true ∧ g.grip.wanting = false ∧ g.lingering = none
  | .discard client => g.client = some client
  | .unlockPool => g.locked = true ∧ g.clearing = false
  | .pop =>
    g.locked = true ∧ g.clearing = false ∧ g.grip.permit = true ∧ g.grip.thing = none ∧ g.counted = false ∧
      g.lingering = none
  | .newClient => g.grip.wanting = true ∧ (g.counted = true ∨ g.spilled = true) ∧ g.lingering = none
  | .len => g.locked = true
  | .push client =>
    g.locked = true ∧ g.clearing = false ∧ g.room = true ∧ g.grip.thing = some client ∧
      (g.counted = true ∨ g.spilled = true) ∧ g.lingering = none
  | .addCreated => g.grip.wanting = true ∧ g.counted = false
  | .subCreated => g.spilled = true
  | .clear => g.locked = true ∧ g.clearing = false
  | .resetCreated => g.clearing = true
  | _ => True

@[simp] theorem grip_after (g : Hand) (o : Op) (r : Calls.Ret o) :
    (g.after maxPoolSize o r).grip = g.grip.act (action o r) := by
  unfold after
  split <;> rfl

theorem due_of_demand {g : Hand} {o : Op} (hd : g.demand o) (r : Calls.Ret o) : g.grip.Due (action o r) := by
  cases o with
  | acquire => cases r <;> first | exact hd | trivial
  | pop => cases r <;> exact ⟨hd.2.2.1, hd.2.2.2.1⟩
  | push client => exact hd.2.2.2.1
  | newClient => exact hd.1
  | _ => trivial

end Hand

/-- The discipline of what the calls hold. -/
abbrev handling (maxPoolSize : Nat) : Discipline Calls Hand := owing Hand.demand (Hand.after maxPoolSize)

/-! ### The text of a call -/

/-- A call has a client, that it may put back. -/
structure Serving (client : Nat) (g : Hand) : Prop where
  permit : g.grip.permit = true
  thing : g.grip.thing = some client
  wanting : g.grip.wanting = false
  counted : g.counted = true ∨ g.spilled = true
  clearing : g.clearing = false
  lingering : g.lingering = none

/-- A call has a permit, and is looking for a client. -/
structure Seeking (g : Hand) : Prop where
  permit : g.grip.permit = true
  thing : g.grip.thing = none
  counted : g.counted = false
  clearing : g.clearing = false
  lingering : g.lingering = none

variable {m : Nat} {g : Hand}

theorem takeIdle_handled (hg : Seeking g) :
    Meets (handling m) takeIdle
      (fun g' r => match r with
        | some client => Serving client g'
        | none => Seeking g' ∧ g'.grip.wanting = true ∧ g'.spilled = g.spilled)
      (fun _ _ => False) g := by
  unfold takeIdle
  refine meets_owing trivial fun _ =>
    meets_owing ⟨rfl, hg.clearing, hg.permit, hg.thing, hg.counted, hg.lingering⟩ fun popped => ?_
  cases popped with
  | some client => exact meets_owing ⟨rfl, hg.clearing⟩ fun _ => ⟨hg.permit, rfl, rfl, .inl rfl, hg.clearing, hg.lingering⟩
  | none =>
    exact meets_owing ⟨rfl, hg.clearing⟩ fun _ => ⟨⟨hg.permit, hg.thing, hg.counted, hg.clearing, hg.lingering⟩, rfl, rfl⟩

theorem newClient_handled (hg : g.grip.permit = true ∧ g.grip.wanting = true ∧ g.clearing = false)
    (hlingering : g.lingering = none) (hcounted : g.counted = true ∨ g.spilled = true) :
    Meets (handling m) (op .newClient) (fun g' client => Serving client g') (fun _ _ => False) g :=
  meets_lift.mpr ((safe_op ..).mpr
    ⟨⟨hg.2.1, hcounted, hlingering⟩, fun _ _ hm => hm ▸ ⟨hg.1, rfl, rfl, hcounted, hg.2.2, hlingering⟩⟩)

theorem retry_handled (retries : Nat) (hg : Seeking g) (hwanting : g.grip.wanting = true)
    (hspilled : g.spilled = true) :
    Meets (handling m) (retry retries) (fun g' client => Serving client g') (fun _ _ => False) g := by
  induction retries generalizing g with
  | zero => exact newClient_handled ⟨hg.permit, hwanting, hg.clearing⟩ hg.lingering (.inr hspilled)
  | succ retries ih =>
    unfold retry
    rw [meets_bind]
    refine meets_mono (takeIdle_handled hg) (fun g' popped h => ?_) fun _ _ h => h
    cases popped with
    | some client => exact h
    | none =>
      obtain ⟨hseeking, hwanting', hspilled'⟩ := h
      exact meets_owing trivial fun _ => ih ⟨hseeking.1, hseeking.2, hseeking.3, hseeking.4, hseeking.5⟩ hwanting'
        (hspilled'.trans hspilled)

/-- A call that has found no client counts itself, or finds that there are enough. -/
theorem create_handled {rest : Code Nat} (hg : Seeking g) (hwanting : g.grip.wanting = true)
    (hrest : ∀ g', Seeking g' → g'.grip.wanting = true → g'.spilled = true →
      Meets (handling m) rest (fun g' client => Serving client g') (fun _ _ => False) g') :
    Meets (handling m) (do
      let created ← op .addCreated
      if created < m then
        op .newClient
      else
        op .subCreated
        rest) (fun g' client => Serving client g') (fun _ _ => False) g := by
  refine meets_owing ⟨hwanting, hg.counted⟩ fun created => ?_
  split
  · exact newClient_handled ⟨hg.permit, hwanting, hg.clearing⟩ hg.lingering (.inl rfl)
  · next hfull =>
    have hspilled : (g.spilled || decide (m ≤ created)) = true := by simp [Nat.le_of_not_lt hfull]
    exact meets_owing hspilled fun _ => hrest _ ⟨hg.permit, hg.thing, rfl, hg.clearing, hg.lingering⟩ hwanting
      hspilled

theorem getOrCreateClient_handled (hg : Seeking g) :
    Meets (handling m) (getOrCreateClient m) (fun g' client => Serving client g') (fun _ _ => False) g := by
  unfold getOrCreateClient
  rw [meets_bind]
  refine meets_mono (takeIdle_handled hg) (fun g' popped h => ?_) fun _ _ h => h
  cases popped with
  | some client => exact h
  | none =>
    obtain ⟨hseeking, hwanting, -⟩ := h
    exact create_handled hseeking hwanting fun _ => retry_handled 3

theorem itemClient_handled (hg : Seeking g) :
    Meets (handling m) (itemClient m) (fun g' client => Serving client g') (fun _ _ => False) g := by
  unfold itemClient
  rw [meets_bind]
  refine meets_mono (takeIdle_handled hg) (fun g' popped h => ?_) fun _ _ h => h
  cases popped with
  | some client => exact h
  | none =>
    obtain ⟨hseeking, hwanting, -⟩ := h
    exact create_handled hseeking hwanting fun g hg hwanting hspilled =>
      newClient_handled ⟨hg.permit, hwanting, hg.clearing⟩ hg.lingering (.inr hspilled)

theorem clientCall_handled (S : Codec) {client : Nat} (service method : String) (payload : Value)
    (hg : Serving client g) :
    Meets (handling m) (clientCall S client service method payload) (fun g' _ => Serving client g')
      (fun _ _ => False) g :=
  meets_lift.mpr (safe_embed_owing (I := Serving client) (fun _ _ _ => trivial)
    (fun _ _ _ h => ⟨h.permit, h.thing, h.wanting, h.counted, h.clearing, h.lingering⟩) _ hg)

/-- A call is done with its client, and holds its permit. -/
structure Served (left : Option Nat) (g : Hand) : Prop where
  permit : g.grip.permit = true
  thing : g.grip.thing = left
  wanting : g.grip.wanting = false
  clearing : g.clearing = false
  lingering : g.lingering = none

theorem Serving.served {client : Nat} (hg : Serving client g) : Served (some client) g :=
  ⟨hg.permit, hg.thing, hg.wanting, hg.clearing, hg.lingering⟩

theorem putBack_handled {client : Nat} (hg : Serving client g) :
    Meets (handling m) (putBack m client) (fun g' left => Served left g') (fun _ _ => False) g := by
  unfold putBack
  refine meets_owing trivial fun _ => meets_owing rfl fun n => ?_
  split
  · next hroom =>
    exact meets_owing ⟨rfl, hg.clearing, decide_eq_true hroom, hg.thing, hg.counted, hg.lingering⟩ fun _ =>
      meets_owing ⟨rfl, hg.clearing⟩ fun _ => ⟨hg.permit, rfl, hg.wanting, hg.clearing, hg.lingering⟩
  · exact meets_owing ⟨rfl, hg.clearing⟩ fun _ => ⟨hg.permit, hg.thing, hg.wanting, hg.clearing, hg.lingering⟩

theorem discard_handled {client : Nat} (hg : Served (some client) g) :
    Meets (handling m) (op (.discard client)) (fun g' _ => Served none g') (fun _ _ => False) g :=
  meets_lift.mpr ((safe_op ..).mpr ⟨congrArg (Option.or · g.lingering) hg.thing,
    fun _ _ hm => hm ▸ ⟨hg.permit, rfl, hg.wanting, hg.clearing, rfl⟩⟩)

theorem returnClient_handled {client : Nat} (result : Result ServiceResponse) (hg : Serving client g) :
    Meets (handling m) (returnClient m client result) (fun g' _ => Served none g') (fun _ _ => False) g := by
  unfold returnClient
  split
  · rw [meets_bind]
    refine meets_mono (putBack_handled hg) (fun g' left h => ?_) fun _ _ h => h
    cases left with
    | none => exact h
    | some client => exact discard_handled h
  · exact discard_handled hg.served

/-- A task that has returned holds nothing. -/
structure Done (g : Hand) : Prop where
  permit : g.grip.permit = false
  clearing : g.clearing = false
  client : g.client = none

/-- The end of a call or an item: it gives back its permit, and drops the client that is left. -/
theorem release_handled {left : Option Nat} (hg : Served left g) (result : Result ServiceResponse) :
    Meets (handling m) (do
      op .release
      leave left
      ExceptT.mk (pure result)) (fun g' _ => Done g') (fun g' _ => Done g') g := by
  refine meets_owing ⟨hg.permit, hg.wanting, hg.lingering⟩ fun _ => ?_
  cases left with
  | none =>
    refine (meets_mk _).mpr ?_
    cases result <;> exact ⟨rfl, hg.clearing, hg.thing⟩
  | some client =>
    refine meets_owing hg.thing fun _ => (meets_mk _).mpr ?_
    cases result <;> exact ⟨rfl, hg.clearing, rfl⟩

variable (S : Codec)

theorem call_handled (service method : String) (payload : Value) :
    Meets (handling m) (call S m service method payload) (fun g _ => Done g) (fun g _ => Done g) {} := by
  unfold call
  refine meets_owing rfl fun permit => ?_
  cases permit with
  | false => exact ⟨rfl, rfl, rfl⟩
  | true =>
  show Meets _ (_ >>= _) _ _ _
  rw [meets_bind]
  refine meets_mono (getOrCreateClient_handled ⟨rfl, rfl, rfl, rfl, rfl⟩) (fun g client hg => ?_) fun _ _ h => h.elim
  rw [meets_bind]
  refine meets_mono (clientCall_handled S service method payload hg) (fun g result hg => ?_) fun _ _ h => h.elim
  rw [meets_bind]
  refine meets_mono (returnClient_handled result hg) (fun g _ hg => ?_) fun _ _ h => h.elim
  exact release_handled hg result

theorem callItem_handled (service method : String) (payload : Value) :
    Meets (handling m) (callItem S m service method payload) (fun g _ => Done g) (fun g _ => Done g) {} := by
  unfold callItem
  refine meets_owing rfl fun permit => ?_
  cases permit with
  | false => exact ⟨rfl, rfl, rfl⟩
  | true =>
  show Meets _ (_ >>= _) _ _ _
  rw [meets_bind]
  refine meets_mono (itemClient_handled ⟨rfl, rfl, rfl, rfl, rfl⟩) (fun g client hg => ?_) fun _ _ h => h.elim
  rw [meets_bind]
  refine meets_mono (clientCall_handled S service method payload hg) (fun g result hg => ?_) fun _ _ h => h.elim
  split
  · rw [meets_bind]
    exact meets_mono (putBack_handled hg) (fun g left hg => release_handled hg result) fun _ _ h => h.elim
  · exact release_handled hg.served result

theorem closeClients_handled (clients : List Nat) (g : Hand) :
    Meets (handling m) (closeClients clients) (fun g' _ => g' = g) (fun _ _ => False) g := by
  induction clients with
  | nil => rfl
  | cons client rest ih =>
    unfold closeClients
    rw [meets_bind, meets_lift]
    refine safe_mono (safe_embed_owing (I := fun g' => g' = g) (fun _ _ _ => trivial) (fun _ _ _ h => h) _ rfl) ?_
    rintro _ _ rfl
    exact ih

theorem close_handled : Meets (handling m) close (fun g _ => Done g) (fun _ _ => False) {} := by
  unfold close
  refine meets_owing trivial fun _ => meets_owing trivial fun clients => ?_
  rw [meets_bind]
  refine meets_mono (closeClients_handled clients _) ?_ fun _ _ h => h
  rintro _ _ rfl
  exact meets_owing ⟨rfl, rfl⟩ fun _ => meets_owing rfl fun _ =>
    meets_lift.mpr ((safe_op ..).mpr ⟨⟨rfl, rfl⟩, fun _ _ hg => hg ▸ ⟨rfl, rfl, rfl⟩⟩)

theorem tasks_handled (job : Job) {p : Program Calls Outcome} (hp : p ∈ job.tasks S m) :
    Safe (handling m) p (fun g _ => Done g) {} := by
  cases job with
  | call service method payload =>
    obtain rfl := List.mem_singleton.mp hp
    exact safe_map (call_handled S service method payload) (fun _ _ h => h) fun _ _ h => h
  | batch requests =>
    simp only [Job.tasks, callBatch, List.map_map, List.mem_map] at hp
    obtain ⟨⟨service, method, payload⟩, -, rfl⟩ := hp
    exact safe_map (callItem_handled S service method payload) (fun _ _ h => h) fun _ _ h => h
  | close =>
    obtain rfl := List.mem_singleton.mp hp
    exact safe_map close_handled (fun _ _ h => h) fun _ _ h => h.elim

/-! ### One operation -/

/-- The store of clients. -/
def store (p : UdsClientPool) (γ : Nat → Hand) : Store where
  permits := p.permits
  idle := p.pool
  born := p.born
  grips := Hand.grip ∘ γ

section
variable {max n t : Nat} {p p' : UdsClientPool} {γ : Nat → Hand} {o : Op} {r : Calls.Ret o}

/-- **An operation on the pool is the action on the store.** -/
theorem store_after (heffect : Effect t p p' o r) (hd : (γ t).demand o) :
    store p' (Function.update γ t ((γ t).after m o r)) = (store p γ).act t (action o r) ∧
      (store p γ).Answers (action o r) := by
  have hgrips : Hand.grip ∘ Function.update γ t ((γ t).after m o r) =
      Function.update (Hand.grip ∘ γ) t ((γ t).grip.act (action o r)) := by
    rw [Function.comp_update, Hand.grip_after]
  obtain ⟨hallowed, rfl⟩ := heffect
  cases o with
  | acquire =>
    obtain ⟨hpermits, rfl⟩ := hallowed
    exact ⟨by rw [store, hgrips]; rfl, hpermits⟩
  | pop =>
    cases r with
    | some client => exact ⟨by rw [store, hgrips]; rfl, hallowed.symm⟩
    | none =>
      have hempty : p.pool = [] := List.getLast?_eq_none_iff.mp hallowed.symm
      refine ⟨?_, hempty⟩
      rw [store, hgrips]
      show Store.mk p.permits p.pool.dropLast p.born _ = Store.mk p.permits p.pool p.born _
      rw [hempty, List.dropLast_nil]
      rfl
  | release =>
    refine ⟨?_, trivial⟩
    rw [store, hgrips]
    show Store.mk (p.permits + 1) p.pool p.born _ = Store.mk (p.permits + (γ t).grip.permit.toNat) _ _ _
    rw [show (γ t).grip.permit = true from hd.1]
    rfl
  | newClient => exact ⟨by rw [store, hgrips]; rfl, hallowed⟩
  | _ => exact ⟨by rw [store, hgrips]; rfl, trivial⟩

/-- Whoever has the lock is known to have it. -/
def Locks (p : UdsClientPool) (γ : Nat → Hand) : Prop := ∀ t, (γ t).locked = true → p.poolLock = some t

theorem Locks.alone (h : Locks p γ) {u : Nat} (ht : (γ t).locked = true) (hu : (γ u).locked = true) : u = t :=
  Option.some.inj ((h u hu).symm.trans (h t ht))

theorem Locks.step (h : Locks p γ) (hd : (γ t).demand o) (heffect : Effect t p p' o r) :
    Locks p' (Function.update γ t ((γ t).after m o r)) := by
  obtain ⟨hallowed, rfl⟩ := heffect
  refine (Function.forall_update_iff γ fun u g => g.locked = true → _ = some u).mpr
    ⟨fun ht => ?_, fun u hut hu => ?_⟩
  · cases o with
    | lockPool => rfl
    | unlockPool => cases ht
    | acquire | pop => cases r <;> exact h t ht
    | _ => exact h t ht
  · cases o with
    | lockPool => exact nomatch (h u hu).symm.trans hallowed
    | unlockPool => exact absurd (h.alone hd.1 hu) hut
    | _ => exact h u hu

/-- Whoever has found a place has the lock, and the place is there. -/
structure Places (m : Nat) (p : UdsClientPool) (γ : Nat → Hand) : Prop where
  room : ∀ t, (γ t).room = true → (γ t).locked = true ∧ p.pool.length < m
  short : p.pool.length ≤ m

theorem length_moved (p : UdsClientPool) (r : Calls.Ret o) (hpush : ∀ client, o ≠ .push client) :
    (moved t p o r).pool.length ≤ p.pool.length := by
  cases o with
  | push client => exact absurd rfl (hpush client)
  | pop =>
    show p.pool.dropLast.length ≤ _
    rw [List.length_dropLast]
    exact Nat.sub_le _ _
  | clear => exact Nat.zero_le _
  | _ => exact Nat.le_refl _

theorem Places.step (h : Places m p γ) (hlocks : Locks p γ) (hd : (γ t).demand o) (heffect : Effect t p p' o r) :
    Places m p' (Function.update γ t ((γ t).after m o r)) := by
  obtain ⟨hallowed, rfl⟩ := heffect
  by_cases hpush : ∃ client, o = .push client
  · obtain ⟨client, rfl⟩ := hpush
    obtain ⟨hlocked, -, hroom, -, -⟩ := hd
    have hlength : (p.pool ++ [client]).length = p.pool.length + 1 := by simp
    have hlt := (h.room t hroom).2
    refine ⟨?_, ?_⟩
    · refine (Function.forall_update_iff γ fun u g => g.room = true → g.locked = true ∧ _).mpr
        ⟨nofun, fun u hut hu => ?_⟩
      exact absurd (hlocks.alone hlocked (h.room u hu).1) hut
    · show (p.pool ++ [client]).length ≤ m
      omega
  · have hle := length_moved (t := t) p r fun client heq => hpush ⟨client, heq⟩
    refine ⟨?_, Nat.le_trans hle h.short⟩
    refine (Function.forall_update_iff γ fun u g => g.room = true → g.locked = true ∧ _).mpr
      ⟨fun ht => ?_, fun u _ hu => ⟨(h.room u hu).1, Nat.lt_of_le_of_lt hle (h.room u hu).2⟩⟩
    have hsame (hroom : (γ t).room = true) : (γ t).locked = true ∧ (moved t p o r).pool.length < m :=
      ⟨(h.room t hroom).1, Nat.lt_of_le_of_lt hle (h.room t hroom).2⟩
    cases o with
    | push client => exact absurd ⟨client, rfl⟩ hpush
    | len =>
      obtain rfl : r = p.pool.length := hallowed
      exact ⟨hd, of_decide_eq_true ht⟩
    | lockPool => exact ⟨rfl, (hsame ht).2⟩
    | unlockPool => cases ht
    | acquire | pop => cases r <;> exact hsame ht
    | _ => exact hsame ht

/-- The clients that are idle, and those that calls have, with a permit or without. -/
def lending (p : UdsClientPool) (γ : Nat → Hand) : Lending := ⟨p.pool, Hand.client ∘ γ, p.born⟩

theorem lending_after (p' : UdsClientPool) (o : Op) (r : Calls.Ret o) :
    lending p' (Function.update γ t ((γ t).after m o r)) =
      ⟨p'.pool, Function.update (Hand.client ∘ γ) t ((γ t).after m o r).client, p'.born⟩ :=
  congrArg (Lending.mk p'.pool · p'.born) (Function.comp_update ..)

/-- An operation that hands out no client and takes none back. -/
theorem client_after {g : Hand} (hd : g.demand o) (hpop : o ≠ .pop) (hnew : o ≠ .newClient)
    (hpush : ∀ client, o ≠ .push client) (hdiscard : ∀ client, o ≠ .discard client) :
    (g.after m o r).client = g.client := by
  cases o with
  | pop => exact absurd rfl hpop
  | newClient => exact absurd rfl hnew
  | push client => exact absurd rfl (hpush client)
  | discard client => exact absurd rfl (hdiscard client)
  | release =>
    show Option.or none g.grip.thing = g.grip.thing.or g.lingering
    rw [hd.2.2, Option.or_none]
    rfl
  | acquire => cases r <;> rfl
  | _ => rfl

/-- **No client is handed to two calls**, or handed out and idle. -/
theorem sound_step (h : (lending p γ).Sound) (hd : (γ t).demand o) (heffect : Effect t p p' o r) :
    (lending p' (Function.update γ t ((γ t).after m o r))).Sound := by
  rw [lending_after]
  obtain ⟨hallowed, rfl⟩ := heffect
  have hsame : Function.update (Hand.client ∘ γ) t (γ t).client = Hand.client ∘ γ := Function.update_eq_self t _
  cases o with
  | pop =>
    cases r with
    | some client => exact h.take t hallowed.symm
    | none =>
      show Lending.Sound ⟨p.pool.dropLast, Function.update _ t (γ t).client, p.born⟩
      rw [hsame]
      exact h.keep (List.dropLast_sublist _)
  | newClient =>
    obtain rfl : r = p.born := hallowed
    exact h.make t
  | push client =>
    obtain ⟨-, -, -, hthing, -, hlingering⟩ := hd
    have hgone : ((γ t).after m (.push client) r).client = none := hlingering
    rw [hgone]
    exact h.give (congrArg (Option.or · (γ t).lingering) hthing)
  | discard client => exact h.drop t
  | clear =>
    show Lending.Sound ⟨[], Function.update _ t (γ t).client, p.born⟩
    rw [hsame]
    exact h.keep (List.nil_sublist _)
  | _ =>
    rw [client_after hd nofun nofun nofun nofun, hsame]
    exact h

/-- A call's client, idle clients and others: no operation but `newClient` makes them more. -/
theorem clients_after (hd : (γ t).demand o) (heffect : Effect t p p' o r) (hnew : o ≠ .newClient) :
    p'.pool.length + ((γ t).after m o r).client.toList.length ≤ p.pool.length + (γ t).client.toList.length := by
  obtain ⟨hallowed, rfl⟩ := heffect
  cases o with
  | newClient => exact absurd rfl hnew
  | pop =>
    cases r with
    | some client =>
      show p.pool.dropLast.length + 1 ≤ _
      have hlength : p.pool.length = p.pool.dropLast.length + 1 := by
        rw [← List.dropLast_append_getLast? client hallowed.symm]
        simp
      omega
    | none => exact Nat.add_le_add_right (length_moved (o := .pop) p _ fun _ h => by cases h) _
  | push client =>
    obtain ⟨-, -, -, hthing, -, hlingering⟩ := hd
    have hgone : ((γ t).after m (.push client) r).client = none := hlingering
    have hhad : (γ t).client = some client := congrArg (Option.or · (γ t).lingering) hthing
    rw [hgone, hhad]
    show (p.pool ++ [client]).length + 0 ≤ _
    simp
  | discard client => exact Nat.add_le_add_left (Nat.zero_le _) _
  | clear => exact Nat.add_le_add_right (Nat.zero_le _) _
  | _ =>
    rw [client_after hd nofun nofun nofun nofun]
    exact Nat.le_refl _

end

/-- The pool keeps its limits. -/
structure Limits (m max n : Nat) (p : UdsClientPool) (γ : Nat → Hand) : Prop where
  rationed : Rationed max n (store p γ)
  sound : (lending p γ).Sound
  locks : Locks p γ
  places : Places m p γ

theorem limits_keeps (m max n : Nat) :
    Keeps machine Hand.demand (Hand.after m) (fun _ t _ _ => t < n) fun w γ => Limits m max n w.pool γ := by
  intro w γ t o choice r w' h hd ht hstep
  have heffect := perform_effect hstep
  obtain ⟨hstore, hanswers⟩ := store_after (m := m) heffect hd
  refine ⟨?_, sound_step h.sound hd heffect, h.locks.step hd heffect, h.places.step h.locks hd heffect⟩
  rw [hstore]
  exact h.rationed.act ht (Hand.due_of_demand hd r) hanswers

/-- No batch item that has given back its permit still has its client when a client is made. -/
def Prompt (w : World × (Nat → Hand)) (_ : Nat) : Op → Choice → Prop
  | .newClient, _ => ∀ u, (w.2 u).lingering = none
  | _, _ => True

/-- The pool keeps its limits, and there are no more clients than permits. -/
def Within (m max n : Nat) (p : UdsClientPool) (γ : Nat → Hand) : Prop :=
  Limits m max n p γ ∧ p.pool.length + total n (fun g : Hand => g.client.toList.length) γ ≤ max

theorem within_keeps (m max n : Nat) :
    Keeps machine Hand.demand (Hand.after m) (fun w t o choice => t < n ∧ Prompt w t o choice)
      fun w γ => Within m max n w.pool γ := by
  rintro w γ t o choice r w' ⟨hlimits, hwithin⟩ hd ⟨ht, hprompt⟩ hstep
  have hlimits' := limits_keeps m max n w γ t o choice r w' hlimits hd ht hstep
  refine ⟨hlimits', ?_⟩
  by_cases hnew : o = .newClient
  · -- Nobody lingers, so that the calls' clients are those the permits are for.
    subst hnew
    have hnone : ∀ u, (Function.update γ t ((γ t).after m .newClient r) u).lingering = none :=
      (Function.forall_update_iff γ fun u g => g.lingering = none).mpr ⟨hprompt t, fun u _ => hprompt u⟩
    have hbound : w'.pool.pool.length + total n (fun g : Hand => g.grip.claims)
        (Function.update γ t ((γ t).after m .newClient r)) ≤ max := hlimits'.rationed.bound
    refine Nat.le_trans (Nat.add_le_add_left (total_mono fun u _ => ?_) _) hbound
    rw [Hand.client, hnone u, Option.or_none]
    exact Nat.le_add_right _ _
  · have hone := clients_after (m := m) hd (perform_effect hstep) hnew
    have htotal := total_update (f := fun g : Hand => g.client.toList.length) (γ := γ) ht ((γ t).after m o r)
    omega

/-! ### Runs -/

/-- A state of the pool, and what its callers hold. -/
abbrev Handed := Config Calls (World × (Nat → Hand)) Outcome

/-- A new pool, and what its callers are going to ask, with empty hands. -/
def startHanded (S : Codec) (maxConcurrent maxPoolSize : Nat) (jobs : List Job) : Handed :=
  (start S maxConcurrent maxPoolSize jobs).withLedger fun _ => {}

/-- The clients that calls hold. -/
def held (s : Handed) : List Nat := (List.range s.tasks.length).filterMap fun t => (s.world.2 t).client

/-- Each client is in one place, and no more than `maxPoolSize` are idle. -/
structure Tidy (maxPoolSize : Nat) (s : Handed) : Prop where
  apart : (s.world.1.pool.pool ++ held s).Nodup
  idle : s.world.1.pool.pool.length ≤ maxPoolSize

/-- There are no more clients than `maxConcurrent`, each in one place, and no more than `maxPoolSize` idle. -/
structure Bounded (maxConcurrent maxPoolSize : Nat) (s : Handed) : Prop where
  clients : (s.world.1.pool.pool ++ held s).length ≤ maxConcurrent
  apart : (s.world.1.pool.pool ++ held s).Nodup
  idle : s.world.1.pool.pool.length ≤ maxPoolSize

theorem start_within (S : Codec) (maxConcurrent maxPoolSize : Nat) (jobs : List Job) :
    Balanced (handling maxPoolSize)
      (fun w γ => Within maxPoolSize maxConcurrent
        (startHanded S maxConcurrent maxPoolSize jobs).tasks.length w.pool γ)
      (fun _ g _ => Done g) (startHanded S maxConcurrent maxPoolSize jobs) := by
  refine ⟨⟨⟨Rationed.new maxConcurrent _, Lending.sound_new, nofun, nofun, Nat.zero_le _⟩, ?_⟩, fun t p hp => ?_⟩
  · have hzero : total (startHanded S maxConcurrent maxPoolSize jobs).tasks.length
        (fun g : Hand => g.client.toList.length) (fun _ => {}) = 0 := total_eq_zero.mpr fun _ _ => rfl
    exact Nat.le_trans (Nat.le_of_eq (congrArg (0 + ·) hzero)) (Nat.zero_le _)
  · obtain ⟨job, -, hjob⟩ := List.mem_flatMap.mp (List.mem_of_getElem? hp)
    exact tasks_handled S job hjob

theorem start_balanced (S : Codec) (maxConcurrent maxPoolSize : Nat) (jobs : List Job) :
    Balanced (handling maxPoolSize)
      (fun w γ => Limits maxPoolSize maxConcurrent
        (startHanded S maxConcurrent maxPoolSize jobs).tasks.length w.pool γ)
      (fun _ g _ => Done g) (startHanded S maxConcurrent maxPoolSize jobs) :=
  let h := start_within S maxConcurrent maxPoolSize jobs
  ⟨h.1.1, h.2⟩

/-- Whatever the calls, the batches and the closes do, no client is in two places, and the pool has no more
than `maxPoolSize`. -/
theorem tidy_kept (S : Codec) (maxConcurrent maxPoolSize : Nat) (jobs : List Job) (ls : List (Nat × Choice)) :
    (startHanded S maxConcurrent maxPoolSize jobs).Throughout (machine.ledger (Hand.after maxPoolSize))
      (Tidy maxPoolSize) ls := by
  have hbalanced := throughout_balanced (limits_keeps maxPoolSize maxConcurrent _) (Config.along_tasks _ ls)
    (start_balanced S maxConcurrent maxPoolSize jobs)
  refine Config.throughout_mono (fun s hs => ?_) hbalanced
  exact ⟨hs.1.sound.nodup _, hs.1.places.short⟩

/-- **The pool keeps its limits while no client is made beside one that a batch item still has behind its
permit**, whatever the calls, the batches and the closes do. -/
theorem limits_kept (S : Codec) (maxConcurrent maxPoolSize : Nat) (jobs : List Job) (ls : List (Nat × Choice))
    (hprompt : (startHanded S maxConcurrent maxPoolSize jobs).Along (machine.ledger (Hand.after maxPoolSize))
      (Config.Performs Prompt) ls) :
    (startHanded S maxConcurrent maxPoolSize jobs).Throughout (machine.ledger (Hand.after maxPoolSize))
      (Bounded maxConcurrent maxPoolSize) ls := by
  have hbalanced := throughout_balanced (within_keeps maxPoolSize maxConcurrent _)
    (Config.along_performs_and (Config.along_tasks _ ls) hprompt) (start_within S maxConcurrent maxPoolSize jobs)
  refine Config.throughout_mono (fun s hs => ?_) (Config.throughout_and hbalanced
    (Config.throughout_and (tidy_kept S maxConcurrent maxPoolSize jobs ls) (Config.throughout_length _ ls)))
  obtain ⟨⟨⟨-, hwithin⟩, -⟩, htidy, hlength⟩ := hs
  refine ⟨?_, htidy.apart, htidy.idle⟩
  rw [← hlength] at hwithin
  have hheld := Lending.out_length (lending s.world.1.pool s.world.2) s.tasks.length
  rw [List.length_append]
  exact Nat.le_trans (Nat.le_of_eq (congrArg (s.world.1.pool.pool.length + ·) hheld)) hwithin

/-! ### An item that still has its client -/

open Json.Text (compact)

/-- One item of a batch, and a call, of a pool with one permit and two places. -/
def itemAndCall : Handed :=
  startHanded compact 1 2 [.batch [("echo", "say", .null)], .call "echo" "say" .null]

/-- The item's connect takes too long, and it gives back its permit. -/
def itemReleases : List (Nat × Choice) := goes 0 8 ++ [(0, .elapse [])] ++ goes 0 2

/-- The call makes its client behind the item's end. -/
def inTurn : List (Nat × Choice) := itemReleases ++ goes 0 1 ++ goes 1 6

/-- The call makes its client before. -/
def overtaken : List (Nat × Choice) := itemReleases ++ goes 1 6

/-- Neither of the two lingers when a client is made. -/
def BothPrompt (w : World × (Nat → Hand)) (_ : Nat) (o : Op) (_ : Choice) : Prop :=
  (match o with
    | .newClient => (w.2 0).lingering.isNone && (w.2 1).lingering.isNone
    | _ => true) = true

instance (w : World × (Nat → Hand)) (t : Nat) (o : Op) (choice : Choice) : Decidable (BothPrompt w t o choice) :=
  inferInstanceAs (Decidable (_ = _))

theorem limits_kept_inTurn :
    ∃ s, itemAndCall.run (machine.ledger (Hand.after 2)) inTurn = some s ∧ Bounded 1 2 s ∧
      held s = [1] := by
  have hend : (itemAndCall.run (machine.ledger (Hand.after 2)) inTurn).any fun s => held s == [1] := by
    decide +kernel
  have hboth : itemAndCall.Along (machine.ledger (Hand.after 2)) (Config.Performs BothPrompt) inTurn :=
    Config.along_of_checks (by decide +kernel)
  obtain ⟨s, hrun, hs⟩ := (Option.any_eq_true _ _).mp hend
  refine ⟨s, hrun, Config.throughout_last (limits_kept compact 1 2 _ inTurn ?_) hrun, eq_of_beq hs⟩
  refine Config.along_mono ?_ (Config.along_and hboth (Config.along_of_throughout (fun _ _ h => h)
    (throughout_spare (Hand.after 2) itemAndCall inTurn)))
  rintro m l ⟨hprompt, hspare⟩ o k hp
  unfold Prompt
  split
  · next _ =>
    intro u
    obtain ⟨hfirst, hsecond⟩ := (Bool.and_eq_true _ _).mp (hprompt _ k hp)
    match u with
    | 0 => exact Option.isNone_iff_eq_none.mp hfirst
    | 1 => exact Option.isNone_iff_eq_none.mp hsecond
    | u + 2 => exact congrArg Hand.lingering (hspare (u + 2) (Nat.le_add_left 2 u))
  · trivial

/-- **With one permit there are two clients.** -/
theorem limits_overtaken : ¬ itemAndCall.Throughout (machine.ledger (Hand.after 2)) (Bounded 1 2) overtaken := by
  intro h
  have hend : (itemAndCall.run (machine.ledger (Hand.after 2)) overtaken).any
      fun s => (s.world.1.pool.pool ++ held s).length == 2 := by
    decide +kernel
  obtain ⟨s, hrun, hs⟩ := (Option.any_eq_true _ _).mp hend
  have hclients := (Config.throughout_last h hrun).clients
  rw [eq_of_beq hs] at hclients
  exact absurd hclients (by decide)

end XProtocol.UdsClientPool
