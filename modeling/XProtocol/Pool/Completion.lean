import XProtocol.Async.Order
import XProtocol.Pool.Keys
import XProtocol.Pool.Once

/-! The pools never hang.

A call of a pool waits in three places: for a permit, for the lock of the idle list, and for
the mutex of a client. It takes them in this order, and has none of them when it returns; so
no run of the pool ends with a call that waits (`Ordered.completes`). Where there are topics,
the table of topics and the guards of the topics' clients come in between. -/
namespace XProtocol
open Async
open Json (Value Codec)
open ReliableUdsClient (Held)

namespace UdsClientPool

/-! ### The pool of clients -/

/-- What an operation waits for: a permit, the lock, a client, or nothing. -/
def rank : Op → Nat
  | .acquire => 0
  | .lockPool => 1
  | .on _ .lock => 2
  | _ => 3

theorem rank_le (o : Op) : rank o ≤ 3 := by
  unfold rank
  split <;> decide

theorem rank_on (client : Nat) (o : SharedUdsClient.Op) : 2 ≤ rank (.on client o) := by
  cases o <;> simp [rank]

def takes (g : Keys) : (o : Op) → Calls.Ret o → Keys
  | .acquire, granted => { g with permit := granted }
  | .release, _ => { g with permit := false }
  | .lockPool, _ => { g with pool := true }
  | .unlockPool, _ => { g with pool := false }
  | .on client .lock, _ => { g with client := some client }
  | .on _ .unlock, _ => { g with client := none }
  | _, _ => g

/-- Things are taken in order, and given back by those who have them. -/
def InOrder (g : Keys) : Op → Prop
  | .acquire => g = .none
  | .release => g.permit = true
  | .lockPool => g.pool = false ∧ g.client = none
  | .unlockPool => g.pool = true
  | .on _ .lock => g.client = none
  | .on client .unlock => g.client = some client
  | .on client (.inner o) => g.client = some client ∧ o ≠ .own .panic
  | _ => True

abbrev ordering : Discipline Calls Keys := owing InOrder takes

section
variable {S : Codec} {m : Nat} {g : Keys}

/-- A method of a client, for a task that is inside of none. -/
theorem onClient_ordered {α : Type} {p : Program SharedUdsClient.Calls α} (client : Nat)
    (hp : Safe SharedUdsClient.visiting p (fun inside _ => inside = false) false) (hg : g.client = none) :
    Safe ordering (p.embed (F := Calls) (Op.on client) fun _ r => r) (fun g' _ => g' = g) g := by
  have hdemand (inside : Bool) (g' : Keys) (o : SharedUdsClient.Op)
      (hholds : g' = { g with client := if inside then some client else none })
      (hd : SharedUdsClient.Behaves inside o) : InOrder g' (.on client o) := by
    subst hholds
    cases o with
    | lock => simp [InOrder, show inside = false from hd]
    | unlock => simp [InOrder, show inside = true from hd]
    | inner o => simp [InOrder, hd.1, hd.2]
  have hmove (inside : Bool) (g' : Keys) (o : SharedUdsClient.Op) (r : Calls.Ret (.on client o)) (g'' : Keys)
      (hholds : g' = { g with client := if inside then some client else none }) (_ : SharedUdsClient.Behaves inside o)
      (hm : g'' = takes g' (.on client o) r) : ∃ inside', inside' = SharedUdsClient.enters inside o r ∧
        g'' = { g with client := if inside' then some client else none } := by
    subst hholds
    refine ⟨_, rfl, ?_⟩
    cases o <;> exact hm
  refine safe_mono (safe_embed hdemand hmove hp (by simp [← hg])) ?_
  rintro g' r ⟨inside, hholds, rfl⟩
  simpa [← hg] using hholds

theorem takeIdle_ordered (hpool : g.pool = false) (hclient : g.client = none) :
    Meets ordering takeIdle (fun g' _ => g' = g) (fun _ _ => False) g := by
  unfold takeIdle
  exact meets_owing ⟨hpool, hclient⟩ fun _ => meets_owing trivial fun client => meets_owing rfl fun _ =>
    Keys.unlocked hpool

theorem newClient_ordered : Meets ordering (op .newClient) (fun g' _ => g' = g) (fun _ _ => False) g :=
  meets_lift.mpr ((safe_op ..).mpr ⟨trivial, fun _ _ hg => hg⟩)

theorem retry_ordered (retries : Nat) (hpool : g.pool = false) (hclient : g.client = none) :
    Meets ordering (retry retries) (fun g' _ => g' = g) (fun _ _ => False) g := by
  induction retries with
  | zero => exact newClient_ordered
  | succ retries ih =>
    unfold retry
    rw [meets_bind]
    refine meets_mono (takeIdle_ordered hpool hclient) ?_ fun _ _ h => h
    rintro _ client rfl
    cases client with
    | some client => rfl
    | none => exact meets_owing trivial fun _ => ih

theorem getOrCreateClient_ordered (hpool : g.pool = false) (hclient : g.client = none) :
    Meets ordering (getOrCreateClient m) (fun g' _ => g' = g) (fun _ _ => False) g := by
  unfold getOrCreateClient
  rw [meets_bind]
  refine meets_mono (takeIdle_ordered hpool hclient) ?_ fun _ _ h => h
  rintro _ client rfl
  cases client with
  | some client => rfl
  | none =>
    refine meets_owing trivial fun created => ?_
    split
    · exact newClient_ordered
    · exact meets_owing trivial fun _ => retry_ordered 3 hpool hclient

theorem itemClient_ordered (hpool : g.pool = false) (hclient : g.client = none) :
    Meets ordering (itemClient m) (fun g' _ => g' = g) (fun _ _ => False) g := by
  unfold itemClient
  rw [meets_bind]
  refine meets_mono (takeIdle_ordered hpool hclient) ?_ fun _ _ h => h
  rintro _ client rfl
  cases client with
  | some client => rfl
  | none =>
    refine meets_owing trivial fun created => ?_
    split
    · exact newClient_ordered
    · exact meets_owing trivial fun _ => newClient_ordered

theorem putBack_ordered (client : Nat) (hpool : g.pool = false) (hclient : g.client = none) :
    Meets ordering (putBack m client) (fun g' _ => g' = g) (fun _ _ => False) g := by
  unfold putBack
  refine meets_owing ⟨hpool, hclient⟩ fun _ => meets_owing trivial fun n => ?_
  split
  · exact meets_owing trivial fun _ => meets_owing rfl fun _ => Keys.unlocked hpool
  · exact meets_owing rfl fun _ => Keys.unlocked hpool

theorem discard_ordered {client : Nat} : Meets ordering (op (.discard client)) (fun g' _ => g' = g) (fun _ _ => False) g :=
  meets_lift.mpr ((safe_op ..).mpr ⟨trivial, fun _ _ hg => hg⟩)

theorem returnClient_ordered (client : Nat) (result : Result ServiceResponse) (hpool : g.pool = false)
    (hclient : g.client = none) :
    Meets ordering (returnClient m client result) (fun g' _ => g' = g) (fun _ _ => False) g := by
  unfold returnClient
  split
  · rw [meets_bind]
    refine meets_mono (putBack_ordered client hpool hclient) ?_ fun _ _ h => h
    rintro _ left rfl
    cases left with
    | none => rfl
    | some client => exact discard_ordered
  · exact discard_ordered

theorem clientCall_ordered (client : Nat) (service method : String) (payload : Value) (hclient : g.client = none) :
    Meets ordering (clientCall S client service method payload) (fun g' _ => g' = g) (fun _ _ => False) g :=
  meets_lift.mpr (onClient_ordered client
    (SharedUdsClient.locked_visiting (request_once (doCallInternal_once (S := S) service method payload))) hclient)

/-- The end of a call that has a permit, and of an item that may still have its client. -/
theorem released_ordered (left : Option Nat) (result : Result ServiceResponse) :
    Meets ordering (do
      op .release
      leave left
      ExceptT.mk (pure result)) (fun g' _ => g' = .none) (fun g' _ => g' = .none) { Keys.none with permit := true } := by
  have hend : Meets ordering (ExceptT.mk (pure result) : Code _) (fun g' _ => g' = .none) (fun g' _ => g' = .none)
      .none := (meets_mk _).mpr (by cases result <;> rfl)
  refine meets_owing rfl fun _ => ?_
  cases left with
  | none => exact hend
  | some client => exact meets_owing trivial fun _ => hend

theorem call_ordered (service method : String) (payload : Value) :
    Meets ordering (call S m service method payload) (fun g' _ => g' = .none) (fun g' _ => g' = .none) .none := by
  unfold call
  refine meets_owing rfl fun permit => ?_
  cases permit with
  | false => exact rfl
  | true =>
  show Meets _ (_ >>= _) _ _ _
  rw [meets_bind]
  refine meets_mono (getOrCreateClient_ordered rfl rfl) ?_ fun _ _ h => h.elim
  rintro _ client rfl
  rw [meets_bind]
  refine meets_mono (clientCall_ordered client service method payload rfl) ?_ fun _ _ h => h.elim
  rintro _ result rfl
  rw [meets_bind]
  refine meets_mono (returnClient_ordered client result rfl rfl) ?_ fun _ _ h => h.elim
  rintro _ _ rfl
  exact released_ordered none result

theorem callItem_ordered (service method : String) (payload : Value) :
    Meets ordering (callItem S m service method payload) (fun g' _ => g' = .none) (fun g' _ => g' = .none) .none := by
  unfold callItem
  refine meets_owing rfl fun permit => ?_
  cases permit with
  | false => exact rfl
  | true =>
  show Meets _ (_ >>= _) _ _ _
  rw [meets_bind]
  refine meets_mono (itemClient_ordered rfl rfl) ?_ fun _ _ h => h.elim
  rintro _ client rfl
  rw [meets_bind]
  refine meets_mono (clientCall_ordered client service method payload rfl) ?_ fun _ _ h => h.elim
  rintro _ result rfl
  split
  · rw [meets_bind]
    refine meets_mono (putBack_ordered client rfl rfl) ?_ fun _ _ h => h.elim
    rintro _ left rfl
    exact released_ordered left result
  · exact released_ordered _ result

theorem closeClients_ordered (clients : List Nat) (hclient : g.client = none) :
    Meets ordering (closeClients clients) (fun g' _ => g' = g) (fun _ _ => False) g := by
  induction clients with
  | nil => rfl
  | cons client rest ih =>
    unfold closeClients
    rw [meets_bind, meets_lift]
    refine safe_mono (onClient_ordered client (SharedUdsClient.locked_visiting (close_once (S := Json.Text.compact))) hclient) ?_
    rintro _ _ rfl
    exact ih

theorem close_ordered : Meets ordering close (fun g' _ => g' = .none) (fun _ _ => False) .none := by
  unfold close
  refine meets_owing ⟨rfl, rfl⟩ fun _ => meets_owing trivial fun clients => ?_
  rw [meets_bind]
  refine meets_mono (closeClients_ordered clients rfl) ?_ fun _ _ h => h
  rintro _ _ rfl
  refine meets_owing trivial fun _ => meets_owing trivial fun _ => ?_
  exact meets_lift.mpr ((safe_op ..).mpr ⟨rfl, fun _ _ hg => hg⟩)

end

/-- What the tasks have is what is missing. -/
abbrev Owned (n count : Nat) (w : World) : (Nat → Keys) → Prop :=
  Keys.Owned n count w.pool.permits w.pool.poolLock w.clients.holder

section
variable {n count t : Nat} {w w' : World} {γ : Nat → Keys}

theorem onPool_clients {o : Op} (ho : o.onPool = true) {choice : Choice} {r : Calls.Ret o}
    (h : machine.perform t o choice w = some (r, w')) : w'.clients = w.clients := by
  cases o with
  | on client o => cases ho
  | _ =>
    obtain ⟨x, -, heq⟩ := Option.map_eq_some_iff.mp h
    cases heq
    rfl

theorem owned_upheld : Upheld machine ordering (fun _ t _ _ => t < count) (Owned n count) := by
  intro w γ t o choice r w' h hd ht hstep
  refine ⟨_, rfl, ?_⟩
  have hkept : Held w.pool.poolLock (Function.update (Keys.pool ∘ γ) t (γ t).pool) := h.pool.kept
  have hsame (ho : o.onPool = true) : Occupied w'.clients.holder (Function.update (Keys.client ∘ γ) t (γ t).client) := by
    rw [onPool_clients ho hstep]
    exact h.client.kept
  cases o with
  | on client o =>
    obtain ⟨⟨r', v⟩, hv, heq⟩ := Option.map_eq_some_iff.mp hstep
    obtain ⟨rfl, rfl⟩ := Prod.mk.inj heq
    refine h.moves ht ?_ ?_ ?_
    · cases o <;> rfl
    · cases o <;> exact hkept
    · have hoccupied := occupied_perform (t := t) h.client (fun ho => by subst ho; exact hd) (fun ho => by subst ho; exact hd) hv
      cases o <;> exact hoccupied
  | acquire =>
    obtain ⟨⟨hpermits, rfl⟩, hmoved⟩ := perform_effect hstep
    refine h.moves ht ?_ (by rw [hmoved]; exact hkept) (hsame rfl)
    rw [hmoved, show γ t = .none from hd]
    show w.pool.permits - 1 + 1 = w.pool.permits + 0
    omega
  | release =>
    obtain ⟨-, hmoved⟩ := perform_effect hstep
    refine h.moves ht ?_ (by rw [hmoved]; exact hkept) (hsame rfl)
    rw [hmoved, show (γ t).permit = true from hd]
    rfl
  | lockPool =>
    obtain ⟨hfree, hmoved⟩ := perform_effect hstep
    exact h.moves ht (by rw [hmoved]; rfl) (by rw [hmoved]; exact h.pool.take hfree) (hsame rfl)
  | unlockPool =>
    obtain ⟨-, hmoved⟩ := perform_effect hstep
    exact h.moves ht (by rw [hmoved]; rfl) (by rw [hmoved]; exact h.pool.give hd) (hsame rfl)
  | _ =>
    obtain ⟨-, hmoved⟩ := perform_effect hstep
    exact h.moves ht (by rw [hmoved]; rfl) (by rw [hmoved]; exact hkept) (hsame rfl)

/-- Of what an operation waits for, another task has it. -/
theorem ordered (hn : 0 < n) : Ordered machine ordering (Owned n count) count rank Keys.Has where
  bounded := ⟨3, rank_le⟩
  due g o r hd hhas := by
    rcases hhas with ⟨rfl, h⟩ | ⟨rfl, h⟩ | ⟨rfl, h⟩
    · cases o with
      | acquire => cases hd.symm ▸ h
      | on client o => cases o <;> simp [rank]
      | _ => simp [rank]
    · cases o with
      | acquire => cases hd.symm ▸ h
      | lockPool => cases hd.1.symm.trans h
      | on client o => cases o <;> simp [rank]
      | _ => simp [rank]
    · cases o with
      | acquire => exact absurd (by rw [show g = .none from hd]; rfl) h
      | lockPool => exact absurd hd.2 h
      | on client o =>
        cases o with
        | lock => exact absurd hd h
        | _ => simp [rank]
      | _ => simp [rank]
  waits w γ t o h hd hblocked := by
    have hmoves (choice : Choice) (hstep : (machine.perform t o choice w).isSome = true) :
        ∃ u < count, Keys.Has (γ u) (rank o) := by
      rw [hblocked choice] at hstep
      cases hstep
    cases o with
    | acquire =>
      by_cases hpermits : w.pool.permits = 0
      · exact h.permitted hpermits hn
      · exact hmoves .go (by simp [machine, performPool, hpermits])
    | lockPool =>
      cases hlock : w.pool.poolLock with
      | none => exact hmoves .go (by simp [machine, performPool, hlock])
      | some u => exact h.locked hlock
    | on client o =>
      cases o with
      | lock =>
        cases hholder : w.clients.holder client with
        | none => exact hmoves .go (by simp [machine, Clients.perform, hholder])
        | some u => exact h.visited hholder
      | unlock => exact hmoves .go rfl
      | inner o =>
        obtain ⟨choice, r, v, -, hv⟩ := inner_moves w.clients t client hd.2
        exact hmoves choice (by simp [machine, hv])
    | _ => exact hmoves .go rfl

end

theorem role_ordered (S : Codec) (m : Nat) (role : Role) :
    Safe ordering (role.task S m) (fun g _ => g = .none) .none := by
  cases role with
  | call service method payload => exact safe_map (call_ordered service method payload) (fun _ _ h => h) fun _ _ h => h
  | item service method payload =>
    exact safe_map (callItem_ordered service method payload) (fun _ _ h => h) fun _ _ h => h
  | close => exact safe_map close_ordered (fun _ _ h => h) fun _ _ h => h.elim

theorem start_ordered (S : Codec) (n m : Nat) (jobs : List Job) :
    Kept ordering (Owned n (start S n m jobs).tasks.length) (fun _ g _ => g = .none) (start S n m jobs) := by
  refine ⟨fun _ => .none, Keys.owned_new n _, fun t p hp => ?_⟩
  rw [start_tasks] at hp
  obtain ⟨role, -, rfl⟩ := List.mem_map.mp (List.mem_of_getElem? hp)
  exact role_ordered S m role

/-- Who has returned has nothing. -/
theorem rest_none (_ : Nat) (g : Keys) (_ : Outcome) (r : Nat) (h : g = .none) : ¬ Keys.Has g r := by
  rw [h]
  exact Keys.not_has_none r

/-- **A pool with a permit never hangs**: whatever calls, batches and closings are asked of it, and in
whatever order they move, all of them return. -/
theorem calls_complete (S : Codec) (n m : Nat) (hn : 0 < n) (jobs : List Job) :
    (start S n m jobs).Completes machine :=
  (ordered hn).completes owned_upheld (Config.along_tasks _) rfl (start_ordered S n m jobs) rest_none

theorem calls_complete_one :
    (start Json.Text.compact 1 1 [.call "echo" "ping" .null, .batch [("echo", "ping", .null)], .close]).Completes
      machine :=
  calls_complete Json.Text.compact 1 1 (by decide) _

end UdsClientPool

/-! ### The pool with topics -/

namespace TopicBasedPool

/-- What a task has: of the default pool and of a client, of the table of topics, and of the mutexes
around the topics' clients. -/
structure Latches where
  keys : Keys := .none
  table : RwLock.Hold := .nothing
  guard : Option Nat := none

def Latches.none : Latches := {}

/-- The table and the guards come between the lock of the default pool and a client. -/
def between (r : Nat) : Nat := if r ≤ 1 then r else r + 3

theorem between_lt {r r' : Nat} (h : r < r') : between r < between r' := by
  unfold between
  split <;> split <;> omega

theorem between_le {r : Nat} (h : r ≤ 3) : between r ≤ 6 := by
  unfold between
  split <;> omega

theorem between_le_five {r : Nat} (h : r ≤ 2) : between r ≤ 5 := by
  unfold between
  split <;> omega

theorem between_ge {r : Nat} (h : 2 ≤ r) : 5 ≤ between r := by
  unfold between
  split <;> omega

def rank : Op → Nat
  | .default o => between (UdsClientPool.rank o)
  | .on client o => between (UdsClientPool.rank (.on client o))
  | .table use => 2 + RwLock.rank use
  | .lock _ => 4
  | _ => 6

def Has (g : Latches) (r : Nat) : Prop :=
  (∃ r', Keys.Has g.keys r' ∧ r = between r') ∨ (∃ r', g.table.Bars r' ∧ r = 2 + r') ∨
    (r = 4 ∧ g.guard ≠ Option.none)

theorem not_has_none (r : Nat) : ¬ Has .none r := by
  rintro (⟨r', h, -⟩ | ⟨r', h, -⟩ | ⟨-, h⟩)
  · exact Keys.not_has_none r' h
  · exact RwLock.Hold.not_bars r' h
  · exact h rfl

def takes (g : Latches) : (o : Op) → Calls.Ret o → Latches
  | .default o, r => { g with keys := UdsClientPool.takes g.keys o r }
  | .on client o, r => { g with keys := UdsClientPool.takes g.keys (.on client o) r }
  | .table use, _ => { g with table := .after use }
  | .lock client, _ => { g with guard := some client }
  | .unlock _, _ => { g with guard := Option.none }
  | _, _ => g

def InOrder (g : Latches) : Op → Prop
  | .default o => UdsClientPool.InOrder g.keys o ∧ g = { keys := g.keys }
  | .on client o => UdsClientPool.InOrder g.keys (.on client o)
  | .table use => g = { table := .before use }
  | .lock _ => g.keys = .none ∧ g.guard = Option.none
  | .unlock client => g.guard = some client
  | _ => True

abbrev ordering : Discipline Calls Latches := owing InOrder takes

section
variable {S : Codec} {m : Nat} {g : Latches}

theorem onDefault_ordered {α : Type} {p : UdsClientPool.Code α}
    (hp : Meets UdsClientPool.ordering p (fun g _ => g = .none) (fun g _ => g = .none) .none) :
    Meets ordering (onDefault p) (fun g _ => g = .none) (fun g _ => g = .none) .none := by
  have hdemand (k : Keys) (g : Latches) (o : UdsClientPool.Op) (hg : g = { keys := k })
      (hd : UdsClientPool.InOrder k o) : InOrder g (.default o) := by
    subst hg
    exact ⟨hd, rfl⟩
  have hmove (k : Keys) (g : Latches) (o : UdsClientPool.Op) (r : Calls.Ret (.default o)) (g' : Latches)
      (hg : g = { keys := k }) (_ : UdsClientPool.InOrder k o) (hm : g' = takes g (.default o) r) :
      ∃ k', k' = UdsClientPool.takes k o r ∧ g' = { keys := k' } := by
    subst hg
    exact ⟨_, rfl, hm⟩
  refine safe_mono (safe_embed hdemand hmove hp rfl) ?_
  rintro g r ⟨k, rfl, hk⟩
  have hnone : k = .none := by cases r <;> exact hk
  subst hnone
  cases r <;> exact rfl

theorem onClient_ordered {α : Type} {p : Program SharedUdsClient.Calls (Result α)} (client : Nat)
    (hp : Safe SharedUdsClient.visiting p (fun inside _ => inside = false) false) (hg : g.keys = .none) :
    Meets ordering (onClient client p) (fun g' _ => g' = g) (fun _ _ => False) g := by
  have hdemand (inside : Bool) (g' : Latches) (o : SharedUdsClient.Op)
      (hholds : g' = { g with keys := { Keys.none with client := if inside then some client else Option.none } })
      (hd : SharedUdsClient.Behaves inside o) : InOrder g' (.on client o) := by
    subst hholds
    cases o with
    | lock => simp [InOrder, UdsClientPool.InOrder, show inside = false from hd]
    | unlock => simp [InOrder, UdsClientPool.InOrder, show inside = true from hd]
    | inner o => simp [InOrder, UdsClientPool.InOrder, hd.1, hd.2]
  have hmove (inside : Bool) (g' : Latches) (o : SharedUdsClient.Op) (r : Calls.Ret (.on client o)) (g'' : Latches)
      (hholds : g' = { g with keys := { Keys.none with client := if inside then some client else Option.none } })
      (_ : SharedUdsClient.Behaves inside o) (hm : g'' = takes g' (.on client o) r) :
      ∃ inside', inside' = SharedUdsClient.enters inside o r ∧
        g'' = { g with keys := { Keys.none with client := if inside' then some client else Option.none } } := by
    subst hholds
    refine ⟨_, rfl, ?_⟩
    cases o <;> exact hm
  have hself : g = { g with keys := { Keys.none with client := if false then some client else Option.none } } := by
    obtain ⟨keys, table, guard⟩ := g
    obtain rfl : keys = .none := hg
    rfl
  refine meets_lift.mpr (safe_mono (safe_embed hdemand hmove hp hself) ?_)
  rintro g' r ⟨inside, hholds, rfl⟩
  exact hholds.trans hself.symm

theorem callSerial_ordered (service method : String) (payload : Value) (topic : String) :
    Meets ordering (callSerial S service method payload topic) (fun g _ => g = .none) (fun g _ => g = .none) .none := by
  unfold callSerial
  refine meets_owing rfl fun _ => meets_owing rfl fun _ => meets_owing trivial fun client => meets_owing rfl fun _ =>
    meets_owing ⟨rfl, rfl⟩ fun _ => ?_
  rw [meets_bind]
  refine meets_mono (onClient_ordered client
    (SharedUdsClient.locked_visiting (request_once (doCallInternal_once (S := S) service method payload))) rfl) ?_
    fun _ _ h => h.elim
  rintro _ result rfl
  refine meets_owing rfl fun _ => ?_
  cases result <;> exact rfl

theorem callWithTopic_ordered (service method : String) (payload : Value) (topic : Option String) :
    Meets ordering (callWithTopic S m service method payload topic) (fun g _ => g = .none) (fun g _ => g = .none)
      .none := by
  have hdefault := onDefault_ordered (UdsClientPool.call_ordered (S := S) (m := m) service method payload)
  unfold callWithTopic
  cases topic with
  | none => exact hdefault
  | some topic =>
    by_cases hempty : topic.isEmpty
    · simp only [hempty, if_true]
      exact hdefault
    · simp only [hempty]
      exact callSerial_ordered service method payload topic

theorem closeClients_ordered (clients : List Nat) :
    Meets ordering (closeClients clients) (fun g _ => g = { table := .reading }) (fun _ _ => False)
      { table := .reading } := by
  induction clients with
  | nil => rfl
  | cons client rest ih =>
    unfold closeClients
    refine meets_owing ⟨rfl, rfl⟩ fun _ => ?_
    rw [meets_bind]
    refine meets_mono (onClient_ordered client
      (SharedUdsClient.locked_visiting (XProtocol.close_once (S := Json.Text.compact))) rfl) ?_ fun _ _ h => h
    rintro _ _ rfl
    exact meets_owing rfl fun _ => ih

theorem close_ordered : Meets ordering close (fun g _ => g = .none) (fun g _ => g = .none) .none := by
  unfold close
  rw [meets_bind]
  refine meets_mono (onDefault_ordered (meets_mono UdsClientPool.close_ordered (fun _ _ h => h) fun _ _ h => h.elim)) ?_
    fun _ _ h => h
  rintro _ _ rfl
  refine meets_owing rfl fun _ => meets_owing trivial fun clients => ?_
  rw [meets_bind]
  refine meets_mono (closeClients_ordered clients) ?_ fun _ _ h => h.elim
  rintro _ _ rfl
  exact meets_lift.mpr ((safe_op ..).mpr ⟨rfl, fun _ _ hg => hg⟩)

theorem role_ordered (S : Codec) (m : Nat) (role : Role) :
    Safe ordering (role.task S m) (fun g _ => g = .none) .none := by
  cases role with
  | request service method payload topic =>
    exact safe_map (callWithTopic_ordered service method payload topic) (fun _ _ h => h) fun _ _ h => h
  | close => exact safe_map close_ordered (fun _ _ h => h) fun _ _ h => h

end

/-- What the tasks have is what is missing. -/
structure Owned (n count : Nat) (w : World) (γ : Nat → Latches) : Prop where
  pool : UdsClientPool.Owned n count ⟨w.pool.defaultPool, w.clients⟩ (Latches.keys ∘ γ)
  table : RwLock.Guards w.pool.lock (Latches.table ∘ γ)
  guards : Occupied w.pool.guards (Latches.guard ∘ γ)
  beyond : ∀ t, count ≤ t → γ t = .none

section
variable {n count t : Nat} {w w' : World} {γ : Nat → Latches}

theorem owned_new (n count : Nat) : Owned n count ⟨.new n, .new⟩ fun _ => .none where
  pool := Keys.owned_new n count
  table := RwLock.Guards.free
  guards := Occupied.idle
  beyond _ _ := rfl

/-- What a task takes and gives back, part by part. -/
theorem Owned.moves (h : Owned n count w γ) (ht : t < count) {g : Latches}
    (hpool : UdsClientPool.Owned n count ⟨w'.pool.defaultPool, w'.clients⟩
      (Function.update (Latches.keys ∘ γ) t g.keys))
    (htable : RwLock.Guards w'.pool.lock (Function.update (Latches.table ∘ γ) t g.table))
    (hguards : Occupied w'.pool.guards (Function.update (Latches.guard ∘ γ) t g.guard)) :
    Owned n count w' (Function.update γ t g) where
  pool := by rwa [Function.comp_update]
  table := by rwa [Function.comp_update]
  guards := by rwa [Function.comp_update]
  beyond u hu := by
    rw [Function.update_of_ne (by omega)]
    exact h.beyond u hu

theorem owned_upheld : Upheld machine ordering (fun _ t _ _ => t < count) (Owned n count) := by
  intro w γ t o choice r w' h hd ht hstep
  refine ⟨_, rfl, ?_⟩
  have hkeys : UdsClientPool.Owned n count ⟨w.pool.defaultPool, w.clients⟩
      (Function.update (Latches.keys ∘ γ) t (γ t).keys) := by
    rw [show (γ t).keys = (Latches.keys ∘ γ) t from rfl, Function.update_eq_self]
    exact h.pool
  have htable : RwLock.Guards w.pool.lock (Function.update (Latches.table ∘ γ) t (γ t).table) := h.table.kept
  have hguards : Occupied w.pool.guards (Function.update (Latches.guard ∘ γ) t (γ t).guard) := h.guards.kept
  cases o with
  | default o =>
    obtain ⟨⟨r', v⟩, hv, heq⟩ := Option.map_eq_some_iff.mp hstep
    obtain ⟨rfl, rfl⟩ := Prod.mk.inj heq
    obtain ⟨k, rfl, hpool⟩ := UdsClientPool.owned_upheld _ _ t o choice r' v h.pool hd.1 ht hv
    exact h.moves ht hpool htable hguards
  | on client o =>
    have hpool : UdsClientPool.machine.perform t (.on client o) choice ⟨w.pool.defaultPool, w.clients⟩ =
        some (r, ⟨w'.pool.defaultPool, w'.clients⟩) := by
      obtain ⟨⟨r', v⟩, hv, heq⟩ := Option.map_eq_some_iff.mp hstep
      obtain ⟨rfl, rfl⟩ := Prod.mk.inj heq
      simp [UdsClientPool.machine, hv]
    obtain ⟨k, rfl, hpool⟩ := UdsClientPool.owned_upheld _ _ t (.on client o) choice r _ h.pool hd ht hpool
    obtain ⟨⟨r', v⟩, -, heq⟩ := Option.map_eq_some_iff.mp hstep
    obtain ⟨rfl, rfl⟩ := Prod.mk.inj heq
    exact h.moves ht hpool htable hguards
  | table use =>
    obtain ⟨⟨answer, pool⟩, hpool, heq⟩ := Option.map_eq_some_iff.mp hstep
    cases heq
    cases choice with
    | go =>
      obtain ⟨lock, huse, heq⟩ := Option.map_eq_some_iff.mp hpool
      cases heq
      have hdue : (γ t).table = .before use := congrArg Latches.table hd
      exact h.moves ht hkeys (h.table.uses hdue huse) hguards
    | _ => cases hpool
  | entry topic =>
    cases choice <;> simp [machine, performTopics] at hstep
    cases hlookup : w.pool.topicClients.lookup topic with
    | some client =>
      simp only [hlookup] at hstep
      obtain ⟨x, hx, rfl⟩ := hstep
      cases hx
      exact h.moves ht hkeys htable hguards
    | none =>
      simp only [hlookup] at hstep
      obtain ⟨x, hx, rfl⟩ := hstep
      cases hx
      exact h.moves ht ⟨hkeys.permits, hkeys.pool, hkeys.client, hkeys.beyond⟩ htable hguards
  | iter =>
    have hpool : w'.pool = w.pool ∧ w'.clients = w.clients := by
      rcases choice with _ | _ | _ | (_ | k) | _ | _ | _ | _ <;>
        simp only [machine, performTopics, Option.map_none, Option.map_map, Option.map_eq_some_iff, reduceCtorEq] at hstep
      obtain ⟨clients, -, heq⟩ := hstep
      cases heq
      exact ⟨rfl, rfl⟩
    obtain ⟨pool, clients⟩ := w'
    obtain ⟨rfl, rfl⟩ := hpool
    exact h.moves ht hkeys htable hguards
  | lock client =>
    cases choice <;> simp [machine, performTopics] at hstep
    obtain ⟨hfree, rfl⟩ := hstep
    exact h.moves ht hkeys htable (h.guards.enters hfree hd.2)
  | unlock client =>
    cases choice <;> simp [machine, performTopics] at hstep
    subst hstep
    exact h.moves ht hkeys htable (h.guards.leaves hd)

/-- Of what an operation waits for, another task has it. -/
theorem ordered (hn : 0 < n) : Ordered machine ordering (Owned n count) count rank Has where
  bounded := ⟨6, fun o => by
    cases o with
    | default o | on client o => exact between_le (UdsClientPool.rank_le _)
    | table use =>
      have hle := RwLock.rank_le use
      simp only [rank]
      omega
    | _ => simp [rank]⟩
  due g o r hd hhas := by
    have hpool : Ordered _ _ (UdsClientPool.Owned n count) count _ _ := UdsClientPool.ordered hn
    cases o with
    | default o =>
      rcases hhas with ⟨r', hhas, rfl⟩ | ⟨r', hhas, -⟩ | ⟨-, hhas⟩
      · exact between_lt (hpool.due g.keys o r' hd.1 hhas)
      · rw [hd.2] at hhas
        exact absurd hhas (RwLock.Hold.not_bars r')
      · rw [hd.2] at hhas
        exact absurd rfl hhas
    | on client o =>
      have hlast : 5 ≤ rank (.on client o) := between_ge (UdsClientPool.rank_on client o)
      rcases hhas with ⟨r', hhas, rfl⟩ | ⟨r', hhas, rfl⟩ | ⟨rfl, hhas⟩
      · exact between_lt (hpool.due g.keys (.on client o) r' hd hhas)
      · have hle := hhas.le
        omega
      · omega
    | table use =>
      obtain rfl : g = { table := .before use } := hd
      rcases hhas with ⟨r', hhas, -⟩ | ⟨r', hhas, rfl⟩ | ⟨-, hhas⟩
      · exact absurd hhas (Keys.not_has_none r')
      · exact Nat.add_lt_add_left hhas.lt_rank 2
      · exact absurd rfl hhas
    | lock client =>
      obtain ⟨hkeys, hguard⟩ := hd
      rcases hhas with ⟨r', hhas, rfl⟩ | ⟨r', hhas, rfl⟩ | ⟨rfl, hhas⟩
      · rw [hkeys] at hhas
        exact absurd hhas (Keys.not_has_none r')
      · exact Nat.lt_succ_of_le (Nat.add_le_add_left hhas.le 2)
      · exact absurd hguard hhas
    | _ =>
      rcases hhas with ⟨r', hhas, rfl⟩ | ⟨r', hhas, rfl⟩ | ⟨rfl, hhas⟩
      · exact Nat.lt_succ_of_le (between_le_five hhas.le)
      · have hle := hhas.le
        simp only [rank]
        omega
      · simp [rank]
  waits w γ t o h hd hblocked := by
    have hordered : Ordered _ _ (UdsClientPool.Owned n count) count _ _ := UdsClientPool.ordered hn
    have hpool := hordered.waits ⟨w.pool.defaultPool, w.clients⟩ (Latches.keys ∘ γ) t
    have hmoves (choice : Choice) (hstep : (machine.perform t o choice w).isSome = true) :
        ∃ u < count, Has (γ u) (rank o) := by
      rw [hblocked choice] at hstep
      cases hstep
    have hbelow {u : Nat} (hu : γ u ≠ .none) : u < count := by
      by_contra hge
      exact hu (h.beyond u (Nat.le_of_not_lt hge))
    cases o with
    | default o =>
      obtain ⟨u, hu, hhas⟩ := hpool o h.pool hd.1 fun choice => by
        have hnone := hblocked choice
        simpa [machine] using hnone
      exact ⟨u, hu, .inl ⟨_, hhas, rfl⟩⟩
    | on client o =>
      obtain ⟨u, hu, hhas⟩ := hpool (.on client o) h.pool hd fun choice => by
        have hnone := hblocked choice
        simpa [machine, UdsClientPool.machine] using hnone
      exact ⟨u, hu, .inl ⟨_, hhas, rfl⟩⟩
    | table use =>
      have huse : w.pool.lock.use t use = none := by
        have hnone := hblocked .go
        simpa [machine, performTopics] using hnone
      obtain ⟨u, hu⟩ := h.table.waits huse
      refine ⟨u, hbelow fun hnone => ?_, .inr (.inl ⟨_, hu, rfl⟩)⟩
      rw [Function.comp_apply, hnone] at hu
      exact RwLock.Hold.not_bars _ hu
    | lock client =>
      cases hg : w.pool.guards client with
      | none => exact hmoves .go (by simp [machine, performTopics, hg])
      | some u =>
        have hu : (γ u).guard = some client := h.guards.holder_iff.mp hg
        refine ⟨u, hbelow fun hnone => ?_, .inr (.inr ⟨rfl, by simp [hu]⟩)⟩
        cases hnone ▸ hu
    | entry topic =>
      refine hmoves .go ?_
      cases hlookup : w.pool.topicClients.lookup topic <;> simp [machine, performTopics, hlookup]
    | iter =>
      refine hmoves (.pick (some 0)) ?_
      have hpos : 0 < (w.pool.topicClients.map Prod.snd).permutations.length := by
        rw [List.length_permutations]
        exact Nat.factorial_pos _
      simp [machine, performTopics, List.getElem?_eq_getElem hpos]
    | _ => exact hmoves .go rfl

end

theorem start_ordered (S : Codec) (n : Nat) (jobs : List Job) :
    Kept ordering (Owned n (start S n jobs).tasks.length) (fun _ g _ => g = .none) (start S n jobs) := by
  refine ⟨fun _ => .none, owned_new n _, fun t p hp => ?_⟩
  rw [start_tasks] at hp
  obtain ⟨role, -, rfl⟩ := List.mem_map.mp (List.mem_of_getElem? hp)
  exact role_ordered S n role

theorem rest_none (_ : Nat) (g : Latches) (_ : Outcome) (r : Nat) (h : g = .none) : ¬ Has g r := by
  rw [h]
  exact not_has_none r

/-- **The pool with topics never hangs**, either. -/
theorem topics_complete (S : Codec) (n : Nat) (hn : 0 < n) (jobs : List Job) :
    (start S n jobs).Completes machine :=
  (ordered hn).completes owned_upheld (Config.along_tasks _) rfl (start_ordered S n jobs) rest_none

theorem topics_complete_one :
    (start Json.Text.compact 1 [.call "echo" "ping" .null (some "news"), .call "echo" "ping" .null none, .close]).Completes
      machine :=
  topics_complete Json.Text.compact 1 (by decide) _

end TopicBasedPool

end XProtocol
