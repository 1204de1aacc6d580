import XProtocol.Async.Order
import XProtocol.Pool.Hands
import XProtocol.Pool.Keys
import XProtocol.Pool.Once

/-! The production pool never hangs.

Its calls take a permit, the lock of the idle list and a client in the same order as those of
the plain pool. So they end where no timer fires (`ordered`), and all the more where one does:
it takes the call away. -/
namespace XProtocol
open Async
open Json (Value Codec)
open ReliableUdsClient (Held)

namespace ProductionPool

def rank : Op → Nat
  | .acquire => 0
  | .lockPool => 1
  | .timed _ .lock | .plain _ .lock => 2
  | _ => 3

theorem rank_le (o : Op) : rank o ≤ 3 := by
  unfold rank
  split <;> decide

def takes (g : Keys) : (o : Op) → Calls.Ret o → Keys
  | .acquire, granted => { g with permit := granted }
  | .release, _ => { g with permit := false }
  | .lockPool, _ => { g with pool := true }
  | .unlockPool, _ => { g with pool := false }
  | .timed _ _, none => { g with client := none }
  | .timed client .lock, some _ | .plain client .lock, _ => { g with client := some client }
  | .timed _ .unlock, some _ | .plain _ .unlock, _ => { g with client := none }
  | _, _ => g

def InOrder (g : Keys) : Op → Prop
  | .acquire => g = .none
  | .release => g.permit = true
  | .lockPool => g.pool = false ∧ g.client = none
  | .unlockPool => g.pool = true
  | .timed client o | .plain client o => SharedUdsClient.Behaves g.client.isSome o ∧
    (o ≠ .lock → g.client = some client)
  | _ => True

abbrev ordering : Discipline Calls Keys := owing InOrder takes

section
variable {S : Codec} {g : Keys}

/-- What a task has that has nothing of a client, while it is inside. -/
def Keys.inside (g : Keys) (client : Nat) (inside : Bool) : Keys :=
  { g with client := if inside then some client else none }

theorem inside_false (client : Nat) (hg : g.client = none) : Keys.inside g client false = g := by
  rw [Keys.inside, ← hg]
  rfl

theorem inOrder_inside {client : Nat} {inside : Bool} {o : SharedUdsClient.Op} (h : SharedUdsClient.Behaves inside o) :
    SharedUdsClient.Behaves (Keys.inside g client inside).client.isSome o ∧
      (o ≠ .lock → (Keys.inside g client inside).client = some client) := by
  cases o with
  | lock =>
    obtain rfl : inside = false := h
    exact ⟨rfl, fun hne => absurd rfl hne⟩
  | unlock =>
    obtain rfl : inside = true := h
    exact ⟨rfl, fun _ => rfl⟩
  | inner o =>
    obtain ⟨rfl, ho⟩ := h
    exact ⟨⟨rfl, ho⟩, fun _ => rfl⟩

theorem timed_ordered {α : Type} {p : Program SharedUdsClient.Calls α} (client : Nat)
    (hp : Safe SharedUdsClient.visiting p (fun inside _ => inside = false) false) (hg : g.client = none) :
    Safe ordering (p.droppable (F := Calls) (Op.timed client) fun _ r => r) (fun g' _ => g' = g) g := by
  have hdemand (inside : Bool) (g' : Keys) (o : SharedUdsClient.Op) (hg' : g' = Keys.inside g client inside)
      (hd : SharedUdsClient.Behaves inside o) : InOrder g' (.timed client o) := hg' ▸ inOrder_inside hd
  have hmove (inside : Bool) (g' : Keys) (o : SharedUdsClient.Op) (r : Calls.Ret (.timed client o)) (g'' : Keys)
      (b : SharedUdsClient.Calls.Ret o) (hg' : g' = Keys.inside g client inside) (_ : SharedUdsClient.Behaves inside o)
      (hm : g'' = takes g' (.timed client o) r) (hb : r = some b) :
      ∃ inside', inside' = SharedUdsClient.enters inside o b ∧ g'' = Keys.inside g client inside' := by
    subst hg' hb
    refine ⟨_, rfl, ?_⟩
    cases o <;> exact hm
  have hdrop (inside : Bool) (g' : Keys) (o : SharedUdsClient.Op) (r : Calls.Ret (.timed client o)) (g'' : Keys)
      (hg' : g' = Keys.inside g client inside) (_ : SharedUdsClient.Behaves inside o)
      (hm : g'' = takes g' (.timed client o) r) (hr : r = none) : g'' = g := by
    subst hg' hr
    rw [← inside_false client hg]
    cases o <;> exact hm
  refine safe_mono (safe_embed_droppable hdemand hmove hdrop hp (inside_false client hg).symm) ?_
  rintro g' (_ | a) ⟨hreturned, hdropped⟩
  · exact hdropped rfl
  · obtain ⟨inside, hholds, rfl⟩ := hreturned a rfl
    exact hholds.trans (inside_false client hg)

theorem plain_ordered {α : Type} {p : Program SharedUdsClient.Calls α} (client : Nat)
    (hp : Safe SharedUdsClient.visiting p (fun inside _ => inside = false) false) (hg : g.client = none) :
    Safe ordering (p.embed (F := Calls) (Op.plain client) fun _ r => r) (fun g' _ => g' = g) g := by
  have hdemand (inside : Bool) (g' : Keys) (o : SharedUdsClient.Op) (hg' : g' = Keys.inside g client inside)
      (hd : SharedUdsClient.Behaves inside o) : InOrder g' (.plain client o) := hg' ▸ inOrder_inside hd
  have hmove (inside : Bool) (g' : Keys) (o : SharedUdsClient.Op) (r : Calls.Ret (.plain client o)) (g'' : Keys)
      (hg' : g' = Keys.inside g client inside) (_ : SharedUdsClient.Behaves inside o)
      (hm : g'' = takes g' (.plain client o) r) :
      ∃ inside', inside' = SharedUdsClient.enters inside o r ∧ g'' = Keys.inside g client inside' := by
    subst hg'
    refine ⟨_, rfl, ?_⟩
    cases o <;> exact hm
  refine safe_mono (safe_embed hdemand hmove hp (inside_false client hg).symm) ?_
  rintro g' a ⟨inside, hholds, rfl⟩
  exact hholds.trans (inside_false client hg)

theorem settle_ordered (result : Option (Result ServiceResponse)) :
    Meets ordering (settle result) (fun g' _ => g' = g) (fun g' _ => g' = g) g := by
  rcases result with _ | (e | response)
  · exact meets_owing trivial fun _ => meets_owing trivial fun _ => meets_owing trivial fun _ => rfl
  · exact meets_owing trivial fun _ => meets_owing trivial fun _ => rfl
  · exact meets_owing trivial fun _ => meets_owing trivial fun _ => rfl

theorem callWithTimeout_ordered (service method : String) (payload : Value) :
    Meets ordering (callWithTimeout S service method payload) (fun g _ => g = .none) (fun g _ => g = .none) .none := by
  unfold callWithTimeout
  refine meets_owing trivial fun down => ?_
  cases down with
  | true => exact rfl
  | false =>
  refine meets_owing trivial fun admitted => ?_
  cases admitted with
  | error e => exact rfl
  | ok _ =>
  refine meets_owing trivial fun _ => meets_owing trivial fun _ => meets_owing rfl fun permit => ?_
  cases permit with
  | false => exact meets_owing trivial fun _ => rfl
  | true =>
  -- whichever client it is, from its coming out of the lock on
  have hclient (client : Nat) : Meets ordering (do
      op .unlockPool
      let result ← monadLift (timedCall S client service method payload)
      op .lockPool
      op (.push client)
      op .unlockPool
      op .release
      op (.sub .activeRequests)
      settle result) (fun g _ => g = .none) (fun g _ => g = .none) { Keys.none with permit := true, pool := true } := by
    refine meets_owing rfl fun _ => ?_
    rw [meets_bind, meets_lift]
    refine safe_mono (timed_ordered (g := { Keys.none with permit := true }) client
      (SharedUdsClient.locked_visiting (request_once (doCallInternal_once (S := S) service method payload))) rfl) ?_
    rintro _ result rfl
    exact meets_owing ⟨rfl, rfl⟩ fun _ => meets_owing trivial fun _ => meets_owing rfl fun _ =>
      meets_owing rfl fun _ => meets_owing trivial fun _ => settle_ordered result
  refine meets_owing ⟨rfl, rfl⟩ fun _ => meets_owing trivial fun idle => ?_
  cases idle with
  | some client => exact hclient client
  | none => exact meets_owing trivial hclient

theorem closeClients_ordered (clients : List Nat) (hg : g.client = none) :
    Meets ordering (closeClients clients) (fun g' _ => g' = g) (fun _ _ => False) g := by
  induction clients with
  | nil => rfl
  | cons client rest ih =>
    unfold closeClients
    rw [meets_bind, meets_lift]
    refine safe_mono (plain_ordered client
      (SharedUdsClient.locked_visiting (XProtocol.close_once (S := Json.Text.compact))) hg) ?_
    rintro _ _ rfl
    exact ih

theorem close_ordered : Meets ordering close (fun g _ => g = .none) (fun _ _ => False) .none := by
  unfold close
  refine meets_owing trivial fun _ => meets_owing trivial fun _ => meets_owing ⟨rfl, rfl⟩ fun _ =>
    meets_owing trivial fun clients => ?_
  rw [meets_bind]
  refine meets_mono (closeClients_ordered clients rfl) ?_ fun _ _ h => h
  rintro _ _ rfl
  refine meets_owing trivial fun _ => ?_
  exact meets_lift.mpr ((safe_op ..).mpr ⟨rfl, fun _ _ hg => hg⟩)

end

/-- What the tasks have is what is missing. -/
abbrev Owned (n count : Nat) (w : ProductionPool) : (Nat → Keys) → Prop :=
  Keys.Owned n count w.pool.permits w.pool.poolLock w.clients.holder

section
variable {n count t : Nat} {w w' : ProductionPool} {γ : Nat → Keys}

/-- Who takes a client's mutex has none, and who gives one back has that one. -/
theorem inOrder_keys {g : Keys} {client : Nat} {o : SharedUdsClient.Op} (hd : InOrder g (.plain client o)) :
    (o = .lock → g.client = none) ∧ (o = .unlock → g.client = some client) := by
  refine ⟨?_, fun ho => hd.2 (by simp [ho])⟩
  rintro rfl
  exact Option.not_isSome_iff_eq_none.mp (Bool.eq_false_iff.mp hd.1)

/-- Where the timer fires, the call has left the client; else it has gone on there. -/
theorem timed_occupied {client : Nat} {o : SharedUdsClient.Op} {choice : Choice} {r : Calls.Ret (.timed client o)}
    (h : Occupied w.clients.holder (Keys.client ∘ γ)) (hd : InOrder (γ t) (.timed client o))
    (hstep : machine.perform t (.timed client o) choice w = some (r, w')) :
    Occupied w'.clients.holder (Function.update (Keys.client ∘ γ) t (takes (γ t) (.timed client o) r).client) := by
  have hplain : InOrder (γ t) (.plain client o) := hd
  obtain ⟨hlock, hunlock⟩ := inOrder_keys hplain
  cases choice with
  | drop out got =>
    obtain ⟨-, heq⟩ := Option.ite_none_right_eq_some.mp hstep
    have hin : (γ t).client = none ∨ (γ t).client = some client := by
      by_cases ho : o = .lock
      · exact .inl (hlock ho)
      · exact .inr (hd.2 ho)
    cases heq
    cases o <;> exact occupied_abandon h hin
  | _ =>
    obtain ⟨⟨r', v⟩, hv, heq⟩ := Option.map_eq_some_iff.mp hstep
    obtain ⟨rfl, rfl⟩ := Prod.mk.inj heq
    have hoccupied := occupied_perform (t := t) h hlock hunlock hv
    cases o <;> exact hoccupied

theorem plain_occupied {client : Nat} {o : SharedUdsClient.Op} {choice : Choice} {r : Calls.Ret (.plain client o)}
    (h : Occupied w.clients.holder (Keys.client ∘ γ)) (hd : InOrder (γ t) (.plain client o))
    (hstep : machine.perform t (.plain client o) choice w = some (r, w')) :
    Occupied w'.clients.holder (Function.update (Keys.client ∘ γ) t (takes (γ t) (.plain client o) r).client) := by
  obtain ⟨hlock, hunlock⟩ := inOrder_keys hd
  obtain ⟨⟨r', v⟩, hv, heq⟩ := Option.map_eq_some_iff.mp hstep
  obtain ⟨rfl, rfl⟩ := Prod.mk.inj heq
  have hoccupied := occupied_perform (t := t) h hlock hunlock hv
  cases o <;> exact hoccupied

/-- An operation on the pool leaves the clients alone. -/
theorem onPool_clients {o : Op} (ho : o.onPool = true) {choice : Choice} {r : Calls.Ret o}
    (h : machine.perform t o choice w = some (r, w')) : w'.clients = w.clients := by
  cases o with
  | timed client o => cases ho
  | plain client o => cases ho
  | _ =>
    obtain ⟨x, -, heq⟩ := Option.map_eq_some_iff.mp h
    cases heq
    rfl

theorem owned_upheld : Upheld machine ordering (fun _ t _ _ => t < count) (Owned n count) := by
  intro w γ t o choice r w' h hd ht hstep
  refine ⟨_, rfl, ?_⟩
  have hkept : Held w.pool.poolLock (Function.update (Keys.pool ∘ γ) t (γ t).pool) := h.pool.kept
  obtain ⟨hallowed, breaker, metrics, hmoved⟩ := perform_effect hstep
  have hsame (hclients : w'.clients = w.clients) :
      Occupied w'.clients.holder (Function.update (Keys.client ∘ γ) t (γ t).client) := by
    rw [hclients]
    exact h.client.kept
  cases o with
  | timed client o =>
    refine h.moves ht ?_ ?_ (timed_occupied h.client hd hstep)
    · rw [hmoved]
      cases r <;> cases o <;> rfl
    · rw [hmoved]
      cases r <;> cases o <;> exact hkept
  | plain client o =>
    refine h.moves ht ?_ ?_ (plain_occupied h.client hd hstep)
    · rw [hmoved]
      cases o <;> rfl
    · rw [hmoved]
      cases o <;> exact hkept
  | acquire =>
    have hnone : γ t = .none := hd
    refine h.moves ht ?_ ?_ (hsame (onPool_clients rfl hstep))
    · rw [hmoved, hnone]
      cases r with
      | false => rfl
      | true => exact Nat.sub_add_cancel (Nat.pos_of_ne_zero hallowed.2)
    · rw [hmoved]
      cases r <;> exact hkept
  | release =>
    refine h.moves ht ?_ (by rw [hmoved]; exact hkept) (hsame (onPool_clients rfl hstep))
    rw [hmoved, show (γ t).permit = true from hd]
    rfl
  | lockPool =>
    exact h.moves ht (by rw [hmoved]; rfl) (by rw [hmoved]; exact h.pool.take hallowed)
      (hsame (onPool_clients rfl hstep))
  | unlockPool =>
    exact h.moves ht (by rw [hmoved]; rfl) (by rw [hmoved]; exact h.pool.give hd)
      (hsame (onPool_clients rfl hstep))
  | _ =>
    exact h.moves ht (by rw [hmoved]; rfl) (by rw [hmoved]; exact hkept)
      (hsame (onPool_clients rfl hstep))

/-- No timer fires. -/
def untimed (choice : Choice) : Bool := !choice.isDrop

theorem timed_untimed {client : Nat} {o : SharedUdsClient.Op} {choice : Choice} (h : choice.isDrop = false) :
    machine.perform t (.timed client o) choice w =
      (w.clients.perform t client o choice).map fun x => (some x.1, { w with clients := x.2 }) := by
  cases choice with
  | drop out got => cases h
  | _ => rfl

/-- Of what an operation waits for, another task has it, even where no timer fires. -/
theorem ordered (hn : 0 < n) : Ordered (machine.only untimed) ordering (Owned n count) count rank Keys.Has where
  bounded := ⟨3, rank_le⟩
  due g o r hd hhas := by
    rcases hhas with ⟨rfl, h⟩ | ⟨rfl, h⟩ | ⟨rfl, h⟩
    · cases o with
      | acquire => cases hd.symm ▸ h
      | timed client o | plain client o => cases o <;> simp [rank]
      | _ => simp [rank]
    · cases o with
      | acquire => cases hd.symm ▸ h
      | lockPool => cases hd.1.symm.trans h
      | timed client o | plain client o => cases o <;> simp [rank]
      | _ => simp [rank]
    · cases o with
      | acquire => exact absurd (by rw [show g = .none from hd]; rfl) h
      | lockPool => exact absurd hd.2 h
      | timed client o | plain client o =>
        have hplain : InOrder g (.plain client o) := hd
        cases o with
        | lock => exact absurd ((inOrder_keys hplain).1 rfl) h
        | _ => simp [rank]
      | _ => simp [rank]
  waits w γ t o h hd hblocked := by
    have hmoves (choice : Choice) {x : Calls.Ret o × ProductionPool} (hdrop : choice.isDrop = false)
        (hstep : machine.perform t o choice w = some x) : ∃ u < count, Keys.Has (γ u) (rank o) := by
      have hpermitted := Machine.only_some.mpr ⟨show untimed choice = true by simp [untimed, hdrop], hstep⟩
      exact nomatch (hblocked choice).symm.trans hpermitted
    cases o with
    | acquire =>
      by_cases hclosed : w.pool.semaphoreClosed = true
      · exact hmoves .go rfl (by simp only [machine, performPool, hclosed]; rfl)
      by_cases hpermits : w.pool.permits = 0
      · exact h.permitted hpermits hn
      · exact hmoves .go rfl (by simp only [machine, performPool, hclosed, hpermits]; rfl)
    | lockPool =>
      cases hlock : w.pool.poolLock with
      | none => exact hmoves .go rfl (by simp only [machine, performPool, hlock]; rfl)
      | some u => exact h.locked hlock
    | timed client o | plain client o =>
      cases o with
      | lock =>
        cases hholder : w.clients.holder client with
        | none => exact hmoves .go rfl (by simp only [machine, Clients.perform, hholder]; rfl)
        | some u => exact h.visited hholder
      | unlock => exact hmoves .go rfl rfl
      | inner o =>
        obtain ⟨choice, r, v, hdrop, hv⟩ := inner_moves w.clients t client hd.1.2
        first
        | exact hmoves choice hdrop ((timed_untimed hdrop).trans (congrArg (Option.map _) hv))
        | exact hmoves choice hdrop (congrArg (Option.map _) hv)
    | canExecute => exact hmoves (.clock 0) rfl rfl
    | recordFailure => exact hmoves (.clock 0) rfl rfl
    | _ => exact hmoves .go rfl rfl

end

theorem start_ordered (S : Codec) (config : PoolConfig) (jobs : List Job) :
    Kept ordering (Owned config.maxConcurrent (start S config jobs).tasks.length) (fun _ g _ => g = .none)
      (start S config jobs) := by
  refine ⟨fun _ => .none, Keys.owned_new config.maxConcurrent _, fun t p hp => ?_⟩
  rcases start_tasks hp with ⟨-, service, method, payload, rfl⟩ | ⟨-, rfl⟩
  · exact safe_map (callWithTimeout_ordered service method payload) (fun _ _ h => h) fun _ _ h => h
  · exact safe_map close_ordered (fun _ _ h => h) fun _ _ h => h.elim

/-- Who has returned has nothing. -/
theorem rest_none (_ : Nat) (g : Keys) (_ : Outcome) (r : Nat) (h : g = .none) : ¬ Keys.Has g r := by
  rw [h]
  exact Keys.not_has_none r

/-- **A production pool never hangs**: whatever calls, batches and closings are asked of it, wherever the
timers fire, and in whatever order the tasks move, all of them return. -/
theorem timed_calls_complete (S : Codec) (config : PoolConfig) (hmax : 0 < config.maxConcurrent) (jobs : List Job) :
    (start S config jobs).Completes machine :=
  (ordered hmax).of_only.completes owned_upheld (Config.along_tasks _) rfl (start_ordered S config jobs) rest_none

theorem timed_calls_complete_one :
    (start Json.Text.compact ⟨1, 1, 1⟩ [.call "echo" "ping" .null, .batch [("echo", "ping", .null)], .close]).Completes
      machine :=
  timed_calls_complete Json.Text.compact ⟨1, 1, 1⟩ (by decide) _

end ProductionPool

end XProtocol
