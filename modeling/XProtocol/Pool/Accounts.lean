import XProtocol.Async.Ledger
import XProtocol.Json.Text
import XProtocol.Pool.Production

/-! What the metrics of the production pool add up to.

A call is counted once it is admitted, and entered as a success or a failure when it ends;
between the two it is on its account (`Entered`). One exit enters neither: a call that
waits for a permit, and finds the semaphore closed, takes itself off the active requests
and nothing more. So the metrics of a pool in which no call is in progress add up exactly
if no call was turned away like that (`accounted_iff`). -/
namespace XProtocol.ProductionPool
open Async
open Json (Value Codec)
open Json.Text (compact)

/-! ### The account of a call -/

/-- What a task has entered into the metrics, and has not settled. -/
structure Entered where
  /-- It is a call, and not `close`. -/
  caller : Bool
  counted : Bool := false
  active : Bool := false
  late : Bool := false
  /-- It found the semaphore closed. -/
  refused : Bool := false
  deriving DecidableEq

namespace Entered

def after (g : Entered) : (o : Op) → Calls.Ret o → Entered
  | .add .totalRequests, _ => { g with counted := true }
  | .add .activeRequests, _ => { g with active := true }
  | .sub .activeRequests, _ => { g with active := false }
  | .add .timeoutErrors, _ => { g with late := true }
  | .add .successfulRequests, _ => { g with counted := false }
  | .add .failedRequests, _ => { g with counted := false, late := false }
  | .acquire, false => { g with refused := true }
  | _, _ => g

def demand (g : Entered) : Op → Prop
  | .add .totalRequests => g.caller = true ∧ g.counted = false
  | .add .activeRequests => g.caller = true ∧ g.active = false
  | .sub .activeRequests => g.active = true
  | .add .timeoutErrors => g.counted = true ∧ g.late = false
  | .add .successfulRequests => g.counted = true
  | .add .failedRequests => g.counted = true
  | .sub _ => False
  | .acquire => g.caller = true
  | _ => True

/-- Nothing is left to settle, but for a refusal. -/
def Settled (g : Entered) : Prop := g.counted = g.refused ∧ g.active = false ∧ g.late = false

theorem refused_after {g : Entered} (hg : g.refused = true) (o : Op) (r : Calls.Ret o) :
    (g.after o r).refused = true := by
  unfold after
  split <;> first | exact hg | rfl

end Entered

open Entered (after demand)

/-- The metrics are what has been entered, but for what the calls have not settled. -/
structure Books (calls : Nat → Bool) (n : Nat) (w : ProductionPool) (γ : Nat → Entered) : Prop where
  counted : w.pool.metrics.totalRequests = w.pool.metrics.successfulRequests +
    w.pool.metrics.failedRequests + total n (fun g => g.counted.toNat) γ
  active : w.pool.metrics.activeRequests = total n (fun g => g.active.toNat) γ
  late : w.pool.metrics.timeoutErrors ≤ w.pool.metrics.failedRequests + total n (fun g => g.late.toNat) γ
  closer : ∀ t, calls t = false → γ t = { caller := false }

/-- What an operation enters into the metrics. -/
def entry (m : PoolMetrics) : Op → PoolMetrics
  | .add counter => count m (· + 1) counter
  | .sub counter => count m (· - 1) counter
  | _ => m

theorem metrics_entry {t : Nat} {o : Op} {choice : Choice} {w w' : ProductionPool} {r : Calls.Ret o}
    (h : machine.perform t o choice w = some (r, w')) : w'.pool.metrics = entry w.pool.metrics o := by
  cases o with
  | timed client o => exact congrArg PoolState.metrics (timed_pool h)
  | plain client o => exact congrArg PoolState.metrics (plain_pool h)
  | acquire | lockPool =>
    cases choice with
    | go =>
      obtain ⟨x, hx, heq⟩ := Option.map_eq_some_iff.mp h
      simp only [performPool] at hx
      split_ifs at hx <;> cases hx <;> cases heq <;> rfl
    | _ => cases h
  | _ => cases choice <;> cases h <;> rfl

section
variable {g : Entered} {o : Op} (m : PoolMetrics)

/-- A request is counted, or open on the account of its call, or has ended. -/
theorem entry_counted (hd : demand g o) (r : Calls.Ret o) :
    m.totalRequests + (after g o r).counted.toNat + (entry m o).successfulRequests + (entry m o).failedRequests =
      (entry m o).totalRequests + g.counted.toNat + m.successfulRequests + m.failedRequests := by
  cases o with
  | add counter => cases counter <;> simp_all [after, entry, count, demand] <;> omega
  | sub counter => cases counter <;> simp_all [after, entry, count, demand]
  | acquire => cases r <;> simp [after, entry]
  | _ => simp [after, entry]

theorem entry_active (hd : demand g o) (r : Calls.Ret o) (hm : g.active.toNat ≤ m.activeRequests) :
    (entry m o).activeRequests + g.active.toNat = m.activeRequests + (after g o r).active.toNat := by
  cases o with
  | add counter => cases counter <;> simp_all [after, entry, count, demand]
  | sub counter => cases counter <;> simp_all [after, entry, count, demand]
  | acquire => cases r <;> simp [after, entry]
  | _ => simp [after, entry]

theorem entry_late (hd : demand g o) (r : Calls.Ret o) :
    (entry m o).timeoutErrors + g.late.toNat + m.failedRequests ≤
      m.timeoutErrors + (after g o r).late.toNat + (entry m o).failedRequests := by
  cases o with
  | add counter =>
    have hle : g.late.toNat ≤ 1 := Bool.toNat_le g.late
    cases counter <;> simp_all [after, entry, count, demand] <;> omega
  | sub counter => cases counter <;> simp_all [after, entry, count, demand]
  | acquire => cases r <;> simp [after, entry]
  | _ => simp [after, entry]

end

/-- `close` enters nothing. -/
theorem closer_after {o : Op} (hd : demand { caller := false } o) (r : Calls.Ret o) :
    after { caller := false } o r = { caller := false } := by
  cases o with
  | add counter => cases counter <;> simp_all [demand]
  | sub counter => cases counter <;> simp_all [demand]
  | acquire => simp [demand] at hd
  | _ => rfl

/-! ### The text of a call -/

/-- The discipline of the metrics. -/
abbrev entering : Discipline Calls Entered := owing demand after

theorem settle_settled (result : Option (Result ServiceResponse)) :
    Meets entering (settle result) (fun g _ => g.Settled) (fun g _ => g.Settled)
      { caller := true, counted := true } := by
  match result with
  | some (.ok response) =>
    exact meets_owing trivial fun _ => meets_owing rfl fun _ => ⟨rfl, rfl, rfl⟩
  | some (.error e) =>
    exact meets_owing trivial fun _ => meets_owing rfl fun _ => ⟨rfl, rfl, rfl⟩
  | none =>
    exact meets_owing trivial fun _ => meets_owing ⟨rfl, rfl⟩ fun _ => meets_owing rfl fun _ => ⟨rfl, rfl, rfl⟩

variable (S : Codec)

/-- Whatever becomes of a call, it settles its account. -/
theorem callWithTimeout_settled (service method : String) (payload : Value) :
    Meets entering (callWithTimeout S service method payload) (fun g _ => g.Settled) (fun g _ => g.Settled)
      { caller := true } := by
  unfold callWithTimeout
  refine meets_owing trivial fun stopping => ?_
  split
  · exact ⟨rfl, rfl, rfl⟩
  refine meets_owing trivial fun admitted => ?_
  rw [meets_bind, meets_mk]
  cases admitted with
  | error e => exact ⟨rfl, rfl, rfl⟩
  | ok _ =>
  refine meets_owing ⟨rfl, rfl⟩ fun _ => meets_owing ⟨rfl, rfl⟩ fun _ => meets_owing rfl fun permit => ?_
  cases permit with
  | false => exact meets_owing rfl fun _ => ⟨rfl, rfl, rfl⟩
  | true =>
  refine meets_owing trivial fun _ => meets_owing trivial fun popped => ?_
  have hcall (client : Nat) : Meets entering (do
      op .unlockPool
      let result ← monadLift (timedCall S client service method payload)
      op .lockPool
      op (.push client)
      op .unlockPool
      op .release
      op (.sub .activeRequests)
      settle result) (fun g _ => g.Settled) (fun g _ => g.Settled)
      { caller := true, counted := true, active := true } := by
    refine meets_owing trivial fun _ => ?_
    rw [meets_bind, meets_lift]
    refine safe_mono (safe_droppable_owing (fun _ _ _ => trivial) (fun _ _ _ h => h) _ rfl) ?_
    rintro _ result rfl
    exact meets_owing trivial fun _ => meets_owing trivial fun _ => meets_owing trivial fun _ =>
      meets_owing trivial fun _ => meets_owing rfl fun _ => settle_settled result
  cases popped with
  | some client => exact hcall client
  | none => exact meets_owing trivial fun client => hcall client

theorem closeClients_settled (clients : List Nat) :
    Meets entering (closeClients clients) (fun g _ => g = { caller := false }) (fun _ _ => False)
      { caller := false } := by
  induction clients with
  | nil => rfl
  | cons client rest ih =>
    unfold closeClients
    rw [meets_bind, meets_lift]
    refine safe_mono (safe_embed_owing (fun _ _ _ => trivial) (fun _ _ _ h => h) _ rfl) ?_
    rintro _ _ rfl
    exact ih

theorem close_settled :
    Meets entering close (fun g _ => g.Settled) (fun g _ => g.Settled) { caller := false } := by
  unfold close
  refine meets_owing trivial fun _ => meets_owing trivial fun _ => meets_owing trivial fun _ =>
    meets_owing trivial fun clients => ?_
  rw [meets_bind]
  refine meets_mono (closeClients_settled clients) ?_ fun _ _ h => h.elim
  rintro _ _ rfl
  exact meets_owing trivial fun _ => meets_lift.mpr ((safe_op ..).mpr ⟨trivial, fun _ _ hg => hg ▸ ⟨rfl, rfl, rfl⟩⟩)

/-! ### Runs -/

theorem books_kept (calls : Nat → Bool) (n : Nat) :
    Keeps machine demand after (fun _ t _ _ => t < n) (Books calls n) := by
  intro w γ t o choice r w' hbooks hd ht hstep
  obtain ⟨hcounted, hactive, hlate, hcloser⟩ := hbooks
  have hm := metrics_entry hstep
  have hle : (γ t).active.toNat ≤ total n (fun g => g.active.toNat) γ :=
    le_total (f := fun g : Entered => g.active.toNat) ht
  refine ⟨?_, ?_, ?_, fun u hu => ?_⟩
  · have hentry := entry_counted w.pool.metrics hd r
    have htotal := total_update (f := fun g : Entered => g.counted.toNat) (γ := γ) ht (after (γ t) o r)
    rw [hm]
    omega
  · have hentry := entry_active w.pool.metrics hd r (hactive ▸ hle)
    have htotal := total_update (f := fun g : Entered => g.active.toNat) (γ := γ) ht (after (γ t) o r)
    rw [hm]
    omega
  · have hentry := entry_late w.pool.metrics hd r
    have htotal := total_update (f := fun g : Entered => g.late.toNat) (γ := γ) ht (after (γ t) o r)
    rw [hm]
    omega
  · by_cases hut : u = t
    · subst hut
      have hg := hcloser u hu
      rw [hg] at hd
      rw [Function.update_self, hg, closer_after hd]
    · rw [Function.update_of_ne hut]
      exact hcloser u hu

/-- The operation is not turned away by a closed semaphore. -/
def Admits (w : ProductionPool) (_ : Nat) : Op → Choice → Prop
  | .acquire, _ => w.pool.semaphoreClosed = false
  | _, _ => True

instance (w : ProductionPool) (t : Nat) (o : Op) (choice : Choice) : Decidable (Admits w t o choice) :=
  match o with
  | .acquire => inferInstanceAs (Decidable (_ = _))
  | .shuttingDown | .shutDown | .canExecute | .recordSuccess | .recordFailure | .add _ | .sub _ | .release
  | .closeSemaphore | .lockPool | .unlockPool | .pop | .push _ | .idle | .clear | .newClient | .timed ..
  | .plain .. => inferInstanceAs (Decidable True)

theorem acquire_answer {t : Nat} {choice : Choice} {w w' : ProductionPool} {r : Bool}
    (h : machine.perform t .acquire choice w = some (r, w')) : r = !w.pool.semaphoreClosed := by
  obtain ⟨x, hx, heq⟩ := Option.map_eq_some_iff.mp h
  cases choice with
  | go =>
    simp only [performPool] at hx
    split_ifs at hx with hclosed <;> cases hx <;> cases heq <;> simp_all
  | _ => cases hx

theorem admits_keeps : Keeps machine demand after (fun w t o c => Admits w.1 t o c)
    (fun _ γ => ∀ t, (γ t).refused = false) := by
  intro w γ t o choice r w' hnone hd hadmits hstep u
  by_cases hut : u = t
  · subst hut
    rw [Function.update_self]
    cases o with
    | add counter => cases counter <;> exact hnone u
    | sub counter => cases counter <;> exact hnone u
    | acquire =>
      obtain rfl : r = true := by rw [acquire_answer hstep, show w.pool.semaphoreClosed = false from hadmits]; rfl
      exact hnone u
    | _ => exact hnone u
  · rw [Function.update_of_ne hut]
    exact hnone u

section
variable {S : Codec} {config : PoolConfig} {jobs : List Job} {ls : List (Nat × Choice)}

/-- The accounts before the first step. -/
def blank (S : Codec) (jobs : List Job) (t : Nat) : Entered := { caller := isCall S jobs t }

variable (config) in
theorem start_safe {t : Nat} {p : Program Calls Outcome} (hp : (start S config jobs).tasks[t]? = some p) :
    Safe entering p (fun g _ => g.Settled) (blank S jobs t) := by
  unfold blank
  rcases start_tasks hp with ⟨hcall, service, method, payload, rfl⟩ | ⟨hcall, rfl⟩
  · rw [hcall]
    exact safe_map (callWithTimeout_settled S service method payload) (fun _ _ h => h) fun _ _ h => h
  · rw [hcall]
    exact safe_map close_settled (fun _ _ h => h) fun _ _ h => h

theorem start_balanced (S : Codec) (config : PoolConfig) (jobs : List Job) :
    Balanced entering (Books (isCall S jobs) (start S config jobs).tasks.length) (fun _ g _ => g.Settled)
      ((start S config jobs).withLedger (blank S jobs)) := by
  refine ⟨⟨?_, ?_, Nat.zero_le _, fun t ht => ?_⟩, fun t p hp => start_safe config hp⟩
  · exact (Nat.zero_add _ ▸ total_eq_zero.mpr fun _ _ => rfl : 0 + 0 + _ = 0).symm
  · exact (total_eq_zero.mpr fun _ _ => rfl).symm
  · exact congrArg (fun b => ({ caller := b } : Entered)) ht

/-- The metrics of a pool in which no call is in progress add up. -/
structure Accounted (m : PoolMetrics) : Prop where
  active : m.activeRequests = 0
  total : m.totalRequests = m.successfulRequests + m.failedRequests
  timeouts : m.timeoutErrors ≤ m.failedRequests

/-- Nobody has found the semaphore closed exactly if every acquire found it open. -/
theorem admits_iff {s : Config Calls (ProductionPool × (Nat → Entered)) Outcome}
    (hrun : ((start S config jobs).withLedger (blank S jobs)).run (machine.ledger after) ls = some s) :
    (∀ t < (start S config jobs).tasks.length, (s.world.2 t).refused = false) ↔
      (start S config jobs).Along machine (Config.Performs Admits) ls := by
  constructor
  · intro hnone
    refine Config.along_forget after (γ := blank S jobs) ?_
    refine Config.along_of_unmarked (fun s => ∃ t < s.tasks.length, (s.world.2 t).refused = true)
      ?_ ?_ hrun ?_
    · rintro m ⟨t, choice⟩ m' hstep hnot
      obtain ⟨o, k, r, w, hp, hw, rfl⟩ := Config.step_ledger_eq_some hstep
      have hrefused : ¬ Admits m.world.1 t o choice := fun h => hnot fun o' k' hp' => by
        rw [hp] at hp'
        cases hp'
        exact h
      refine ⟨t, by simpa using (List.getElem?_eq_some_iff.mp hp).1, ?_⟩
      cases o with
      | acquire =>
        obtain rfl : r = false := by simpa [Admits, acquire_answer hw] using hrefused
        simp [after]
      | _ => exact absurd trivial hrefused
    · rintro m ⟨t, choice⟩ m' hstep ⟨u, hu, hmarked⟩
      obtain ⟨o, k, r, w, -, -, rfl⟩ := Config.step_ledger_eq_some hstep
      refine ⟨u, by simpa using hu, ?_⟩
      by_cases hut : u = t
      · subst hut
        simpa using Entered.refused_after hmarked o r
      · simpa [hut] using hmarked
    · rintro ⟨t, ht, hmarked⟩
      rw [Config.run_length hrun] at ht
      exact Bool.false_ne_true ((hnone t ht).symm.trans hmarked)
  · intro hP t _
    have hbalanced : Balanced entering (fun _ γ => ∀ t, (γ t).refused = false) (fun _ g _ => g.Settled) s :=
      run_balanced admits_keeps hrun (Config.along_ledger hP _) ⟨fun _ => rfl, fun t p hp => start_safe config hp⟩
    exact hbalanced.1 t

/-- The account of whoever is not in progress is settled. -/
theorem settled_of_quiet {s : Config Calls (ProductionPool × (Nat → Entered)) Outcome}
    (hrun : ((start S config jobs).withLedger (blank S jobs)).run (machine.ledger after) ls = some s)
    (hquiet : ∀ t, ¬ InProgress S jobs ls s.forget t) (t : Nat) : (s.world.2 t).Settled := by
  have hbalanced := run_balanced (books_kept (isCall S jobs) _) hrun
    (Config.along_tasks _ ls) (start_balanced S config jobs)
  by_cases hmoved : t ∈ ls.map Prod.fst
  · cases hcall : isCall S jobs t with
    | false =>
      rw [hbalanced.1.closer t hcall]
      exact ⟨rfl, rfl, rfl⟩
    | true =>
      cases hreturned : s.forget.returned t with
      | none => exact absurd ⟨hcall, hmoved, hreturned⟩ (hquiet t)
      | some a => exact hbalanced.returned (t := t) hreturned
  · rw [Config.run_unmoved hrun hmoved]
    exact ⟨rfl, rfl, rfl⟩

/-- **Where no call is in progress the metrics add up, exactly if no call was turned away by the
closed semaphore.** -/
theorem accounted_iff {s : Config Calls ProductionPool Outcome}
    (hrun : (start S config jobs).run machine ls = some s) (hquiet : ∀ t, ¬ InProgress S jobs ls s t) :
    Accounted s.world.pool.metrics ↔ (start S config jobs).Along machine (Config.Performs Admits) ls := by
  obtain ⟨γ, hledger⟩ := Config.run_ledger after hrun (blank S jobs)
  have hbooks : Books (isCall S jobs) (start S config jobs).tasks.length s.world γ :=
    (run_balanced (books_kept (isCall S jobs) _) hledger (Config.along_tasks _ ls)
      (start_balanced S config jobs)).1
  have hsettled : ∀ t, (γ t).Settled := settled_of_quiet hledger hquiet
  have hactive : total (start S config jobs).tasks.length (fun g : Entered => g.active.toNat) γ = 0 :=
    total_eq_zero.mpr fun t _ => by rw [(hsettled t).2.1]; rfl
  have hlate : total (start S config jobs).tasks.length (fun g : Entered => g.late.toNat) γ = 0 :=
    total_eq_zero.mpr fun t _ => by rw [(hsettled t).2.2]; rfl
  have hcounted : total (start S config jobs).tasks.length (fun g : Entered => g.counted.toNat) γ = 0 ↔
      ∀ t < (start S config jobs).tasks.length, (γ t).refused = false := by
    rw [total_eq_zero]
    exact forall₂_congr fun t _ => by rw [(hsettled t).1]; simp
  rw [← admits_iff hledger]
  refine Iff.trans ?_ hcounted
  constructor
  · intro h
    have htotal := hbooks.counted.symm.trans h.total
    exact Nat.add_left_cancel (htotal.trans (Nat.add_zero _).symm)
  · intro h
    refine ⟨hbooks.active.trans hactive, ?_, ?_⟩
    · exact hbooks.counted.trans (by rw [h, Nat.add_zero])
    · exact hbooks.late.trans (by rw [hlate, Nat.add_zero])

variable (config) in
/-- If every task has returned, no call is in progress. -/
theorem quiet_of_returned {s : Config Calls ProductionPool Outcome}
    (h : ∀ t < (start S config jobs).tasks.length, (s.returned t).isSome = true) (t : Nat) :
    ¬ InProgress S jobs ls s t := by
  rintro ⟨hcall, -, hreturned⟩
  have ht := h t (isCall_lt config hcall)
  rw [hreturned] at ht
  cases ht

end

/-! ### A call that waits while the pool is closed -/

def oneAtATime : PoolConfig :=
  { maxConcurrent := 1, circuitBreakerThreshold := 5, circuitBreakerTimeout := 30000 }

def saying : Job := .call "echo" "say" .null

/-- The first call has taken the one permit, and times out in the end. -/
def taking : List (Nat × Choice) := goes 0 1 ++ [(0, .clock 0)] ++ goes 0 7

def timingOut : List (Nat × Choice) := (0, .drop 0 []) :: goes 0 5 ++ [(0, .clock 1)] ++ goes 0 2

/-- The second call waits for it while the pool is closed. -/
def turnedAway : List (Nat × Choice) :=
  taking ++ goes 1 1 ++ [(1, .clock 0)] ++ goes 1 2 ++ goes 2 6 ++ goes 1 2 ++ timingOut

theorem turnedAway_unaccounted :
    ∃ s, (start compact oneAtATime [saying, saying, .close]).run machine turnedAway = some s ∧
      (∀ t, ¬ InProgress compact [saying, saying, .close] turnedAway s t) ∧
      ¬ Accounted s.world.pool.metrics := by
  have hend : ((start compact oneAtATime [saying, saying, .close]).run machine turnedAway).any (fun s =>
      (List.range 3).all (fun t => (s.returned t).isSome) && s.world.pool.metrics.totalRequests == 2 &&
        s.world.pool.metrics.successfulRequests + s.world.pool.metrics.failedRequests == 1) := by
    decide +kernel
  obtain ⟨s, hrun, hs⟩ := (Option.any_eq_true _ _).mp hend
  simp only [Bool.and_eq_true, List.all_eq_true, List.mem_range, beq_iff_eq] at hs
  obtain ⟨⟨hreturned, htotal⟩, hended⟩ := hs
  refine ⟨s, hrun, quiet_of_returned oneAtATime hreturned, fun h => ?_⟩
  have hadd := htotal.symm.trans (h.total.trans hended)
  cases hadd

/-- A call alone, that times out. -/
theorem accounted_iff_alone :
    ∃ s, (start compact oneAtATime [saying]).run machine (taking ++ timingOut) = some s ∧
      Accounted s.world.pool.metrics := by
  have hend : ((start compact oneAtATime [saying]).run machine (taking ++ timingOut)).any (fun s =>
      (List.range 1).all fun t => (s.returned t).isSome) := by decide +kernel
  obtain ⟨s, hrun, hs⟩ := (Option.any_eq_true _ _).mp hend
  simp only [List.all_eq_true, List.mem_range] at hs
  exact ⟨s, hrun, (accounted_iff hrun (quiet_of_returned oneAtATime hs)).mpr
    (Config.along_of_checks (by decide +kernel))⟩

end XProtocol.ProductionPool
