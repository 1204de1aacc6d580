import XProtocol.CircuitBreaker.History
import XProtocol.Json.Text
import XProtocol.Pool.Production

/-! What an open breaker stops in the production pool.

A call asks the breaker, and then waits: for a permit, and for the lock of the idle
clients. It does not ask again before it starts its client's call. So a failure that
opens the breaker stops whoever comes, but nobody who was admitted before and still
waits; if nobody does, no call starts while the breaker is open
(`open_breaker_stops`). -/
namespace XProtocol

namespace CircuitBreaker
variable {b : CircuitBreaker} {now : Nat}

theorem observe_state (b : CircuitBreaker) (now : Nat) : (b.observe now).1 = (b.observe now).2.state := by
  unfold observe
  split
  · next last hopened hlast => split <;> simp [hopened]
  · rfl

theorem canExecute_eq (b : CircuitBreaker) (now : Nat) :
    (b.canExecute now).2 = (b.observe now).2 ∧
      ((b.canExecute now).1 = .ok () ↔ (b.observe now).2.state ≠ .opened) := by
  rw [← observe_state]
  unfold canExecute
  rcases b.observe now with ⟨state, b'⟩
  cases state <;> simp

/-- Nobody but a failure opens a breaker. -/
theorem opened_of_canExecute (h : (b.canExecute now).2.state = .opened) : b.state = .opened := by
  rw [(canExecute_eq b now).1] at h
  rcases b.observe_cases now with heq | ⟨hopened, -, -⟩
  · rwa [heq] at h
  · exact hopened

theorem opened_of_recordSuccess (h : b.recordSuccess.state = .opened) : b.state = .opened := by
  unfold recordSuccess at h
  simp only at h
  split at h
  · cases h
  · exact h

theorem opened_of_refuses (h : b.Refuses now) : b.state = .opened := by
  have hopened : (b.canExecute now).2.state = .opened := by
    rw [(canExecute_eq b now).1]
    by_contra hnot
    have hok := (canExecute_eq b now).2.mpr hnot
    exact nomatch h.symm.trans hok
  exact opened_of_canExecute hopened

end CircuitBreaker

namespace ProductionPool
open Async
open Json (Value Codec)
open Json.Text (compact)

section
variable {α : Type}

/-- The task may start its client's call without asking the breaker again. -/
inductive Waits : Program Calls α → Prop
  | starts (client : Nat) (k : Calls.Ret (.timed client .lock) → Program Calls α) :
    Waits (.perform (.timed client .lock) k)
  | goes (o : Op) (k : Calls.Ret o → Program Calls α) (r : Calls.Ret o) (ho : o ≠ .canExecute)
    (h : Waits (k r)) : Waits (.perform o k)

/-- Knowing whether the breaker has admitted the task, and its client's call not started yet:
only an admitted task starts it. -/
def admission : Discipline Calls Bool where
  demand admitted o := ∀ client, o = .timed client .lock → admitted = true
  move
    | _, .canExecute, .ok _, admitted' => admitted' = true
    | _, .canExecute, .error _, admitted' => admitted' = false
    | _, .timed _ .lock, _, admitted' => admitted' = false
    | admitted, _, _, admitted' => admitted' = admitted

/-- The operation has nothing to do with admission. -/
def Apart : Op → Bool
  | .canExecute => false
  | .timed _ .lock => false
  | _ => true

theorem move_apart {o : Op} (ho : Apart o = true) {g g' : Bool} {r : Calls.Ret o} :
    admission.move g o r g' ↔ g' = g := by
  cases o with
  | canExecute => cases ho
  | timed client o => cases o with
    | lock => cases ho
    | _ => rfl
  | _ => rfl

/-- The breaker's answer is the admission. -/
theorem move_canExecute (g : Bool) (answer : Result Unit) :
    ∃ g', admission.move g .canExecute answer g' ∧ (g' = true → answer = .ok ()) := by
  cases answer with
  | ok a => exact ⟨true, rfl, fun _ => rfl⟩
  | error e => exact ⟨false, rfl, nofun⟩

theorem demand_apart {o : Op} (ho : Apart o = true) (g : Bool) : admission.demand g o := by
  rintro client rfl
  cases ho

/-- A task that does not wait can be taken for one that was not admitted. -/
theorem safe_of_not_waits {p : Program Calls α} {g : Bool} (h : Safe admission p (fun _ _ => True) g)
    (hp : ¬ Waits p) : Safe admission p (fun _ _ => True) false := by
  induction p generalizing g with
  | done a => trivial
  | perform o k ih =>
    by_cases ho : Apart o = true
    · refine ⟨demand_apart ho false, fun r g' hm => ?_⟩
      obtain rfl := (move_apart ho).mp hm
      refine ih r (h.2 r g ((move_apart ho).mpr rfl)) fun hw => hp (.goes o k r ?_ hw)
      rintro rfl
      cases ho
    · unfold Apart at ho
      split at ho
      · exact ⟨nofun, fun r g' hm => h.2 r g' (by cases r <;> exact hm)⟩
      · exact absurd (.starts _ k) hp
      · exact absurd rfl ho

/-! ### The text of a call -/

theorem op_apart {o : Op} (ho : Apart o = true) {f : Calls.Ret o → Code α} {Q : Bool → α → Prop}
    {R : Bool → ProtocolError → Prop} {g : Bool} (h : ∀ r, Meets admission (f r) Q R g) :
    Meets admission (op o >>= f) Q R g := by
  refine meets_bind.mpr (meets_lift.mpr ((safe_op ..).mpr ⟨demand_apart ho g, fun r g' hm => ?_⟩))
  obtain rfl := (move_apart ho).mp hm
  exact h r

/-- On a client the mutex is taken once, at the start of a call. -/
def once : Discipline SharedUdsClient.Calls Bool where
  demand g o := o = .lock → g = true
  move
    | _, .lock, _, g' => g' = false
    | g, _, _, g' => g' = g

theorem inner_safe (p : Program (NetWith UdsClient.Fields) α) (g : Bool) :
    Safe once (p.embed SharedUdsClient.Op.inner fun _ r => r) (fun _ _ => True) g := by
  induction p generalizing g with
  | done a => trivial
  | perform o k ih => exact ⟨nofun, fun r g' _ => ih r g'⟩

theorem locked_safe (method : UdsClient.Code α) :
    Safe once (SharedUdsClient.locked method) (fun _ _ => True) true := by
  unfold SharedUdsClient.locked
  rw [safe_bind]
  refine (safe_op ..).mpr ⟨fun _ => rfl, fun _ g _ => ?_⟩
  rw [safe_bind]
  exact safe_mono (inner_safe method.run g) fun g r _ => ⟨nofun, fun _ _ _ => trivial⟩

variable (S : Codec)

theorem timedCall_admitted (client : Nat) (service method : String) (payload : Value) :
    Safe admission (timedCall S client service method payload) (fun _ _ => True) true := by
  have hdemand (g k : Bool) (o : SharedUdsClient.Op) (hgk : g = k) (hd : once.demand g o) :
      admission.demand k (.timed client o) := by
    rintro client' hc
    subst hgk
    cases hc
    exact hd rfl
  have hmove (g k : Bool) (o : SharedUdsClient.Op) (r : Option (SharedUdsClient.Calls.Ret o)) (k' : Bool)
      (b : SharedUdsClient.Calls.Ret o) (hgk : g = k) (_ : once.demand g o)
      (hm : admission.move k (.timed client o) r k') (hr : r = some b) :
      ∃ g', once.move g o b g' ∧ g' = k' := by
    subst hgk hr
    cases o <;> exact ⟨k', hm, rfl⟩
  have hdrop (g k : Bool) (o : SharedUdsClient.Op) (r : Option (SharedUdsClient.Calls.Ret o)) (k' : Bool)
      (_ : g = k) (_ : once.demand g o) (_ : admission.move k (.timed client o) r k') (_ : r = none) :
      True := trivial
  exact safe_mono (safe_embed_droppable hdemand hmove hdrop (locked_safe _) rfl) fun _ _ _ => trivial

theorem settle_admitted (result : Option (Result ServiceResponse)) (g : Bool) :
    Meets admission (settle result) (fun _ _ => True) (fun _ _ => True) g := by
  match result with
  | some (.ok response) => exact op_apart (by rfl) fun _ => op_apart (by rfl) fun _ => trivial
  | some (.error e) => exact op_apart (by rfl) fun _ => op_apart (by rfl) fun _ => trivial
  | none => exact op_apart (by rfl) fun _ => op_apart (by rfl) fun _ => op_apart (by rfl) fun _ => trivial

/-- A call that was refused does not start its client's call. -/
theorem callWithTimeout_admitted (service method : String) (payload : Value) :
    Meets admission (callWithTimeout S service method payload) (fun _ _ => True) (fun _ _ => True) false := by
  unfold callWithTimeout
  refine op_apart (by rfl) fun stopping => ?_
  split
  · trivial
  refine meets_bind.mpr (meets_lift.mpr ((safe_op ..).mpr ⟨nofun, fun answer g hm => ?_⟩))
  rw [meets_bind, meets_mk]
  cases answer with
  | error e => trivial
  | ok _ =>
  obtain rfl : g = true := hm
  refine op_apart (by rfl) fun _ => op_apart (by rfl) fun _ => op_apart (by rfl) fun permit => ?_
  split
  · exact op_apart (by rfl) fun _ => trivial
  refine op_apart (by rfl) fun _ => op_apart (by rfl) fun popped => ?_
  have hcall (client : Nat) : Meets admission (do
      op .unlockPool
      let result ← monadLift (timedCall S client service method payload)
      op .lockPool
      op (.push client)
      op .unlockPool
      op .release
      op (.sub .activeRequests)
      settle result) (fun _ _ => True) (fun _ _ => True) true := by
    refine op_apart (by rfl) fun _ => ?_
    rw [meets_bind, meets_lift]
    refine safe_mono (timedCall_admitted S client service method payload) fun g result _ => ?_
    exact op_apart (by rfl) fun _ => op_apart (by rfl) fun _ => op_apart (by rfl) fun _ =>
      op_apart (by rfl) fun _ => op_apart (by rfl) fun _ => settle_admitted result g
  cases popped with
  | some client => exact hcall client
  | none => exact op_apart (by rfl) fun client => hcall client

theorem plain_safe (client : Nat) (p : Program SharedUdsClient.Calls α) (g : Bool) :
    Safe admission (p.embed (Op.plain client) fun _ r => r) (fun _ _ => True) g := by
  induction p generalizing g with
  | done a => trivial
  | perform o k ih => exact ⟨nofun, fun r g' _ => ih r g'⟩

theorem closeClients_admitted (clients : List Nat) (g : Bool) :
    Meets admission (closeClients clients) (fun _ _ => True) (fun _ _ => True) g := by
  induction clients generalizing g with
  | nil => trivial
  | cons client rest ih =>
    unfold closeClients
    rw [meets_bind, meets_lift]
    exact safe_mono (plain_safe client SharedUdsClient.close g) fun g _ _ => ih g

theorem close_admitted : Meets admission close (fun _ _ => True) (fun _ _ => True) false := by
  unfold close
  refine op_apart (by rfl) fun _ => op_apart (by rfl) fun _ => op_apart (by rfl) fun _ =>
    op_apart (by rfl) fun clients => ?_
  rw [meets_bind]
  refine meets_mono (closeClients_admitted clients false) (fun g _ _ => ?_) fun _ _ h => h
  exact op_apart (by rfl) fun _ => meets_lift.mpr ((safe_op ..).mpr ⟨nofun, fun _ _ _ => trivial⟩)

/-- Every task of a job starts its client's call only behind an admission. -/
theorem tasks_admitted (job : Job) {p : Program Calls Outcome} (hp : p ∈ job.tasks S) :
    Safe admission p (fun _ _ => True) false := by
  have hreply (service method : String) (payload : Value) :
      Safe admission (Outcome.reply <$> (callWithTimeout S service method payload).run) (fun _ _ => True)
        false :=
    safe_map (callWithTimeout_admitted S service method payload) (fun _ _ _ => trivial) fun _ _ _ => trivial
  cases job with
  | call service method payload =>
    obtain rfl := List.mem_singleton.mp hp
    exact hreply service method payload
  | batch requests =>
    simp only [Job.tasks, callBatchWithTimeout, List.map_map, List.mem_map] at hp
    obtain ⟨⟨service, method, payload⟩, -, rfl⟩ := hp
    exact hreply service method payload
  | close =>
    obtain rfl := List.mem_singleton.mp hp
    exact safe_map close_admitted (fun _ _ _ => trivial) fun _ _ _ => trivial

end

/-! ### Runs -/

/-- While the breaker is open, nobody is admitted. -/
def NoneAdmitted (w : ProductionPool) (admitted : Nat → Bool) : Prop :=
  w.pool.breaker.state = .opened → ∀ t, admitted t = false

/-- Whether the step leaves the breaker open by recording a failure. -/
def opens (w : ProductionPool) : Op → Choice → Bool
  | .recordFailure, .clock now => (w.pool.breaker.recordFailure now).state = .opened
  | _, _ => false

theorem opens_eq_true {w : ProductionPool} {o : Op} {choice : Choice} (h : opens w o choice = true) :
    o = .recordFailure := by
  unfold opens at h
  split at h
  · rfl
  · cases h

/-- The step records no failure that leaves the breaker open. -/
def KeepsShut (w : ProductionPool) (_ : Nat) (o : Op) (choice : Choice) : Prop := opens w o choice = false

instance (w : ProductionPool) (t : Nat) (o : Op) (choice : Choice) : Decidable (KeepsShut w t o choice) :=
  inferInstanceAs (Decidable (_ = _))

/-- The operation asks the breaker, or tells it something. -/
def OnBreaker : Op → Bool
  | .canExecute | .recordSuccess | .recordFailure => true
  | _ => false

theorem breaker_unmoved {t : Nat} {o : Op} {choice : Choice} {p p' : PoolState} {r : Calls.Ret o}
    (ho : OnBreaker o = false) (h : performPool t o choice p = some (r, p')) : p'.breaker = p.breaker := by
  cases o with
  | canExecute | recordSuccess | recordFailure => cases ho
  | acquire | lockPool =>
    cases choice with
    | go =>
      simp only [performPool] at h
      split_ifs at h <;> cases h <;> rfl
    | _ => cases h
  | _ => cases choice <;> cases h <;> rfl

/-- Only a failure lets the admitted meet an open breaker. -/
theorem keepsShut_upholds : Upheld machine admission KeepsShut NoneAdmitted := by
  intro w γ t o choice r w' hnone hd hshut hstep
  have hbeside (ho : Apart o = true)
      (hopened : w'.pool.breaker.state = .opened → w.pool.breaker.state = .opened) :
      ∃ g, admission.move (γ t) o r g ∧ NoneAdmitted w' (Function.update γ t g) := by
    refine ⟨γ t, (move_apart ho).mpr rfl, ?_⟩
    rw [Function.update_eq_self]
    exact fun h => hnone (hopened h)
  cases o with
  | timed client o =>
    have hpool := timed_pool hstep
    cases o with
    | lock =>
      refine ⟨false, rfl, fun hopened => ?_⟩
      rw [hpool] at hopened
      exact absurd ((hd client rfl).symm.trans (hnone hopened t)) Bool.true_eq_false.mp
    | _ => exact hbeside rfl fun h => hpool ▸ h
  | plain client o => exact hbeside rfl fun h => plain_pool hstep ▸ h
  | canExecute =>
    obtain ⟨⟨r', p'⟩, hp, heq⟩ := Option.map_eq_some_iff.mp hstep
    cases heq
    cases choice with
    | clock now =>
      obtain ⟨hr, hp⟩ := Prod.mk.inj (Option.some.inj hp)
      obtain ⟨hmoved, hanswer⟩ := CircuitBreaker.canExecute_eq w.pool.breaker now
      obtain ⟨g, hmove, hg⟩ := move_canExecute (γ t) r'
      refine ⟨g, hmove, fun hopened u => ?_⟩
      rw [← hp] at hopened
      by_cases hut : u = t
      · subst hut
        rw [Function.update_self]
        by_contra hadmitted
        have hok := hg (by simpa using hadmitted)
        rw [← hr] at hok
        exact hanswer.mp hok (hmoved ▸ hopened)
      · rw [Function.update_of_ne hut]
        exact hnone (CircuitBreaker.opened_of_canExecute hopened) u
    | _ => cases hp
  | recordSuccess =>
    obtain ⟨⟨r', p'⟩, hp, heq⟩ := Option.map_eq_some_iff.mp hstep
    cases heq
    cases choice with
    | go =>
      cases hp
      exact hbeside rfl CircuitBreaker.opened_of_recordSuccess
    | _ => cases hp
  | recordFailure =>
    obtain ⟨⟨r', p'⟩, hp, heq⟩ := Option.map_eq_some_iff.mp hstep
    cases heq
    cases choice with
    | clock now =>
      cases hp
      exact hbeside rfl fun hopened => absurd hopened (of_decide_eq_false hshut)
    | _ => cases hp
  | _ =>
    obtain ⟨⟨r', p'⟩, hp, heq⟩ := Option.map_eq_some_iff.mp hstep
    cases heq
    exact hbeside rfl fun h => breaker_unmoved rfl hp ▸ h

/-- A failure that leaves the breaker open is recorded only while nobody waits who was admitted. -/
def OpensAtRest {α : Type} (s : Config Calls ProductionPool α) (l : Nat × Choice) : Prop :=
  ∀ o k, s.tasks[l.1]? = some (.perform o k) → opens s.world o l.2 = true → ∀ p ∈ s.tasks, ¬ Waits p

/-- No call of a client starts at a moment at which the breaker is open. -/
def StartsAdmitted (w : ProductionPool) (_ : Nat) (o : Op) (_ : Choice) : Prop :=
  ∀ client, o = .timed client .lock → ∀ now, ¬ w.pool.breaker.Refuses now

variable (S : Codec) (config : PoolConfig) (jobs : List Job)

/-- Everything is safe as long as nobody admitted meets an open breaker. -/
abbrev Guarded (s : Config Calls ProductionPool Outcome) : Prop :=
  Kept admission NoneAdmitted (fun _ _ _ => True) s

theorem start_guarded : Guarded (start S config jobs) := by
  refine ⟨fun _ => false, fun _ _ => rfl, fun t p hp => ?_⟩
  obtain ⟨job, -, hjob⟩ := List.mem_flatMap.mp (List.mem_of_getElem? hp)
  exact tasks_admitted S job hjob

/-- Where nobody waits, nobody is admitted. -/
theorem guarded_at_rest {s : Config Calls ProductionPool Outcome} (h : Guarded s)
    (hrest : ∀ p ∈ s.tasks, ¬ Waits p) :
    Kept admission (fun _ γ => ∀ t, γ t = false) (fun _ _ _ => True) s := by
  obtain ⟨γ, -, hsafe⟩ := h
  exact ⟨fun _ => false, fun _ => rfl,
    fun t p hp => safe_of_not_waits (hsafe t p hp) (hrest p (List.mem_of_getElem? hp))⟩

/-- The record of a failure admits nobody. -/
theorem recordFailure_upholds : Upheld machine admission (fun _ _ o _ => o = .recordFailure)
    fun _ γ => ∀ t, γ t = false := by
  rintro w γ t _ choice r w' hnone - rfl -
  refine ⟨γ t, rfl, ?_⟩
  rwa [Function.update_eq_self]

/-- **One step keeps the tasks guarded**, if a failure that leaves the breaker open comes while
nobody waits. -/
theorem step_guarded {s s' : Config Calls ProductionPool Outcome} {l : Nat × Choice} (h : Guarded s)
    (hrest : OpensAtRest s l) (hs : s.step machine l = some s') : Guarded s' := by
  by_cases hopens : s.Performs KeepsShut l
  · exact step_safe keepsShut_upholds h hopens hs
  · unfold Config.Performs at hopens
    push Not at hopens
    obtain ⟨o, k, hp, hopens⟩ := hopens
    have hopens : opens s.world o l.2 = true := by simpa [KeepsShut] using hopens
    obtain rfl := opens_eq_true hopens
    obtain ⟨γ, hnone, hsafe⟩ := step_safe recordFailure_upholds (guarded_at_rest h (hrest _ k hp hopens))
      (fun o' k' hp' => by
        cases hp.symm.trans hp'
        rfl) hs
    exact ⟨γ, fun _ => hnone, hsafe⟩

/-- **An open breaker stops everyone, if it opens while nobody waits**: in every run of any calls and
batches, with any number of permits. -/
theorem open_breaker_stops (run : List (Nat × Choice))
    (hrest : (start S config jobs).Along machine OpensAtRest run) :
    (start S config jobs).Along machine (Config.Performs StartsAdmitted) run := by
  have hguarded := Config.throughout_of_keeps (fun s l s' h hl hs => step_guarded h hl hs) hrest
    (start_guarded S config jobs)
  refine Config.along_of_throughout (fun s l ⟨γ, hnone, hsafe⟩ o k hp client ho now hrefuses => ?_) hguarded
  have hadmitted := (hsafe l.1 _ hp).1 client ho
  exact Bool.false_ne_true ((hnone (CircuitBreaker.opened_of_refuses hrefuses) l.1).symm.trans hadmitted)

/-! ### A call that waits while the breaker opens -/

/-- One permit, and a breaker that opens at the first failure. -/
def tight : PoolConfig := { maxConcurrent := 1, circuitBreakerThreshold := 1, circuitBreakerTimeout := 30000 }

def asking : Job := .call "echo" "say" .null

/-- One call, whose connect fails. -/
def refused : List (Nat × Choice) :=
  goes 0 1 ++ [(0, .clock 0)] ++ goes 0 9 ++ [(0, .fail 0 [] "refused")] ++ goes 0 6 ++ [(0, .clock 1)]

/-- A breaker that takes two failures stays shut. -/
theorem open_breaker_stops_refused :
    (start compact { tight with circuitBreakerThreshold := 2 } [asking]).Along machine
      (Config.Performs StartsAdmitted) refused := by
  refine open_breaker_stops compact _ [asking] refused (Config.along_mono (fun s l h o k hp hopens => ?_)
    (Config.along_of_checks (P := KeepsShut) (by decide +kernel)))
  exact absurd (hopens.symm.trans (h o k hp)) Bool.true_eq_false.mp

/-- One call's connect fails, which opens the breaker, while a second call that was admitted waits for
the permit; then that one goes on to where it starts its client's call. -/
def overtaken : List (Nat × Choice) :=
  goes 0 1 ++ [(0, .clock 0)] ++ goes 0 2 ++ goes 1 1 ++ [(1, .clock 0)] ++ goes 1 2 ++ goes 0 7 ++
    [(0, .fail 0 [] "refused")] ++ goes 0 6 ++ [(0, .clock 1)] ++ goes 1 4

/-- Task `t` is about to start its client's call. -/
def starting (s : Config Calls ProductionPool Outcome) (t : Nat) : Bool :=
  match s.tasks[t]? with
  | some (.perform (.timed _ .lock) _) => true
  | _ => false

/-- It starts, one instant after the breaker has opened. -/
theorem overtaken_starts :
    ¬ ∀ (S : Codec) (config : PoolConfig) (jobs : List Job) (run : List (Nat × Choice)),
      (start S config jobs).Along machine (Config.Performs StartsAdmitted) run := by
  intro hall
  have hend : ((start compact tight [asking, asking]).run machine overtaken).any (fun s =>
      starting s 1 && decide ((s.world.pool.breaker.canExecute 1).1 =
        .error (.connectionFailed "circuit breaker open"))) = true := by decide +kernel
  obtain ⟨s, hrun, hs⟩ := (Option.any_eq_true _ _).mp hend
  obtain ⟨hstarting, hrefuses⟩ := Bool.and_eq_true_iff.mp hs
  have hstarts := Config.along_at (hall compact tight [asking, asking] (overtaken ++ [(1, .go)])) hrun
  unfold starting at hstarting
  split at hstarting
  · next client k hp =>
    have hrefuses : (s.world.pool.breaker.canExecute 1).1 =
        .error (.connectionFailed "circuit breaker open") := of_decide_eq_true hrefuses
    exact hstarts _ k hp client rfl 1 hrefuses
  · cases hstarting

end ProductionPool

end XProtocol
