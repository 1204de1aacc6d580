import Mathlib.Data.List.ReduceOption
import XProtocol.Pool.Finishing
import XProtocol.Pool.Inevitable

/-! Calls of the production pool that nothing hinders.

Here a call may be refused before it has a client: by the shutdown flag, by the breaker and by
the semaphore. Where no timer fires and nothing goes wrong on the way, the breaker is never told
of a failure, and it admits everyone; the flag is set and the semaphore closed by `close` only.
So every call returns what the handler has made of its own request, unless the pool is closed
meanwhile; and then it returns that, or is refused before it has asked for anything
(`timed_calls_answered`). -/
namespace XProtocol.ProductionPool
open Async
open Json (Value Codec)
open SharedUdsClient (Party Apart UnhinderedAt surelyTaking)
open UdsClient (Obliging Apt)
open UdsServer (Setup Watch peer Welcoming Handled)

/-! ### What the pool tells a call -/

/-- No failure is recorded, and the pool is closed only if it may be. -/
def owes (closes : Prop) : Op → Prop
  | .shutDown | .closeSemaphore => closes
  | .recordFailure => False
  | _ => True

/-- Nobody is refused but for the pool being closed. -/
def told (closes : Prop) : (o : Op) → Calls.Ret o → Prop
  | .shuttingDown, down => down = true → closes
  | .acquire, granted => granted = false → closes
  | .canExecute, admitted => admitted = .ok ()
  | _, _ => True

/-- The breaker is closed, and nobody has closed the pool who may not. -/
structure Willing (closes : Prop) (p : PoolState) : Prop where
  breaker : p.breaker.state = .closed
  shutdown : p.shutdown = true → closes
  semaphore : p.semaphoreClosed = true → closes

section
variable {closes : Prop} {p p' : PoolState} {t : Nat} {o : Op} {choice : Choice}

theorem willing_new (config : PoolConfig) : Willing closes (withConfig config).pool where
  breaker := rfl
  shutdown h := by cases h
  semaphore h := by cases h

theorem canExecute_closed {b : CircuitBreaker} (h : b.state = .closed) (now : Nat) :
    b.canExecute now = (.ok (), b) := by
  simp only [CircuitBreaker.canExecute, CircuitBreaker.observe, h]

theorem recordSuccess_closed {b : CircuitBreaker} (h : b.state = .closed) : b.recordSuccess.state = .closed := by
  simp [CircuitBreaker.recordSuccess, h]

/-- An operation on the pool tells so, and keeps the pool open. -/
theorem Willing.perform {r : Calls.Ret o} (h : Willing closes p) (hp : performPool t o choice p = some (r, p'))
    (hd : owes closes o) : told closes o r ∧ Willing closes p' := by
  cases o with
  | shuttingDown =>
    cases choice <;> cases hp
    exact ⟨h.shutdown, h⟩
  | shutDown =>
    cases choice <;> cases hp
    exact ⟨trivial, h.breaker, fun _ => hd, h.semaphore⟩
  | closeSemaphore =>
    cases choice <;> cases hp
    exact ⟨trivial, h.breaker, h.shutdown, fun _ => hd⟩
  | canExecute =>
    cases choice with
    | clock now =>
      rw [performPool, canExecute_closed h.breaker now] at hp
      cases hp
      exact ⟨rfl, h⟩
    | _ => cases hp
  | recordSuccess =>
    cases choice <;> cases hp
    exact ⟨trivial, recordSuccess_closed h.breaker, h.shutdown, h.semaphore⟩
  | recordFailure => exact hd.elim
  | acquire =>
    cases choice with
    | go =>
      simp only [performPool] at hp
      split_ifs at hp with hclosed hpermits <;> cases hp
      · exact ⟨fun _ => h.semaphore hclosed, h⟩
      · exact ⟨(fun hgranted => by cases hgranted), h.breaker, h.shutdown, h.semaphore⟩
    | _ => cases hp
  | lockPool =>
    cases choice with
    | go =>
      obtain ⟨-, heq⟩ := Option.ite_none_right_eq_some.mp hp
      cases heq
      exact ⟨trivial, h.breaker, h.shutdown, h.semaphore⟩
    | _ => cases hp
  | timed client o | plain client o => cases choice <;> cases hp
  | _ =>
    cases choice <;> cases hp
    exact ⟨trivial, h.breaker, h.shutdown, h.semaphore⟩

end

/-! ### The text of a call -/

/-- The discipline of the callers, from that of each client's: where no timer fires, the client's operations
answer, and the pool tells what it tells. -/
def admitting {G : Type} (T : Nat → Discipline SharedUdsClient.Calls G) (closes : Prop) : Discipline Calls G where
  demand k
    | .timed client o | .plain client o => (T client).demand k o
    | o => owes closes o
  move k
    | .timed client o, r, k' => ∃ b, r = some b ∧ (T client).move k o b k'
    | .plain client o, r, k' => (T client).move k o r k'
    | o, r, k' => told closes o r ∧ k' = k

/-- The operation is on the pool, and owes nothing. -/
def Op.free : Op → Bool
  | .timed .. | .plain .. | .shutDown | .closeSemaphore | .recordFailure => false
  | _ => true

/-- How a call is refused. -/
def Refusal (e : ProtocolError) : Prop :=
  e = .server "pool is shutting down" ∨ e = .resourceExhausted "pool exhausted"

section
variable {G α : Type} {T : Nat → Discipline SharedUdsClient.Calls G} {closes : Prop} {S : Codec} {k : G}
  {R : G → ProtocolError → Prop}

theorem op_admitting {o : Op} (ho : o.onPool = true) (hd : owes closes o) {f : Calls.Ret o → Code α}
    {Q : G → α → Prop}
    (h : ∀ r, told closes o r → Meets (admitting T closes) (f r) Q R k) :
    Meets (admitting T closes) (op o >>= f) Q R k := by
  refine meets_bind.mpr (meets_lift.mpr ((safe_op ..).mpr ⟨?_, fun r k' hm => ?_⟩))
  · cases o <;> first | exact hd | cases ho
  · obtain ⟨htold, rfl⟩ : told closes o r ∧ k' = k := by cases o <;> first | exact hm | cases ho
    exact h r htold

theorem free_admitting {o : Op} (ho : o.free = true) {f : Calls.Ret o → Code α} {Q : G → α → Prop}
    (h : ∀ r, told closes o r → Meets (admitting T closes) (f r) Q R k) :
    Meets (admitting T closes) (op o >>= f) Q R k := by
  have hpool : o.onPool = true ∧ owes closes o := by cases o <;> first | exact ⟨rfl, trivial⟩ | cases ho
  exact op_admitting hpool.1 hpool.2 h

/-- A client's call comes to its end under the timer. -/
theorem timedCall_admitting {client : Nat} {service method : String} {payload : Value}
    {Q : G → Result ServiceResponse → Prop}
    (h : Safe (T client) (SharedUdsClient.call S service method payload) Q k) :
    Safe (admitting T closes) (timedCall S client service method payload)
      (fun k' result => ∃ r, result = some r ∧ Q k' r) k := by
  have hdemand (g k : G) (o : SharedUdsClient.Op) (hgk : g = k) (hd : (T client).demand g o) :
      (admitting T closes).demand k (.timed client o) := hgk ▸ hd
  have hmove (g k : G) (o : SharedUdsClient.Op) (r : Calls.Ret (.timed client o)) (k' : G)
      (b : SharedUdsClient.Calls.Ret o) (hgk : g = k) (_ : (T client).demand g o)
      (hm : (admitting T closes).move k (.timed client o) r k') (hb : r = some b) :
      ∃ g', (T client).move g o b g' ∧ g' = k' := by
    obtain ⟨b', hr, hm⟩ := hm
    obtain rfl : b' = b := Option.some.inj (hr.symm.trans hb)
    exact ⟨k', hgk ▸ hm, rfl⟩
  -- no operation is told that the timer has fired
  have hdrop (g k : G) (o : SharedUdsClient.Op) (r : Calls.Ret (.timed client o)) (k' : G) (_ : g = k)
      (_ : (T client).demand g o) (hm : (admitting T closes).move k (.timed client o) r k') (hr : r = none) :
      False := by
    obtain ⟨b, hb, -⟩ := hm
    cases hr.symm.trans hb
  refine safe_mono (safe_embed_droppable hdemand hmove hdrop h rfl) ?_
  rintro k' (_ | r) ⟨hreturned, hdropped⟩
  · exact (hdropped rfl).elim
  · obtain ⟨_, rfl, hQ⟩ := hreturned r rfl
    exact ⟨r, rfl, hQ⟩

/-- **A call of the pool ends as the call of its client does**, or is refused before it has one. -/
theorem callWithTimeout_admitting {service method : String} {payload : Value} {Q : G → ServiceResponse → Prop}
    (hcall : ∀ client, Safe (T client) (SharedUdsClient.call S service method payload) (Ends Q fun _ _ => False) k)
    (hrefused : closes → ∀ e, Refusal e → R k e) :
    Meets (admitting T closes) (callWithTimeout S service method payload) Q R k := by
  unfold callWithTimeout
  refine free_admitting rfl fun down hdown => ?_
  cases down with
  | true => exact hrefused (hdown rfl) _ (.inl rfl)
  | false =>
  refine free_admitting rfl fun admitted hadmitted => ?_
  obtain rfl : admitted = .ok () := hadmitted
  refine free_admitting rfl fun _ _ => free_admitting rfl fun _ _ =>
    free_admitting rfl fun granted hgranted => ?_
  cases granted with
  | false => exact free_admitting rfl fun _ _ => hrefused (hgranted rfl) _ (.inr rfl)
  | true =>
  -- whichever client it is, from its coming out of the lock on
  have hclient (client : Nat) : Meets (admitting T closes) (do
      op .unlockPool
      let result ← monadLift (timedCall S client service method payload)
      op .lockPool
      op (.push client)
      op .unlockPool
      op .release
      op (.sub .activeRequests)
      settle result) Q R k := by
    refine free_admitting rfl fun _ _ => ?_
    rw [meets_bind, meets_lift]
    refine safe_mono (timedCall_admitting (hcall client)) ?_
    rintro k' _ ⟨r, rfl, hr⟩
    cases r with
    | error e => exact hr.elim
    | ok response =>
      exact free_admitting rfl fun _ _ => free_admitting rfl fun _ _ => free_admitting rfl fun _ _ =>
        free_admitting rfl fun _ _ => free_admitting rfl fun _ _ => free_admitting rfl fun _ _ =>
          free_admitting rfl fun _ _ => hr
  refine free_admitting rfl fun _ _ => free_admitting rfl fun idle _ => ?_
  cases idle with
  | some client => exact hclient client
  | none => exact free_admitting rfl fun client _ => hclient client

section Close
variable {J : G → Prop} (hclose : ∀ client k, J k → Safe (T client) SharedUdsClient.close (fun k' _ => J k') k)
include hclose

theorem closeClients_admitting (clients : List Nat) (hk : J k) :
    Meets (admitting T closes) (closeClients clients) (fun k _ => J k) R k := by
  induction clients generalizing k with
  | nil => exact hk
  | cons client rest ih =>
    unfold closeClients
    rw [meets_bind, meets_lift]
    have hdemand (g k : G) (o : SharedUdsClient.Op) (hgk : g = k) (hd : (T client).demand g o) :
        (admitting T closes).demand k (.plain client o) := hgk ▸ hd
    have hmove (g k : G) (o : SharedUdsClient.Op) (r : SharedUdsClient.Calls.Ret o) (k' : G) (hgk : g = k)
        (_ : (T client).demand g o) (hm : (admitting T closes).move k (.plain client o) r k') :
        ∃ g', (T client).move g o r g' ∧ g' = k' := ⟨k', hgk ▸ hm, rfl⟩
    refine safe_mono (safe_embed hdemand hmove (hclose client k hk) rfl) ?_
    rintro _ _ ⟨k', rfl, hk'⟩
    exact ih hk'

theorem close_admitting (hcloses : closes) (hk : J k) : Meets (admitting T closes) close (fun k _ => J k) R k := by
  unfold close
  refine op_admitting (o := .shutDown) rfl hcloses fun _ _ => op_admitting (o := .closeSemaphore) rfl hcloses fun _ _ =>
    free_admitting rfl fun _ _ => free_admitting rfl fun clients _ => ?_
  rw [meets_bind]
  refine meets_mono (closeClients_admitting hclose clients hk) (fun k _ hk => ?_) fun _ _ h => h
  refine free_admitting rfl fun _ _ => ?_
  rw [← bind_pure (op .unlockPool)]
  exact free_admitting rfl fun _ _ => hk

end Close

end

/-! ### The pool as a machine -/

/-- No timer fires, and nothing goes wrong at the operation. -/
def Unhindered (P : Peer) (w : ProductionPool) (_ : Nat) : Op → Choice → Prop
  | .timed client o, choice | .plain client o, choice =>
    untimed choice = true ∧ UnhinderedAt P w.clients client o choice
  | _, choice => untimed choice = true

theorem Unhindered.untimed {P : Peer} {w : ProductionPool} {t : Nat} {o : Op} {choice : Choice}
    (h : Unhindered P w t o choice) : untimed choice = true := by
  cases o with
  | timed client o | plain client o => exact h.1
  | _ => exact h

section
variable {S : Codec} {Proper : ServiceRequest → Prop} {P : Peer} {closes : Prop}

/-- What operations on clients uphold, the pool's operations uphold. -/
theorem upheld_admitting {G : Type} {T : Nat → Discipline SharedUdsClient.Calls G} {I : Clients → (Nat → G) → Prop}
    (h : Upheld SharedUdsClient.machine (SharedUdsClient.among T) (SharedUdsClient.Unhindered P) I) :
    Upheld machine (admitting T closes) (Unhindered P) fun w γ => I w.clients γ ∧ Willing closes w.pool := by
  rintro w γ t o choice r w' ⟨hI, hwilling⟩ hd hun hperform
  cases o with
  | timed client o =>
    have hdrop : choice.isDrop = false := by simpa [untimed] using hun.1
    rw [timed_untimed hdrop] at hperform
    obtain ⟨⟨r', v⟩, hv, heq⟩ := Option.map_eq_some_iff.mp hperform
    obtain ⟨rfl, rfl⟩ := Prod.mk.inj heq
    obtain ⟨g, hmove, hI'⟩ := h w.clients γ t (client, o) choice r' v hI hd hun.2 hv
    exact ⟨g, ⟨r', rfl, hmove⟩, hI', hwilling⟩
  | plain client o =>
    obtain ⟨⟨r', v⟩, hv, heq⟩ := Option.map_eq_some_iff.mp hperform
    obtain ⟨rfl, rfl⟩ := Prod.mk.inj heq
    obtain ⟨g, hmove, hI'⟩ := h w.clients γ t (client, o) choice r' v hI hd hun.2 hv
    exact ⟨g, hmove, hI', hwilling⟩
  | _ =>
    obtain ⟨⟨r', p'⟩, hp, heq⟩ := Option.map_eq_some_iff.mp hperform
    obtain ⟨rfl, rfl⟩ := Prod.mk.inj heq
    obtain ⟨htold, hwilling'⟩ := hwilling.perform hp hd
    refine ⟨γ t, ⟨htold, rfl⟩, ?_, hwilling'⟩
    rw [Function.update_eq_self]
    exact hI

/-- Who can move without a timer can move unhindered. -/
theorem moves_unhindered (hP : Obliging S Proper P) {w : ProductionPool} {γ : Nat → Party}
    (hsurely : SharedUdsClient.Surely S Proper P w.clients γ) {t : Nat} {o : Op}
    (hd : (admitting (fun i => surelyTaking S Proper i P) closes).demand (γ t) o)
    (hcan : ∃ choice x, (machine.only untimed).perform t o choice w = some x) :
    ∃ choice x, Unhindered P w t o choice ∧ (machine.only untimed).perform t o choice w = some x := by
  obtain ⟨choice, x, hx⟩ := hcan
  obtain ⟨huntimed, hstep⟩ := Machine.only_some.mp hx
  have hclient (client : Nat) (o : SharedUdsClient.Op)
      (hd : (admitting (fun i => surelyTaking S Proper i P) closes).demand (γ t) (.plain client o))
      (hcan : ∃ choice y, w.clients.perform t client o choice = some y) :
      ∃ choice y, choice.isDrop = false ∧ UnhinderedAt P w.clients client o choice ∧
        w.clients.perform t client o choice = some y := by
    obtain ⟨choice, y, hun, hy⟩ := SharedUdsClient.unhindered_moves hP hsurely.1 hsurely.2 hd.1 hd.2 hcan
    exact ⟨choice, y, hun.undropped hy, hun, hy⟩
  cases o with
  | timed client o =>
    rw [timed_untimed (by simpa [untimed] using huntimed)] at hstep
    obtain ⟨y, hy, -⟩ := Option.map_eq_some_iff.mp hstep
    obtain ⟨choice, z, hdrop, hun, hz⟩ := hclient client o hd ⟨choice, y, hy⟩
    have huntimed : untimed choice = true := by simp [untimed, hdrop]
    exact ⟨choice, _, ⟨huntimed, hun⟩,
      Machine.only_some.mpr ⟨huntimed, (timed_untimed hdrop).trans (congrArg (Option.map _) hz)⟩⟩
  | plain client o =>
    obtain ⟨y, hy, -⟩ := Option.map_eq_some_iff.mp hstep
    obtain ⟨choice, z, hdrop, hun, hz⟩ := hclient client o hd ⟨choice, y, hy⟩
    have huntimed : untimed choice = true := by simp [untimed, hdrop]
    exact ⟨choice, _, ⟨huntimed, hun⟩, Machine.only_some.mpr ⟨huntimed, congrArg (Option.map _) hz⟩⟩
  | _ => exact ⟨choice, x, huntimed, hx⟩

end

/-! ### What the callers get -/

/-- What the tasks of a job ask their clients for. -/
def Job.asked : Job → List (Option Call)
  | .call service method payload => [some ⟨service, method, payload⟩]
  | .batch requests => requests.map fun x => some ⟨x.1, x.2.1, x.2.2⟩
  | .close => [none]

def taskOf (S : Codec) : Option Call → Program Calls Outcome
  | some call => Outcome.reply <$> (callWithTimeout S call.service call.method call.payload).run
  | none => (fun _ => Outcome.closed) <$> ProductionPool.close.run

theorem tasks_asked (S : Codec) (config : PoolConfig) (jobs : List Job) :
    (start S config jobs).tasks = (jobs.flatMap Job.asked).map (taskOf S) := by
  rw [List.map_flatMap]
  refine List.flatMap_congr fun job _ => ?_
  cases job with
  | call service method payload => rfl
  | batch requests => simp [Job.tasks, callBatchWithTimeout, Job.asked, taskOf]
  | close => rfl

/-- Who asks for nothing closes the pool. -/
theorem close_of_asked {jobs : List Job} (h : none ∈ jobs.flatMap Job.asked) : Job.close ∈ jobs := by
  obtain ⟨job, hjob, hnone⟩ := List.mem_flatMap.mp h
  cases job with
  | close => exact hjob
  | _ => simp [Job.asked] at hnone

/-- What a task returns that asks for a call: the response to its own request; or it is refused, and has made none. -/
def Responded (S : Codec) (P : Peer) (closes : Prop) (asked : Option Call) (k : Party) (outcome : Outcome) : Prop :=
  ∀ call, asked = some call →
    (∃ response, outcome = .reply (.ok response) ∧
      UdsClient.RepliedBy S (fun request => k.made = [request]) ((k.grasp .calm).Told P)
        (.call call.service call.method call.payload) (.reply (.ok response))) ∨
    closes ∧ k.made = [] ∧ ∃ e, Refusal e ∧ outcome = .reply (.error e)

theorem task_responded {S : Codec} {Proper : ServiceRequest → Prop} {P : Peer} {closes : Prop} (hP : P.Whole)
    {asked : Option Call} (happly : ∀ call, asked = some call → Apt Proper call.service call.method call.payload)
    (hcloses : asked = none → closes) :
    Safe (admitting (fun i => surelyTaking S Proper i P) closes) (taskOf S asked) (Responded S P closes asked)
      ⟨none, [], []⟩ := by
  cases asked with
  | some call =>
    have hcall (client : Nat) :=
      SharedUdsClient.call_surelyTaking (S := S) (i := client) (k := ⟨none, [], []⟩) hP rfl (happly call rfl)
    refine safe_map (callWithTimeout_admitting (R := fun k e => closes ∧ k.made = [] ∧ Refusal e) hcall
      fun hc e he => ⟨hc, rfl, he⟩) (fun k response h call' hasked => ?_) fun k e h call' _ => ?_
    · cases hasked
      exact .inl ⟨response, rfl, h⟩
    · obtain ⟨hc, hmade, he⟩ := h
      exact .inr ⟨hc, hmade, e, he, rfl⟩
  | none =>
    refine safe_map (close_admitting (R := fun _ _ => False) (fun _ _ hk => SharedUdsClient.close_surelyTaking hk)
      (hcloses rfl) rfl) (fun _ _ _ _ hasked => ?_) fun _ _ h => h.elim
    cases hasked

theorem start_responds {S : Codec} {Proper : ServiceRequest → Prop} {P : Peer} (hP : P.Whole) (config : PoolConfig)
    {jobs : List Job}
    (happly : ∀ call, some call ∈ jobs.flatMap Job.asked → Apt Proper call.service call.method call.payload) :
    Kept (admitting (fun i => surelyTaking S Proper i P) (Job.close ∈ jobs))
      (fun w γ => SharedUdsClient.Surely S Proper P w.clients γ ∧ Willing (Job.close ∈ jobs) w.pool)
      (fun t k outcome => ∀ asked, (jobs.flatMap Job.asked)[t]? = some asked →
        Responded S P (Job.close ∈ jobs) asked k outcome) (start S config jobs) := by
  refine ⟨fun _ => ⟨none, [], []⟩, ⟨SharedUdsClient.surely_new, willing_new config⟩, fun t p hp => ?_⟩
  rw [tasks_asked, List.getElem?_map, Option.map_eq_some_iff] at hp
  obtain ⟨asked, hasked, rfl⟩ := hp
  have hmem := List.mem_of_getElem? hasked
  refine safe_mono (task_responded hP (fun call hcall => happly call (hcall ▸ hmem)) fun hnone => ?_)
    fun k outcome h asked' hasked' => ?_
  · exact close_of_asked (hnone ▸ hmem)
  · obtain rfl := Option.some.inj (hasked.symm.trans hasked')
    exact h

/-- **Calls of the production pool that nothing hinders are answered.** Where the server welcomes the calls, no timer
fires and nothing goes wrong on the way, the pool comes to its end, whatever is chosen: every task has returned then,
and each call, in a batch or not, with what the handler has made of its own request; but if the pool is closed
meanwhile, a call may be refused instead, and then it has asked for nothing. -/
theorem timed_calls_answered {σ : Type} (E : Site σ) (setup : Setup) (accepts : ConnId → σ × Watch)
    (config : PoolConfig) (hmax : 0 < config.maxConcurrent) (jobs : List Job)
    (h : Welcoming E setup accepts (jobs.flatMap Job.asked).reduceOption) :
    (start E.codec config jobs).Inevitably machine (Config.Performs (Unhindered (peer E setup accepts))) fun s =>
      ∀ t asked, (jobs.flatMap Job.asked)[t]? = some asked → (∃ outcome, s.returned t = some outcome) ∧
        ∀ call, asked = some call →
          (∃ response, s.returned t = some (.reply (.ok response)) ∧
            Handled E setup accepts s.world.clients.net s.tasks.length t call response) ∨
          Job.close ∈ jobs ∧ s.world.clients.net.created t = [] ∧
            ∃ e, Refusal e ∧ s.returned t = some (.reply (.error e)) := by
  have hP := h.obliging
  have hends := (ordered hmax).inevitably (owned_upheld.only untimed) (Config.along_tasks _) rfl
    (start_ordered E.codec config jobs) rest_none
    ((upheld_admitting (SharedUdsClient.surely_upheld hP)).only untimed)
    (start_responds hP.whole config fun call hasked => UdsServer.apt_of_mem (List.reduceOption_mem_iff.mpr hasked))
    fun w γ t o hI hd hcan => moves_unhindered hP hI.1 hd hcan
  refine (hends.of_only fun w t o choice hun => hun.untimed).mono ?_
  rintro s ⟨hleads, hall⟩ t asked hasked
  obtain ⟨ls, hrun⟩ := hleads.run_only
  have ht : t < (start E.codec config jobs).tasks.length := by
    rw [tasks_asked, List.length_map]
    exact (List.getElem?_eq_some_iff.mp hasked).1
  obtain ⟨γ, outcome, hreturned, ⟨hsurely, -⟩, hresponded⟩ := hall t ht
  refine ⟨⟨outcome, hreturned⟩, fun call hcall => ?_⟩
  rcases hresponded asked hasked call hcall with ⟨response, rfl, hreplied⟩ | ⟨hclose, hmade, e, he, rfl⟩
  · obtain ⟨_, hsparing⟩ := Config.throughout_last (sparing_throughout E.codec config jobs ls) hrun
    rw [← Config.run_length hrun] at ht hsparing
    exact .inl ⟨response, hreturned, handled_of_known hsurely.1 hsparing.once ht hreplied⟩
  · exact .inr ⟨hclose, (hsurely.1.made t).symm.trans hmade, e, he, hreturned⟩

/-- A call and a batch, which a closing may overtake. -/
theorem timed_calls_answered_pings :
    (start Json.Text.compact ⟨1, 1, 1⟩ [.call "echo" "ping" .null, .batch [("echo", "ping", .null)],
      .close]).Inevitably machine
      (Config.Performs (Unhindered (peer UdsServer.Sample.site UdsServer.Sample.setup fun _ =>
        (0, UdsServer.Sample.watch)))) fun s =>
      ∀ t asked, [some UdsClientPool.ping, some UdsClientPool.ping, none][t]? = some asked →
        (∃ outcome, s.returned t = some outcome) ∧
        ∀ call, asked = some call →
          (∃ response, s.returned t = some (.reply (.ok response)) ∧
            Handled UdsServer.Sample.site UdsServer.Sample.setup (fun _ => (0, UdsServer.Sample.watch))
              s.world.clients.net s.tasks.length t call response) ∨
          Job.close ∈ [Job.call "echo" "ping" .null, .batch [("echo", "ping", .null)], .close] ∧
            s.world.clients.net.created t = [] ∧ ∃ e, Refusal e ∧ s.returned t = some (.reply (.error e)) :=
  timed_calls_answered UdsServer.Sample.site UdsServer.Sample.setup (fun _ => (0, UdsServer.Sample.watch)) ⟨1, 1, 1⟩
    (by decide) [.call "echo" "ping" .null, .batch [("echo", "ping", .null)], .close] UdsClientPool.welcoming_pings

end XProtocol.ProductionPool
