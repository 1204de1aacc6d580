import XProtocol.Client.Concurrent
import XProtocol.Pool.Lanes

/-! Whose reply a call of a pool of clients returns.

The calls of a pool find their clients in the idle list, or make them; a client changes
hands with its stream, and with it whatever was left on that stream. Nothing is: a client
is put back only when its mutex is free, and then every answer on its stream has been read
(`SharedUdsClient.Apart`). So every response is the peer's answer to the request of the
call that returns it, whichever way the client has come, and whoever closes it meanwhile
(`UdsClientPool.run_answers`). In the pool with topics the same is true of the client that
all calls of a topic share (`TopicBasedPool.run_answers`). -/
namespace XProtocol
open Async
open Json (Value Codec)
open Wire
open SharedUdsClient (Party Apart HonestAt taking apart_new)

/-- A call of a shared client, as an end of the call around it. -/
theorem SharedUdsClient.call_ends (S : Codec) {P : Peer} (hP : P.Whole) {i : Nat} {k : Party} (hk : k.inside = none)
    (service method : String) (payload : Value) :
    Safe (taking P i) (SharedUdsClient.call S service method payload)
      (Ends (fun k' response => (k'.grasp .calm).Replied P S k.made (.call service method payload)
        (.reply (.ok response))) fun _ _ => True) k := by
  refine safe_mono (SharedUdsClient.call_taking S hP hk service method payload) fun k r hr => ?_
  cases r with
  | ok response => exact hr.2
  | error e => trivial

namespace UdsClientPool

/-- The discipline of a pool's callers, from that of each client's: an operation on the pool itself leaves the
knowledge alone, and a permit is granted. -/
def through {G : Type} (T : Nat → Discipline SharedUdsClient.Calls G) : Discipline Calls G where
  demand k
    | .on client o => (T client).demand k o
    | _ => True
  move k
    | .on client o, r, k' => (T client).move k o r k'
    | .acquire, granted, k' => granted = true ∧ k' = k
    | _, _, k' => k' = k

/-- The operation is on the pool itself. -/
def Op.onPool : Op → Bool
  | .on .. => false
  | _ => true

/-! ### The text of a call -/

section
variable {G α : Type} {T : Nat → Discipline SharedUdsClient.Calls G} {S : Codec} {k : G} {m : Nat}
  {R : G → ProtocolError → Prop}

/-- An operation on the pool itself leaves the knowledge alone. -/
theorem op_through {o : Op} (ho : o.onPool = true) {f : Calls.Ret o → Code α} {Q : G → α → Prop}
    (h : ∀ r, Meets (through T) (f r) Q R k) : Meets (through T) (op o >>= f) Q R k := by
  refine meets_bind.mpr (meets_lift.mpr ((safe_op ..).mpr ⟨?_, fun r k' hm => ?_⟩))
  · cases o <;> first | exact trivial | cases ho
  · obtain rfl : k' = k := by cases o <;> first | exact hm | exact hm.2 | cases ho
    exact h r

theorem acquire_through {f : Bool → Code α} {Q : G → α → Prop} (h : Meets (through T) (f true) Q R k) :
    Meets (through T) (op .acquire >>= f) Q R k := by
  refine meets_bind.mpr (meets_lift.mpr ((safe_op ..).mpr ⟨trivial, ?_⟩))
  rintro _ _ ⟨rfl, rfl⟩
  exact h

theorem newClient_through {Q : G → Nat → Prop} (hQ : ∀ client, Q k client) :
    Meets (through T) (op .newClient) Q R k := by
  rw [← bind_pure (op .newClient)]
  exact op_through rfl fun client => (meets_pure client).mpr (hQ client)

theorem takeIdle_through {Q : G → Option Nat → Prop} (hQ : ∀ client, Q k client) : Meets (through T) takeIdle Q R k :=
  op_through rfl fun _ => op_through rfl fun client => op_through rfl fun _ => hQ client

theorem retry_through (retries : Nat) {Q : G → Nat → Prop} (hQ : ∀ client, Q k client) :
    Meets (through T) (retry retries) Q R k := by
  induction retries with
  | zero => exact newClient_through hQ
  | succ retries ih =>
    unfold retry
    rw [meets_bind]
    refine takeIdle_through fun client => ?_
    cases client with
    | some client => exact hQ client
    | none => exact op_through rfl fun _ => ih

theorem getOrCreateClient_through {Q : G → Nat → Prop} (hQ : ∀ client, Q k client) :
    Meets (through T) (getOrCreateClient m) Q R k := by
  unfold getOrCreateClient
  rw [meets_bind]
  refine takeIdle_through fun client => ?_
  cases client with
  | some client => exact hQ client
  | none =>
    refine op_through rfl fun created => ?_
    split
    · exact newClient_through hQ
    · exact op_through rfl fun _ => retry_through 3 hQ

theorem itemClient_through {Q : G → Nat → Prop} (hQ : ∀ client, Q k client) :
    Meets (through T) (itemClient m) Q R k := by
  unfold itemClient
  rw [meets_bind]
  refine takeIdle_through fun client => ?_
  cases client with
  | some client => exact hQ client
  | none =>
    refine op_through rfl fun created => ?_
    split
    · exact newClient_through hQ
    · exact op_through rfl fun _ => newClient_through hQ

theorem putBack_through {client : Nat} {Q : G → Option Nat → Prop} (hQ : ∀ left, Q k left) :
    Meets (through T) (putBack m client) Q R k := by
  unfold putBack
  refine op_through rfl fun _ => op_through rfl fun n => ?_
  split
  · exact op_through rfl fun _ => op_through rfl fun _ => hQ none
  · exact op_through rfl fun _ => hQ (some client)

theorem returnClient_through {client : Nat} {result : Result ServiceResponse} {Q : G → Unit → Prop} (hQ : Q k ()) :
    Meets (through T) (returnClient m client result) Q R k := by
  have hdiscard (client : Nat) : Meets (through T) (op (.discard client)) Q R k := by
    rw [← bind_pure (op (.discard client))]
    exact op_through rfl fun _ => (meets_pure ()).mpr hQ
  unfold returnClient
  split
  · rw [meets_bind]
    refine putBack_through fun left => ?_
    cases left with
    | none => exact hQ
    | some client => exact hdiscard client
  · exact hdiscard client

/-- A method of a client, in the hands of a call. -/
theorem onClient_through {client : Nat} {p : Program SharedUdsClient.Calls α} {Q : G → α → Prop}
    (h : Safe (T client) p Q k) :
    Meets (through T) (monadLift (p.embed (F := Calls) (Op.on client) fun _ r => r : Program Calls α)) Q R k := by
  refine meets_lift.mpr (safe_mono (safe_embed (D := T client) (fun _ _ _ h hd => h ▸ hd)
    (fun g k o r k' hgk _ hm => ⟨k', hgk ▸ hm, rfl⟩) h rfl) ?_)
  rintro _ _ ⟨_, rfl, hQ⟩
  exact hQ

section Calls
variable {service method : String} {payload : Value} {Q : G → ServiceResponse → Prop}
  (hcall : ∀ client, Safe (T client) (SharedUdsClient.call S service method payload) (Ends Q R) k)
include hcall

/-- **A call of the pool ends as the call of its client does.** -/
theorem call_through : Meets (through T) (call S m service method payload) Q R k := by
  unfold call
  refine acquire_through ?_
  show Meets _ (_ >>= _) _ _ _
  rw [meets_bind]
  refine getOrCreateClient_through fun client => ?_
  rw [meets_bind]
  refine onClient_through (safe_mono (hcall client) fun k result hresult => ?_)
  rw [meets_bind]
  exact returnClient_through (op_through rfl fun _ => (meets_mk result).mpr hresult)

theorem callItem_through : Meets (through T) (callItem S m service method payload) Q R k := by
  unfold callItem
  refine acquire_through ?_
  show Meets _ (_ >>= _) _ _ _
  rw [meets_bind]
  refine itemClient_through fun client => ?_
  rw [meets_bind]
  refine onClient_through (safe_mono (hcall client) fun k result hresult => ?_)
  have hend (left : Option Nat) : Meets (through T) (do
      op .release
      leave left
      ExceptT.mk (pure result)) Q R k := by
    refine op_through rfl fun _ => ?_
    cases left with
    | none => exact (meets_mk result).mpr hresult
    | some client => exact op_through rfl fun _ => (meets_mk result).mpr hresult
  split
  · rw [meets_bind]
    exact putBack_through hend
  · exact hend (some client)

end Calls

section Close
variable {J : G → Prop} (hclose : ∀ client k, J k → Safe (T client) SharedUdsClient.close (fun k' _ => J k') k)
include hclose

theorem closeClients_through (clients : List Nat) (hk : J k) :
    Meets (through T) (closeClients clients) (fun k _ => J k) R k := by
  induction clients generalizing k with
  | nil => exact hk
  | cons client rest ih =>
    unfold closeClients
    rw [meets_bind]
    exact onClient_through (safe_mono (hclose client k hk) fun k' _ h => ih h)

theorem close_through (hk : J k) : Meets (through T) close (fun k _ => J k) R k := by
  unfold close
  refine op_through rfl fun _ => op_through rfl fun clients => ?_
  rw [meets_bind]
  refine meets_mono (closeClients_through hclose clients hk) (fun k _ hk => ?_) fun _ _ h => h
  refine op_through rfl fun _ => op_through rfl fun _ => ?_
  rw [← bind_pure (op .unlockPool)]
  exact op_through rfl fun _ => hk

end Close

end

/-! ### Runs -/

/-- What a task is. -/
inductive Role where
  | call (service method : String) (payload : Value)
  /-- An item of a batch. -/
  | item (service method : String) (payload : Value)
  | close

def Job.roles : Job → List Role
  | .call service method payload => [.call service method payload]
  | .batch requests => requests.map fun x => .item x.1 x.2.1 x.2.2
  | .close => [.close]

def Role.task (S : Codec) (m : Nat) : Role → Program Calls Outcome
  | .call service method payload => Outcome.reply <$> (UdsClientPool.call S m service method payload).run
  | .item service method payload => Outcome.reply <$> (callItem S m service method payload).run
  | .close => (fun _ => Outcome.closed) <$> UdsClientPool.close.run

theorem start_tasks (S : Codec) (n m : Nat) (jobs : List Job) :
    (start S n m jobs).tasks = (jobs.flatMap Job.roles).map (Role.task S m) := by
  rw [List.map_flatMap]
  refine List.flatMap_congr fun job _ => ?_
  cases job with
  | call service method payload => rfl
  | batch requests => simp [Job.tasks, callBatch, Job.roles, Role.task]
  | close => rfl

/-- A response that a task has returned is the peer's answer to the request it has made. -/
def Role.Replied (S : Codec) (Made : ServiceRequest → Prop) (Told : Frame → List Frame → Prop) :
    Role → Outcome → Prop
  | .call service method payload, .reply r | .item service method payload, .reply r =>
    UdsClient.RepliedBy S Made Told (.call service method payload) (.reply r)
  | _, _ => True

theorem Role.Replied.mono {Made Made' : ServiceRequest → Prop} {Told Told' : Frame → List Frame → Prop}
    (hmade : ∀ r, Made r → Made' r) (htold : ∀ f got, Told f got → Told' f got) {role : Role} {outcome : Outcome}
    (h : role.Replied S Made Told outcome) : role.Replied S Made' Told' outcome := by
  cases role with
  | call service method payload | item service method payload =>
    cases outcome with
    | reply r => exact UdsClient.RepliedBy.mono hmade htold h
    | closed => trivial
  | close => trivial

/-- A message that a client reads is one the peer has sent. -/
def Candid (P : Peer) (w : World) (_ : Nat) : Op → Choice → Prop
  | .on client o, choice => HonestAt P w.clients client o choice
  | _, _ => True

instance (P : Peer) (w : World) (t : Nat) (o : Op) (choice : Choice) : Decidable (Candid P w t o choice) :=
  match o with
  | .on client o => inferInstanceAs (Decidable (HonestAt P w.clients client o choice))
  | .acquire | .release | .lockPool | .unlockPool | .pop | .len | .push _ | .discard _ | .idle | .clear | .addCreated
  | .subCreated | .resetCreated | .newClient | .sleep => isTrue trivial

/-- What operations on clients uphold, the pool's operations uphold. -/
theorem upheld_through {G : Type} {T : Nat → Discipline SharedUdsClient.Calls G} {I : Clients → (Nat → G) → Prop}
    {P : Clients → Nat → SharedUdsClient.Many.Op → Choice → Prop} {P' : World → Nat → Op → Choice → Prop}
    (h : Upheld SharedUdsClient.machine (SharedUdsClient.among T) P I)
    (hP : ∀ w t client o choice, P' w t (.on client o) choice → P w.clients t (client, o) choice) :
    Upheld machine (through T) P' fun w γ => I w.clients γ := by
  intro w γ t o choice r w' hI hd hstep hperform
  cases o with
  | on client o =>
    obtain ⟨⟨r', v⟩, hv, heq⟩ := Option.map_eq_some_iff.mp hperform
    obtain ⟨rfl, rfl⟩ := Prod.mk.inj heq
    exact h w.clients γ t (client, o) choice r' v hI hd (hP w t client o choice hstep) hv
  | acquire =>
    obtain ⟨⟨r', p'⟩, hr, heq⟩ := Option.map_eq_some_iff.mp hperform
    obtain ⟨rfl, rfl⟩ := Prod.mk.inj heq
    have hgranted : r' = true := by
      cases choice <;> simp [performPool] at hr
      exact hr.2.1
    refine ⟨γ t, ⟨hgranted, rfl⟩, ?_⟩
    rw [Function.update_eq_self]
    exact hI
  | _ =>
    obtain ⟨⟨r', p'⟩, -, heq⟩ := Option.map_eq_some_iff.mp hperform
    obtain ⟨rfl, rfl⟩ := Prod.mk.inj heq
    refine ⟨γ t, rfl, ?_⟩
    rw [Function.update_eq_self]
    exact hI

theorem kept_through {G : Type} {T : Nat → Discipline SharedUdsClient.Calls G} {I : Clients → (Nat → G) → Prop}
    {k : G} {Q : Role → G → Outcome → Prop} (S : Codec) (n m : Nat) {jobs : List Job} (hI : I .new fun _ => k)
    (hrole : ∀ role ∈ jobs.flatMap Job.roles, Safe (through T) (role.task S m) (Q role) k) :
    Kept (through T) (fun w γ => I w.clients γ)
      (fun t k outcome => ∀ role, (jobs.flatMap Job.roles)[t]? = some role → Q role k outcome) (start S n m jobs) := by
  refine ⟨fun _ => k, hI, fun t p hp => ?_⟩
  rw [start_tasks, List.getElem?_map, Option.map_eq_some_iff] at hp
  obtain ⟨role, hrole', rfl⟩ := hp
  refine safe_mono (hrole role (List.mem_of_getElem? hrole')) fun k outcome h role' ht => ?_
  obtain rfl := Option.some.inj (hrole'.symm.trans ht)
  exact h

theorem role_answers (S : Codec) {P : Peer} (hP : P.Whole) (m : Nat) (role : Role) :
    Safe (through (taking P)) (role.task S m)
      (fun k outcome => role.Replied S (fun request => k.made = [request]) ((k.grasp .calm).Told P) outcome)
      ⟨none, [], []⟩ := by
  have hcall (service method : String) (payload : Value) (client : Nat) :=
    SharedUdsClient.call_ends S hP (i := client) (k := ⟨none, [], []⟩) rfl service method payload
  cases role with
  | call service method payload =>
    exact safe_map (call_through (hcall service method payload)) (fun _ _ h => h) fun _ _ _ => trivial
  | item service method payload =>
    exact safe_map (callItem_through (hcall service method payload)) (fun _ _ h => h) fun _ _ _ => trivial
  | close =>
    exact safe_map (close_through (R := fun _ _ => True) (fun _ _ hk => SharedUdsClient.close_taking hk) rfl)
      (fun _ _ _ => trivial) fun _ _ _ => trivial

/-- **The tasks of a run know whose answers they have returned**, however the calls, the batches
and `close` are interleaved. -/
theorem run_answers (S : Codec) {P : Peer} (hP : P.Whole) (n m : Nat) (jobs : List Job) (run : List (Nat × Choice))
    (s : Config Calls World Outcome) (hrun : (start S n m jobs).run machine run = some s)
    (hcandid : (start S n m jobs).Along machine (Config.Performs (Candid P)) run) :
    Kept (through (taking P)) (fun w γ => Apart P w.clients γ)
      (fun t k outcome => ∀ role, (jobs.flatMap Job.roles)[t]? = some role →
        role.Replied S (fun request => k.made = [request]) ((k.grasp .calm).Told P) outcome) s :=
  run_safe (upheld_through (SharedUdsClient.apart_upheld hP) fun _ _ _ _ _ h => h) hrun hcandid
    (kept_through S n m (apart_new P) fun role _ => role_answers S hP m role)

end UdsClientPool

/-! ### The pool with topics -/

namespace TopicBasedPool

/-- The discipline of the callers, from that of each client's: an operation on the table leaves the knowledge alone. -/
def through {G : Type} (T : Nat → Discipline SharedUdsClient.Calls G) : Discipline Calls G where
  demand k
    | .default o => (UdsClientPool.through T).demand k o
    | .on client o => (T client).demand k o
    | _ => True
  move k
    | .default o, r, k' => (UdsClientPool.through T).move k o r k'
    | .on client o, r, k' => (T client).move k o r k'
    | _, _, k' => k' = k

/-- The operation is on the table of topics and its clients' mutexes. -/
def Op.onTable : Op → Bool
  | .default _ | .on .. => false
  | _ => true

section
variable {G α : Type} {T : Nat → Discipline SharedUdsClient.Calls G} {S : Codec} {k : G} {m : Nat}
  {R : G → ProtocolError → Prop}

theorem op_through {o : Op} (ho : o.onTable = true) {f : Calls.Ret o → Code α} {Q : G → α → Prop}
    (h : ∀ r, Meets (through T) (f r) Q R k) : Meets (through T) (op o >>= f) Q R k := by
  refine meets_bind.mpr (meets_lift.mpr ((safe_op ..).mpr ⟨?_, fun r k' hm => ?_⟩))
  · cases o <;> first | exact trivial | cases ho
  · obtain rfl : k' = k := by cases o <;> first | exact hm | cases ho
    exact h r

theorem onClient_through {client : Nat} {p : Program SharedUdsClient.Calls (Result α)} {Q : G → Result α → Prop}
    (h : Safe (T client) p Q k) : Meets (through T) (onClient client p) Q R k := by
  refine meets_lift.mpr (safe_mono (safe_embed (D := T client) (fun _ _ _ h hd => h ▸ hd)
    (fun g k o r k' hgk _ hm => ⟨k', hgk ▸ hm, rfl⟩) h rfl) ?_)
  rintro _ _ ⟨_, rfl, hQ⟩
  exact hQ

/-- A method of the default pool ends here as it does there. -/
theorem onDefault_through {p : UdsClientPool.Code α} {Q : G → α → Prop}
    (h : Meets (UdsClientPool.through T) p Q R k) : Meets (through T) (onDefault p) Q R k := by
  refine safe_mono (safe_embed (D := UdsClientPool.through T) (fun _ _ _ h hd => h ▸ hd)
    (fun g k o r k' hgk _ hm => ⟨k', hgk ▸ hm, rfl⟩) h rfl) ?_
  rintro _ _ ⟨_, rfl, hQ⟩
  exact hQ

section Calls
variable {service method : String} {payload : Value} {Q : G → ServiceResponse → Prop}
  (hcall : ∀ client, Safe (T client) (SharedUdsClient.call S service method payload) (Ends Q R) k)
include hcall

theorem callSerial_through (topic : String) :
    Meets (through T) (callSerial S service method payload topic) Q R k := by
  unfold callSerial
  refine op_through rfl fun _ => op_through rfl fun _ => op_through rfl fun client => op_through rfl fun _ =>
    op_through rfl fun _ => ?_
  rw [meets_bind]
  refine onClient_through (safe_mono (hcall client) fun k result hresult => ?_)
  exact op_through rfl fun _ => (meets_mk result).mpr hresult

/-- **A request ends as the call of its client does**, whichever lane it takes. -/
theorem callWithTopic_through (topic : Option String) :
    Meets (through T) (callWithTopic S m service method payload topic) Q R k := by
  have hdefault : Meets (through T) (onDefault (UdsClientPool.call S m service method payload)) Q R k :=
    onDefault_through (UdsClientPool.call_through hcall)
  unfold callWithTopic
  cases topic with
  | none => exact hdefault
  | some topic =>
    by_cases hempty : topic.isEmpty
    · simp only [hempty, if_true]
      exact hdefault
    · simp only [hempty]
      exact callSerial_through hcall topic

end Calls

section Close
variable {J : G → Prop} (hclose : ∀ client k, J k → Safe (T client) SharedUdsClient.close (fun k' _ => J k') k)
include hclose

theorem closeClients_through (clients : List Nat) (hk : J k) :
    Meets (through T) (closeClients clients) (fun k _ => J k) R k := by
  induction clients generalizing k with
  | nil => exact hk
  | cons client rest ih =>
    unfold closeClients
    refine op_through rfl fun _ => ?_
    rw [meets_bind]
    exact onClient_through (safe_mono (hclose client k hk) fun k' _ h => op_through rfl fun _ => ih h)

theorem close_through (hk : J k) : Meets (through T) close (fun k _ => J k) R k := by
  unfold close
  rw [meets_bind]
  refine meets_mono (onDefault_through (UdsClientPool.close_through hclose hk)) (fun k _ hk => ?_) fun _ _ h => h
  refine op_through rfl fun _ => op_through rfl fun clients => ?_
  rw [meets_bind]
  refine meets_mono (closeClients_through hclose clients hk) (fun k _ hk => ?_) fun _ _ h => h
  rw [← bind_pure (op (.table .endRead))]
  exact op_through rfl fun _ => hk

end Close

end

def Role.Replied (S : Codec) (Made : ServiceRequest → Prop) (Told : Frame → List Frame → Prop) :
    Role → Outcome → Prop
  | .request service method payload _, .reply r =>
    UdsClient.RepliedBy S Made Told (.call service method payload) (.reply r)
  | _, _ => True

def Candid (P : Peer) (w : World) (t : Nat) : Op → Choice → Prop
  | .default o, choice => UdsClientPool.Candid P ⟨w.pool.defaultPool, w.clients⟩ t o choice
  | .on client o, choice => HonestAt P w.clients client o choice
  | _, _ => True

instance (P : Peer) (w : World) (t : Nat) (o : Op) (choice : Choice) : Decidable (Candid P w t o choice) :=
  match o with
  | .default o => inferInstanceAs (Decidable (UdsClientPool.Candid P ⟨w.pool.defaultPool, w.clients⟩ t o choice))
  | .on client o => inferInstanceAs (Decidable (HonestAt P w.clients client o choice))
  | .table _ | .entry _ | .iter | .lock _ | .unlock _ => isTrue trivial

/-- What operations on clients uphold, the pool's operations uphold, in whichever lane. -/
theorem upheld_through {G : Type} {T : Nat → Discipline SharedUdsClient.Calls G} {I : Clients → (Nat → G) → Prop}
    {P : Clients → Nat → SharedUdsClient.Many.Op → Choice → Prop} {P' : World → Nat → Op → Choice → Prop}
    (h : Upheld SharedUdsClient.machine (SharedUdsClient.among T) P I)
    (hP : ∀ w t client o choice, P' w t (.on client o) choice → P w.clients t (client, o) choice)
    (hdefault : ∀ w t client o choice, P' w t (.default (.on client o)) choice → P w.clients t (client, o) choice) :
    Upheld machine (through T) P' fun w γ => I w.clients γ := by
  intro w γ t o choice r w' hI hd hstep hperform
  cases o with
  | default o =>
    obtain ⟨⟨r', v⟩, hv, heq⟩ := Option.map_eq_some_iff.mp hperform
    obtain ⟨rfl, rfl⟩ := Prod.mk.inj heq
    have hpool : Upheld UdsClientPool.machine _
        (fun v t o choice => ∀ client o', o = .on client o' → P v.clients t (client, o') choice) _ :=
      UdsClientPool.upheld_through h fun _ _ client o _ hon => hon client o rfl
    refine hpool _ γ t o choice r' v hI hd ?_ hv
    rintro client o' rfl
    exact hdefault w t client o' choice hstep
  | on client o =>
    obtain ⟨⟨r', v⟩, hv, heq⟩ := Option.map_eq_some_iff.mp hperform
    obtain ⟨rfl, rfl⟩ := Prod.mk.inj heq
    exact h w.clients γ t (client, o) choice r' v hI hd (hP w t client o choice hstep) hv
  | _ =>
    obtain ⟨⟨r', p'⟩, -, heq⟩ := Option.map_eq_some_iff.mp hperform
    obtain ⟨rfl, rfl⟩ := Prod.mk.inj heq
    refine ⟨γ t, rfl, ?_⟩
    rw [Function.update_eq_self]
    exact hI

theorem kept_through {G : Type} {T : Nat → Discipline SharedUdsClient.Calls G} {I : Clients → (Nat → G) → Prop}
    {k : G} {Q : Role → G → Outcome → Prop} (S : Codec) (n : Nat) {jobs : List Job} (hI : I .new fun _ => k)
    (hrole : ∀ role ∈ jobs.flatMap Job.roles, Safe (through T) (role.task S n) (Q role) k) :
    Kept (through T) (fun w γ => I w.clients γ)
      (fun t k outcome => ∀ role, (jobs.flatMap Job.roles)[t]? = some role → Q role k outcome) (start S n jobs) := by
  refine ⟨fun _ => k, hI, fun t p hp => ?_⟩
  rw [start_tasks, List.getElem?_map, Option.map_eq_some_iff] at hp
  obtain ⟨role, hrole', rfl⟩ := hp
  refine safe_mono (hrole role (List.mem_of_getElem? hrole')) fun k outcome h role' ht => ?_
  obtain rfl := Option.some.inj (hrole'.symm.trans ht)
  exact h

theorem role_answers (S : Codec) {P : Peer} (hP : P.Whole) (m : Nat) (role : Role) :
    Safe (through (taking P)) (role.task S m)
      (fun k outcome => role.Replied S (fun request => k.made = [request]) ((k.grasp .calm).Told P) outcome)
      ⟨none, [], []⟩ := by
  cases role with
  | request service method payload topic =>
    have hcall (client : Nat) :=
      SharedUdsClient.call_ends S hP (i := client) (k := ⟨none, [], []⟩) rfl service method payload
    exact safe_map (callWithTopic_through hcall topic) (fun _ _ h => h) fun _ _ _ => trivial
  | close =>
    exact safe_map (close_through (R := fun _ _ => True) (fun _ _ hk => SharedUdsClient.close_taking hk) rfl)
      (fun _ _ _ => trivial) fun _ _ _ => trivial

/-- **In the pool with topics, too.** -/
theorem run_answers (S : Codec) {P : Peer} (hP : P.Whole) (n : Nat) (jobs : List Job) (run : List (Nat × Choice))
    (s : Config Calls World Outcome) (hrun : (start S n jobs).run machine run = some s)
    (hcandid : (start S n jobs).Along machine (Config.Performs (Candid P)) run) :
    Kept (through (taking P)) (fun w γ => Apart P w.clients γ)
      (fun t k outcome => ∀ role, (jobs.flatMap Job.roles)[t]? = some role →
        role.Replied S (fun request => k.made = [request]) ((k.grasp .calm).Told P) outcome) s :=
  run_safe (upheld_through (SharedUdsClient.apart_upheld hP) (fun _ _ _ _ _ h => h) fun _ _ _ _ _ h => h) hrun hcandid
    (kept_through S n (apart_new P) fun role _ => role_answers S hP n role)

end TopicBasedPool

end XProtocol
