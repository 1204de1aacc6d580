import XProtocol.Pool.Limits
import XProtocol.Pool.Topics

/-! Whose client a call of the pool with topics uses.

A topic's client is made under the write lock under which the table had none for the topic,
and stays in the table: so the topic has it for good, and it is nobody else's. The default
pool hands on clients that it has made itself. -/
namespace XProtocol
open Async
open Json (Value Codec)

/-! ### Calls of the default pool -/

namespace UdsClientPool

/-- The client that a call has in hand. -/
def carried (g : Option Nat) : (o : Op) → Calls.Ret o → Option Nat
  | .pop, client => client
  | .newClient, client => some client
  | .push _, _ | .discard _, _ | .release, _ => none
  | _, _ => g

/-- A call works on the client that it has in hand, and puts back no other. -/
def Carries (g : Option Nat) : Op → Prop
  | .on client _ | .push client => g = some client
  | _ => True

/-- The discipline of the client in hand. -/
abbrev carrying : Discipline Calls (Option Nat) := owing Carries carried

section
variable {g : Option Nat} {m : Nat}

theorem takeIdle_carries (g : Option Nat) : Meets carrying takeIdle (fun g' client => g' = client)
    (fun _ _ => True) g := by
  unfold takeIdle
  exact meets_owing trivial fun _ => meets_owing trivial fun client => meets_owing trivial fun _ => rfl

theorem newClient_carries (g : Option Nat) :
    Meets carrying (op .newClient) (fun g' client => g' = some client) (fun _ _ => True) g :=
  meets_lift.mpr ((safe_op ..).mpr ⟨trivial, fun _ _ hg => hg⟩)

theorem retry_carries (retries : Nat) (g : Option Nat) :
    Meets carrying (retry retries) (fun g' client => g' = some client) (fun _ _ => True) g := by
  induction retries generalizing g with
  | zero => exact newClient_carries g
  | succ retries ih =>
    unfold retry
    rw [meets_bind]
    refine meets_mono (takeIdle_carries g) ?_ fun _ _ h => h
    rintro client _ rfl
    cases client with
    | some client => rfl
    | none => exact meets_owing trivial fun _ => ih _

theorem getOrCreateClient_carries :
    Meets carrying (getOrCreateClient m) (fun g' client => g' = some client) (fun _ _ => True) g := by
  unfold getOrCreateClient
  rw [meets_bind]
  refine meets_mono (takeIdle_carries g) ?_ fun _ _ h => h
  rintro client _ rfl
  cases client with
  | some client => rfl
  | none =>
    refine meets_owing trivial fun created => ?_
    split
    · exact newClient_carries _
    · exact meets_owing trivial fun _ => retry_carries 3 _

theorem putBack_carries {client : Nat} :
    Meets carrying (putBack m client) (fun _ _ => True) (fun _ _ => True) (some client) := by
  unfold putBack
  refine meets_owing trivial fun _ => meets_owing trivial fun n => ?_
  split
  · exact meets_owing rfl fun _ => meets_owing trivial fun _ => trivial
  · exact meets_owing trivial fun _ => trivial

theorem discard_carries {client : Nat} : Meets carrying (op (.discard client)) (fun _ _ => True)
    (fun _ _ => True) g :=
  meets_lift.mpr ((safe_op ..).mpr ⟨trivial, fun _ _ _ => trivial⟩)

theorem returnClient_carries {client : Nat} (result : Result ServiceResponse) :
    Meets carrying (returnClient m client result) (fun _ _ => True) (fun _ _ => True) (some client) := by
  unfold returnClient
  split
  · rw [meets_bind]
    refine meets_mono putBack_carries (fun g left _ => ?_) fun _ _ h => h
    cases left with
    | none => trivial
    | some client => exact discard_carries
  · exact discard_carries

theorem call_carries (S : Codec) (service method : String) (payload : Value) :
    Meets carrying (call S m service method payload) (fun _ _ => True) (fun _ _ => True) none := by
  unfold call
  refine meets_owing trivial fun permit => ?_
  cases permit with
  | false => trivial
  | true =>
  show Meets _ (_ >>= _) _ _ _
  rw [meets_bind]
  refine meets_mono getOrCreateClient_carries ?_ fun _ _ _ => trivial
  rintro _ client rfl
  rw [meets_bind, clientCall, meets_lift]
  refine safe_mono (safe_embed_owing (I := fun g => g = some client) (fun _ _ h => h) (fun _ _ _ h => h) _ rfl) ?_
  rintro _ result rfl
  rw [meets_bind]
  refine meets_mono (returnClient_carries result) (fun _ _ _ => ?_) fun _ _ _ => trivial
  refine meets_owing trivial fun _ => ?_
  cases result <;> trivial

/-- The discipline of those who leave the idle clients where they are, or take them away. -/
abbrev takingOnly : Discipline Calls Unit := owing (fun _ o => ∀ client, o ≠ .push client) fun _ _ _ => ()

theorem close_takes : Meets takingOnly close (fun _ _ => True) (fun _ _ => True) () := by
  have hclients (clients : List Nat) : Meets takingOnly (closeClients clients) (fun _ _ => True)
    (fun _ _ => True) () := by
    induction clients with
    | nil => trivial
    | cons client rest ih =>
      unfold closeClients
      rw [meets_bind, meets_lift]
      exact safe_mono (safe_embed_owing (I := fun _ => True) (fun _ _ _ _ h => by cases h)
        (fun _ _ _ h => h) _ trivial)
        fun _ _ _ => ih
  unfold close
  refine meets_owing (fun _ h => by cases h) fun _ => meets_owing (fun _ h => by cases h) fun clients => ?_
  rw [meets_bind]
  refine meets_mono (hclients clients) (fun _ _ _ => ?_) fun _ _ h => h
  exact meets_owing (fun _ h => by cases h) fun _ => meets_owing (fun _ h => by cases h) fun _ => meets_lift.mpr
    ((safe_op ..).mpr ⟨(fun _ h => by cases h), fun _ _ _ => trivial⟩)

end

/-! What an operation makes of the clients. -/

section
variable {t c : Nat} {p p' : UdsClientPool} {o : Op} {r : Calls.Ret o} {g : Option Nat}

theorem Effect.born_le (h : Effect t p p' o r) : p.born ≤ p'.born := by
  obtain ⟨-, rfl⟩ := h
  cases o with
  | newClient => exact Nat.le_succ _
  | _ => exact Nat.le_refl _

theorem Effect.idle (h : Effect t p p' o r) (hc : c ∈ p'.pool) : c ∈ p.pool ∨ o = .push c := by
  obtain ⟨-, rfl⟩ := h
  cases o with
  | pop => exact .inl (List.mem_of_mem_dropLast hc)
  | push client =>
    rcases List.mem_append.mp hc with hc | hc
    · exact .inl hc
    · exact .inr (by rw [List.mem_singleton.mp hc])
  | clear => cases hc
  | _ => exact .inl hc

/-- What a call has in hand it had before, or it was idle, or it is new. -/
theorem Effect.carried (h : Effect t p p' o r) (hc : carried g o r = some c) :
    g = some c ∨ c ∈ p.pool ∨ (c = p.born ∧ p.born < p'.born) := by
  obtain ⟨hallowed, rfl⟩ := h
  cases o with
  | pop => exact .inr (.inl (List.mem_of_getLast? (hallowed.symm.trans hc)))
  | newClient => exact .inr (.inr ⟨(Option.some.inj hc).symm.trans hallowed, Nat.lt_succ_self _⟩)
  | push | discard | release => cases hc
  | _ => exact .inl hc

end

end UdsClientPool

namespace TopicBasedPool

/-! ### What the tasks are -/

/-- What a task is. -/
inductive Role where
  | request (service method : String) (payload : Value) (topic : Option String)
  | close

def Job.roles : Job → List Role
  | .call service method payload topic => [.request service method payload topic]
  | .batch requests => requests.map fun x => .request x.1 x.2.1 x.2.2.1 x.2.2.2
  | .close => [.close]

def Role.task (S : Codec) (maxConcurrent : Nat) : Role → Program Calls Outcome
  | .request service method payload topic =>
    Outcome.reply <$> (callWithTopic S maxConcurrent service method payload topic).run
  | .close => (fun _ => Outcome.closed) <$> TopicBasedPool.close.run

theorem start_tasks (S : Codec) (maxConcurrent : Nat) (jobs : List Job) :
    (start S maxConcurrent jobs).tasks = (jobs.flatMap Job.roles).map (Role.task S maxConcurrent) := by
  rw [List.map_flatMap]
  refine List.flatMap_congr fun job _ => ?_
  cases job with
  | call service method payload topic => rfl
  | batch requests => simp [Job.tasks, callWithTopics, Job.roles, Role.task]
  | close => rfl

/-- The lane of a task: the client of a topic, the default pool, or every client, to close it. -/
inductive Lane where
  | topic (name : String)
  | default
  | all

/-- A topic that is empty is none. -/
def Role.lane : Role → Lane
  | .request _ _ _ (some topic) => if topic.isEmpty then .default else .topic topic
  | .request _ _ _ none => .default
  | .close => .all

def laneAt (jobs : List Job) (t : Nat) : Lane := ((jobs.flatMap Job.roles)[t]?).elim .all Role.lane

/-! ### The account of a task -/

/-- The client on which an operation works. -/
def clientOf : Op → Option Nat
  | .on client _ | .default (.on client _) => some client
  | _ => none

structure Seat where
  lane : Lane
  /-- In the default pool, the client in hand. -/
  carried : Option Nat := none
  /-- The client of its topic, as the table gave it. -/
  client : Option Nat := none
  /-- The client whose guard it has. -/
  guard : Option Nat := none
  /-- The clients that it has worked on. -/
  used : List Nat := []

namespace Seat

def after (g : Seat) (o : Op) (r : Calls.Ret o) : Seat where
  lane := g.lane
  carried := match o, r with
    | .default o, r => UdsClientPool.carried g.carried o r
    | _, _ => g.carried
  client := match o, r with
    | .entry _, client => some client
    | _, _ => g.client
  guard := match o with
    | .lock client => some client
    | .unlock _ => none
    | _ => g.guard
  used := (clientOf o).toList ++ g.used

/-- Each task keeps to its lane. -/
def demand (g : Seat) : Op → Prop
  | .default o =>
    (g.lane = .default ∧ UdsClientPool.Carries g.carried o) ∨ (g.lane = .all ∧ ∀ client, o ≠ .push client)
  | .entry topic => g.lane = .topic topic
  | .unlock client => g.guard = some client
  | .on client _ => g.guard = some client ∧ (g.lane = .all ∨ g.client = some client)
  | _ => True

theorem mem_used_after {g : Seat} {o : Op} {r : Calls.Ret o} {c : Nat} :
    c ∈ (g.after o r).used ↔ clientOf o = some c ∨ c ∈ g.used := by
  simp [after]

end Seat

/-- The discipline of the lanes. -/
abbrev seating : Discipline Calls Seat := owing Seat.demand Seat.after

/-! ### The text of a call -/

section
variable {g : Seat}

/-- A method of a client, for a task that has its guard. -/
theorem onClient_seated {α : Type} {client : Nat} (method : Program SharedUdsClient.Calls (Result α))
    (hguard : g.guard = some client) (hlane : g.lane = .all ∨ g.client = some client) :
    Meets seating (onClient client method)
      (fun g' _ => g'.guard = some client ∧ g'.lane = g.lane) (fun _ _ => False) g := by
  refine meets_lift.mpr (safe_mono (safe_embed_owing
    (I := fun g' => g'.guard = some client ∧ g'.lane = g.lane ∧ g'.client = g.client)
    (fun g' _ h => ⟨h.1, by rw [h.2.1, h.2.2]; exact hlane⟩) (fun _ _ _ h => h) method ⟨hguard, rfl, rfl⟩)
    fun _ _ h => ⟨h.1, h.2.1⟩)

theorem callSerial_seated (S : Codec) (service method : String) (payload : Value) {topic : String}
    (hlane : g.lane = .topic topic) :
    Meets seating (callSerial S service method payload topic) (fun _ _ => True) (fun _ _ => True) g := by
  unfold callSerial
  refine meets_owing trivial fun _ => meets_owing trivial fun _ => meets_owing hlane fun client =>
    meets_owing trivial fun _ => meets_owing trivial fun _ => ?_
  rw [meets_bind]
  refine meets_mono (onClient_seated _ rfl (.inr rfl)) (fun g' result hg => ?_) fun _ _ _ => trivial
  refine meets_owing hg.1 fun _ => ?_
  cases result <;> trivial

/-- A call of the default pool. -/
theorem onDefault_seated {α : Type} {p : UdsClientPool.Code α}
    (hp : Meets UdsClientPool.carrying p (fun _ _ => True) (fun _ _ => True) none)
    (hlane : g.lane = .default) (hcarried : g.carried = none) :
    Meets seating (onDefault p) (fun _ _ => True) (fun _ _ => True) g := by
  have hdemand : ∀ (carried : Option Nat) (g' : Seat) o, (g'.lane = .default ∧ g'.carried = carried) →
      UdsClientPool.carrying.demand carried o → seating.demand g' (.default o) := by
    rintro _ g' o ⟨hlane, rfl⟩ hd
    exact .inl ⟨hlane, hd⟩
  refine safe_mono (safe_embed hdemand ?_ hp ⟨hlane, hcarried⟩) ?_
  · rintro _ g' o r _ ⟨hlane, rfl⟩ - rfl
    exact ⟨_, rfl, hlane, rfl⟩
  · intro _ r _
    cases r <;> trivial

theorem callWithTopic_seated (S : Codec) (maxConcurrent : Nat) (service method : String) (payload : Value)
    (topic : Option String) :
    Meets seating (callWithTopic S maxConcurrent service method payload topic) (fun _ _ => True) (fun _ _ => True)
      { lane := (Role.request service method payload topic).lane } := by
  have hdefault := UdsClientPool.call_carries (m := maxConcurrent) S service method payload
  unfold callWithTopic
  cases topic with
  | none => exact onDefault_seated hdefault rfl rfl
  | some topic =>
    by_cases hempty : topic.isEmpty
    · simp only [hempty, if_true, Role.lane]
      exact onDefault_seated hdefault rfl rfl
    · simp only [hempty, Role.lane]
      exact callSerial_seated S service method payload rfl

theorem closeClients_seated (clients : List Nat) (hlane : g.lane = .all) :
    Meets seating (closeClients clients) (fun _ _ => True) (fun _ _ => False) g := by
  induction clients generalizing g with
  | nil => trivial
  | cons client rest ih =>
    unfold closeClients
    refine meets_owing trivial fun _ => ?_
    rw [meets_bind]
    refine meets_mono (onClient_seated (g := g.after (.lock client) ()) _ rfl (.inl hlane)) (fun g' _ hg => ?_)
      fun _ _ h => h
    exact meets_owing hg.1 fun _ => ih (hg.2.trans hlane)

theorem close_seated (hlane : g.lane = .all) :
    Meets seating TopicBasedPool.close (fun _ _ => True) (fun _ _ => True) g := by
  have hdefault : Meets seating (onDefault UdsClientPool.close) (fun g' _ => g'.lane = .all)
    (fun _ _ => True) g := by
    have hdemand : ∀ (_ : Unit) (g' : Seat) o, g'.lane = .all → UdsClientPool.takingOnly.demand () o →
        seating.demand g' (.default o) := fun _ _ _ hlane hd => .inr ⟨hlane, hd⟩
    refine safe_mono (safe_embed hdemand ?_ UdsClientPool.close_takes hlane) ?_
    · rintro _ g' o r _ hlane - rfl
      exact ⟨(), rfl, hlane⟩
    · rintro g' r ⟨-, hlane, -⟩
      cases r with
      | ok _ => exact hlane
      | error _ => trivial
  unfold TopicBasedPool.close
  rw [meets_bind]
  refine meets_mono hdefault (fun g' _ hlane => ?_) fun _ _ h => h
  refine meets_owing trivial fun _ => meets_owing trivial fun clients => ?_
  rw [meets_bind]
  refine meets_mono (closeClients_seated clients hlane) (fun g' _ _ => ?_) fun _ _ h => h.elim
  exact meets_lift.mpr ((safe_op ..).mpr ⟨trivial, fun _ _ _ => trivial⟩)

theorem task_seated (S : Codec) (maxConcurrent : Nat) (role : Role) :
    Safe seating (role.task S maxConcurrent) (fun _ _ => True) { lane := role.lane } := by
  cases role with
  | request service method payload topic =>
    exact safe_map (callWithTopic_seated S maxConcurrent service method payload topic)
      (fun _ _ _ => trivial) fun _ _ _ => trivial
  | close => exact safe_map (close_seated rfl) (fun _ _ _ => trivial) fun _ _ _ => trivial

end

/-! ### One operation -/

section
variable {p p' : TopicBasedPool} {c : Nat}

/-- Of each topic there is one client, and of each client one topic. -/
structure Paired (p : TopicBasedPool) : Prop where
  client : ∀ {τ c d}, (τ, c) ∈ p.topicClients → (τ, d) ∈ p.topicClients → c = d
  topic : ∀ {τ σ c}, (τ, c) ∈ p.topicClients → (σ, c) ∈ p.topicClients → τ = σ
  born : ∀ {τ c}, (τ, c) ∈ p.topicClients → c < p.defaultPool.born

/-- A client that has been made, for no topic. -/
structure Plain (p : TopicBasedPool) (c : Nat) : Prop where
  born : c < p.defaultPool.born
  apart : ∀ topic, (topic, c) ∉ p.topicClients

/-- The lane may lead to the client. -/
def Lane.Reaches (p : TopicBasedPool) (c : Nat) : Lane → Prop
  | .topic name => (name, c) ∈ p.topicClients
  | .default => Plain p c
  | .all => True

/-- Topics keep their clients, and clients without a topic remain so. -/
structure Grows (p p' : TopicBasedPool) : Prop where
  paired : Paired p'
  table : ∀ e ∈ p.topicClients, e ∈ p'.topicClients
  plain : ∀ c, Plain p c → Plain p' c

theorem Lane.Reaches.grows {lane : Lane} (h : lane.Reaches p c) (hgrows : Grows p p') : lane.Reaches p' c := by
  cases lane with
  | topic name => exact hgrows.table _ h
  | default => exact hgrows.plain c h
  | all => trivial

/-- The table stays, whatever clients the default pool makes. -/
theorem Paired.grows (h : Paired p) (htable : p'.topicClients = p.topicClients)
    (hborn : p.defaultPool.born ≤ p'.defaultPool.born) : Grows p p' := by
  refine ⟨⟨?_, ?_, fun hc => ?_⟩, fun e he => by rwa [htable], fun c hc => ⟨Nat.lt_of_lt_of_le hc.born hborn, ?_⟩⟩
  · rw [htable]
    exact h.client
  · rw [htable]
    exact h.topic
  · rw [htable] at hc
    exact Nat.lt_of_lt_of_le (h.born hc) hborn
  · rw [htable]
    exact hc.apart

theorem mem_insert {e : String × Nat} {topic : String} :
    e ∈ (p.insert topic).topicClients ↔ e ∈ p.topicClients ∨ e = (topic, p.defaultPool.born) := by
  simp [insert]

/-- A topic that has no client gets a new one. -/
theorem Paired.insert (h : Paired p) {topic : String} (hnone : p.topicClients.lookup topic = none) :
    Grows p (p.insert topic) := by
  have hnew (c : Nat) : (topic, c) ∉ p.topicClients := fun hc => by
    simpa using List.lookup_eq_none_iff.mp hnone _ hc
  have hfresh (τ : String) : (τ, p.defaultPool.born) ∉ p.topicClients := fun hc => Nat.lt_irrefl _ (h.born hc)
  refine ⟨⟨fun hc hd => ?_, fun hc hd => ?_, fun hc => ?_⟩, fun e he => mem_insert.mpr (.inl he),
    fun c hc => ⟨Nat.lt_succ_of_lt hc.born, fun τ hτ => ?_⟩⟩
  · rcases mem_insert.mp hc with hc | hc <;> rcases mem_insert.mp hd with hd | hd
    · exact h.client hc hd
    · cases hd
      exact absurd hc (hnew _)
    · cases hc
      exact absurd hd (hnew _)
    · cases hc
      cases hd
      rfl
  · rcases mem_insert.mp hc with hc | hc <;> rcases mem_insert.mp hd with hd | hd
    · exact h.topic hc hd
    · cases hd
      exact absurd hc (hfresh _)
    · cases hc
      exact absurd hd (hfresh _)
    · cases hc
      cases hd
      rfl
  · rcases mem_insert.mp hc with hc | hc
    · exact Nat.lt_succ_of_lt (h.born hc)
    · cases hc
      exact Nat.lt_succ_self _
  · rcases mem_insert.mp hτ with hτ | hτ
    · exact hc.apart τ hτ
    · cases hτ
      exact Nat.lt_irrefl _ hc.born

end

/-- Topics have their clients, and every task keeps to its lane. -/
structure Laned (jobs : List Job) (p : TopicBasedPool) (γ : Nat → Seat) : Prop where
  paired : Paired p
  idle : ∀ c ∈ p.defaultPool.pool, Plain p c
  lane : ∀ t, (γ t).lane = laneAt jobs t
  carried : ∀ t c, (γ t).carried = some c → Plain p c
  client : ∀ t c, (γ t).client = some c → ∃ topic, (γ t).lane = .topic topic ∧ (topic, c) ∈ p.topicClients
  guard : ∀ t c, (γ t).guard = some c → p.guards c = some t
  used : ∀ t, ∀ c ∈ (γ t).used, (γ t).lane.Reaches p c

section
variable {jobs : List Job} {t : Nat} {p p' : TopicBasedPool} {γ : Nat → Seat} {g : Seat}

/-- What an entry has to show. -/
theorem Laned.entry (h : Laned jobs p γ) (hgrows : Grows p p') (hidle : ∀ c ∈ p'.defaultPool.pool, Plain p' c)
    (hlane : g.lane = (γ t).lane) (hcarried : ∀ c, g.carried = some c → Plain p' c)
    (hclient : ∀ c, g.client = some c → ∃ topic, g.lane = .topic topic ∧ (topic, c) ∈ p'.topicClients)
    (hguard : ∀ c, g.guard = some c → p'.guards c = some t)
    (hothers : ∀ u ≠ t, ∀ c, (γ u).guard = some c → p'.guards c = some u)
    (hused : ∀ c ∈ g.used, g.lane.Reaches p' c) : Laned jobs p' (Function.update γ t g) where
  paired := hgrows.paired
  idle := hidle
  lane := (Function.forall_update_iff γ fun u g => g.lane = laneAt jobs u).mpr
    ⟨hlane.trans (h.lane t), fun u _ => h.lane u⟩
  carried := (Function.forall_update_iff γ fun _ g => ∀ c, g.carried = some c → Plain p' c).mpr
    ⟨hcarried, fun u _ c hc => hgrows.plain c (h.carried u c hc)⟩
  client := by
    refine (Function.forall_update_iff γ fun _ g => ∀ c, g.client = some c →
      ∃ topic, g.lane = .topic topic ∧ (topic, c) ∈ p'.topicClients).mpr ⟨hclient, fun u _ c hc => ?_⟩
    obtain ⟨topic, hlane, hmem⟩ := h.client u c hc
    exact ⟨topic, hlane, hgrows.table _ hmem⟩
  guard := (Function.forall_update_iff γ fun u g => ∀ c, g.guard = some c → p'.guards c = some u).mpr
    ⟨hguard, hothers⟩
  used := (Function.forall_update_iff γ fun _ g => ∀ c ∈ g.used, g.lane.Reaches p' c).mpr
    ⟨hused, fun u _ c hc => (h.used u c hc).grows hgrows⟩

/-- A task works on a client of its lane. -/
theorem Laned.reaches (h : Laned jobs p γ) {o : Op} (hd : (γ t).demand o) {c : Nat} (hc : clientOf o = some c) :
    (γ t).lane.Reaches p c := by
  unfold clientOf at hc
  split at hc
  · cases hc
    obtain ⟨-, hall | hclient⟩ := hd
    · rw [hall]
      trivial
    · obtain ⟨topic, hlane, hmem⟩ := h.client t c hclient
      rw [hlane]
      exact hmem
  · cases hc
    rcases hd with ⟨hlane, hcarried⟩ | ⟨hall, -⟩
    · rw [hlane]
      exact h.carried t c hcarried
    · rw [hall]
      trivial
  · cases hc

theorem Laned.used_after (h : Laned jobs p γ) {o : Op} (hd : (γ t).demand o) (r : Calls.Ret o) :
    ∀ c ∈ ((γ t).after o r).used, (γ t).lane.Reaches p c := fun c hc =>
  (Seat.mem_used_after.mp hc).elim (h.reaches hd) (h.used t c)

/-- An operation that leaves the pool's clients and guards alone. -/
theorem Laned.same (h : Laned jobs p γ) (htable : p'.topicClients = p.topicClients)
    (hdefault : p'.defaultPool = p.defaultPool) (hguards : p'.guards = p.guards) {o : Op} {r : Calls.Ret o}
    (hd : (γ t).demand o) (hcarried : ((γ t).after o r).carried = (γ t).carried)
    (hclient : ((γ t).after o r).client = (γ t).client) (hguard : ((γ t).after o r).guard = (γ t).guard) :
    Laned jobs p' (Function.update γ t ((γ t).after o r)) := by
  have hgrows : Grows p p' := h.paired.grows htable (Nat.le_of_eq (by rw [hdefault]))
  refine h.entry hgrows (fun c hc => hgrows.plain c (h.idle c (by rwa [hdefault] at hc))) rfl
    (fun c hc => hgrows.plain c (h.carried t c (hcarried ▸ hc))) (fun c hc => ?_)
    (fun c hc => by rw [hguards]; exact h.guard t c (hguard ▸ hc))
    (fun u _ c hc => by rw [hguards]; exact h.guard u c hc)
    fun c hc => (h.used_after hd r c hc).grows hgrows
  rw [htable]
  exact h.client t c (hclient ▸ hc)

/-- An operation of the default pool. -/
theorem Laned.default (h : Laned jobs p γ) {o : UdsClientPool.Op} {r : UdsClientPool.Calls.Ret o}
    {pool : UdsClientPool} (hd : (γ t).demand (.default o))
    (heffect : UdsClientPool.Effect t p.defaultPool pool o r) :
    Laned jobs { p with defaultPool := pool } (Function.update γ t ((γ t).after (.default o) r)) := by
  have hgrows : Grows p { p with defaultPool := pool } := h.paired.grows rfl heffect.born_le
  refine h.entry hgrows (fun c hc => ?_) rfl (fun c hc => ?_) (h.client t) (h.guard t)
    (fun u _ c hc => h.guard u c hc) fun c hc => (h.used_after hd r c hc).grows hgrows
  · rcases heffect.idle hc with hc | rfl
    · exact hgrows.plain c (h.idle c hc)
    · rcases hd with ⟨-, hcarried⟩ | ⟨-, hnot⟩
      · exact hgrows.plain c (h.carried t c hcarried)
      · exact absurd rfl (hnot c)
  · rcases heffect.carried hc with hc | hc | ⟨rfl, hborn⟩
    · exact hgrows.plain c (h.carried t c hc)
    · exact hgrows.plain c (h.idle c hc)
    · exact ⟨hborn, fun topic hmem => Nat.lt_irrefl _ (h.paired.born hmem)⟩

/-- A task gets its topic's client. -/
theorem Laned.given (h : Laned jobs p γ) {topic : String} {c : Nat} (hd : (γ t).demand (.entry topic))
    (hgrows : Grows p p') (hpool : p'.defaultPool.pool = p.defaultPool.pool) (hguards : p'.guards = p.guards)
    (hmem : (topic, c) ∈ p'.topicClients) : Laned jobs p' (Function.update γ t ((γ t).after (.entry topic) c)) := by
  refine h.entry hgrows (fun d hc => hgrows.plain d (h.idle d (by rwa [hpool] at hc))) rfl
    (fun d hc => hgrows.plain d (h.carried t d hc)) (fun d hc => ?_)
    (fun d hc => by rw [hguards]; exact h.guard t d hc)
    (fun u _ d hc => by rw [hguards]; exact h.guard u d hc)
    fun d hc => (h.used_after hd c d hc).grows hgrows
  obtain rfl : c = d := Option.some.inj hc
  exact ⟨topic, hd, hmem⟩

/-- The guard of a client changes hands. -/
theorem Laned.guarded (h : Laned jobs p γ) {o : Op} {r : Calls.Ret o} {client : Nat} {holder : Option Nat}
    (hd : (γ t).demand o) (hcarried : ((γ t).after o r).carried = (γ t).carried)
    (hclient : ((γ t).after o r).client = (γ t).client)
    (hguard : ∀ c, ((γ t).after o r).guard = some c → (p.setGuard client holder).guards c = some t)
    (hothers : ∀ u ≠ t, (γ u).guard ≠ some client) :
    Laned jobs (p.setGuard client holder) (Function.update γ t ((γ t).after o r)) := by
  have hgrows : Grows p (p.setGuard client holder) := h.paired.grows rfl (Nat.le_refl _)
  refine h.entry hgrows (fun c hc => hgrows.plain c (h.idle c hc)) rfl
    (fun c hc => hgrows.plain c (h.carried t c (hcarried ▸ hc))) (fun c hc => h.client t c (hclient ▸ hc)) hguard
    (fun u hu c hc => ?_) fun c hc => (h.used_after hd r c hc).grows hgrows
  have hne : c ≠ client := fun heq => hothers u hu (heq ▸ hc)
  exact (Function.update_of_ne hne ..).trans (h.guard u c hc)

theorem laned_keeps (jobs : List Job) :
    Keeps machine Seat.demand Seat.after (fun _ _ _ _ => True) fun w γ => Laned jobs w.pool γ := by
  rintro w γ t o choice r w' h hd - hstep
  cases o with
  | default o =>
    obtain ⟨⟨answer, x⟩, hx, heq⟩ := Option.map_eq_some_iff.mp hstep
    cases heq
    exact h.default hd (UdsClientPool.perform_effect hx)
  | on client o =>
    obtain ⟨x, -, heq⟩ := Option.map_eq_some_iff.mp hstep
    cases heq
    exact h.same rfl rfl rfl hd rfl rfl rfl
  | entry topic =>
    obtain ⟨⟨answer, pool⟩, hpool, heq⟩ := Option.map_eq_some_iff.mp hstep
    cases heq
    cases choice with
    | go =>
      simp only [performTopics] at hpool
      split at hpool
      · next hlookup =>
        cases hpool
        obtain ⟨before, rest, htable, -⟩ := List.lookup_eq_some_iff.mp hlookup
        have hmem : (topic, answer) ∈ w.pool.topicClients := by simp [htable]
        exact h.given hd (h.paired.grows rfl (Nat.le_refl _)) rfl rfl hmem
      · next hlookup =>
        cases hpool
        exact h.given hd (h.paired.insert hlookup) rfl rfl (mem_insert.mpr (.inr rfl))
    | _ => cases hpool
  | iter =>
    obtain ⟨⟨answer, pool⟩, hpool, heq⟩ := Option.map_eq_some_iff.mp hstep
    cases heq
    match choice with
    | .pick (some k) =>
      obtain ⟨clients, -, heq⟩ := Option.map_eq_some_iff.mp hpool
      cases heq
      exact h.same rfl rfl rfl hd rfl rfl rfl
  | lock client =>
    obtain ⟨⟨answer, pool⟩, hpool, heq⟩ := Option.map_eq_some_iff.mp hstep
    cases heq
    cases choice with
    | go =>
      obtain ⟨hfree, heq⟩ := Option.ite_none_right_eq_some.mp hpool
      cases heq
      refine h.guarded hd rfl rfl (fun c hc => ?_) fun u _ hu => nomatch (h.guard u client hu).symm.trans hfree
      obtain rfl : client = c := Option.some.inj hc
      exact Function.update_self ..
    | _ => cases hpool
  | unlock client =>
    cases choice <;> cases hstep
    refine h.guarded hd rfl rfl nofun fun u hut hu => hut ?_
    exact Option.some.inj ((h.guard u client hu).symm.trans (h.guard t client hd))
  | table use =>
    obtain ⟨⟨answer, pool⟩, hpool, heq⟩ := Option.map_eq_some_iff.mp hstep
    cases heq
    cases choice with
    | go =>
      obtain ⟨lock, -, heq⟩ := Option.map_eq_some_iff.mp hpool
      cases heq
      refine h.same ?_ ?_ ?_ hd ?_ ?_ ?_ <;> rfl
    | _ => cases hpool

end

/-! ### Runs -/

/-- A state of the pool, and what its callers have in hand. -/
abbrev Seated := Config Calls (World × (Nat → Seat)) Outcome

/-- A new pool, and what its callers are going to ask. -/
def startSeated (S : Codec) (maxConcurrent : Nat) (jobs : List Job) : Seated :=
  (start S maxConcurrent jobs).withLedger fun t => { lane := laneAt jobs t }

/-- Task `t` is inside a method of client `c`. -/
def Calling (s : Seated) (t c : Nat) : Prop :=
  ∃ o k, s.tasks[t]? = some (.perform o k) ∧ clientOf o = some c

/-- Every topic has a client of its own, for one request at a time. -/
structure Separated (jobs : List Job) (s : Seated) : Prop where
  /-- Two requests of a topic are not inside a client's call at once. -/
  alone : ∀ {t u topic c d}, laneAt jobs t = .topic topic → laneAt jobs u = .topic topic →
    Calling s t c → Calling s u d → t = u
  /-- All requests of a topic use one client. -/
  same : ∀ {t u topic c d}, laneAt jobs t = .topic topic → laneAt jobs u = .topic topic →
    c ∈ (s.world.2 t).used → d ∈ (s.world.2 u).used → c = d
  /-- Requests of different topics use different clients. -/
  apart : ∀ {t u topic topic' c d}, laneAt jobs t = .topic topic → laneAt jobs u = .topic topic' →
    topic ≠ topic' → c ∈ (s.world.2 t).used → d ∈ (s.world.2 u).used → c ≠ d
  /-- The client that they use is the topic's, -/
  own : ∀ {t topic c}, laneAt jobs t = .topic topic → c ∈ (s.world.2 t).used →
    (topic, c) ∈ s.world.1.pool.topicClients
  /-- and a request without a topic uses no topic's client. -/
  default : ∀ {t c}, laneAt jobs t = .default → c ∈ (s.world.2 t).used →
    ∀ topic, (topic, c) ∉ s.world.1.pool.topicClients

section
variable {S : Codec} {maxConcurrent : Nat} {jobs : List Job} {s : Seated}

theorem start_laned (S : Codec) (maxConcurrent : Nat) (jobs : List Job) :
    Balanced seating (fun w γ => Laned jobs w.pool γ) (fun _ _ _ => True) (startSeated S maxConcurrent jobs) := by
  refine ⟨⟨⟨nofun, nofun, nofun⟩, nofun, fun _ => rfl, nofun, nofun, nofun, nofun⟩, fun t p hp => ?_⟩
  have hp : (start S maxConcurrent jobs).tasks[t]? = some p := hp
  rw [start_tasks, List.getElem?_map, Option.map_eq_some_iff] at hp
  obtain ⟨role, hrole, rfl⟩ := hp
  have hlane : laneAt jobs t = role.lane := by rw [laneAt, hrole, Option.elim_some]
  show Safe seating _ _ { lane := laneAt jobs t }
  rw [hlane]
  exact task_seated S maxConcurrent role

theorem separated_of_laned (h : Balanced seating (fun w γ => Laned jobs w.pool γ) (fun _ _ _ => True) s) :
    Separated jobs s := by
  obtain ⟨hlaned, -⟩ := id h
  have hown {t : Nat} {topic : String} {c : Nat} (ht : laneAt jobs t = .topic topic)
      (hc : c ∈ (s.world.2 t).used) : (topic, c) ∈ s.world.1.pool.topicClients := by
    have hreaches := hlaned.used t c hc
    rwa [hlaned.lane t, ht] at hreaches
  -- Whoever is inside a client's call has the guard of its topic's client.
  have hguard {t : Nat} {topic : String} {c : Nat} (ht : laneAt jobs t = .topic topic) (hc : Calling s t c) :
      (topic, c) ∈ s.world.1.pool.topicClients ∧ s.world.1.pool.guards c = some t := by
    obtain ⟨o, k, hp, ho⟩ := hc
    have hd := h.due hp
    have hreaches := hlaned.reaches hd ho
    rw [hlaned.lane t, ht] at hreaches
    refine ⟨hreaches, ?_⟩
    unfold clientOf at ho
    split at ho
    · cases ho
      exact hlaned.guard t c hd.1
    · rcases hd with ⟨hlane, -⟩ | ⟨hlane, -⟩ <;> exact nomatch ht.symm.trans ((hlaned.lane t).symm.trans hlane)
    · cases ho
  refine ⟨fun ht hu hc hd => ?_, fun ht hu hc hd => hlaned.paired.client (hown ht hc) (hown hu hd),
    fun ht hu hne hc hd heq => ?_, hown, fun {t c} ht hc => ?_⟩
  · obtain ⟨hc, hct⟩ := hguard ht hc
    obtain ⟨hd, hdu⟩ := hguard hu hd
    obtain rfl := hlaned.paired.client hc hd
    exact Option.some.inj (hct.symm.trans hdu)
  · subst heq
    exact hne (hlaned.paired.topic (hown ht hc) (hown hu hd))
  · have hplain := hlaned.used t c hc
    rw [hlaned.lane t, ht] at hplain
    exact hplain.apart

/-- **Requests of a topic are served one at a time, by a client that serves them alone.** -/
theorem topics_separated (S : Codec) (maxConcurrent : Nat) (jobs : List Job) (ls : List (Nat × Choice)) :
    (startSeated S maxConcurrent jobs).Throughout (machine.ledger Seat.after) (Separated jobs) ls :=
  Config.throughout_mono (fun _ => separated_of_laned)
    (throughout_balanced (laned_keeps jobs) (Config.along_of_forall (fun _ _ _ _ _ => trivial) _ ls)
      (start_laned S maxConcurrent jobs))

end

end TopicBasedPool

end XProtocol
