import XProtocol.Client.Unhindered
import XProtocol.Pool.Completion
import XProtocol.Pool.Served

/-! Calls of a pool that nothing hinders.

The server accepts its clients and has no reason to refuse their requests (`Welcoming`), and
nothing fails on the way. Then the pool does what it is for: every call returns, in the end,
what the handler has made of its own request (`calls_answered`), however the calls find their
clients, share them and wait for each other. Nobody waits in vain, for what a call waits for
is given back, or has been answered; and nothing is left to go wrong, for every client that
changes hands has been greeted, and nothing is unread on its stream. -/
namespace XProtocol
open Async
open Json (Value Codec)
open Wire
open SharedUdsClient (Party Apart Courtesy UnhinderedAt surelyTaking)
open UdsClient (Obliging Apt Smooth Honest)

/-! ### The server -/

namespace UdsServer

/-- The request is one that a call makes. -/
def OfCalls (calls : List Call) (request : ServiceRequest) : Prop := ∃ call ∈ calls, call.Makes request

/-- Nothing is in the way of the calls, on any connection: the server has the default configuration, nothing
fails as it writes, the limiter admits the clients and the handler accepts them, and every frame fits. -/
structure Welcoming {σ : Type} (E : Site σ) (setup : Setup) (accepts : ConnId → σ × Watch) (calls : List Call) :
    Prop where
  config : setup.config = .default
  flush : ∀ n, E.flush n = none
  rate : ∀ c, ((accepts c).2.limiter.check (accepts c).2.now "protocol-client").1 = true
  accepted : ∀ c, (welcome E (accepts c).1).1.success = true
  hello : Fits (UdsClient.hello E.codec)
  ack : ∀ c, Fits (E.ack (welcome E (accepts c).1).1)
  named : ∀ call ∈ calls, call.Named
  asked : ∀ request, OfCalls calls request → Fits (requestFrame E request)
  answered : ∀ c requests, (∀ request ∈ requests, OfCalls calls request) →
    ∀ response ∈ E.handler.serve (welcome E (accepts c).1).2 requests, Fits (responseFrame E response)

section
variable {σ : Type} {E : Site σ} {setup : Setup} {accepts : ConnId → σ × Watch} {calls : List Call}

theorem made_of_calls {requests : List ServiceRequest} (h : ∀ request ∈ requests, OfCalls calls request) :
    ∃ made : List Call, (∀ call ∈ made, call ∈ calls) ∧ made.Forall₂ Call.Makes requests := by
  induction requests with
  | nil => exact ⟨[], nofun, .nil⟩
  | cons request rest ih =>
    rw [List.forall_mem_cons] at h
    obtain ⟨⟨call, hcall, hmakes⟩, hrest⟩ := h
    obtain ⟨made, hmade, hall⟩ := ih hrest
    exact ⟨call :: made, List.forall_mem_cons.mpr ⟨hcall, hmade⟩, .cons hmakes hall⟩

theorem apt_of_mem {call : Call} (hcall : call ∈ calls) : Apt (OfCalls calls) call.service call.method call.payload :=
  fun requestId correlationId hrequestId hcorrelationId =>
    ⟨call, hcall, requestId, correlationId, hrequestId, hcorrelationId, rfl⟩

/-- On one connection some of the calls are made, and nothing is in their way. -/
theorem Welcoming.favourable (h : Welcoming E setup accepts calls) (c : ConnId) (requests : List ServiceRequest)
    (hrequests : ∀ request ∈ requests, OfCalls calls request) :
    ∃ made, Favourable E setup (accepts c).1 (accepts c).2 made requests := by
  obtain ⟨made, hmade, hall⟩ := made_of_calls hrequests
  exact ⟨made, h.config, h.flush, h.rate c, h.accepted c, h.hello, h.ack c,
    fun call hcall => h.named call (hmade call hcall), hall, fun request hr => h.asked request (hrequests request hr), h.answered c requests hrequests⟩

/-- **A server that welcomes the calls obliges their clients.** -/
theorem Welcoming.obliging (h : Welcoming E setup accepts calls) :
    Obliging E.codec (OfCalls calls) (peer E setup accepts) where
  whole := peer_whole
  hello := h.hello
  asked := h.asked
  greets c := by
    obtain ⟨made, hfavourable⟩ := h.favourable c [] nofun
    exact ⟨_, hfavourable.greeting c, rfl, _, Json.Codec.fromSlice_toVec _ _, h.accepted c⟩
  responds c before request hbefore hrequest := by
    obtain ⟨requests, hall, rfl⟩ := hbefore
    have hmore : ∀ r ∈ requests ++ [request], OfCalls calls r := by
      intro r hr
      rcases List.mem_append.mp hr with hr | hr
      · exact hall r hr
      · exact List.mem_singleton.mp hr ▸ hrequest
    obtain ⟨made, hfavourable⟩ := h.favourable c _ hmore
    exact ⟨_, hfavourable.answers ⟨[], List.append_nil _⟩ c, rfl, _, Json.Codec.fromSlice_toVec _ _⟩

end

end UdsServer

/-! ### The clients -/

theorem UdsClient.Smooth.honest {P : Peer} {w : Client UdsClient} {o : NetOp UdsClient.Fields} {choice : Choice}
    (h : Smooth P w o choice) : Honest P w o choice := by
  cases o with
  | own o => trivial
  | net o =>
    cases o with
    | read c timed =>
      cases choice with
      | arrive got => exact fun _ => h
      | _ => exact h.elim
    | _ => trivial

namespace SharedUdsClient

/-- Nothing goes wrong at the operation. -/
def Unhindered (P : Peer) (w : Clients) (_ : Nat) (o : Nat × Op) (choice : Choice) : Prop :=
  UnhinderedAt P w o.1 o.2 choice

/-- What is known where nothing goes wrong. -/
def Surely (S : Codec) (Proper : ServiceRequest → Prop) (P : Peer) (w : Clients) (γ : Nat → Party) : Prop :=
  Apart P w γ ∧ Courtesy S Proper w

variable {S : Codec} {Proper : ServiceRequest → Prop} {P : Peer}

theorem surely_new : Surely S Proper P .new fun _ => ⟨none, [], []⟩ := ⟨apart_new P, courtesy_new⟩

/-- **Where nothing goes wrong, every caller is told so.** -/
theorem surely_upheld (hP : Obliging S Proper P) :
    Upheld machine (among fun i => surelyTaking S Proper i P) (Unhindered P) (Surely S Proper P) := by
  show Upheld machine ((among (taking P)).sharpen (fun k o => owesIn S Proper o.1 k o.2)
    fun k o r => toldIn S Proper o.1 k o.2 r) (Unhindered P) fun w γ => Apart P w γ ∧ Courtesy S Proper w
  refine upheld_sharpen ?_ ?_
  · rintro w γ t ⟨i, o⟩ choice r w' hapart hd hun hstep
    refine perform_apart hP.whole hapart hd ?_ hstep
    cases o with
    | lock | unlock => trivial
    | inner o => exact UdsClient.Smooth.honest hun.1
  · rintro w γ t ⟨i, o⟩ choice r w' hapart hw hd howes hun hstep
    exact perform_told hP hapart hw hd howes hun hstep

end SharedUdsClient

/-! ### The pool of clients -/

namespace UdsClientPool
open UdsServer (Setup Watch peer OfCalls Welcoming Handled)

/-- Nothing goes wrong at the operation. -/
def Unhindered (P : Peer) (w : World) (_ : Nat) : Op → Choice → Prop
  | .on client o, choice => UnhinderedAt P w.clients client o choice
  | _, _ => True

section
variable {S : Codec} {Proper : ServiceRequest → Prop} {P : Peer}

/-- Who can move can move unhindered. -/
theorem moves_unhindered (hP : Obliging S Proper P) {w : World} {γ : Nat → Party}
    (hsurely : SharedUdsClient.Surely S Proper P w.clients γ) {t : Nat} {o : Op}
    (hd : (through fun i => surelyTaking S Proper i P).demand (γ t) o)
    (hcan : ∃ choice x, machine.perform t o choice w = some x) :
    ∃ choice x, Unhindered P w t o choice ∧ machine.perform t o choice w = some x := by
  obtain ⟨choice, x, hx⟩ := hcan
  cases o with
  | on client o =>
    obtain ⟨y, hy, -⟩ := Option.map_eq_some_iff.mp hx
    obtain ⟨choice', z, hun, hz⟩ := SharedUdsClient.unhindered_moves hP hsurely.1 hsurely.2 hd.1 hd.2 ⟨choice, y, hy⟩
    exact ⟨choice', _, hun, congrArg (Option.map _) hz⟩
  | _ => exact ⟨choice, x, trivial, hx⟩

/-- What a task that asks for a call returns: a response, and that to its own request. -/
def Role.Answered (S : Codec) (P : Peer) (role : Role) (k : Party) (outcome : Outcome) : Prop :=
  ∀ call, role.asked = some call → ∃ response, outcome = .reply (.ok response) ∧
    UdsClient.RepliedBy S (fun request => k.made = [request]) ((k.grasp .calm).Told P)
      (.call call.service call.method call.payload) (.reply (.ok response))

theorem role_surely (hP : P.Whole) (m : Nat) (role : Role)
    (happly : ∀ call, role.asked = some call → Apt Proper call.service call.method call.payload) :
    Safe (through fun i => surelyTaking S Proper i P) (role.task S m) (role.Answered S P) ⟨none, [], []⟩ := by
  have hcall (call : Call) (hasked : role.asked = some call) (client : Nat) :=
    SharedUdsClient.call_surelyTaking (S := S) (i := client) (k := ⟨none, [], []⟩) hP rfl (happly call hasked)
  have hreplied (k : Party) (call : Call) (response : ServiceResponse) (hasked : role.asked = some call)
      (h : UdsClient.RepliedBy S (fun request => k.made = [request]) ((k.grasp .calm).Told P)
        (.call call.service call.method call.payload) (.reply (.ok response))) :
      role.Answered S P k (.reply (.ok response)) := by
    intro call' hasked'
    cases hasked.symm.trans hasked'
    exact ⟨response, rfl, h⟩
  cases role with
  | call service method payload =>
    exact safe_map (call_through (hcall _ rfl)) (fun k response h => hreplied k _ response rfl h) fun _ _ h => h.elim
  | item service method payload =>
    exact safe_map (callItem_through (hcall _ rfl)) (fun k response h => hreplied k _ response rfl h)
      fun _ _ h => h.elim
  | close =>
    exact safe_map (close_through (R := fun _ _ => False) (fun _ _ hk => SharedUdsClient.close_surelyTaking hk) rfl)
      (fun _ _ _ _ h => nomatch h) fun _ _ h => h.elim

end

/-- **Calls that nothing hinders are answered.** Where the server welcomes the calls and nothing goes wrong on the
way, the pool comes to its end, whatever is chosen: every task has returned then, and each call, in a batch or not,
with what the handler has made of its own request. -/
theorem calls_answered {σ : Type} (E : Site σ) (setup : Setup) (accepts : ConnId → σ × Watch) (n m : Nat) (hn : 0 < n)
    (jobs : List Job) (h : Welcoming E setup accepts ((jobs.flatMap Job.roles).filterMap Role.asked)) :
    (start E.codec n m jobs).Inevitably machine (Config.Performs (Unhindered (peer E setup accepts))) fun s =>
      ∀ t role, (jobs.flatMap Job.roles)[t]? = some role → (∃ outcome, s.returned t = some outcome) ∧
        ∀ call, role.asked = some call → ∃ response, s.returned t = some (.reply (.ok response)) ∧
          Handled E setup accepts s.world.clients.net s.tasks.length t call response := by
  have hP := h.obliging
  refine ((ordered hn).inevitably owned_upheld (Config.along_tasks _) rfl (start_ordered E.codec n m jobs) rest_none
    (upheld_through (SharedUdsClient.surely_upheld hP) fun _ _ _ _ _ h => h)
    (kept_through E.codec n m SharedUdsClient.surely_new fun role hrole =>
      role_surely hP.whole _ role fun call hasked => UdsServer.apt_of_mem (List.mem_filterMap.mpr ⟨role, hrole, hasked⟩))
    fun w γ t o hsurely hd hcan => moves_unhindered hP hsurely hd hcan).mono ?_
  rintro s ⟨⟨ls, hrun, -⟩, hall⟩ t role hrole
  have ht : t < (start E.codec n m jobs).tasks.length := by
    rw [start_tasks, List.length_map]
    exact (List.getElem?_eq_some_iff.mp hrole).1
  obtain ⟨γ, outcome, hreturned, hsurely, hanswered⟩ := hall t ht
  refine ⟨⟨outcome, hreturned⟩, fun call hasked => ?_⟩
  obtain ⟨response, rfl, hreplied⟩ := hanswered role hrole call hasked
  have honce := Config.throughout_last (requests_once E.codec n m jobs ls) hrun
  rw [← Config.run_length hrun] at ht honce
  exact ⟨response, hreturned, handled_of_known hsurely.1 honce ht hreplied⟩

/-! Two calls and a closing, of a server that welcomes everyone. -/

section Sample
open Json.Text (compact print printFields printString escapeByte)
open UdsServer (requestFrame responseFrame)
open UdsServer.Sample (site setup watch)

/-- Six bytes are as much as a byte of a string is escaped to. -/
theorem length_printString_le (s : String) : (printString s).length ≤ 6 * s.utf8ByteSize + 2 := by
  have hescape (b : UInt8) : (escapeByte b).length ≤ 6 := by
    unfold escapeByte
    split_ifs <;> simp
  have hbytes : (s.toByteArray.data.toList.flatMap escapeByte).length ≤ 6 * s.toByteArray.data.toList.length := by
    induction s.toByteArray.data.toList with
    | nil => exact Nat.le_refl 0
    | cons b rest ih =>
      have hb := hescape b
      rw [List.flatMap_cons, List.length_append, List.length_cons]
      omega
  have hsize : s.utf8ByteSize = s.toByteArray.data.toList.length := rfl
  rw [printString, List.length_cons, List.length_append, List.length_singleton, hsize]
  omega

theorem ping_fits {request : ServiceRequest} (h : OfCalls [ping, ping] request) :
    Fits (requestFrame site request) ∧ Fits (responseFrame site (.success request .null)) := by
  obtain ⟨call, hcall, requestId, correlationId, hrequestId, hcorrelationId, rfl⟩ := h
  obtain rfl : call = ping := by simpa using hcall
  have hrequest := length_printString_le requestId
  have hcorrelation := length_printString_le correlationId
  have hnil : (printString "").length = 2 := rfl
  -- The frame is that of empty ids, with the ids in it.
  have hasked : (compact.toVec (ServiceRequest.new requestId correlationId "echo" "ping" .null)).length + 4 =
      (compact.toVec (ServiceRequest.new "" "" "echo" "ping" .null)).length + (printString requestId).length +
        (printString correlationId).length := by
    simp only [Json.Codec.toVec, compact, Json.toValue, ServiceRequest.new, print, printFields, List.length_cons,
      List.length_append, hnil]
    omega
  have hanswered :
      (compact.toVec (ServiceResponse.success (.new requestId correlationId "echo" "ping" .null) .null)).length + 4 = (compact.toVec (ServiceResponse.success (.new "" "" "echo" "ping" .null) .null)).length +
        (printString requestId).length + (printString correlationId).length := by
    simp only [Json.Codec.toVec, compact, Json.toValue, ServiceRequest.new, ServiceResponse.success, print, printFields,
      List.length_cons, List.length_append, hnil]
    omega
  have hempty : (compact.toVec (ServiceRequest.new "" "" "echo" "ping" .null)).length ≤ 200 ∧
      (compact.toVec (ServiceResponse.success (.new "" "" "echo" "ping" .null) .null)).length ≤ 200 := by
    decide +kernel
  unfold Fits maxMessageSize
  simp only [requestFrame, responseFrame, ping, site]
  omega

theorem serve_site (requests : List ServiceRequest) (s : Nat) {response : ServiceResponse}
    (h : response ∈ site.handler.serve s requests) : ∃ request ∈ requests, response = .success request .null := by
  induction requests generalizing s with
  | nil => cases h
  | cons request rest ih =>
    rcases List.mem_cons.mp h with rfl | h
    · exact ⟨request, List.mem_cons_self, rfl⟩
    · obtain ⟨request, hmem, hresponse⟩ := ih _ h
      exact ⟨request, List.mem_cons_of_mem _ hmem, hresponse⟩

theorem welcoming_pings : UdsServer.Welcoming site setup (fun _ => (0, watch)) [ping, ping] where
  config := rfl
  flush _ := rfl
  rate _ := by decide +kernel
  accepted _ := rfl
  hello := by decide +kernel
  ack _ := by decide +kernel
  named := by
    simp only [List.mem_cons, List.not_mem_nil, or_false, or_self, forall_eq]
    exact ⟨⟨by decide, by decide⟩, by decide, by decide⟩
  asked request h := (ping_fits h).1
  answered c requests h response hresponse := by
    obtain ⟨request, hmem, rfl⟩ := serve_site requests _ hresponse
    exact (ping_fits (h request hmem)).2

theorem calls_answered_pings :
    (start compact 1 1 [.call "echo" "ping" .null, .batch [("echo", "ping", .null)], .close]).Inevitably machine
      (Config.Performs (Unhindered (peer site setup fun _ => (0, watch)))) fun s =>
      ∀ t role, [Role.call "echo" "ping" .null, .item "echo" "ping" .null, .close][t]? = some role →
        (∃ outcome, s.returned t = some outcome) ∧
          ∀ call, role.asked = some call → ∃ response, s.returned t = some (.reply (.ok response)) ∧
            Handled site setup (fun _ => (0, watch)) s.world.clients.net s.tasks.length t call response :=
  calls_answered site setup (fun _ => (0, watch)) 1 1 (by decide)
    [.call "echo" "ping" .null, .batch [("echo", "ping", .null)], .close] welcoming_pings

end Sample

end UdsClientPool

/-! ### The pool with topics -/

namespace TopicBasedPool
open UdsServer (Setup Watch peer OfCalls Welcoming Handled)

/-- Nothing goes wrong at the operation. -/
def Unhindered (P : Peer) (w : World) (t : Nat) : Op → Choice → Prop
  | .default o, choice => UdsClientPool.Unhindered P ⟨w.pool.defaultPool, w.clients⟩ t o choice
  | .on client o, choice => UnhinderedAt P w.clients client o choice
  | _, _ => True

section
variable {S : Codec} {Proper : ServiceRequest → Prop} {P : Peer}

theorem moves_unhindered (hP : Obliging S Proper P) {w : World} {γ : Nat → Party}
    (hsurely : SharedUdsClient.Surely S Proper P w.clients γ) {t : Nat} {o : Op}
    (hd : (through fun i => surelyTaking S Proper i P).demand (γ t) o)
    (hcan : ∃ choice x, machine.perform t o choice w = some x) :
    ∃ choice x, Unhindered P w t o choice ∧ machine.perform t o choice w = some x := by
  obtain ⟨choice, x, hx⟩ := hcan
  cases o with
  | default o =>
    obtain ⟨y, hy, -⟩ := Option.map_eq_some_iff.mp hx
    obtain ⟨choice', z, hun, hz⟩ := UdsClientPool.moves_unhindered hP (w := ⟨w.pool.defaultPool, w.clients⟩) hsurely hd
      ⟨choice, y, hy⟩
    exact ⟨choice', _, hun, congrArg (Option.map _) hz⟩
  | on client o =>
    obtain ⟨y, hy, -⟩ := Option.map_eq_some_iff.mp hx
    obtain ⟨choice', z, hun, hz⟩ := SharedUdsClient.unhindered_moves hP hsurely.1 hsurely.2 hd.1 hd.2 ⟨choice, y, hy⟩
    exact ⟨choice', _, hun, congrArg (Option.map _) hz⟩
  | _ => exact ⟨choice, x, trivial, hx⟩

def Role.Answered (S : Codec) (P : Peer) (role : Role) (k : Party) (outcome : Outcome) : Prop :=
  ∀ call, role.asked = some call → ∃ response, outcome = .reply (.ok response) ∧
    UdsClient.RepliedBy S (fun request => k.made = [request]) ((k.grasp .calm).Told P)
      (.call call.service call.method call.payload) (.reply (.ok response))

theorem role_surely (hP : P.Whole) (m : Nat) (role : Role)
    (happly : ∀ call, role.asked = some call → Apt Proper call.service call.method call.payload) :
    Safe (through fun i => surelyTaking S Proper i P) (role.task S m) (role.Answered S P) ⟨none, [], []⟩ := by
  cases role with
  | request service method payload topic =>
    have hcall (client : Nat) :=
      SharedUdsClient.call_surelyTaking (S := S) (i := client) (k := ⟨none, [], []⟩) hP rfl (happly _ rfl)
    refine safe_map (callWithTopic_through hcall topic) (fun k response h call hasked => ?_) fun _ _ h => h.elim
    cases hasked
    exact ⟨response, rfl, h⟩
  | close =>
    exact safe_map (close_through (R := fun _ _ => False) (fun _ _ hk => SharedUdsClient.close_surelyTaking hk) rfl)
      (fun _ _ _ _ h => nomatch h) fun _ _ h => h.elim

end

/-- **So are the calls of the pool with topics**, whichever of its lanes they take. -/
theorem topics_answered {σ : Type} (E : Site σ) (setup : Setup) (accepts : ConnId → σ × Watch) (n : Nat) (hn : 0 < n)
    (jobs : List Job) (h : Welcoming E setup accepts ((jobs.flatMap Job.roles).filterMap Role.asked)) :
    (start E.codec n jobs).Inevitably machine (Config.Performs (Unhindered (peer E setup accepts))) fun s =>
      ∀ t role, (jobs.flatMap Job.roles)[t]? = some role → (∃ outcome, s.returned t = some outcome) ∧
        ∀ call, role.asked = some call → ∃ response, s.returned t = some (.reply (.ok response)) ∧
          Handled E setup accepts s.world.clients.net s.tasks.length t call response := by
  have hP := h.obliging
  refine ((ordered hn).inevitably owned_upheld (Config.along_tasks _) rfl (start_ordered E.codec n jobs) rest_none
    (upheld_through (SharedUdsClient.surely_upheld hP) (fun _ _ _ _ _ h => h) fun _ _ _ _ _ h => h)
    (kept_through E.codec n SharedUdsClient.surely_new fun role hrole =>
      role_surely hP.whole _ role fun call hasked => UdsServer.apt_of_mem (List.mem_filterMap.mpr ⟨role, hrole, hasked⟩))
    fun w γ t o hsurely hd hcan => moves_unhindered hP hsurely hd hcan).mono ?_
  rintro s ⟨⟨ls, hrun, -⟩, hall⟩ t role hrole
  have ht : t < (start E.codec n jobs).tasks.length := by
    rw [start_tasks, List.length_map]
    exact (List.getElem?_eq_some_iff.mp hrole).1
  obtain ⟨γ, outcome, hreturned, hsurely, hanswered⟩ := hall t ht
  refine ⟨⟨outcome, hreturned⟩, fun call hasked => ?_⟩
  obtain ⟨response, rfl, hreplied⟩ := hanswered role hrole call hasked
  have honce := Config.throughout_last (topic_requests_once E.codec n jobs ls) hrun
  rw [← Config.run_length hrun] at ht honce
  exact ⟨response, hreturned, handled_of_known hsurely.1 honce ht hreplied⟩

theorem topics_answered_pings :
    (start Json.Text.compact 1 [.call "echo" "ping" .null (some "news"), .call "echo" "ping" .null none,
      .close]).Inevitably machine
      (Config.Performs (Unhindered (peer UdsServer.Sample.site UdsServer.Sample.setup fun _ =>
        (0, UdsServer.Sample.watch)))) fun s =>
      ∀ t role, [Role.request "echo" "ping" .null (some "news"), .request "echo" "ping" .null none,
          .close][t]? = some role → (∃ outcome, s.returned t = some outcome) ∧
        ∀ call, role.asked = some call → ∃ response, s.returned t = some (.reply (.ok response)) ∧
          Handled UdsServer.Sample.site UdsServer.Sample.setup (fun _ => (0, UdsServer.Sample.watch))
            s.world.clients.net s.tasks.length t call response :=
  topics_answered UdsServer.Sample.site UdsServer.Sample.setup (fun _ => (0, UdsServer.Sample.watch)) 1 (by decide)
    [.call "echo" "ping" .null (some "news"), .call "echo" "ping" .null none, .close] UdsClientPool.welcoming_pings

end TopicBasedPool

end XProtocol
