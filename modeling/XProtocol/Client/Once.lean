import XProtocol.Async.Always
import XProtocol.Async.Ledger
import XProtocol.Client.Concurrent

/-! No request goes out twice.

A method draws a request and writes it once; whatever happens to it then (the write breaks
off, the reply is late, or does not come, the connection is lost, the future is dropped),
nobody writes it again. What a task has drawn and not yet written is its `Draft`. Over all
tasks, the requests that were sent and those that are drafts are no more than those that were
created, id for id (`Sparing`), and every operation of a client keeps that up. -/
namespace XProtocol
open Async
open Json (Bytes Value Codec Deserialize)
open Wire

/-- The message asks a handler for something. -/
def Wire.Frame.isRequest (f : Frame) : Bool := f.msgType = msgRequest || f.msgType = msgStreamRequest

/-- The message carries a request with the id `id`. -/
def carries (S : Codec) (id : String) (f : Frame) : Bool :=
  f.isRequest && (S.fromSlice f.payload : Option ServiceRequest).any (·.requestId = id)

/-- The requests with the id `id` that were sent on a connection. -/
def Conn.requests (S : Codec) (id : String) (conn : Conn) : Nat := conn.sentOn.countP (carries S id)

namespace Net

/-- The requests with the id `id` that were sent on all connections. -/
def requests (S : Codec) (id : String) (n : Net) : Nat := total n.opened (Conn.requests S id) n.conns

/-- The requests with the id `id` that the first `count` tasks have created. -/
def creations (id : String) (count : Nat) (n : Net) : Nat :=
  total count (fun made : List ServiceRequest => made.countP (·.requestId = id)) n.created

end Net

/-! ### Drafts -/

/-- The request that was drawn and not written yet. -/
abbrev Draft := Option ServiceRequest

namespace Draft

def after (g : Draft) : (o : Net.Op) → o.Ret → Draft
  | .newRequest .., r => some r
  | .write _ msgType payload, _ => if (⟨msgType, payload⟩ : Frame).isRequest then none else g
  | _, _ => g

/-- A request that is written is the draft. -/
def demand (S : Codec) (g : Draft) : Net.Op → Prop
  | .write _ msgType payload => (⟨msgType, payload⟩ : Frame).isRequest = true →
    ∃ r : ServiceRequest, g = some r ∧ payload = S.toVec r
  | _ => True

def pending (id : String) (g : Draft) : Nat := if g.any (·.requestId = id) then 1 else 0

end Draft

section
variable {S : Codec} {n n' : Net} {c : ConnId} {id : String}

theorem requests_modify {f : Conn → Conn} (hf : (f (n.conns c)).requests S id = (n.conns c).requests S id) :
    (n.modify c f).requests S id = n.requests S id := by
  by_cases hc : c < n.opened
  · have hupdate := total_update (f := Conn.requests S id) (γ := n.conns) hc (f (n.conns c))
    rw [hf] at hupdate
    exact Nat.add_right_cancel hupdate
  · exact total_beyond hc _

theorem requests_dial (n : Net) (owner : Nat) : (n.dial owner).requests S id = n.requests S id := by
  show total (n.opened + 1) (Conn.requests S id) (Function.update n.conns n.opened (.fresh owner)) = _
  rw [total_succ, Function.update_self]
  exact total_beyond (Nat.lt_irrefl _) _

theorem requests_send (conn : Conn) (f : Frame) (bytes : Bytes) :
    (conn.send f bytes).requests S id = conn.requests S id + if carries S id f then 1 else 0 := by
  unfold Conn.requests
  rw [sentOn_send, List.countP_append, List.countP_singleton]

/-- One message more was sent, at most. -/
theorem requests_modify_send (f : Frame) (bytes : Bytes) :
    (n.modify c (·.send f bytes)).requests S id ≤ n.requests S id + if carries S id f then 1 else 0 := by
  by_cases hc : c < n.opened
  · have hupdate := total_update (f := Conn.requests S id) (γ := n.conns) hc ((n.conns c).send f bytes)
    rw [requests_send] at hupdate
    show total n.opened _ (Function.update n.conns c ((n.conns c).send f bytes)) ≤ total n.opened _ n.conns + _
    omega
  · exact Nat.le_add_right_of_le (Nat.le_of_eq (total_beyond hc _))

theorem creations_create {t count : Nat} (ht : t < count) (r : ServiceRequest) :
    (n.create t r).creations id count = n.creations id count + Draft.pending id (some r) := by
  have hupdate := total_update (f := fun made : List ServiceRequest => made.countP (·.requestId = id)) (γ := n.created)
    ht (n.created t ++ [r])
  rw [List.countP_append, List.countP_singleton] at hupdate
  show total count _ (Function.update n.created t _) = total count _ n.created + _
  simp only [Draft.pending, Option.any_some]
  omega

/-- A request that is written is no longer a draft. -/
theorem carries_pending {g : Draft} {c : ConnId} {msgType : UInt8} {payload : Bytes} (id : String) (r : Result Unit)
    (hd : g.demand S (.write c msgType payload)) :
    (if carries S id ⟨msgType, payload⟩ then 1 else 0) + (g.after (.write c msgType payload) r).pending id ≤
      g.pending id := by
  unfold carries Draft.after
  by_cases hrequest : (⟨msgType, payload⟩ : Frame).isRequest = true
  · obtain ⟨q, rfl, rfl⟩ := hd hrequest
    simp [hrequest, Draft.pending]
  · simp [hrequest]

/-- **No operation of a client makes more of the requests that were created.** -/
theorem perform_sparing {t owner count : Nat} {o : Net.Op} {choice : Choice} {r : o.Ret} {g : Draft} (ht : t < count)
    (hd : g.demand S o) (hp : n.perform t owner o choice = some (r, n')) :
    n'.requests S id + (g.after o r).pending id + n.creations id count ≤
      n.requests S id + g.pending id + n'.creations id count := by
  cases o with
  | connect timed =>
    rcases Net.perform_connect hp with ⟨-, rfl⟩ | ⟨-, rfl⟩
    · rw [requests_dial]
      exact Nat.le_refl _
    · exact Nat.le_refl _
  | split c =>
    obtain rfl := Net.perform_split hp
    rw [requests_modify rfl]
    exact Nat.le_refl _
  | write c msgType payload =>
    have hpending := carries_pending id r hd
    have hcreations : n'.creations id count = n.creations id count := by
      rcases Net.perform_write hp with ⟨-, -, rfl⟩ | ⟨-, -, rfl⟩ | ⟨-, -, out, rfl⟩ <;> rfl
    have hrequests : n'.requests S id ≤ n.requests S id + if carries S id ⟨msgType, payload⟩ then 1 else 0 := by
      rcases Net.perform_write hp with ⟨-, -, rfl⟩ | ⟨-, -, rfl⟩ | ⟨-, -, out, rfl⟩
      · exact Nat.le_add_right ..
      · exact requests_modify_send ..
      · exact requests_modify_send ..
    omega
  | read c timed =>
    rcases Net.perform_read hp with ⟨f, rest, -, -, rfl⟩ | ⟨-, ahead, rfl⟩
    · rw [requests_modify (congrArg (List.countP _) (sentOn_receive f))]
      exact Nat.le_refl _
    · rw [requests_modify rfl]
      exact Nat.le_refl _
  | newRequest service method payload =>
    obtain rfl := Net.perform_newRequest hp
    rw [creations_create ht]
    show n.requests S id + Draft.pending id (some r) + _ ≤ _
    omega

/-- What is left of an operation that is dropped leaves no draft. -/
theorem abandon_sparing {count : Nat} {o : Net.Op} {g : Draft} (hd : g.demand S o) (out : Nat) (got : Bytes) :
    (Net.abandon o out got n).requests S id + n.creations id count ≤
      n.requests S id + g.pending id + (Net.abandon o out got n).creations id count := by
  cases o with
  | write c msgType payload =>
    have hpending := carries_pending id (.ok ()) hd
    simp only [Net.abandon]
    cases hw : writeMessage msgType payload with
    | error e => exact Nat.add_le_add_right (Nat.le_add_right ..) _
    | ok bytes =>
      have hrequests : (n.modify c (·.send ⟨msgType, payload⟩ (bytes.take out))).requests S id ≤
          n.requests S id + if carries S id ⟨msgType, payload⟩ then 1 else 0 := requests_modify_send ..
      show (n.modify c _).requests S id + n.creations id count ≤ _ + _ + n.creations id count
      omega
  | read c timed =>
    show (n.modify c (·.take got [])).requests S id + n.creations id count ≤ _ + _ + n.creations id count
    rw [requests_modify rfl]
    omega
  | _ => exact Nat.add_le_add_right (Nat.le_add_right ..) _

end

/-! ### The methods -/

namespace Draft

/-- What a client's code owes at an operation; it does not panic, either. -/
def owes (S : Codec) (g : Draft) : SharedUdsClient.Op → Prop
  | .inner (.net o) => g.demand S o
  | .inner (.own .panic) => False
  | _ => True

def moved (g : Draft) : (o : SharedUdsClient.Op) → SharedUdsClient.Calls.Ret o → Draft
  | .inner (.net o), r => g.after o r
  | _, _ => g

end Draft

section Methods
variable (S : Codec) {α : Type}

/-- The discipline of those who write a request once. -/
abbrev sparing : Discipline SharedUdsClient.Calls Draft := owing (Draft.owes S) Draft.moved

/-- The client's method writes its request once. -/
def Once (p : UdsClient.Code α) : Prop :=
  AlwaysMeets (⟨fun g o => Draft.owes S g (.inner o), fun g o r g' => g' = g.moved (.inner o) r⟩ :
    Discipline (NetWith UdsClient.Fields) Draft) p

variable {S} {c : ConnId}

theorem once_own {o : UdsClient.Op} (ho : o ≠ .panic) : Once S (UdsClient.own o) := alwaysMeets_op fun _ => by
  cases o with
  | panic => exact absurd rfl ho
  | _ => exact trivial

theorem once_split : Once S (.split c : UdsClient.Code Unit) := alwaysMeets_op fun _ => trivial

theorem once_readTimed : Once S (.readTimed c : UdsClient.Code Frame) :=
  alwaysMeets_bind (alwaysMeets_op fun _ => trivial) fun r => by
    cases r with
    | inTime r => exact alwaysMeets_mk r
    | elapsed => exact alwaysMeets_throw _

theorem once_decode [Deserialize α] (payload : Bytes) : Once S (.decode S payload : UdsClient.Code α) := by
  unfold Code.decode
  cases (S.fromSlice payload : Option α) with
  | some a => exact alwaysMeets_pure a
  | none => exact alwaysMeets_throw _

/-- A message that is no request may be written at any time. -/
theorem once_write {msgType : UInt8} {payload : Bytes} (h : (⟨msgType, payload⟩ : Frame).isRequest = false) :
    Once S (.write c msgType payload : UdsClient.Code Unit) :=
  alwaysMeets_bind (alwaysMeets_op fun _ hrequest => nomatch h.symm.trans hrequest) fun r => alwaysMeets_mk r

/-- A request is written behind its creation. -/
theorem once_request {service method : String} {payload : Value} {msgType : UInt8} {p : UdsClient.Code α}
    (hp : Once S p) :
    Once S ((.newRequest service method payload : UdsClient.Code ServiceRequest) >>= fun request =>
      (.write c msgType (S.toVec request) : UdsClient.Code Unit) >>= fun _ => p) := by
  intro g
  refine ⟨trivial, ?_⟩
  rintro r _ rfl
  refine ⟨fun _ => ⟨r, rfl, rfl⟩, fun answer g' _ => ?_⟩
  cases answer with
  | ok _ => exact hp g'
  | error e => trivial

theorem connect_once : Once S (UdsClient.connect S) := by
  refine alwaysMeets_bind ?_ fun c => alwaysMeets_bind once_split fun _ => alwaysMeets_bind (once_write rfl) fun _ =>
    alwaysMeets_bind once_readTimed fun f => ?_
  · refine alwaysMeets_bind (alwaysMeets_op fun _ => trivial) fun r => ?_
    rcases r with (_ | _) | _
    · exact alwaysMeets_throw _
    · exact alwaysMeets_pure _
    · exact alwaysMeets_throw _
  split
  · exact alwaysMeets_throw _
  refine alwaysMeets_bind (once_decode _) fun response => ?_
  split
  · exact alwaysMeets_throw _
  exact alwaysMeets_bind (once_own nofun) fun _ => alwaysMeets_bind (once_own nofun) fun _ => once_own nofun

theorem held_once : Once S UdsClient.held := by
  refine alwaysMeets_bind (once_own nofun) fun c => ?_
  cases c with
  | some c => exact alwaysMeets_pure c
  | none => exact alwaysMeets_throw _

theorem doCallInternal_once (service method : String) (payload : Value) :
    Once S (UdsClient.doCallInternal S service method payload) := by
  refine alwaysMeets_bind held_once fun c => alwaysMeets_bind once_split fun _ => once_request ?_
  refine alwaysMeets_bind once_readTimed fun f => ?_
  split
  · exact alwaysMeets_throw _
  · exact once_decode _

theorem request_once {p : UdsClient.Code α} (hp : Once S p) : Once S (UdsClient.request S p) := by
  have hexchange : Once S (tryCatch p fun e => do
      UdsClient.setConnected false
      UdsClient.setStream none
      throw e) :=
    alwaysMeets_tryCatch hp fun e => alwaysMeets_bind (once_own nofun) fun _ => alwaysMeets_bind (once_own nofun) fun _ =>
      alwaysMeets_throw e
  refine alwaysMeets_bind (once_own nofun) fun c => ?_
  cases c with
  | some c => exact hexchange
  | none => exact alwaysMeets_bind connect_once fun _ => hexchange

theorem close_once : Once S UdsClient.close :=
  alwaysMeets_bind (once_own nofun) fun _ => alwaysMeets_bind (once_own nofun) fun _ => once_own nofun

/-- Behind the client's mutex. -/
theorem locked_once {p : UdsClient.Code α} (hp : Once S p) : Always (sparing S) (SharedUdsClient.locked p) := by
  have hop (o : SharedUdsClient.Op) (ho : ∀ g, Draft.owes S g o) :
      Always (sparing S) (Program.op (E := SharedUdsClient.Calls) o) := always_perform ho always_done
  have hdemand (g : Draft) (o : NetOp UdsClient.Fields) (h : Draft.owes S g (.inner o)) :
      (sparing S).demand g (SharedUdsClient.Op.inner o) := h
  have hmove (g : Draft) (o : NetOp UdsClient.Fields) (r : SharedUdsClient.Calls.Ret (.inner o)) (g' : Draft)
      (h : (sparing S).move g (SharedUdsClient.Op.inner o) r g') : g' = g.moved (.inner o) r := h
  have hinner : Always (sparing S) (p.run.embed (F := SharedUdsClient.Calls) SharedUdsClient.Op.inner fun _ r => r) :=
    always_embed id hdemand hmove hp
  unfold SharedUdsClient.locked
  exact always_bind (hop .lock fun _ => trivial) fun _ => always_bind hinner fun r =>
    always_bind (hop .unlock fun _ => trivial) fun _ => always_done r

theorem shared_close_once : Always (sparing S) SharedUdsClient.close := locked_once close_once

theorem call_once (service method : String) (payload : Value) :
    Always (sparing S) (SharedUdsClient.call S service method payload) :=
  locked_once (request_once (doCallInternal_once service method payload))

end Methods

/-! ### Tasks and clients -/

/-- Id for id, no more requests were sent or drawn than were created. -/
def Sparing (S : Codec) (count : Nat) (n : Net) (γ : Nat → Draft) : Prop :=
  ∀ id, n.requests S id + total count (Draft.pending id) γ ≤ n.creations id count

section Tasks
variable {S : Codec} {count t i : Nat} {γ : Nat → Draft} {w w' : Clients} {o : SharedUdsClient.Op}

theorem sparing_new (S : Codec) (count : Nat) : Sparing S count .empty fun _ => none := by
  intro id
  have hdrafts : total count (Draft.pending id) (fun _ => none) = 0 := total_eq_zero.mpr fun _ _ => rfl
  rw [hdrafts]
  exact Nat.zero_le _

theorem Sparing.entry {n n' : Net} {g : Draft} (h : Sparing S count n γ) (ht : t < count)
    (hstep : ∀ id, n'.requests S id + g.pending id + n.creations id count ≤
      n.requests S id + (γ t).pending id + n'.creations id count) : Sparing S count n' (Function.update γ t g) := by
  intro id
  have hbefore := h id
  have hmove := hstep id
  have hupdate := total_update (f := Draft.pending id) (γ := γ) ht g
  omega

/-- **An operation of a client sends no request that was sent before.** -/
theorem Sparing.perform (h : Sparing S count w.net γ) (ht : t < count) {choice : Choice}
    {r : SharedUdsClient.Calls.Ret o} (hd : (γ t).owes S o) (hp : w.perform t i o choice = some (r, w')) :
    Sparing S count w'.net (Function.update γ t ((γ t).moved o r)) := by
  refine h.entry ht fun id => ?_
  cases o with
  | lock =>
    cases choice <;> simp [Clients.perform] at hp
    obtain ⟨-, rfl⟩ := hp
    exact Nat.le_refl _
  | unlock =>
    cases choice <;> simp [Clients.perform] at hp
    subst hp
    exact Nat.le_refl _
  | inner o =>
    cases o with
    | net o =>
      obtain ⟨⟨r', n⟩, hn, heq⟩ := Option.map_eq_some_iff.mp hp
      obtain ⟨rfl, rfl⟩ := Prod.mk.inj heq
      exact perform_sparing ht hd hn
    | own o =>
      obtain ⟨⟨r', u⟩, -, heq⟩ := Option.map_eq_some_iff.mp hp
      obtain ⟨rfl, rfl⟩ := Prod.mk.inj heq
      exact Nat.le_refl _

/-- What is left of an operation that is dropped was sent once, too. -/
theorem Sparing.abandon (h : Sparing S count w.net γ) (ht : t < count) (hd : (γ t).owes S o) (out : Nat)
    (got : Bytes) : Sparing S count (w.abandon t i o out got).net (Function.update γ t none) := by
  refine h.entry ht fun id => ?_
  have hnet : (if w.holder i = some t then w.setHolder i none else w).net = w.net := by
    split <;> rfl
  show _ + 0 + _ ≤ _
  cases o with
  | inner o =>
    cases o with
    | net o =>
      show (Net.abandon o out got (ite _ _ _ : Clients).net).requests S id + 0 + _ ≤
        _ + _ + (Net.abandon o out got (ite _ _ _ : Clients).net).creations id count
      rw [hnet]
      exact abandon_sparing hd out got
    | own o =>
      show (ite _ _ _ : Clients).net.requests S id + 0 + _ ≤ _ + _ + (ite _ _ _ : Clients).net.creations id count
      rw [hnet]
      omega
  | _ =>
    show (ite _ _ _ : Clients).net.requests S id + 0 + _ ≤ _ + _ + (ite _ _ _ : Clients).net.creations id count
    rw [hnet]
    omega

end Tasks

end XProtocol
