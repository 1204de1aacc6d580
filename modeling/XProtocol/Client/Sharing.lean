import XProtocol.Client.Pairing

/-! Shared clients keep their replies apart, too.

While a task holds a client's mutex it knows how far the exchange is; while nobody
does, nothing is due on the client's stream. That is `Paired`, for all clients of a
process at once, and every operation on a shared client keeps it, and so does
dropping a future, as long as the client holds no stream with an exchange open then
(`Unbroken`). -/
namespace XProtocol
open Async
open Json (Value Codec Bytes)
open Wire

namespace SharedUdsClient
open UdsClient (Held Known Holds Spares exchange)

/-- What a task knows: the client whose mutex it holds, and the requests it has made. -/
structure Knows where
  inside : Option (Nat × Held)
  made : List ServiceRequest

section
variable (S : Codec) (i : Nat)

def demand (k : Knows) : Op → Prop
  | .lock => k.inside = none
  | .unlock => ∃ h, k.inside = some (i, h) ∧ h.Rests
  | .inner o => ∃ h, k.inside = some (i, h) ∧ UdsClient.demand S ⟨h, k.made⟩ o

def move (k : Knows) : (o : Op) → Calls.Ret o → Knows → Prop
  | .lock, _, k' => k' = { k with inside := some (i, .resting) }
  | .unlock, _, k' => k' = { k with inside := none }
  | .inner o, r, k' => ∃ h g, k.inside = some (i, h) ∧ UdsClient.move S ⟨h, k.made⟩ o r g ∧
      k' = ⟨some (i, g.held), g.made⟩

/-- The discipline of client `i`'s callers. -/
def sharing : Discipline Calls Knows := ⟨demand S i, move S i⟩

/-- The client's holder knows `g` of the exchange. -/
def Inside (g : Known) (k : Knows) : Prop := k = ⟨some (i, g.held), g.made⟩

/-- A method whose code rests the client at its end is safe behind the mutex. -/
theorem locked_safe {α : Type} {method : UdsClient.Code α} {made : List ServiceRequest}
    (Q : List ServiceRequest → α → Prop)
    (h : Meets (exchange S) method (fun k a => k.held.Rests ∧ Q k.made a) (fun k _ => k.held.Rests)
      ⟨.resting, made⟩) :
    Safe (sharing S i) (locked method)
      (fun k r => k.inside = none ∧ ∀ a, r = .ok a → Q k.made a) ⟨none, made⟩ := by
  unfold locked
  rw [safe_bind]
  refine (safe_op ..).mpr ⟨rfl, fun _ k hm => ?_⟩
  obtain rfl : k = ⟨some (i, .resting), made⟩ := hm
  rw [safe_bind]
  have hdemand (g : Known) (k : Knows) (o : NetOp UdsClient.Fields) (hin : Inside i g k)
      (hd : (exchange S).demand g o) : (sharing S i).demand k (Op.inner o) := by
    subst hin
    exact ⟨g.held, rfl, hd⟩
  have hmove (g : Known) (k : Knows) (o : NetOp UdsClient.Fields) (r : (NetWith UdsClient.Fields).Ret o)
      (k' : Knows) (hin : Inside i g k) (_ : (exchange S).demand g o)
      (hm : (sharing S i).move k (Op.inner o) r k') :
      ∃ g', (exchange S).move g o r g' ∧ Inside i g' k' := by
    subst hin
    obtain ⟨h, g', hin, hmove, rfl⟩ := hm
    obtain rfl : g.held = h := by simpa using hin
    exact ⟨g', hmove, rfl⟩
  refine safe_mono (safe_embed hdemand hmove h rfl) ?_
  rintro _ r ⟨g, rfl, hr⟩
  have hrests : g.held.Rests := by
    cases r with
    | ok a => exact hr.1
    | error e => exact hr
  rw [safe_bind]
  refine (safe_op ..).mpr ⟨⟨g.held, rfl, hrests⟩, fun _ k hm => ?_⟩
  obtain rfl : k = ⟨none, g.made⟩ := hm
  refine ⟨rfl, fun a ha => ?_⟩
  subst ha
  exact hr.2

/-- **A shared call that returns a response has made one request, and the response names it.** -/
theorem call_safe (made : List ServiceRequest) (service method : String) (payload : Value) :
    Safe (sharing S i) (call S service method payload)
      (fun k r => k.inside = none ∧ ∀ response, r = .ok response →
        ∃ q, k.made = made ++ [q] ∧ response.requestId = q.requestId) ⟨none, made⟩ :=
  locked_safe S i
    (fun made' (response : ServiceResponse) =>
      ∃ q : ServiceRequest, made' = made ++ [q] ∧ response.requestId = q.requestId)
    (UdsClient.call_meets S (show UdsClient.Rested made ⟨.resting, made⟩ from ⟨rfl, trivial⟩)
      service method payload)

theorem close_safe (made : List ServiceRequest) :
    Safe (sharing S i) close (fun k _ => k.inside = none) ⟨none, made⟩ :=
  safe_mono (locked_safe S i (fun _ _ => True)
    (meets_mono (UdsClient.close_meets S _) (fun _ _ h => ⟨h, trivial⟩) fun _ _ h => h))
    fun _ _ h => h.1

end

/-! ### The clients of a process -/

/-- Every client rests, or a task holds it and knows how far its exchange is. -/
structure Paired (S : Codec) (P : Peer) (w : Clients) (γ : Nat → Knows) : Prop where
  free : ∀ i, w.holder i = none → Holds S P i (w.client i) w.net .resting
  taken : ∀ i t, w.holder i = some t →
    ∃ h, (γ t).inside = some (i, h) ∧ Holds S P i (w.client i) w.net h
  holder : ∀ t i h, (γ t).inside = some (i, h) → w.holder i = some t
  made : ∀ t, (γ t).made = w.net.created t

/-- The bytes a read takes are the peer's. -/
def Delivers (P : Peer) (w : Clients) : Op → Choice → Prop
  | .inner (.net o), choice => P.Delivers w.net o choice
  | _, _ => True

instance (P : Peer) (w : Clients) (o : Op) (choice : Choice) : Decidable (Delivers P w o choice) :=
  match o with
  | .inner (.net o) => inferInstanceAs (Decidable (P.Delivers w.net o choice))
  | .inner (.own _) | .lock | .unlock => isTrue trivial

/-- No exchange is open on the stream client `i` holds, and none is begun by what is
left of the operation: a message that is being written has not begun to go out. -/
def Unbroken (P : Peer) (w : Clients) (i : Nat) (o : Op) (out : Nat) : Prop :=
  ∀ c, (w.client i).stream = some c → (∃ fs, Settled P c (w.net.conns c) fs) ∧
    ∀ msgType payload, o = .inner (.net (.write c msgType payload)) → out = 0

variable {S : Codec} {P : Peer} {w w' : Clients} {γ : Nat → Knows} {t i : Nat}

theorem Paired.new (S : Codec) (P : Peer) : Paired S P .new fun _ => ⟨none, []⟩ :=
  ⟨fun _ _ _ h => (nomatch h), nofun, nofun, fun _ => rfl⟩

/-- Task `t` moves inside client `i`, and nothing changes for anyone else. -/
theorem Paired.inside (hp : Paired S P w γ) {h h' : Held} {made : List ServiceRequest} {n : Net}
    {u : UdsClient} (hin : (γ t).inside = some (i, h)) (hspares : Spares i w.net n)
    (hh : Holds S P i u n h') (hmade : made = n.created t) (hcreated : ∀ t' ≠ t, n.created t' = w.net.created t') :
    Paired S P { w.setClient i u with net := n } (Function.update γ t ⟨some (i, h'), made⟩) := by
  have hholder := hp.holder t i h hin
  have hother (j : Nat) (hj : j ≠ i) : ({ w.setClient i u with net := n } : Clients).client j = w.client j :=
    Function.update_of_ne hj ..
  refine ⟨fun j hj => ?_, fun j s hs => ?_, fun s j h'' hs => ?_, fun s => ?_⟩
  · have hji : j ≠ i := by
      rintro rfl
      cases hj.symm.trans hholder
    rw [hother j hji]
    exact (hp.free j hj).spared hspares hji
  · by_cases hji : j = i
    · subst hji
      obtain rfl := Option.some.inj (hs.symm.trans hholder)
      refine ⟨h', by rw [Function.update_self], ?_⟩
      show Holds S P j (Function.update w.client j u j) n h'
      rw [Function.update_self]
      exact hh
    · obtain ⟨h'', hγ, hh''⟩ := hp.taken j s hs
      have hst : s ≠ t := by
        rintro rfl
        rw [hin] at hγ
        exact hji (by simpa using congrArg (Option.map Prod.fst) hγ.symm)
      refine ⟨h'', by rw [Function.update_of_ne hst]; exact hγ, ?_⟩
      rw [hother j hji]
      exact hh''.spared hspares hji
  · by_cases hst : s = t
    · subst hst
      rw [Function.update_self] at hs
      obtain ⟨rfl, -⟩ := Prod.mk.inj (Option.some.inj hs)
      exact hholder
    · rw [Function.update_of_ne hst] at hs
      exact hp.holder s j h'' hs
  · by_cases hst : s = t
    · subst hst
      rw [Function.update_self]
      exact hmade
    · rw [Function.update_of_ne hst, hp.made s]
      exact (hcreated s hst).symm

/-- Task `t` takes or leaves client `i`, at which nothing is due. -/
theorem Paired.passes (hp : Paired S P w γ) (t i : Nat) {x : Option Nat} {inside : Option (Nat × Held)}
    (hrest : Holds S P i (w.client i) w.net .resting)
    (hfree : ∀ s h, (γ s).inside = some (i, h) → s = t) (hown : ∀ j h, (γ t).inside = some (j, h) → j = i)
    (hnext : (x = none ∧ inside = none) ∨ (x = some t ∧ inside = some (i, .resting))) :
    Paired S P (w.setHolder i x) (Function.update γ t { γ t with inside }) := by
  have hself : (w.setHolder i x).holder i = x := Function.update_self ..
  have hother (j : Nat) (hj : j ≠ i) : (w.setHolder i x).holder j = w.holder j :=
    Function.update_of_ne hj ..
  have hγ (s : Nat) (hs : s ≠ t) : Function.update γ t { γ t with inside } s = γ s :=
    Function.update_of_ne hs ..
  refine ⟨fun j hj => ?_, fun j s hs => ?_, fun s j h hs => ?_, fun s => ?_⟩
  · by_cases hji : j = i
    · exact hji ▸ hrest
    · rw [hother j hji] at hj
      exact hp.free j hj
  · by_cases hji : j = i
    · subst hji
      rw [hself] at hs
      rcases hnext with ⟨rfl, -⟩ | ⟨rfl, rfl⟩
      · cases hs
      · cases hs
        exact ⟨.resting, by rw [Function.update_self], hrest⟩
    · rw [hother j hji] at hs
      obtain ⟨h, hin, hh⟩ := hp.taken j s hs
      have hst : s ≠ t := by
        rintro rfl
        exact hji (hown j h hin)
      exact ⟨h, by rw [hγ s hst]; exact hin, hh⟩
  · by_cases hst : s = t
    · subst hst
      rw [Function.update_self] at hs
      rcases hnext with ⟨-, rfl⟩ | ⟨rfl, rfl⟩
      · cases hs
      · obtain ⟨rfl, -⟩ := Prod.mk.inj (Option.some.inj hs)
        exact hself
    · rw [hγ s hst] at hs
      have hji : j ≠ i := by
        rintro rfl
        exact hst (hfree s h hs)
      rw [hother j hji]
      exact hp.holder s j h hs
  · by_cases hst : s = t
    · subst hst
      rw [Function.update_self]
      exact hp.made s
    · rw [hγ s hst]
      exact hp.made s

/-- **Every operation on a shared client keeps the pairing.** -/
theorem perform_upholds (echo : P.Echoes S) (hp : Paired S P w γ) {o : Op} {choice : Choice}
    {r : Calls.Ret o} (hd : demand S i (γ t) o) (hsends : Delivers P w o choice)
    (hstep : w.perform t i o choice = some (r, w')) :
    ∃ k, move S i (γ t) o r k ∧ Paired S P w' (Function.update γ t k) := by
  cases o with
  | lock =>
    cases choice <;> simp [Clients.perform] at hstep
    obtain ⟨hfree, rfl⟩ := hstep
    refine ⟨_, rfl, hp.passes t i (hp.free i hfree) (fun s h hs => ?_) (fun j h hj => ?_) (.inr ⟨rfl, rfl⟩)⟩
    · cases hfree.symm.trans (hp.holder s i h hs)
    · cases hd.symm.trans hj
  | unlock =>
    cases choice <;> simp [Clients.perform] at hstep
    subst hstep
    obtain ⟨h, hin, hrests⟩ := hd
    have hholder := hp.holder t i h hin
    obtain ⟨h', hin', hh⟩ := hp.taken i t hholder
    obtain rfl : h = h' := by simpa using hin.symm.trans hin'
    refine ⟨_, rfl, hp.passes t i (hh.resting hrests) (fun s h hs => ?_) (fun j h hj => ?_) (.inl ⟨rfl, rfl⟩)⟩
    · exact Option.some.inj ((hp.holder s i h hs).symm.trans hholder)
    · simpa using congrArg (Option.map Prod.fst) (hj.symm.trans hin)
  | inner o =>
    obtain ⟨h, hin, hd⟩ := hd
    obtain ⟨h', hin', hh⟩ := hp.taken i t (hp.holder t i h hin)
    obtain rfl : h = h' := by simpa using hin.symm.trans hin'
    cases o with
    | net o =>
      simp only [Clients.perform, Option.map_eq_some_iff] at hstep
      obtain ⟨⟨r', n⟩, hn, hstep⟩ := hstep
      obtain ⟨rfl, rfl⟩ := Prod.mk.inj hstep
      obtain ⟨⟨k, hmove, hk, hmade⟩, hspares, hcreated⟩ := UdsClient.net_upholds echo hh hd hsends hn
      refine ⟨⟨some (i, k.held), k.made⟩, ⟨h, k, hin, hmove, rfl⟩, ?_⟩
      have := hp.inside hin hspares hk (hmade (hp.made t)) hcreated
      simpa [Clients.setClient] using this
    | own o =>
      simp only [Clients.perform, Option.map_eq_some_iff] at hstep
      obtain ⟨⟨r', u⟩, hu, hstep⟩ := hstep
      obtain ⟨rfl, rfl⟩ := Prod.mk.inj hstep
      obtain ⟨k, hmove, hk, hmade⟩ := UdsClient.own_upholds hh hd hu
      refine ⟨⟨some (i, k.held), k.made⟩, ⟨h, k, hin, hmove, rfl⟩, ?_⟩
      exact hp.inside hin (Spares.refl ..) hk (hmade.trans (hp.made t)) fun _ _ => rfl

/-- Where no exchange is open on its stream, a client rests. -/
theorem Unbroken.rests {h : Held} {o : Op} {out : Nat} (hclean : Unbroken P w i o out)
    (hh : Holds S P i (w.client i) w.net h) : Holds S P i (w.client i) w.net .resting :=
  fun c hc => ⟨hh.owns hc, (hclean c hc).1⟩

/-- What is left of an operation leaves nothing due, if no exchange was open and none begun. -/
theorem abandon_rests {h : Held} {made : List ServiceRequest} {o : Net.Op} {out : Nat} {got : Bytes}
    (hh : Holds S P i (w.client i) w.net h) (hd : UdsClient.demand S ⟨h, made⟩ (.net o))
    (hsends : P.Delivers w.net o (.drop out got)) (hclean : Unbroken P w i (.inner (.net o)) out) :
    Holds S P i (w.client i) (Net.abandon o out got w.net) .resting ∧
      Spares i w.net (Net.abandon o out got w.net) ∧
        (Net.abandon o out got w.net).created = w.net.created := by
  have hrest := hclean.rests hh
  -- The operation touches one connection of the client, and leaves it settled if it is the stream.
  have hmodify (d : ConnId) (f : Conn → Conn) (hd : UdsClient.Owns w.net i d)
      (howner : ∀ conn, (f conn).owner = conn.owner)
      (hf : (w.client i).stream = some d → ∀ fs, Settled P d (w.net.conns d) fs →
        Settled P d (f (w.net.conns d)) fs) :
      Holds S P i (w.client i) (w.net.modify d f) .resting ∧ Spares i w.net (w.net.modify d f) ∧
        (w.net.modify d f).created = w.net.created := by
    refine ⟨fun c hc => ?_, UdsClient.spares_modify hd f, rfl⟩
    obtain ⟨howns, fs, hset⟩ := hrest c hc
    by_cases hcd : c = d
    · subst hcd
      refine ⟨UdsClient.owns_modify hd howner, fs, ?_⟩
      rw [Net.modify_self]
      exact hf hc fs hset
    · have hsame := Net.modify_other w.net d c f hcd
      exact ⟨⟨howns.1, by rw [hsame]; exact howns.2⟩, fs, by rw [hsame]; exact hset⟩
  cases o with
  | write d msgType payload =>
    have howns : UdsClient.Owns w.net i d := by
      rcases hd with ⟨rfl, -⟩ | ⟨rfl, -⟩
      · exact hh.2.1
      · exact hh.2.1
    simp only [Net.abandon]
    cases hw : writeMessage msgType payload with
    | error e => exact ⟨hrest, Spares.refl .., rfl⟩
    | ok bytes =>
      refine hmodify d _ howns (fun _ => rfl) fun hc fs hset => ?_
      obtain rfl := (hclean d hc).2 msgType payload rfl
      exact ⟨hset.fits, by simpa [Conn.send] using hset.written, hset.taken, hset.ahead⟩
  | read d timed =>
    have howns : UdsClient.Owns w.net i d := by
      rcases hd with rfl | ⟨q, rfl⟩
      · exact hh.2.1
      · exact hh.2.1
    refine hmodify d _ howns (fun _ => rfl) fun hc fs hset => ?_
    have hgot : (w.net.conns d).taken ++ got <+: P.stream d (w.net.conns d).written := hsends
    obtain rfl := hset.nothing_due hgot
    exact ⟨hset.fits, hset.written, by simpa [Conn.take] using hset.taken, rfl⟩
  | _ => exact ⟨hrest, Spares.refl .., rfl⟩

/-- A task inside a client leaves it, and leaves nothing due. -/
theorem Paired.leaves (hp : Paired S P w γ) {h : Held} {n : Net} (hin : (γ t).inside = some (i, h))
    (hrest : Holds S P i (w.client i) n .resting) (hspares : Spares i w.net n)
    (hcreated : n.created = w.net.created) :
    Paired S P { w.setHolder i none with net := n } (Function.update γ t { γ t with inside := none }) := by
  have hmade (s : Nat) : (γ s).made = n.created s := by rw [hcreated, hp.made s]
  have hstay := hp.inside hin hspares hrest (hmade t) fun s _ => by rw [hcreated]
  have hout : Paired S P ({ w.setClient i (w.client i) with net := n }.setHolder i none)
      (Function.update (Function.update γ t ⟨some (i, .resting), (γ t).made⟩) t ⟨none, (γ t).made⟩) := by
    have hlast := hstay.passes t i ?_ (fun s h' hs => ?_) (fun j h' hj => ?_) (.inl ⟨rfl, rfl⟩)
    · rw [Function.update_self] at hlast
      exact hlast
    · show Holds S P i (Function.update w.client i _ i) n .resting
      rw [Function.update_self]
      exact hrest
    · by_contra hst
      rw [Function.update_of_ne hst] at hs
      exact hst (Option.some.inj ((hp.holder s i h' hs).symm.trans (hp.holder t i h hin)))
    · rw [Function.update_self] at hj
      exact (Prod.mk.inj (Option.some.inj hj)).1.symm
  rw [Function.update_idem] at hout
  simpa [Clients.setHolder, Clients.setClient] using hout

/-- **Dropping a future keeps the pairing, where no exchange is open on the stream
that the client keeps.** -/
theorem abandon_upholds (hp : Paired S P w γ) {o : Op} {out : Nat} {got : Bytes}
    (hd : demand S i (γ t) o) (hsends : Delivers P w o (.drop out got)) (hclean : Unbroken P w i o out) :
    Paired S P (w.abandon t i o out got) (Function.update γ t { γ t with inside := none }) := by
  cases o with
  | lock =>
    have hnot : w.holder i ≠ some t := by
      intro hh
      obtain ⟨h, hin, -⟩ := hp.taken i t hh
      cases hd.symm.trans hin
    have hsame : ({ γ t with inside := none } : Knows) = γ t := by
      rw [← (show (γ t).inside = none from hd)]
    rw [hsame, Function.update_eq_self]
    simpa [Clients.abandon, hnot] using hp
  | unlock =>
    obtain ⟨h, hin, hrests⟩ := hd
    have hholder := hp.holder t i h hin
    obtain ⟨h', hin', hh⟩ := hp.taken i t hholder
    obtain rfl : h = h' := by simpa using hin.symm.trans hin'
    have hout := hp.leaves hin (hh.resting hrests) (Spares.refl ..) rfl
    simpa [Clients.abandon, hholder, Clients.setHolder] using hout
  | inner o =>
    obtain ⟨h, hin, hd⟩ := hd
    have hholder := hp.holder t i h hin
    obtain ⟨h', hin', hh⟩ := hp.taken i t hholder
    obtain rfl : h = h' := by simpa using hin.symm.trans hin'
    cases o with
    | net o =>
      obtain ⟨hrest, hspares, hcreated⟩ := abandon_rests hh hd hsends hclean
      have hout := hp.leaves hin hrest hspares hcreated
      simpa [Clients.abandon, hholder, Clients.setHolder] using hout
    | own o =>
      have hout := hp.leaves hin (hclean.rests hh) (Spares.refl ..) rfl
      simpa [Clients.abandon, hholder, Clients.setHolder] using hout

end SharedUdsClient

end XProtocol
