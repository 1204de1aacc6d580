import XProtocol.Async.Stretch
import XProtocol.Client.Locking
import XProtocol.EchoServer

/-! What the state of the reconnecting client says.

Three things about it hold whenever every task is parked. A client that is connected holds a
stream: who takes the stream out writes another state in the same stretch, or keeps `lock`
while the state is none of a connected client. A client is connecting only while the task that
said so keeps `lock`. And `connect` returns `Ok` with the client connected: behind `lock` it
finds no other task connecting.

`Hand` is what a task knows along its way, part of it for one stretch only. -/
namespace XProtocol.ReliableUdsClient
open Async
open Json (Value Codec)
open Wire

/-- The operations at which a task parks; a panic it does not get over. -/
def parks : NetOp Fields → Bool
  | .own .panic => true
  | o => awaits o

/-- A client that is connected holds a stream. -/
def Stocked (u : ReliableUdsClient) : Prop := u.state = .connected → u.stream.isSome = true

/-! ### What a task knows -/

/-- What a task that holds `lock` has made of the state. -/
inductive Phase where
  | idle
  | connecting
  | reconnecting
  deriving DecidableEq

def Phase.of : ConnectionState → Phase
  | .connecting => .connecting
  | .reconnecting => .reconnecting
  | _ => .idle

structure Hand where
  lock : Bool
  stream : Bool
  phase : Phase
  /-- The state, as it is. -/
  seen : Option ConnectionState
  /-- The stream is there. -/
  filled : Bool
  /-- The stream is gone, though the client may be connected. -/
  torn : Bool
  /-- `lock` was taken the moment before, and not because the client was connected. -/
  unsure : Bool

namespace Hand

def none : Hand := ⟨false, false, .idle, .none, false, false, false⟩

/-- Behind an operation at which it parked, a task knows nothing of the state and the stream. -/
def wake (k : Hand) : Hand := { k with seen := .none, filled := false, torn := false, unsure := false }

/-- It has not just taken `lock`. -/
def settle (k : Hand) : Hand := { k with unsure := false }

/-- A task parks only when it has not torn the client, takes the stream behind `lock` only if it has
seen the client connected, says `connecting` and what comes of it under `lock`, and `connected`
with a stream there. -/
def demand (k : Hand) (o : NetOp Fields) : Prop :=
  (parks o = true → k.torn = false) ∧
    match o with
    | .own .lock => k.lock = false
    | .own .lockStream => k.unsure = false
    | .own .unlock => k.lock = true ∧ k.phase ≠ .connecting
    | .own .unlockStream => k.stream = true
    | .own (.writeState .connected) => k.lock = true ∧ k.filled = true
    | .own (.writeState s) => Phase.of s ≠ .idle → k.lock = true
    | _ => True

/-- Under `lock` nobody else is found connecting. -/
def Finds (k : Hand) (s : ConnectionState) : Prop := k.lock = true → k.phase ≠ .connecting → s ≠ .connecting

def move (k : Hand) : (o : NetOp Fields) → (NetWith Fields).Ret o → Hand → Prop
  | .own .lock, _, k' => k.lock = false ∧ k' = { k.wake with lock := true, unsure := k.seen ≠ some .connected }
  | .own .lockStream, _, k' => k.stream = false ∧ k' = { k.wake with stream := true }
  | .own (.sleep _), _, k' => k' = k.wake
  | .net (.connect _), _, k' => k' = k.wake
  | .net (.write ..), _, k' => k' = k.wake
  | .net (.read ..), _, k' => k' = k.wake
  | .own .unlock, _, k' => k' = { k.settle with lock := false, phase := .idle }
  | .own .unlockStream, _, k' => k' = { k.settle with stream := false }
  | .own .readState, s, k' => k.Finds s ∧ k' = { k.settle with seen := some s }
  | .own .guardState, s, k' => k.Finds s ∧ k' = { k.settle with seen := some s }
  | .own (.writeState s), _, k' => k' = { k.settle with phase := .of s, seen := some s, torn := false }
  | .own (.setStream c), _, k' =>
    k' = { k.settle with filled := c.isSome, torn := decide (c = .none ∧ k.phase = .idle) }
  | _, _, k' => k' = k.settle

end Hand

def standing : Discipline (NetWith Fields) Hand := ⟨Hand.demand, Hand.move⟩

/-! ### What the tasks know is true -/

/-- What they know for good. Who has said `connecting` or `reconnecting` holds `lock`, and the
client is not connected. -/
structure Sorted (u : ReliableUdsClient) (γ : Nat → Hand) : Prop where
  lock : Held u.lock (Hand.lock ∘ γ)
  stream : Held u.streamLock (Hand.stream ∘ γ)
  making : ∀ t, (γ t).phase ≠ .idle → (γ t).lock = true ∧ u.state ≠ .connected
  connecting : u.state = .connecting → ∃ t, (γ t).phase = .connecting

/-- What the task that goes on knows besides. -/
structure Live (u : ReliableUdsClient) (k : Hand) : Prop where
  seen : ∀ s, k.seen = some s → u.state = s
  filled : k.filled = true → u.stream.isSome = true
  stocked : k.torn = false → Stocked u

section
variable {u u' : ReliableUdsClient} {γ : Nat → Hand} {t : Nat} {k : Hand}

/-- A task that knows nothing for a stretch. -/
theorem live_of_stocked (hseen : k.seen = none) (hfilled : k.filled = false) (h : Stocked u) : Live u k where
  seen _ hs := nomatch hseen.symm.trans hs
  filled hk := nomatch hfilled.symm.trans hk
  stocked _ := h

/-- Only the state and the stream matter. -/
theorem Live.congr {k' : Hand} (h : Live u k) (hstate : u'.state = u.state) (hstream : u'.stream = u.stream)
    (hk : k'.seen = k.seen ∧ k'.filled = k.filled ∧ k'.torn = k.torn) : Live u' k' := by
  obtain ⟨hseen, hfilled, htorn⟩ := hk
  constructor
  · rw [hstate, hseen]; exact h.seen
  · rw [hstream, hfilled]; exact h.filled
  · unfold Stocked; rw [hstate, hstream, htorn]; exact h.stocked

/-- The task holds `lock` that has said something. -/
theorem Sorted.same (h : Sorted u γ) {v : Nat} (ht : (γ t).lock = true) (hv : (γ v).lock = true) : v = t :=
  Option.some.inj (((h.lock v).mpr hv).symm.trans ((h.lock t).mpr ht))

theorem Sorted.finds (h : Sorted u γ) : (γ t).Finds u.state := by
  intro hlock hphase hstate
  obtain ⟨v, hv⟩ := h.connecting hstate
  have hholds := (h.making v (by rw [hv]; exact nofun)).1
  exact hphase (h.same hlock hholds ▸ hv)

/-- A task's knowledge changes part by part. -/
theorem Sorted.learn (h : Sorted u γ) (hlock : Held u'.lock (Function.update (Hand.lock ∘ γ) t k.lock))
    (hstream : Held u'.streamLock (Function.update (Hand.stream ∘ γ) t k.stream))
    (hstate : u'.state = u.state) (hphase : k.phase = (γ t).phase) (hkeeps : k.phase ≠ .idle → k.lock = true) :
    Sorted u' (Function.update γ t k) := by
  refine ⟨by rwa [Function.comp_update], by rwa [Function.comp_update], fun v hv => ?_, fun hc => ?_⟩
  · by_cases hvt : v = t
    · subst hvt
      rw [Function.update_self] at hv ⊢
      exact ⟨hkeeps hv, hstate ▸ (h.making v (hphase ▸ hv)).2⟩
    · rw [Function.update_of_ne hvt] at hv ⊢
      exact hstate ▸ h.making v hv
  · obtain ⟨v, hv⟩ := h.connecting (hstate ▸ hc)
    refine ⟨v, ?_⟩
    by_cases hvt : v = t
    · subst hvt
      rw [Function.update_self, hphase, hv]
    · rwa [Function.update_of_ne hvt]

/-- An operation that leaves the locks and the state alone. -/
theorem Sorted.beside (h : Sorted u γ) (hlock : u'.lock = u.lock) (hstream : u'.streamLock = u.streamLock)
    (hstate : u'.state = u.state) (hk : k.lock = (γ t).lock ∧ k.stream = (γ t).stream ∧ k.phase = (γ t).phase) :
    Sorted u' (Function.update γ t k) := by
  obtain ⟨hklock, hkstream, hkphase⟩ := hk
  refine h.learn ?_ ?_ hstate hkphase fun hphase => ?_
  · rw [hlock, hklock]
    exact h.lock.kept
  · rw [hstream, hkstream]
    exact h.stream.kept
  · rw [hklock]
    exact (h.making t (hkphase ▸ hphase)).1

theorem Sorted.writeState (h : Sorted u γ) {s : ConnectionState} (hd : (γ t).demand (.own (.writeState s)))
    (hlock : u'.lock = u.lock) (hstream : u'.streamLock = u.streamLock) (hstate : u'.state = s)
    (hk : k.lock = (γ t).lock ∧ k.stream = (γ t).stream ∧ k.phase = .of s) :
    Sorted u' (Function.update γ t k) := by
  obtain ⟨hklock, hkstream, hkphase⟩ := hk
  have hkeeps : Phase.of s ≠ .idle → (γ t).lock = true := by
    obtain ⟨-, hd⟩ := hd
    cases s with
    | connected => exact fun h => absurd rfl h
    | _ => exact hd
  refine ⟨?_, ?_, fun v hv => ?_, fun hc => ?_⟩
  · rw [Function.comp_update, hlock]
    exact hklock ▸ h.lock.kept
  · rw [Function.comp_update, hstream]
    exact hkstream ▸ h.stream.kept
  · by_cases hvt : v = t
    · subst hvt
      rw [Function.update_self] at hv ⊢
      refine ⟨hklock.trans (hkeeps (hkphase ▸ hv)), fun hc => ?_⟩
      rw [hkphase, hstate.symm.trans hc] at hv
      exact hv rfl
    · rw [Function.update_of_ne hvt] at hv ⊢
      refine ⟨(h.making v hv).1, fun hc => ?_⟩
      -- Only the holder of `lock` says that the client is connected.
      obtain rfl := hstate.symm.trans hc
      exact hvt (h.same hd.2.1 (h.making v hv).1)
  · obtain rfl := hstate.symm.trans hc
    exact ⟨t, by rw [Function.update_self, hkphase]; rfl⟩

theorem Sorted.unlock (h : Sorted u γ) (hlock : (γ t).lock = true) (hphase : (γ t).phase ≠ .connecting) :
    Sorted { u with lock := none } (Function.update γ t { (γ t).settle with lock := false, phase := .idle }) := by
  refine ⟨?_, ?_, fun v hv => ?_, fun hc => ?_⟩
  · rw [Function.comp_update]
    exact h.lock.give hlock
  · rw [Function.comp_update]
    exact h.stream.kept
  · by_cases hvt : v = t
    · subst hvt
      rw [Function.update_self] at hv
      exact absurd rfl hv
    · rw [Function.update_of_ne hvt] at hv ⊢
      exact h.making v hv
  · obtain ⟨v, hv⟩ := h.connecting hc
    refine ⟨v, ?_⟩
    rwa [Function.update_of_ne]
    rintro rfl
    exact hphase hv

/-- **An operation on the client's own fields keeps what the tasks know true.** It goes on from knowledge
that is live, or wakes in a client that is stocked. -/
theorem own_keeps {o : Op} {c : Choice} {r : Fields.Ret o} (h : Sorted u γ)
    (hnow : Live u (γ t) ∨ Stocked u ∧ parks (.own o) = true) (hd : (γ t).demand (.own o))
    (hstep : perform t o c u = some (r, u')) :
    ∃ k, (γ t).move (.own o) r k ∧ Sorted u' (Function.update γ t k) ∧ Live u' k := by
  have hlive (hparks : parks (.own o) = false) : Live u (γ t) :=
    hnow.resolve_right fun hwakes => Bool.false_ne_true (hparks.symm.trans hwakes.2)
  have hstocked (hparks : parks (.own o) = true) : Stocked u :=
    hnow.elim (fun hlive => hlive.stocked (hd.1 hparks)) And.left
  cases o with
  | lock =>
    cases c <;> simp [perform] at hstep
    obtain ⟨hfree, rfl⟩ := hstep
    have hno : (γ t).lock = false := Bool.eq_false_of_not_eq_true fun ht => by
      cases hfree.symm.trans ((h.lock t).mpr ht)
    exact ⟨_, ⟨hno, rfl⟩, h.learn (h.lock.take hfree) h.stream.kept rfl rfl fun _ => rfl,
      live_of_stocked rfl rfl (hstocked rfl)⟩
  | lockStream =>
    cases c <;> simp [perform] at hstep
    obtain ⟨hfree, rfl⟩ := hstep
    have hno : (γ t).stream = false :=
      Bool.eq_false_of_not_eq_true fun ht => by cases hfree.symm.trans ((h.stream t).mpr ht)
    exact ⟨_, ⟨hno, rfl⟩, h.learn h.lock.kept (h.stream.take hfree) rfl rfl fun hv => (h.making t hv).1,
      live_of_stocked rfl rfl (hstocked rfl)⟩
  | unlock =>
    cases c <;> simp [perform] at hstep
    subst hstep
    exact ⟨_, rfl, h.unlock hd.2.1 hd.2.2, (hlive rfl).congr rfl rfl ⟨rfl, rfl, rfl⟩⟩
  | unlockStream =>
    cases c <;> simp [perform] at hstep
    subst hstep
    exact ⟨_, rfl, h.learn h.lock.kept (h.stream.give hd.2) rfl rfl fun hv => (h.making t hv).1,
      (hlive rfl).congr rfl rfl ⟨rfl, rfl, rfl⟩⟩
  | readState =>
    cases c <;> simp [perform] at hstep
    obtain ⟨-, rfl, rfl⟩ := hstep
    refine ⟨_, ⟨h.finds, rfl⟩, h.beside rfl rfl rfl ⟨rfl, rfl, rfl⟩, ?_, (hlive rfl).filled, (hlive rfl).stocked⟩
    exact fun s hs => Option.some.inj hs
  | guardState =>
    cases c <;> simp [perform] at hstep
    obtain ⟨-, rfl, rfl⟩ := hstep
    refine ⟨_, ⟨h.finds, rfl⟩, h.beside rfl rfl rfl ⟨rfl, rfl, rfl⟩, ?_, (hlive rfl).filled, (hlive rfl).stocked⟩
    exact fun s hs => Option.some.inj hs
  | writeState s =>
    cases c <;> simp [perform] at hstep
    obtain ⟨-, rfl⟩ := hstep
    refine ⟨_, rfl, h.writeState hd rfl rfl rfl ⟨rfl, rfl, rfl⟩, ?_, (hlive rfl).filled, fun _ hc => ?_⟩
    · exact fun s' hs' => Option.some.inj hs'
    · obtain rfl : s = .connected := hc
      exact (hlive rfl).filled hd.2.2
  | setStream c' =>
    cases c <;> simp [perform] at hstep
    subst hstep
    refine ⟨_, rfl, h.beside rfl rfl rfl ⟨rfl, rfl, rfl⟩, (hlive rfl).seen, id, fun htorn hc => ?_⟩
    have hidle := of_decide_eq_false htorn
    cases c' with
    | some c' => rfl
    | none => exact absurd hc (h.making t fun hphase => hidle ⟨rfl, hphase⟩).2
  | sleep nanos =>
    cases c <;> simp [perform] at hstep
    subst hstep
    exact ⟨_, rfl, h.beside rfl rfl rfl ⟨rfl, rfl, rfl⟩, live_of_stocked rfl rfl (hstocked rfl)⟩
  | stream =>
    cases c <;> simp [perform] at hstep
    obtain ⟨-, rfl⟩ := hstep
    exact ⟨_, rfl, h.beside rfl rfl rfl ⟨rfl, rfl, rfl⟩, (hlive rfl).congr rfl rfl ⟨rfl, rfl, rfl⟩⟩
  | panic => cases c <;> simp [perform] at hstep
  | _ =>
    cases c <;> simp [perform] at hstep
    subst hstep
    exact ⟨_, rfl, h.beside rfl rfl rfl ⟨rfl, rfl, rfl⟩, (hlive rfl).congr rfl rfl ⟨rfl, rfl, rfl⟩⟩

end

theorem net_keeps {u : ReliableUdsClient} {γ : Nat → Hand} {t : Nat} (o : Net.Op) (r : o.Ret) (h : Sorted u γ)
    (hnow : Live u (γ t) ∨ Stocked u ∧ parks (.net o) = true) (hd : (γ t).demand (.net o)) :
    ∃ k, (γ t).move (.net o) r k ∧ Sorted u (Function.update γ t k) ∧ Live u k := by
  have hlive (hparks : parks (.net o) = false) : Live u (γ t) :=
    hnow.resolve_right fun hwakes => Bool.false_ne_true (hparks.symm.trans hwakes.2)
  have hstocked (hparks : parks (.net o) = true) : Stocked u :=
    hnow.elim (fun hlive => hlive.stocked (hd.1 hparks)) And.left
  have hsame {k : Hand} (hk : k.lock = (γ t).lock ∧ k.stream = (γ t).stream ∧ k.phase = (γ t).phase) :
      Sorted u (Function.update γ t k) := h.beside rfl rfl rfl hk
  cases o with
  | split c => exact ⟨_, rfl, hsame ⟨rfl, rfl, rfl⟩, (hlive rfl).congr rfl rfl ⟨rfl, rfl, rfl⟩⟩
  | newRequest service method payload =>
    exact ⟨_, rfl, hsame ⟨rfl, rfl, rfl⟩, (hlive rfl).congr rfl rfl ⟨rfl, rfl, rfl⟩⟩
  | connect timed => exact ⟨_, rfl, hsame ⟨rfl, rfl, rfl⟩, live_of_stocked rfl rfl (hstocked rfl)⟩
  | write c msgType payload => exact ⟨_, rfl, hsame ⟨rfl, rfl, rfl⟩, live_of_stocked rfl rfl (hstocked rfl)⟩
  | read c timed => exact ⟨_, rfl, hsame ⟨rfl, rfl, rfl⟩, live_of_stocked rfl rfl (hstocked rfl)⟩

/-- **The operations of the client keep what the tasks know true, stretch by stretch.** -/
theorem keeping : Keeping machine standing parks (fun w γ => Sorted w.fields γ) (fun w k => Live w.fields k)
    (fun w => Stocked w.fields) := by
  have hkeeps (w : Client ReliableUdsClient) (γ : Nat → Hand) (t : Nat) (o : NetOp Fields) (c : Choice)
      (r : (NetWith Fields).Ret o) (w' : Client ReliableUdsClient) (h : Sorted w.fields γ)
      (hnow : Live w.fields (γ t) ∨ Stocked w.fields ∧ parks o = true) (hd : (γ t).demand o)
      (hstep : machine.perform t o c w = some (r, w')) :
      ∃ k, (γ t).move o r k ∧ Sorted w'.fields (Function.update γ t k) ∧ Live w'.fields k := by
    cases o with
    | net o =>
      obtain ⟨⟨r, n⟩, -, heq⟩ := Option.map_eq_some_iff.mp hstep
      cases heq
      exact net_keeps o r h hnow hd
    | own o =>
      obtain ⟨⟨r, u⟩, hown, heq⟩ := Option.map_eq_some_iff.mp hstep
      cases heq
      exact own_keeps h hnow hd hown
  exact {
    goes := fun w γ t o c r w' h hlive _ hd hstep => hkeeps w γ t o c r w' h (.inl hlive) hd hstep
    wakes := fun w γ t o c r w' h hcalm hparks hd hstep => hkeeps w γ t o c r w' h (.inr ⟨hcalm, hparks⟩) hd hstep
    parks := fun _ _ _ hlive hparks hd => hlive.stocked (hd.1 hparks) }

/-! ### The methods -/

section Methods
variable {S : Codec} {k : Hand} {R : Hand → ProtocolError → Prop}

theorem stands_own (o : Op) (Q : Hand → Fields.Ret o → Prop) :
    Meets standing (own o) Q R k ↔
      k.demand (.own o) ∧ ∀ r k', k.move (.own o) r k' → Q k' r :=
  @Code.meets_own Fields Hand standing R k o Q

/-- An operation that nothing here is about. -/
theorem stands_beside (o : Op) {Q : Hand → Fields.Ret o → Prop} (hd : k.demand (.own o))
    (hm : ∀ r k', k.move (.own o) r k' → k' = k.settle) (hQ : ∀ r, Q k.settle r) : Meets standing (own o) Q R k :=
  (stands_own o Q).mpr ⟨hd, fun r k' h => hm r k' h ▸ hQ r⟩

theorem stands_writeState (s : ConnectionState) {Q : Hand → Unit → Prop} (hd : k.demand (.own (.writeState s)))
    (hQ : Q { k.settle with phase := .of s, seen := some s, torn := false } ()) :
    Meets standing (writeState s) Q R k := by
  unfold writeState
  rw [meets_bind]
  refine stands_beside _ ⟨nofun, trivial⟩ (fun _ _ h => h) fun _ => (stands_own _ _).mpr ⟨?_, fun _ k' hm => ?_⟩
  · cases s <;> exact hd
  · cases hm
    exact hQ

theorem stands_putStream (c : Option ConnId) {Q : Hand → Unit → Prop} (htorn : k.torn = false)
    (hunsure : k.unsure = false)
    (hQ : k.stream = false → Q { k.wake with filled := c.isSome, torn := decide (c = none ∧ k.phase = .idle) } ()) :
    Meets standing (putStream c) Q R k := by
  unfold putStream
  rw [meets_bind, stands_own]
  refine ⟨⟨fun _ => htorn, hunsure⟩, ?_⟩
  rintro _ k' ⟨hstream, rfl⟩
  rw [meets_bind, stands_own]
  refine ⟨⟨nofun, trivial⟩, fun _ k' hm => ?_⟩
  cases hm
  rw [stands_own]
  refine ⟨⟨nofun, rfl⟩, fun _ k' hm => ?_⟩
  cases hm
  simpa [Hand.wake, Hand.settle, hstream] using hQ hstream

theorem stands_isConnected {Q : Hand → Bool → Prop}
    (hQ : ∀ s, Q { k.settle with seen := some s } (decide (s = .connected))) :
    Meets standing isConnected Q R k := by
  unfold isConnected
  rw [meets_bind, stands_own]
  refine ⟨⟨nofun, trivial⟩, ?_⟩
  rintro s k' ⟨-, rfl⟩
  exact hQ s

/-- What a task knows that holds no lock. -/
def Hand.free (seen : Option ConnectionState) (filled : Bool) : Hand := { Hand.none with seen, filled }

/-- It holds no lock. -/
def Hand.Free (k : Hand) : Prop := ∃ seen filled, k = .free seen filled

/-- It holds no lock, and has left the client connected. -/
def Hand.Connected (k : Hand) : Prop := ∃ filled, k = .free (some .connected) filled

theorem Hand.Connected.free (h : k.Connected) : k.Free := ⟨_, h⟩

theorem stands_awaitOther (hk : k.Free) :
    Meets standing awaitOther (fun k' found => k'.Free ∧ (found = true → k'.Connected)) R k := by
  obtain ⟨seen, filled, rfl⟩ := hk
  unfold awaitOther
  rw [meets_bind, stands_own]
  refine ⟨⟨nofun, trivial⟩, ?_⟩
  rintro s k' ⟨-, rfl⟩
  split
  · rw [meets_bind, stands_own]
    refine ⟨⟨fun _ => rfl, trivial⟩, fun _ k' hm => ?_⟩
    cases hm
    rw [meets_bind, stands_own]
    refine ⟨⟨nofun, trivial⟩, ?_⟩
    rintro s' k' ⟨-, rfl⟩
    rw [meets_bind]
    refine stands_beside _ ⟨nofun, trivial⟩ (fun _ _ h => h) fun _ => ⟨⟨_, _, rfl⟩, fun hfound => ?_⟩
    obtain rfl : s' = .connected := of_decide_eq_true hfound
    exact ⟨_, rfl⟩
  · rw [meets_bind]
    exact stands_beside _ ⟨nofun, trivial⟩ (fun _ _ h => h) fun _ => ⟨⟨_, _, rfl⟩, nofun⟩

/-- What a task knows that holds `lock`. -/
def Hand.outer (phase : Phase) (seen : Option ConnectionState) (filled : Bool) : Hand :=
  { Hand.none with lock := true, phase, seen, filled }

/-- `connecting` or `reconnecting` becomes `connected`. -/
theorem stands_established (phase : Phase) (c : ConnId) {seen : Option ConnectionState} {filled : Bool}
    {Q : Hand → Unit → Prop} (hQ : Q (.outer .idle (some .connected) true) ()) :
    Meets standing (established c) Q R (.outer phase seen filled) := by
  unfold established
  rw [meets_bind]
  refine stands_putStream _ rfl rfl fun _ => ?_
  rw [meets_bind]
  refine stands_writeState _ ⟨nofun, rfl, rfl⟩ ?_
  rw [meets_bind]
  refine stands_beside _ ⟨nofun, trivial⟩ (fun _ _ h => h) fun _ => ?_
  exact stands_beside _ ⟨nofun, trivial⟩ (fun _ _ h => h) fun _ => hQ

theorem stands_unlock (phase : Phase) {seen : Option ConnectionState} {filled : Bool} {Q : Hand → Unit → Prop}
    (hphase : phase ≠ .connecting) (hQ : Q (.free seen filled) ()) :
    Meets standing (own .unlock) Q R (.outer phase seen filled) := by
  rw [stands_own]
  refine ⟨⟨nofun, rfl, hphase⟩, fun _ k' hm => ?_⟩
  cases hm
  exact hQ

/-- The end of a method that fails behind `lock`. -/
theorem stands_failed {α : Type} (phase : Phase) (e : ProtocolError) {seen : Option ConnectionState} {filled : Bool}
    {Q : Hand → α → Prop} (hR : ∀ k', k'.Free → R k' e) :
    Meets standing (do writeState .failed; own (.recordReconnect false); own .unlock; throw e) Q R
      (.outer phase seen filled) := by
  rw [meets_bind]
  refine stands_writeState _ ⟨nofun, fun h => absurd rfl h⟩ ?_
  rw [meets_bind]
  refine stands_beside _ ⟨nofun, trivial⟩ (fun _ _ h => h) fun _ => ?_
  rw [meets_bind]
  exact stands_unlock .idle nofun (hR _ ⟨_, _, rfl⟩)

/-- **`connect` returns `Ok` with the client connected.** -/
theorem connect_stands (hk : k.Free) :
    Meets standing connect (fun k' _ => k'.Connected) (fun k' _ => k'.Free) k := by
  unfold connect
  rw [meets_bind]
  refine meets_mono (stands_awaitOther hk) (fun k₁ found => ?_) fun _ _ h => h
  rintro ⟨⟨seen, filled, rfl⟩, hfound⟩
  cases found with
  | true => exact hfound rfl
  | false =>
    simp only [Bool.false_eq_true, if_false]
    rw [meets_bind, stands_own]
    refine ⟨⟨fun _ => rfl, rfl⟩, ?_⟩
    rintro _ k' ⟨-, rfl⟩
    rw [meets_bind, stands_own]
    refine ⟨⟨nofun, trivial⟩, ?_⟩
    rintro s k' ⟨hfinds, rfl⟩
    rw [meets_bind]
    refine stands_beside _ ⟨nofun, trivial⟩ (fun _ _ h => h) fun _ => ?_
    split
    next hs =>
      obtain rfl := hs.resolve_right (hfinds rfl nofun)
      exact stands_unlock .idle nofun ⟨_, rfl⟩
    next hs =>
      rw [meets_bind]
      refine stands_writeState _ ⟨nofun, fun _ => rfl⟩ ?_
      rw [meets_bind]
      refine (Code.meets_net _ _).mpr ⟨⟨fun _ => rfl, trivial⟩, fun r k' hm => ?_⟩
      cases hm
      rcases r with (text | c) | _
      · exact stands_failed .connecting _ fun _ h => h
      · rw [meets_bind]
        exact stands_established .connecting c (stands_unlock .idle nofun ⟨_, rfl⟩)
      · exact stands_failed .connecting _ fun _ h => h

theorem ensureConnected_stands (hk : k.Free) :
    Meets standing ensureConnected (fun k' _ => k'.Connected) (fun k' _ => k'.Free) k := by
  obtain ⟨seen, filled, rfl⟩ := hk
  unfold ensureConnected
  rw [meets_bind]
  refine stands_isConnected fun s => ?_
  by_cases hs : s = .connected
  · rw [hs]
    exact ⟨_, rfl⟩
  · simp only [hs, decide_false, Bool.not_false, if_true]
    exact connect_stands ⟨_, _, rfl⟩

theorem disconnect_stands (hk : k.Free) :
    Meets standing disconnect (fun k' _ => k'.Free) (fun k' _ => k'.Free) k := by
  obtain ⟨seen, filled, rfl⟩ := hk
  unfold disconnect
  rw [meets_bind]
  refine stands_putStream _ rfl rfl fun _ => ?_
  rw [meets_bind]
  refine stands_writeState _ ⟨nofun, fun h => absurd rfl h⟩ ?_
  exact stands_beside _ ⟨nofun, trivial⟩ (fun _ _ h => h) fun _ => ⟨_, _, rfl⟩

/-- What a task knows that holds both mutexes. -/
def Hand.both (seen : Option ConnectionState) (filled : Bool) : Hand :=
  { Hand.outer .idle seen filled with stream := true }

/-- It holds both. -/
def Hand.Both (k : Hand) : Prop := ∃ seen filled, k = .both seen filled

/-- What a body that keeps both mutexes leaves is neither of them. -/
theorem stands_released {α : Type} {body : Code α} (hk : k.Both)
    (h : ∀ k : Hand, k.Both → Meets standing body (fun k' _ => k'.Both) (fun k' _ => k'.Both) k) :
    Meets standing (released body) (fun k' _ => k'.Free) (fun k' _ => k'.Free) k := by
  unfold released
  rw [meets_bind, meets_lift]
  refine safe_mono (h k hk) fun k₁ r hr => ?_
  obtain ⟨seen, filled, rfl⟩ : k₁.Both := by cases r <;> exact hr
  rw [meets_bind, stands_own]
  refine ⟨⟨nofun, rfl⟩, fun _ k' hm => ?_⟩
  cases hm
  rw [meets_bind]
  refine stands_unlock .idle nofun ?_
  rw [Code.meets_ofResult]
  cases r <;> exact ⟨_, _, rfl⟩

/-- The stream cannot be locked again, so that nothing is given up. -/
theorem stands_giveUp {α : Type} (e : ProtocolError) {Q : Hand → α → Prop} (hk : k.Both) :
    Meets standing (giveUp e) Q R k := by
  obtain ⟨seen, filled, rfl⟩ := hk
  unfold giveUp
  rw [meets_bind]
  refine stands_beside _ ⟨nofun, trivial⟩ (fun _ _ h => h) fun _ => ?_
  rw [meets_bind]
  exact stands_putStream _ rfl rfl nofun

theorem stands_write (c : ConnId) (msgType : UInt8) (payload : Json.Bytes) (hk : k.Both) :
    Meets standing (Code.write c msgType payload) (fun k' _ => k'.Both) (fun k' _ => k'.Both) k := by
  obtain ⟨seen, filled, rfl⟩ := hk
  rw [Code.meets_write]
  refine ⟨⟨fun _ => rfl, trivial⟩, fun r k' hm => ?_⟩
  cases hm
  cases r <;> exact ⟨_, _, rfl⟩

theorem exchange_stands (c : ConnId) (service method : String) (payload : Value) (hk : k.Both) :
    Meets standing (exchange S c service method payload) (fun k' _ => k'.Both) (fun k' _ => k'.Both) k := by
  obtain ⟨seen, filled, rfl⟩ := hk
  unfold exchange
  rw [meets_bind]
  refine (Code.meets_net _ _).mpr ⟨⟨nofun, trivial⟩, fun _ k' hm => ?_⟩
  cases hm
  rw [meets_bind]
  refine (Code.meets_net _ _).mpr ⟨⟨nofun, trivial⟩, fun request k' hm => ?_⟩
  cases hm
  rw [meets_bind]
  refine meets_mono (stands_write c _ _ ⟨_, _, rfl⟩) ?_ fun _ _ h => h
  rintro k₁ _ ⟨seen, filled, rfl⟩
  rw [meets_bind]
  refine (Code.meets_net _ _).mpr ⟨⟨fun _ => rfl, trivial⟩, fun r k' hm => ?_⟩
  cases hm
  have hboth : (Hand.both none false).Both := ⟨_, _, rfl⟩
  rcases r with (e | f) | _
  · exact hboth
  · show Meets _ (if _ then _ else _) _ _ _
    split
    · rw [meets_bind, Code.meets_decode]
      cases (S.fromSlice f.payload : Option Value) with
      | none => exact hboth
      | some error => exact stands_giveUp _ hboth
    split
    · exact stands_giveUp _ hboth
    · rw [meets_bind, Code.meets_decode]
      cases (S.fromSlice f.payload : Option ServiceResponse) with
      | none => exact hboth
      | some response =>
        show Meets _ (own _ >>= _) _ _ _
        rw [meets_bind]
        refine stands_beside _ ⟨nofun, trivial⟩ (fun _ _ h => h) fun _ => ?_
        rw [meets_bind]
        exact stands_beside _ ⟨nofun, trivial⟩ (fun _ _ h => h) fun _ => ⟨_, _, rfl⟩
  · show Meets _ (own _ >>= _) _ _ _
    rw [meets_bind]
    exact stands_beside _ ⟨nofun, trivial⟩ (fun _ _ h => h) fun _ => ⟨_, _, rfl⟩

/-- Both mutexes are taken by a task that has seen the client connected. -/
theorem stands_behind {α : Type} {p : Option ConnId → Code α} (hk : k.Connected)
    (hp : ∀ c (k : Hand), k.Both → Meets standing (p c) (fun k' _ => k'.Free) (fun k' _ => k'.Free) k) :
    Meets standing (do own .lock; own .lockStream; p (← own .stream)) (fun k' _ => k'.Free) (fun k' _ => k'.Free)
      k := by
  obtain ⟨filled, rfl⟩ := hk
  rw [meets_bind, stands_own]
  refine ⟨⟨fun _ => rfl, rfl⟩, ?_⟩
  rintro _ k' ⟨-, rfl⟩
  rw [meets_bind, stands_own]
  refine ⟨⟨fun _ => rfl, rfl⟩, ?_⟩
  rintro _ k' ⟨-, rfl⟩
  rw [meets_bind, stands_own]
  refine ⟨⟨nofun, trivial⟩, fun c k' hm => ?_⟩
  cases hm
  exact hp c _ ⟨_, _, rfl⟩

theorem call_eq (service method : String) (payload : Value) :
    call S service method payload = ensureConnected >>= fun _ => callBehind S service method payload := by
  unfold call ensureConnected
  rw [bind_assoc]
  refine congrArg (isConnected >>= ·) (funext fun b => ?_)
  cases b <;> rfl

theorem callBehind_stands (service method : String) (payload : Value) (hk : k.Connected) :
    Meets standing (callBehind S service method payload) (fun k' _ => k'.Free) (fun k' _ => k'.Free) k := by
  refine stands_behind hk fun c k hboth => ?_
  cases c with
  | some c => exact stands_released hboth fun _ h => exchange_stands c service method payload h
  | none =>
    refine stands_released hboth fun k h => ?_
    obtain ⟨seen, filled, rfl⟩ := h
    rw [meets_bind]
    exact stands_writeState _ ⟨nofun, fun h => absurd rfl h⟩ ⟨_, _, rfl⟩

theorem call_stands (service method : String) (payload : Value) (hk : k.Free) :
    Meets standing (call S service method payload) (fun k' _ => k'.Free) (fun k' _ => k'.Free) k := by
  rw [call_eq, meets_bind]
  exact meets_mono (ensureConnected_stands hk) (fun _ _ h => callBehind_stands service method payload h)
    fun _ _ h => h

theorem ping_stands (hk : k.Free) : Meets standing ping (fun k' _ => k'.Free) (fun k' _ => k'.Free) k := by
  obtain ⟨seen, filled, rfl⟩ := hk
  unfold ping
  rw [meets_bind]
  refine stands_isConnected fun s => ?_
  by_cases hs : s = .connected
  · rw [hs]
    refine stands_behind ⟨_, rfl⟩ fun c k hboth => ?_
    cases c with
    | some c => exact stands_released hboth fun _ h => stands_write c _ _ h
    | none => exact stands_released hboth fun _ h => h
  · simp only [hs, decide_false, Bool.not_false, if_true]
    exact ⟨_, _, rfl⟩

theorem stands_panic {α : Type} {Q : Hand → α → Prop} (phase : Phase) (hphase : phase ≠ .connecting) :
    Meets standing panic Q R (.outer phase none false) := by
  unfold panic
  rw [meets_bind]
  refine stands_unlock phase hphase ?_
  rw [meets_bind, stands_own]
  exact ⟨⟨fun _ => rfl, trivial⟩, fun r => nomatch r⟩

/-- It holds `lock`, and its attempts, if it has made any, have failed. -/
def Hand.Trying (k : Hand) : Prop := ∃ phase seen filled unsure,
  phase ≠ .connecting ∧ k = { Hand.outer phase seen filled with unsure }

theorem attempts_stands (config : ConnectionConfig) (left attempt : Nat) (hk : k.Trying) :
    Meets standing (attempts config left attempt)
      (fun k' found => if found then k' = .outer .idle (some .connected) true else k'.Trying)
      (fun _ _ => False) k := by
  induction left generalizing attempt k with
  | zero => exact hk
  | succ left ih =>
    obtain ⟨phase, seen, filled, unsure, -, rfl⟩ := hk
    unfold attempts
    rw [meets_bind]
    refine stands_writeState _ ⟨nofun, fun _ => rfl⟩ ?_
    rw [meets_bind]
    refine stands_putStream _ rfl rfl fun _ => ?_
    rw [meets_bind]
    refine (Code.meets_net _ _).mpr ⟨⟨fun _ => rfl, trivial⟩, fun r k' hm => ?_⟩
    cases hm
    have hagain : Meets standing (do
        let delay := config.reconnectDelay * (attempt + 1)
        if delay > maxDuration then
          panic
        own (.sleep (min delay (30 * 10 ^ 9)))
        attempts config left (attempt + 1))
        (fun k' found => if found then k' = .outer .idle (some .connected) true else k'.Trying) (fun _ _ => False)
        (.outer .reconnecting none false) := by
      show Meets _ (ite _ _ _) _ _ _
      split
      · rw [meets_bind]
        exact stands_panic .reconnecting nofun
      · show Meets _ (own _ >>= _) _ _ _
        rw [meets_bind, stands_own]
        refine ⟨⟨fun _ => rfl, trivial⟩, fun _ k' hm => ?_⟩
        cases hm
        exact ih (attempt + 1) ⟨.reconnecting, _, _, _, nofun, rfl⟩
    rcases r with (text | c) | _
    · exact hagain
    · show Meets _ (established c >>= _) _ _ _
      rw [meets_bind]
      exact stands_established .reconnecting c rfl
    · exact hagain

theorem reconnect_stands (config : ConnectionConfig) (hk : k.Free) :
    Meets standing (reconnect config) (fun k' _ => k'.Free) (fun k' _ => k'.Free) k := by
  obtain ⟨seen, filled, rfl⟩ := hk
  unfold reconnect
  rw [meets_bind, stands_own]
  refine ⟨⟨fun _ => rfl, rfl⟩, ?_⟩
  rintro _ k' ⟨-, rfl⟩
  rw [meets_bind]
  refine meets_mono (attempts_stands config _ 0 ⟨.idle, _, _, _, nofun, rfl⟩) (fun k₁ found h => ?_)
    fun _ _ h => h.elim
  cases found with
  | true =>
    obtain rfl := h
    exact stands_unlock .idle nofun ⟨_, _, rfl⟩
  | false =>
    obtain ⟨phase, seen, filled, unsure, hphase, rfl⟩ := h
    show Meets _ (writeState _ >>= _) _ _ _
    rw [meets_bind]
    refine stands_writeState _ ⟨nofun, fun h => absurd rfl h⟩ ?_
    rw [meets_bind]
    refine stands_beside _ ⟨nofun, trivial⟩ (fun _ _ h => h) fun _ => ?_
    rw [meets_bind]
    exact stands_unlock .idle nofun ⟨_, _, rfl⟩

/-- A job that returns what `connect` returns. -/
def Job.connects : Job → Bool
  | .connect => true
  | .ensureConnected => true
  | _ => false

/-- What a task leaves. -/
def Leaves (job : Job) (k : Hand) (outcome : Outcome) : Prop :=
  k.torn = false ∧ (job.connects = true → outcome = .done (.ok ()) → k.seen = some .connected)

/-- **Every method leaves the client as it should be.** -/
theorem task_stands (config : ConnectionConfig) (job : Job) :
    Safe standing (job.task S config) (Leaves job) .none := by
  have hfree : Hand.none.Free := ⟨_, _, rfl⟩
  have hconnects {p : Code Unit} (hp : Meets standing p (fun k' _ => k'.Connected) (fun k' _ => k'.Free) .none) :
      Safe standing (Outcome.done <$> p.run) (Leaves job) .none := by
    refine safe_map hp ?_ ?_
    · rintro k' _ ⟨filled, rfl⟩
      exact ⟨rfl, fun _ _ => rfl⟩
    · rintro k' e ⟨seen, filled, rfl⟩
      exact ⟨rfl, nofun⟩
  have hmap {α : Type} {p : Code α} (f : Result α → Outcome) (hjob : job.connects = false)
      (hp : Meets standing p (fun k' _ => k'.Free) (fun k' _ => k'.Free) .none) :
      Safe standing (f <$> p.run) (Leaves job) .none := by
    have hleaves (k' : Hand) (r : Result α) (h : k'.Free) : Leaves job k' (f r) := by
      obtain ⟨seen, filled, rfl⟩ := h
      exact ⟨rfl, fun h => nomatch hjob.symm.trans h⟩
    exact safe_map hp (fun k' a => hleaves k' (.ok a)) fun k' e => hleaves k' (.error e)
  cases job with
  | connect => exact hconnects (connect_stands hfree)
  | ensureConnected => exact hconnects (ensureConnected_stands hfree)
  | call service method payload => exact hmap _ rfl (call_stands service method payload hfree)
  | ping => exact hmap _ rfl (ping_stands hfree)
  | disconnect => exact hmap _ rfl (disconnect_stands hfree)
  | reconnect => exact hmap _ rfl (reconnect_stands config hfree)

/-- A task that goes for the stream behind `lock` has seen the client connected. -/
theorem seen_behind {service method : String} {payload : Value} {Q : Hand → Outcome → Prop}
    (h : Safe standing (Outcome.reply <$> (callBehind S service method payload).run) Q k) :
    k.seen = some .connected := by
  have hnext := h.2 () { k.wake with lock := true, unsure := k.seen ≠ some .connected } ⟨h.1.2, rfl⟩
  exact not_not.mp (of_decide_eq_false hnext.1.2)

end Methods

/-! ### Every interleaving -/

/-- What the task of a job leaves. -/
def LeavesAt (jobs : List Job) (t : Nat) (k : Hand) (outcome : Outcome) : Prop :=
  ∃ job, jobs[t]? = some job ∧ Leaves job k outcome

theorem start_resting (S : Codec) (config : ConnectionConfig) (jobs : List Job) :
    Resting standing parks (fun w γ => Sorted w.fields γ) (fun w k => Live w.fields k) (fun w => Stocked w.fields)
      (LeavesAt jobs) (start S config jobs) := by
  refine ⟨nofun, fun _ => .none, ⟨fun _ => by simp [start, new, Hand.none],
    fun _ => by simp [start, new, Hand.none], fun _ h => absurd rfl h, nofun⟩, fun t p hp => ?_⟩
  obtain ⟨job, hjob, rfl⟩ := Option.map_eq_some_iff.mp (List.getElem?_map.symm.trans hp)
  refine ⟨safe_mono (task_stands config job) fun _ _ h => ⟨job, hjob, h⟩, .inr fun _ => live_of_stocked rfl rfl⟩

/-- **The state of a client tells the truth to the tasks that share it.** Between the stretches of any
tasks a client that is connected holds a stream, and is connecting only while `lock` is held; and
where a stretch brings a task out of `connect` with `Ok`, the client is connected. -/
theorem truthful (S : Codec) (config : ConnectionConfig) (jobs : List Job)
    {s : Async.Config (NetWith Fields) (Client ReliableUdsClient) Outcome}
    (h : (start S config jobs).Stretches machine parks s) :
    (s.world.fields.state = .connected → s.world.fields.stream.isSome = true) ∧
      (s.world.fields.state = .connecting → s.world.fields.lock ≠ none) ∧
      ∀ t s', s.Stretch machine parks t s' →
        (∀ job, jobs[t]? = some job → job.connects = true → s'.returned t = some (.done (.ok ())) →
          s'.world.fields.state = .connected) ∧
        ∀ service method payload,
          s'.tasks[t]? = some (Outcome.reply <$> (callBehind S service method payload).run) →
            s'.world.fields.state = .connected := by
  have hcalm (t : Nat) (w : Client ReliableUdsClient) (k : Hand) (outcome : Outcome) (hlive : Live w.fields k)
      (hleaves : LeavesAt jobs t k outcome) : Stocked w.fields := by
    obtain ⟨job, -, htorn, -⟩ := hleaves
    exact hlive.stocked htorn
  have hresting := stretches_safe keeping hcalm (start_resting S config jobs) h
  refine ⟨hresting.1, fun hstate hlock => ?_, fun t s' hstretch => ?_⟩
  · obtain ⟨-, γ, hsorted, -⟩ := hresting
    obtain ⟨v, hv⟩ := hsorted.connecting hstate
    have hholds := (hsorted.making v (by rw [hv]; exact nofun)).1
    exact nomatch hlock.symm.trans ((hsorted.lock v).mpr hholds)
  · obtain ⟨-, γ, -, hlive, hwaits⟩ := stretch_safe keeping hcalm hresting.going hstretch
    refine ⟨fun job hjob hconnects hreturned => ?_, fun service method payload htask => ?_⟩
    · have htask : s'.tasks[t]? = some (.done (.done (.ok ()))) := by
        unfold Config.returned at hreturned
        split at hreturned
        · next a ha => rw [ha, Option.some.inj hreturned]
        · cases hreturned
      obtain ⟨job', hjob', -, hleaves⟩ := (hwaits t _ htask).1
      obtain rfl := Option.some.inj (hjob.symm.trans hjob')
      exact hlive.seen _ (hleaves hconnects rfl)
    · exact hlive.seen _ (seen_behind (hwaits t _ htask).1)

/-- A task that connects, up to its last stretch, and that; meanwhile a call waits for `lock`. -/
def dialling : List (Nat × List Choice) :=
  [(0, [.go, .go]), (1, [.go, .go, .go]), (0, [.go, .go, .go, .go, .go]), (0, [.go])]

def dialled : List Choice := [.go, .go, .go, .go, .go, .clock 1, .clock 1, .go]

def Outcome.isDone : Outcome → Bool
  | .done (.ok ()) => true
  | _ => false

/-- A `connect` and a call, of which the theorem speaks. -/
theorem truthful_connecting : ∃ s s', (start Json.Text.compact patient [.connect, say]).Stretches machine parks s ∧
    s.world.fields.state = .connecting ∧ s.world.fields.lock ≠ none ∧ s.Stretch machine parks 0 s' ∧
      s'.returned 0 = some (.done (.ok ())) ∧ s'.world.fields.state = .connected := by
  have hend : (((start Json.Text.compact patient [.connect, say]).stretches machine parks dialling).bind fun s =>
      (s.stretch machine parks 0 dialled).map fun s' =>
        (s.world.fields.state, (s'.returned 0).any Outcome.isDone)) = some (.connecting, true) := by decide +kernel
  obtain ⟨s, hs, hend⟩ := Option.bind_eq_some_iff.mp hend
  obtain ⟨s', hs', heq⟩ := Option.map_eq_some_iff.mp hend
  obtain ⟨hstate, hreturned⟩ := Prod.mk.inj heq
  have hreturned : s'.returned 0 = some (.done (.ok ())) := by
    obtain ⟨o, ho, hdone⟩ := (Option.any_eq_true _ _).mp hreturned
    unfold Outcome.isDone at hdone
    split at hdone
    · exact ho
    · cases hdone
  have hreached : (start Json.Text.compact patient [.connect, say]).Stretches machine parks s :=
    Config.stretches_of_run .start hs
  obtain ⟨-, hlocked, hmoment⟩ := truthful Json.Text.compact patient [.connect, say] hreached
  have hstretch := Config.stretch_of_run hs'
  exact ⟨s, s', hreached, hstate, hlocked hstate, hstretch, hreturned,
    (hmoment 0 s' hstretch).1 .connect rfl rfl hreturned⟩

end XProtocol.ReliableUdsClient
