import XProtocol.Client.Locking
import XProtocol.Json.Text

/-! The methods of the reconnecting client keep to its locks.

Each begins and ends without a lock (`Rests`), whatever it returns, as long as no
reply makes `call` lock the stream again. So a careful run is free of deadlock; two
runs that are not careful end in one. -/
namespace XProtocol.ReliableUdsClient
open Async
open Json (Value Codec)
open Json.Text (compact)
open Wire

/-! ### The methods -/

section Methods
variable {S : Codec} {k : Locks} {R : Locks → ProtocolError → Prop}

theorem meets_own (o : Op) (Q : Locks → Fields.Ret o → Prop) :
    Meets (locking S) (own o) Q R k ↔
      demand k (.own o) ∧ ∀ r k', move S k (.own o) r k' → Q k' r :=
  @Code.meets_own Fields Locks (locking S) R k o Q

/-- An operation beside the locks. -/
theorem meets_beside (o : Op) {Q : Locks → Fields.Ret o → Prop} (hd : demand k (.own o))
    (hm : ∀ r k', move S k (.own o) r k' → k' = k) (hQ : ∀ r, Q k r) : Meets (locking S) (own o) Q R k :=
  (meets_own o Q).mpr ⟨hd, fun r k' h => hm r k' h ▸ hQ r⟩

theorem meets_writeState (s : ConnectionState) {Q : Locks → Unit → Prop} (hguard : k.guard = none)
    (hqueued : k.queued = false) (hQ : Q k ()) : Meets (locking S) (writeState s) Q R k := by
  unfold writeState
  rw [meets_bind, meets_own]
  refine ⟨⟨hguard, hqueued⟩, fun _ k' hm => ?_⟩
  obtain rfl : k' = { k with queued := true } := hm
  rw [meets_own]
  refine ⟨⟨hguard, rfl⟩, fun _ k' hm => ?_⟩
  obtain rfl : k' = { k with queued := false } := hm
  rwa [← hqueued]

theorem meets_putStream (c : Option ConnId) {Q : Locks → Unit → Prop} (hguard : k.guard = none)
    (hstream : k.stream = false) (hQ : Q k ()) : Meets (locking S) (putStream c) Q R k := by
  unfold putStream
  rw [meets_bind, meets_own]
  refine ⟨⟨hstream, hguard⟩, fun _ k' hm => ?_⟩
  obtain rfl : k' = { k with stream := true } := hm
  rw [meets_bind]
  refine meets_beside _ trivial (fun _ _ h => h) fun _ => ?_
  rw [meets_own]
  refine ⟨rfl, fun _ k' hm => ?_⟩
  obtain rfl : k' = { k with stream := false } := hm
  rwa [← hstream]

theorem meets_isConnected {Q : Locks → Bool → Prop} (hguard : k.guard = none) (hQ : ∀ b, Q k b) :
    Meets (locking S) isConnected Q R k := by
  unfold isConnected
  rw [meets_bind]
  refine meets_beside _ (fun s hs => ?_) (fun _ _ h => h) fun _ => hQ _
  rw [hguard] at hs
  cases hs

/-- The sleep keeps the guard only if the client was connecting. -/
theorem meets_awaitOther {Q : Locks → Bool → Prop} (hguard : k.guard = none) (hQ : ∀ b, Q k b) :
    Meets (locking S) awaitOther Q R k := by
  unfold awaitOther
  rw [meets_bind, meets_own]
  refine ⟨hguard, fun s k' hm => ?_⟩
  obtain rfl : k' = { k with guard := some s } := hm
  by_cases hs : s = .connecting
  · simp only [hs, if_true]
    rw [meets_bind]
    have hwaits : ({ k with guard := some .connecting } : Locks).Waits := by simp [Locks.Waits]
    refine meets_beside _ hwaits (fun _ _ h => h) fun _ => ?_
    rw [meets_bind]
    refine meets_beside _ hwaits (fun _ _ h => h) fun _ => ?_
    rw [meets_bind, meets_own]
    refine ⟨trivial, fun _ k' hm => ?_⟩
    obtain rfl : k' = { k with guard := none } := hm
    rw [← hguard]
    exact hQ _
  · simp only [hs, if_false]
    rw [meets_bind, meets_own]
    refine ⟨trivial, fun _ k' hm => ?_⟩
    obtain rfl : k' = { k with guard := none } := hm
    rw [← hguard]
    exact hQ _

/-- What a task knows that holds `lock`, and that holds both mutexes. -/
def Locks.outer : Locks := { Locks.none with lock := true }
def Locks.both : Locks := { Locks.outer with stream := true }

theorem meets_lock {Q : Locks → Unit → Prop} (hQ : Q .outer ()) : Meets (locking S) (own .lock) Q R .none := by
  rw [meets_own]
  refine ⟨⟨rfl, rfl⟩, fun _ k' hm => ?_⟩
  obtain rfl : k' = .outer := hm
  exact hQ

theorem meets_unlock {Q : Locks → Unit → Prop} (hQ : Q .none ()) : Meets (locking S) (own .unlock) Q R .outer := by
  rw [meets_own]
  refine ⟨rfl, fun _ k' hm => ?_⟩
  obtain rfl : k' = .none := hm
  exact hQ

theorem meets_lockStream {Q : Locks → Unit → Prop} (hQ : Q .both ()) :
    Meets (locking S) (own .lockStream) Q R .outer := by
  rw [meets_own]
  refine ⟨⟨rfl, rfl⟩, fun _ k' hm => ?_⟩
  obtain rfl : k' = .both := hm
  exact hQ

theorem meets_established (c : ConnId) {Q : Locks → Unit → Prop} (hQ : Q .outer ()) :
    Meets (locking S) (established c) Q R .outer := by
  unfold established
  rw [meets_bind]
  refine meets_putStream _ rfl rfl ?_
  rw [meets_bind]
  refine meets_writeState _ rfl rfl ?_
  rw [meets_bind]
  refine meets_beside _ trivial (fun _ _ h => h) fun _ => ?_
  exact meets_beside _ trivial (fun _ _ h => h) fun _ => hQ

/-- The end of a method that fails behind `lock`. -/
theorem meets_failed {α : Type} (e : ProtocolError) {Q : Locks → α → Prop} (hR : R .none e) :
    Meets (locking S) (do writeState .failed; own (.recordReconnect false); own .unlock; throw e) Q R
      .outer := by
  rw [meets_bind]
  refine meets_writeState _ rfl rfl ?_
  rw [meets_bind]
  refine meets_beside _ trivial (fun _ _ h => h) fun _ => ?_
  rw [meets_bind]
  exact meets_unlock hR

theorem meets_dial {Q : Locks → Timed (Except String ConnId) → Prop} (hguard : k.guard = none) (hQ : ∀ r, Q k r) :
    Meets (locking S) (.net (.connect true) : Code _) Q R k := by
  refine (Code.meets_net _ _).mpr ⟨hguard, fun r k' hm => ?_⟩
  obtain rfl : k' = k := hm
  exact hQ r

/-- A method begins and ends without a lock, whatever it returns. -/
def Rests {α : Type} (S : Codec) (p : Code α) : Prop :=
  Meets (locking S) p (fun k _ => k = .none) (fun k _ => k = .none) .none

theorem connect_rests : Rests S connect := by
  unfold Rests connect
  rw [meets_bind]
  refine meets_awaitOther rfl fun other => ?_
  cases other with
  | true => exact rfl
  | false =>
    simp only [Bool.false_eq_true, if_false]
    rw [meets_bind]
    refine meets_lock ?_
    rw [meets_bind, meets_own]
    refine ⟨rfl, fun s k' hm => ?_⟩
    obtain rfl : k' = { Locks.outer with guard := some s } := hm
    rw [meets_bind, meets_own]
    refine ⟨trivial, fun _ k' hm => ?_⟩
    obtain rfl : k' = .outer := hm
    by_cases hs : s = .connected ∨ s = .connecting
    · simp only [hs, if_true]
      exact meets_unlock rfl
    · simp only [hs, if_false]
      rw [meets_bind]
      refine meets_writeState _ rfl rfl ?_
      rw [meets_bind]
      refine meets_dial rfl fun r => ?_
      rcases r with (text | c) | _
      · exact meets_failed _ rfl
      · rw [meets_bind]
        exact meets_established c (meets_unlock rfl)
      · exact meets_failed _ rfl

theorem ensureConnected_rests : Rests S ensureConnected := by
  unfold Rests ensureConnected
  rw [meets_bind]
  refine meets_isConnected rfl fun b => ?_
  cases b with
  | true => exact rfl
  | false => exact connect_rests

theorem disconnect_rests : Rests S disconnect := by
  unfold Rests disconnect
  rw [meets_bind]
  refine meets_putStream _ rfl rfl ?_
  rw [meets_bind]
  refine meets_writeState _ rfl rfl ?_
  exact meets_beside _ trivial (fun _ _ h => h) fun _ => rfl

/-- What a body that keeps both mutexes leaves is neither of them. -/
theorem meets_released {α : Type} {body : Code α}
    (h : Meets (locking S) body (fun k _ => k = .both) (fun k _ => k = .both) .both) :
    Meets (locking S) (released body) (fun k _ => k = .none) (fun k _ => k = .none) .both := by
  unfold released
  rw [meets_bind, meets_lift]
  refine safe_mono h fun k r hr => ?_
  obtain rfl : k = .both := by cases r <;> exact hr
  rw [meets_bind, meets_own]
  refine ⟨rfl, fun _ k' hm => ?_⟩
  obtain rfl : k' = .outer := hm
  rw [meets_bind]
  refine meets_unlock ?_
  rw [Code.meets_ofResult]
  cases r <;> rfl

/-- The reply is usable, so that the stream is not locked again. -/
theorem meets_exchange (c : ConnId) (service method : String) (payload : Value) :
    Meets (locking S) (exchange S c service method payload) (fun k _ => k = .both) (fun k _ => k = .both)
      .both := by
  unfold exchange
  rw [meets_bind]
  refine (Code.meets_net _ _).mpr ⟨trivial, fun _ k' hm => ?_⟩
  obtain rfl : k' = .both := hm
  rw [meets_bind]
  refine (Code.meets_net _ _).mpr ⟨trivial, fun request k' hm => ?_⟩
  obtain rfl : k' = .both := hm
  rw [meets_bind, Code.meets_write]
  refine ⟨rfl, fun r k' hm => ?_⟩
  obtain rfl : k' = .both := hm
  cases r with
  | error e => exact rfl
  | ok _ =>
    rw [ends_ok, meets_bind]
    refine (Code.meets_net _ _).mpr ⟨rfl, fun r k' hm => ?_⟩
    obtain ⟨rfl, husable⟩ := hm
    rcases r with (e | f) | _
    · exact rfl
    · show Meets _ (if _ then _ else _) _ _ _
      by_cases herror : f.msgType = msgError
      · simp only [herror, if_true]
        rw [meets_bind, Code.meets_decode]
        rcases husable f rfl with hresponse | ⟨-, hnone⟩
        · rw [hresponse] at herror
          exact absurd herror (by decide)
        · rw [hnone]
          exact rfl
      · have hresponse : f.msgType = msgResponse := (husable f rfl).resolve_right fun h => herror h.1
        rw [if_neg herror, if_neg (not_not_intro hresponse)]
        rw [meets_bind, Code.meets_decode]
        cases (S.fromSlice f.payload : Option ServiceResponse) with
        | none => exact rfl
        | some response =>
          show Meets _ _ _ _ _
          rw [meets_bind]
          refine meets_beside _ trivial (fun _ _ h => h) fun _ => ?_
          rw [meets_bind]
          exact meets_beside _ trivial (fun _ _ h => h) fun _ => rfl
    · show Meets _ (own _ >>= _) _ _ _
      rw [meets_bind]
      exact meets_beside _ trivial (fun _ _ h => h) fun _ => rfl

/-- Take both mutexes, look at the stream, and go on. -/
theorem meets_behind {α : Type} {p : Option ConnId → Code α} {Q : Locks → α → Prop}
    (h : ∀ c, Meets (locking S) (p c) Q R .both) :
    Meets (locking S) (do own .lock; own .lockStream; p (← own .stream)) Q R .none := by
  rw [meets_bind]
  refine meets_lock ?_
  rw [meets_bind]
  refine meets_lockStream ?_
  rw [meets_bind]
  exact meets_beside _ trivial (fun _ _ h => h) h

theorem call_rests (service method : String) (payload : Value) :
    Rests S (call S service method payload) := by
  have hbehind : Rests S (callBehind S service method payload) := by
    refine meets_behind fun c => ?_
    cases c with
    | some c => exact meets_released (meets_exchange c service method payload)
    | none =>
      refine meets_released ?_
      rw [meets_bind]
      exact meets_writeState _ rfl rfl rfl
  unfold Rests call
  rw [meets_bind]
  refine meets_isConnected rfl fun b => ?_
  cases b with
  | true => exact hbehind
  | false =>
    simp only [Bool.not_false, if_true]
    rw [meets_bind]
    refine meets_mono connect_rests (fun k _ hk => ?_) fun _ _ h => h
    rw [hk]
    exact hbehind

theorem ping_rests : Rests S ping := by
  unfold Rests ping
  rw [meets_bind]
  refine meets_isConnected rfl fun b => ?_
  cases b with
  | true =>
    refine meets_behind fun c => ?_
    cases c with
    | some c =>
      refine meets_released ?_
      rw [Code.meets_write]
      refine ⟨rfl, fun r k' hm => ?_⟩
      obtain rfl : k' = .both := hm
      cases r <;> exact rfl
    | none => exact meets_released rfl
  | false => exact rfl

theorem meets_panic {α : Type} {Q : Locks → α → Prop} : Meets (locking S) (panic : Code α) Q R .outer := by
  unfold panic
  rw [meets_bind]
  refine meets_unlock ?_
  rw [meets_bind, meets_own]
  exact ⟨trivial, nofun⟩

/-- The attempts hold `lock` until one succeeds or all have failed; a panic gives it back. -/
theorem meets_attempts (config : ConnectionConfig) (left attempt : Nat) :
    Meets (locking S) (attempts config left attempt) (fun k _ => k = .outer) R .outer := by
  induction left generalizing attempt with
  | zero => exact rfl
  | succ left ih =>
    have hretry : Meets (locking S) (do
        let delay := config.reconnectDelay * (attempt + 1)
        if delay > maxDuration then
          panic
        own (.sleep (min delay (30 * 10 ^ 9)))
        attempts config left (attempt + 1)) (fun k _ => k = .outer) R .outer := by
      have hsleep := fun _ : Unit => ih (attempt + 1)
      show Meets _ (if _ then _ else _) _ _ _
      by_cases hdelay : config.reconnectDelay * (attempt + 1) > maxDuration
      · rw [if_pos hdelay, meets_bind]
        exact meets_panic
      · rw [if_neg hdelay, meets_bind]
        exact meets_beside _ nofun (fun _ _ h => h) hsleep
    unfold attempts
    rw [meets_bind]
    refine meets_writeState _ rfl rfl ?_
    rw [meets_bind]
    refine meets_putStream _ rfl rfl ?_
    rw [meets_bind]
    refine meets_dial rfl fun r => ?_
    rcases r with (text | c) | _
    · exact hretry
    · show Meets _ (established c >>= _) _ _ _
      rw [meets_bind]
      exact meets_established c rfl
    · exact hretry

theorem reconnect_rests (config : ConnectionConfig) : Rests S (reconnect config) := by
  unfold Rests reconnect
  rw [meets_bind]
  refine meets_lock ?_
  rw [meets_bind]
  refine meets_mono (meets_attempts config _ 0) (fun k b hk => ?_) fun _ _ h => h
  rw [hk]
  cases b with
  | true => exact meets_unlock rfl
  | false => exact meets_failed _ rfl

theorem task_safe (config : ConnectionConfig) (job : Job) :
    Safe (locking S) (job.task S config) (fun k _ => k = .none) .none := by
  have hmap {α β : Type} (f : Result α → β) {p : Code α} (h : Rests S p) :
      Safe (locking S) (f <$> p.run) (fun k _ => k = .none) .none := by
    exact safe_map h (fun _ _ h => h) fun _ _ h => h
  cases job with
  | connect => exact hmap _ connect_rests
  | ensureConnected => exact hmap _ ensureConnected_rests
  | call service method payload => exact hmap _ (call_rests service method payload)
  | ping => exact hmap _ ping_rests
  | disconnect => exact hmap _ disconnect_rests
  | reconnect => exact hmap _ (reconnect_rests config)

/-- **A careful run of the client is free of deadlock**: for any number of tasks of any
kind, any interleaving of them, whatever the peer sends and whichever timers fire. -/
theorem careful_free (S : Codec) (config : ConnectionConfig) (jobs : List Job) (thread : Nat → Nat)
    {ls : List (Nat × Choice)} {s : Async.Config (NetWith Fields) (Client ReliableUdsClient) Outcome}
    (hrun : (start S config jobs).run machine ls = some s)
    (hcareful : (start S config jobs).Along machine (Config.Performs (Careful S)) ls) : Free thread s := by
  refine free_of_kept thread (run_safe (Q := fun _ k _ => k = .none) (upheld S) hrun hcareful ?_)
  refine ⟨fun _ => .none, Agrees.new, fun t p hp => ?_⟩
  obtain ⟨job, -, rfl⟩ := List.mem_map.mp (List.mem_of_getElem? hp)
  exact task_safe config job

end Methods

/-! ### Three runs -/

instance (S : Codec) (f : Frame) : Decidable (Usable S f) :=
  have : Decidable (S.fromSlice f.payload = (none : Option Value)) :=
    decidable_of_iff ((S.fromSlice f.payload : Option Value).isNone) Option.isNone_iff_eq_none
  inferInstanceAs (Decidable (_ ∨ _ ∧ _))

instance (S : Codec) (w : Client ReliableUdsClient) (t : Nat) (o : NetOp Fields) (c : Choice) :
    Decidable (Careful S w t o c) :=
  match o with
  | .net (.read conn _) =>
    match h : readMessage ((w.net.conns conn).ahead ++ c.got) with
    | .message f _ => decidable_of_iff (Usable S f) (by simp [Careful, h])
    | .invalid _ _ => isTrue (by simp [Careful, h])
    | .short => isTrue (by simp [Careful, h])
  | .own .queueWrite => inferInstanceAs (Decidable (¬ (_ ∧ _)))
  | .net (.connect _) | .net (.split _) | .net (.write ..) | .net (.newRequest ..) => isTrue trivial
  | .own .lock | .own .unlock | .own .lockStream | .own .unlockStream | .own .stream
  | .own (.setStream _) | .own .readState | .own .guardState | .own .dropState | .own (.writeState _)
  | .own (.sleep _) | .own (.recordRequest _) | .own (.recordReconnect _) | .own .stampConnected
  | .own .clearConnected | .own .stampRequest | .own .panic => isTrue trivial

/-- A server's answer to a request it finds invalid. -/
def invalid : Frame := ⟨msgError, compact.toVec (Value.object [("error", .string "invalid request format")])⟩

/-- The call reads an error message. -/
def refusedCall : List (Nat × Choice) :=
  connects 0 ++ asks 1 "a" ++ [(1, .arrive (encode invalid)), (1, .clock 2)]

/-- The call reads a response. -/
def answeredCall : List (Nat × Choice) :=
  connects 0 ++ asks 1 "a" ++ [(1, .arrive (encode ⟨msgResponse, []⟩))] ++ goes 1 2

/-- The second `connect` comes while the first is waiting for the server, and sleeps; then
the first is connected, and asks to write that. -/
def overtaken : List (Nat × Choice) := goes 0 7 ++ goes 1 1 ++ goes 0 5

/-- A reply that makes the call lock the stream again: the call waits for itself. -/
def waitsAtStream (t : Nat) (s : Async.Config (NetWith Fields) (Client ReliableUdsClient) Outcome) : Bool :=
  match s.tasks[t]? with
  | some (.perform (.own .lockStream) _) => s.world.fields.streamLock == some t
  | _ => false

/-- Task `t` is behind the guard with which task `v` sleeps. -/
def waitsForSleeper (t v : Nat) (s : Async.Config (NetWith Fields) (Client ReliableUdsClient) Outcome) :
    Bool :=
  match s.tasks[t]?, s.tasks[v]? with
  | some (.perform (.own (.writeState _)) _), some (.perform (.own (.sleep _)) _) =>
    decide (v ∈ s.world.fields.readers)
  | _, _ => false

theorem not_free_of_stream {thread : Nat → Nat} {t : Nat}
    {s : Async.Config (NetWith Fields) (Client ReliableUdsClient) Outcome} (h : waitsAtStream t s) :
    ¬ Free thread s := by
  unfold waitsAtStream at h
  split at h
  · next k hk => exact fun hfree => hfree.itself t _ k hk (eq_of_beq h)
  · cases h

theorem not_free_of_sleeper {thread : Nat → Nat} (t v : Nat) (hthread : thread v = thread t)
    {s : Async.Config (NetWith Fields) (Client ReliableUdsClient) Outcome} (h : waitsForSleeper t v s) :
    ¬ Free thread s := by
  unfold waitsForSleeper at h
  split at h
  · next st k nanos l hk hl =>
    have hv := of_decide_eq_true h
    exact fun hfree => hfree.thread t _ k v _ l hk (List.ne_nil_of_mem hv) hv hl rfl hthread
  · cases h

/-- A call that reads a response, of which the theorem speaks. -/
theorem careful_free_answered :
    ∃ s, (start compact patient [.connect, say]).run machine answeredCall = some s ∧ Free id s := by
  obtain ⟨s, hrun⟩ := Option.isSome_iff_exists.mp
    (show ((start compact patient [.connect, say]).run machine answeredCall).isSome by decide +kernel)
  have hcareful : (start compact patient [.connect, say]).Along machine
      (Config.Performs (Careful compact)) answeredCall := Config.along_of_checks (by decide +kernel)
  exact ⟨s, hrun, careful_free compact patient [.connect, say] id hrun hcareful⟩

/-- **An error message locks a call up behind its own guard, and a `connect` that sleeps
locks up whoever writes the state.** -/
theorem deadlocks :
    (∃ s, (start compact patient [.connect, say]).run machine refusedCall = some s ∧ ¬ Free id s) ∧
    ∃ s, (start compact patient [.connect, .connect]).run machine overtaken = some s ∧
      ¬ Free (fun _ => 0) s := by
  have hstream : ((start compact patient [.connect, say]).run machine refusedCall).any (waitsAtStream 1) := by
    decide +kernel
  have hsleeper : ((start compact patient [.connect, .connect]).run machine overtaken).any
      (waitsForSleeper 0 1) := by decide +kernel
  obtain ⟨s, hrun, hs⟩ := (Option.any_eq_true _ _).mp hstream
  obtain ⟨s', hrun', hs'⟩ := (Option.any_eq_true _ _).mp hsleeper
  exact ⟨⟨s, hrun, not_free_of_stream hs⟩, ⟨s', hrun', not_free_of_sleeper 0 1 rfl hs'⟩⟩

end XProtocol.ReliableUdsClient
