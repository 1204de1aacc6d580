import XProtocol.Async.Scripted
import XProtocol.Client.Reliable

/-! What comes of a reconnection.

A client that nobody else uses is told to reconnect, and what becomes of each of its attempts is
a script. It tells the truth about it, except where it panics: the delay is multiplied by the number
of the attempt before it is cut to 30 s, also after the last one. And only an attempt drops
the stream from before, so that a client that may make none fails with its stream in its
hands (`reconnects_iff`). -/
namespace XProtocol.ReliableUdsClient
open Async (Program Story Returns play_returns)

/-- What becomes of an attempt. -/
inductive Dial where
  | connects
  | refused (text : String)
  | timesOut

namespace Dial

def succeeds : Dial → Bool
  | connects => true
  | _ => false

def choice : Dial → Choice
  | connects => .go
  | refused text => .fail 0 [] text
  | timesOut => .elapse []

theorem perform_succeeds {d : Dial} (net : Net) (h : d.succeeds = true) :
    net.perform 0 0 (.connect true) d.choice = some (.inTime (.ok net.opened), net.dial 0) := by
  cases d with
  | connects => rfl
  | refused text => cases h
  | timesOut => cases h

theorem perform_fails {d : Dial} (net : Net) (h : d.succeeds = false) :
    ∃ r, net.perform 0 0 (.connect true) d.choice = some (r, net) ∧ ∀ c, r ≠ .inTime (.ok c) := by
  cases d with
  | connects => cases h
  | refused text => exact ⟨_, rfl, nofun⟩
  | timesOut => exact ⟨_, rfl, nofun⟩

end Dial

def isDial : NetOp Fields → Bool
  | .net (.connect _) => true
  | _ => false

/-- The choices where the attempts become `dials`, and the clock is read at will. -/
def dialScript (dials : Nat → Dial) (clock : Nat → Op → Nat) (story : Story (NetWith Fields)) :
    NetOp Fields → Choice
  | .net _ => (dials story.length).choice
  | .own (.recordReconnect success) => .clock (clock story.length (.recordReconnect success))
  | .own .stampConnected => .clock (clock story.length .stampConnected)
  | .own _ => .go

/-- A program of the client, under this script. -/
abbrev played {α : Type} (dials : Nat → Dial) (clock : Nat → Op → Nat) (code : Code α)
    (s : Client ReliableUdsClient × Story (NetWith Fields)) :
    Option (Result α) × Client ReliableUdsClient × Story (NetWith Fields) :=
  code.run.play (machine.scripted isDial (dialScript dials clock)) s

/-- Nobody holds a lock or waits for one. -/
structure AtRest (u : ReliableUdsClient) : Prop where
  lock : u.lock = none
  streamLock : u.streamLock = none
  readers : u.readers = []
  writers : u.writers = []

/-- Nobody but the reconnection holds one. -/
structure HoldsLock (u : ReliableUdsClient) : Prop where
  lock : u.lock = some 0
  streamLock : u.streamLock = none
  readers : u.readers = []
  writers : u.writers = []

section
variable {dials : Nat → Dial} {clock : Nat → Op → Nat} {α : Type} {u u' : ReliableUdsClient} {net : Net}
  {story : Story (NetWith Fields)}

theorem played_own {o : Op} {r : Fields.Ret o}
    (h : perform 0 o (dialScript dials clock story (.own o)) u = some (r, u')) (f : Fields.Ret o → Code α) :
    played dials clock (own o >>= f) (⟨u, net⟩, story) = played dials clock (f r) (⟨u', net⟩, story) := by
  have hperform : machine.perform 0 (.own o) (dialScript dials clock story (.own o)) ⟨u, net⟩ =
      some (r, ⟨u', net⟩) := by
    show (perform 0 o (dialScript dials clock story (.own o)) u).map _ = _
    rw [h]
    rfl
  exact Program.play_answered (E := NetWith Fields) (o := .own o) (k := fun r => (f r).run)
    (Async.scripted_some hperform)

theorem played_writeState (hreaders : u.readers = []) (hwriters : u.writers = []) (s : ConnectionState)
    (f : Unit → Code α) :
    played dials clock (writeState s >>= f) (⟨u, net⟩, story) =
      played dials clock (f ()) (⟨{ u with state := s }, net⟩, story) := by
  have hqueue : perform 0 .queueWrite .go u = some ((), { u with writers := [0] }) := by
    simp [perform, hwriters]
  have hwrite : perform 0 (.writeState s) .go { u with writers := [0] } = some ((), { u with state := s }) := by
    obtain ⟨state, readers, writers, stream, streamLock, lock, stats, connectedAt, lastRequestAt⟩ := u
    subst hreaders hwriters
    rfl
  rw [writeState, bind_assoc, played_own hqueue, played_own hwrite]

theorem played_putStream (hlock : u.streamLock = none) (stream : Option ConnId) (f : Unit → Code α) :
    played dials clock (putStream stream >>= f) (⟨u, net⟩, story) =
      played dials clock (f ()) (⟨{ u with stream }, net⟩, story) := by
  have htake : perform 0 .lockStream .go u = some ((), { u with streamLock := some 0 }) := by
    simp [perform, hlock]
  have hput : perform 0 (.setStream stream) .go { u with streamLock := some 0 } =
      some ((), { u with streamLock := some 0, stream }) := rfl
  have hgive : perform 0 .unlockStream .go { u with streamLock := some 0, stream } =
    some ((), { u with stream }) := by
    simp [perform, hlock]
  rw [putStream, bind_assoc, played_own htake]
  simp only [bind_assoc]
  rw [played_own hput, played_own hgive]

theorem played_connect {r : Timed (Except String ConnId)} {net' : Net}
    (h : net.perform 0 0 (.connect true) (dials story.length).choice = some (r, net'))
    (f : Timed (Except String ConnId) → Code α) :
    played dials clock (Code.net (.connect true) >>= f) (⟨u, net⟩, story) =
      played dials clock (f r) (⟨u, net'⟩, story ++ [⟨.net (.connect true), r⟩]) := by
  have hperform : machine.perform 0 (.net (.connect true)) (dialScript dials clock story (.net (.connect true)))
      ⟨u, net⟩ = some (r, ⟨u, net'⟩) := by
    show (net.perform 0 0 (.connect true) (dials story.length).choice).map _ = _
    rw [h]
    rfl
  exact Program.play_answered (k := fun r => (f r).run) (Async.scripted_some hperform)

end

variable (config : ConnectionConfig) (dials : Nat → Dial) (clock : Nat → Op → Nat)

/-- The client after a failed attempt. -/
def afterFailure (u : ReliableUdsClient) : ReliableUdsClient := { u with state := .reconnecting, stream := none }

def afterSuccess (clock : Nat → Op → Nat) (n : Nat) (c : ConnId) (u : ReliableUdsClient) : ReliableUdsClient :=
  { u with state := .connected, stream := some c, connectedAt := some (clock n .stampConnected),
           stats := u.stats.recordReconnect (clock n (.recordReconnect true)) true }

theorem attempts_success {u : ReliableUdsClient} (hu : HoldsLock u) (net : Net) {story : Story (NetWith Fields)}
    (h : (dials story.length).succeeds = true) (left attempt : Nat) :
    played dials clock (attempts config (left + 1) attempt) (⟨u, net⟩, story) =
      (some (.ok true), ⟨afterSuccess clock (story.length + 1) net.opened u, net.dial 0⟩,
        story ++ [⟨.net (.connect true), .inTime (.ok net.opened)⟩]) := by
  rw [attempts, played_writeState hu.readers hu.writers, played_putStream (by exact hu.streamLock),
    played_connect (Dial.perform_succeeds net h)]
  simp only [established, bind_assoc]
  rw [played_putStream (by exact hu.streamLock), played_writeState (by exact hu.readers) (by exact hu.writers),
    played_own rfl, played_own rfl]
  have hlength : (story ++ [⟨.net (.connect true), Timed.inTime (.ok net.opened)⟩] :
      Story (NetWith Fields)).length = story.length + 1 := List.length_append
  simp only [← hlength]
  rfl

theorem attempts_failure {u : ReliableUdsClient} (hu : HoldsLock u) (net : Net) {story : Story (NetWith Fields)}
    (h : (dials story.length).succeeds = false) (left attempt : Nat) : ∃ r : Timed (Except String ConnId),
    played dials clock (attempts config (left + 1) attempt) (⟨u, net⟩, story) =
      if config.reconnectDelay * (attempt + 1) > maxDuration then
        (none, ⟨{ afterFailure u with lock := none }, net⟩, story ++ [⟨.net (.connect true), r⟩])
      else
        played dials clock (attempts config left (attempt + 1))
          (⟨afterFailure u, net⟩, story ++ [⟨.net (.connect true), r⟩]) := by
  obtain ⟨r, hdial, hr⟩ := Dial.perform_fails net h
  refine ⟨r, ?_⟩
  rw [attempts, played_writeState hu.readers hu.writers, played_putStream (by exact hu.streamLock),
    played_connect hdial]
  have hsleep (nanos : Nat) (u : ReliableUdsClient) : perform 0 (.sleep nanos) .go u = some ((), u) := rfl
  have hafter : played dials clock (do
      if config.reconnectDelay * (attempt + 1) > maxDuration then
        panic
      own (.sleep (min (config.reconnectDelay * (attempt + 1)) (30 * 10 ^ 9)))
      attempts config left (attempt + 1)) (⟨afterFailure u, net⟩, story ++ [⟨.net (.connect true), r⟩]) =
      if config.reconnectDelay * (attempt + 1) > maxDuration then
        (none, ⟨{ afterFailure u with lock := none }, net⟩, story ++ [⟨.net (.connect true), r⟩])
      else
        played dials clock (attempts config left (attempt + 1))
          (⟨afterFailure u, net⟩, story ++ [⟨.net (.connect true), r⟩]) := by
    split
    · rfl
    · exact played_own (hsleep _ _) _
  cases r with
  | inTime r =>
    cases r with
    | ok c => exact absurd rfl (hr c)
    | error text => exact hafter
  | elapsed => exact hafter

/-- The delay after each attempt that fails behind nothing but failures, from the given one on, is a duration. -/
def Affordable (left attempt : Nat) : Prop :=
  ∀ k < left, (∀ i ≤ k, (dials (attempt + i)).succeeds = false) →
    config.reconnectDelay * (attempt + k + 1) ≤ maxDuration

/-- What the attempts have made of the client, and how many there were. -/
structure Tried (left attempt : Nat) (w w' : Client ReliableUdsClient) (made : Nat) (success : Bool) : Prop where
  atMost : made ≤ left
  failed : ∀ i, i + 1 < made → (dials (attempt + i)).succeeds = false
  success_iff : success = true ↔ ∃ i < left, (dials (attempt + i)).succeeds = true
  connected : success = true → w'.fields.state = .connected ∧ w'.fields.stream = some w.net.opened ∧
    w'.net = w.net.dial 0
  lost : success = false → w'.fields.stream = if left = 0 then w.fields.stream else none
  held : HoldsLock w'.fields

theorem HoldsLock.afterFailure {u : ReliableUdsClient} (h : HoldsLock u) : HoldsLock (afterFailure u) := { h with }

theorem tried_none {w : Client ReliableUdsClient} (h : HoldsLock w.fields) (attempt : Nat) :
    Tried dials 0 attempt w w 0 false where
  atMost := Nat.le_refl 0
  failed _ hi := absurd hi (Nat.not_lt_zero _)
  success_iff := iff_of_false nofun fun ⟨_, hi, _⟩ => absurd hi (Nat.not_lt_zero _)
  connected := nofun
  lost _ := rfl
  held := h

theorem tried_success {u : ReliableUdsClient} {net : Net} (h : HoldsLock u) (left : Nat) {attempt : Nat}
    (hsucceeds : (dials attempt).succeeds = true) :
    Tried dials (left + 1) attempt ⟨u, net⟩ ⟨afterSuccess clock (attempt + 1) net.opened u, net.dial 0⟩ 1 true where
  atMost := Nat.le_add_left 1 left
  failed i hi := absurd hi (by omega)
  success_iff := iff_of_true rfl ⟨0, Nat.succ_pos left, hsucceeds⟩
  connected _ := ⟨rfl, rfl, rfl⟩
  lost := nofun
  held := { h with }

/-- One more attempt in front, which fails. -/
theorem Tried.failure {u : ReliableUdsClient} {net : Net} {w' : Client ReliableUdsClient}
    {left attempt made : Nat} {success : Bool}
    (hfails : (dials attempt).succeeds = false)
    (h : Tried dials left (attempt + 1) ⟨ReliableUdsClient.afterFailure u, net⟩ w' made success) :
    Tried dials (left + 1) attempt ⟨u, net⟩ w' (made + 1) success where
  atMost := Nat.succ_le_succ h.atMost
  failed i hi := by
    cases i with
    | zero => exact hfails
    | succ i =>
      rw [show attempt + (i + 1) = attempt + 1 + i by omega]
      exact h.failed i (Nat.lt_of_succ_lt_succ hi)
  success_iff := by
    rw [h.success_iff]
    constructor
    · rintro ⟨i, hi, hok⟩
      exact ⟨i + 1, Nat.succ_lt_succ hi, by rwa [show attempt + (i + 1) = attempt + 1 + i by omega]⟩
    · rintro ⟨i, hi, hok⟩
      cases i with
      | zero => exact absurd (hfails.symm.trans hok) Bool.false_ne_true
      | succ i => exact ⟨i, Nat.lt_of_succ_lt_succ hi, by rwa [show attempt + 1 + i = attempt + (i + 1) by omega]⟩
  connected := h.connected
  lost hfailed := by
    rw [h.lost hfailed, if_neg (Nat.succ_ne_zero left)]
    exact ite_self none
  held := h.held

theorem Affordable.next {left attempt : Nat} (hfails : (dials attempt).succeeds = false) :
    Affordable config dials (left + 1) attempt ↔
      config.reconnectDelay * (attempt + 1) ≤ maxDuration ∧ Affordable config dials left (attempt + 1) := by
  constructor
  · intro h
    refine ⟨h 0 (Nat.succ_pos left) fun i hi => ?_, fun k hk hall => ?_⟩
    · obtain rfl := Nat.le_zero.mp hi
      exact hfails
    · rw [show attempt + 1 + k + 1 = attempt + (k + 1) + 1 by omega]
      refine h (k + 1) (Nat.succ_lt_succ hk) fun i hi => ?_
      cases i with
      | zero => exact hfails
      | succ i =>
        rw [show attempt + (i + 1) = attempt + 1 + i by omega]
        exact hall i (Nat.le_of_succ_le_succ hi)
  · rintro ⟨hfirst, hrest⟩ k hk hall
    cases k with
    | zero => exact hfirst
    | succ k =>
      rw [show attempt + (k + 1) + 1 = attempt + 1 + k + 1 by omega]
      refine hrest k (Nat.lt_of_succ_lt_succ hk) fun i hi => ?_
      rw [show attempt + 1 + i = attempt + (i + 1) by omega]
      exact hall (i + 1) (Nat.succ_le_succ hi)

theorem affordable_of_success {left attempt : Nat} (h : (dials attempt).succeeds = true) :
    Affordable config dials left attempt := fun k _ hall =>
  absurd (h.symm.trans (hall 0 (Nat.zero_le k))) Bool.true_eq_false.mp

variable (net : Net)

theorem attempts_tried {left : Nat} {u : ReliableUdsClient} (hu : HoldsLock u) (story : Story (NetWith Fields))
    (h : Affordable config dials left story.length) : ∃ success w' story',
      played dials clock (attempts config left story.length) (⟨u, net⟩, story) =
        (some (.ok success), w', story') ∧
        ∃ made, story'.length = story.length + made ∧ Tried dials left story.length ⟨u, net⟩ w' made success := by
  induction left generalizing u story with
  | zero => exact ⟨false, ⟨u, net⟩, story, rfl, 0, rfl, tried_none dials hu _⟩
  | succ left ih =>
    by_cases hok : (dials story.length).succeeds = true
    · refine ⟨true, _, _, attempts_success config dials clock hu net hok left _, 1, List.length_append, ?_⟩
      exact tried_success dials clock hu left hok
    · have hfails := Bool.eq_false_of_not_eq_true hok
      obtain ⟨hdelay, hrest⟩ := (Affordable.next config dials hfails).mp h
      obtain ⟨r, hr⟩ := attempts_failure config dials clock hu net hfails left story.length
      have hlength : (story ++ [⟨.net (.connect true), r⟩] : Story (NetWith Fields)).length = story.length + 1 :=
        List.length_append
      obtain ⟨success, w', story', hplay, made, hmade, htried⟩ := ih hu.afterFailure _ (hlength ▸ hrest)
      rw [hlength] at hplay hmade htried
      refine ⟨success, w', story', ?_, made + 1, by omega, htried.failure dials hfails⟩
      rw [hr, if_neg (Nat.not_lt.mpr hdelay), hplay]

theorem attempts_panics {left : Nat} {u : ReliableUdsClient} (hu : HoldsLock u) (story : Story (NetWith Fields))
    (h : ¬ Affordable config dials left story.length) :
    (played dials clock (attempts config left story.length) (⟨u, net⟩, story)).1 = none := by
  induction left generalizing u story with
  | zero => exact absurd (fun k hk => absurd hk (Nat.not_lt_zero k)) h
  | succ left ih =>
    have hfails : (dials story.length).succeeds = false := by
      by_contra hok
      exact h (affordable_of_success config dials (Bool.eq_true_of_not_eq_false hok))
    obtain ⟨r, hr⟩ := attempts_failure config dials clock hu net hfails left story.length
    have hlength : (story ++ [⟨.net (.connect true), r⟩] : Story (NetWith Fields)).length = story.length + 1 :=
      List.length_append
    rw [hr]
    split
    · rfl
    · next hdelay =>
      rw [← hlength]
      refine ih hu.afterFailure _ fun hrest => h
        ((Affordable.next config dials hfails).mpr ⟨Nat.not_lt.mp hdelay, ?_⟩)
      rwa [hlength] at hrest

/-! ### The reconnection -/

/-- Whatever the client was connected to, `reconnect` makes no more attempts than it may and none after the first
success; it tells whether there was one, and the client is connected then, and has failed otherwise. -/
def Reconnects (u : ReliableUdsClient) : Prop :=
  ∀ (clock : Nat → Op → Nat) (net : Net), ∃ result w' story',
    played dials clock (reconnect config) (⟨u, net⟩, []) = (some result, w', story') ∧
      Returns machine (fun _ _ _ => True) (reconnect config).run ⟨u, net⟩ result w' ∧
      story'.length ≤ config.maxReconnectAttempts ∧ (∀ i, i + 1 < story'.length → (dials i).succeeds = false) ∧
      (result = .ok () ↔ ∃ i < config.maxReconnectAttempts, (dials i).succeeds = true) ∧
      (result = .ok () → w'.fields.state = .connected ∧ w'.fields.stream = some net.opened ∧
        w'.net = net.dial 0) ∧
      (result ≠ .ok () → w'.fields.state = .failed ∧ w'.fields.stream = none)

/-- The end of a reconnection whose attempts have not panicked. -/
theorem reconnect_play {u : ReliableUdsClient} (hu : AtRest u) {w' : Client ReliableUdsClient}
    {story' : Story (NetWith Fields)} {success : Bool} (hheld : HoldsLock w'.fields)
    (h : played dials clock (attempts config config.maxReconnectAttempts 0)
      (⟨{ u with lock := some 0 }, net⟩, []) = (some (.ok success), w', story')) :
    played dials clock (reconnect config) (⟨u, net⟩, []) =
      if success then (some (.ok ()), { w' with fields := { w'.fields with lock := none } }, story')
      else (some (.error (.connectionFailed s!"Failed to reconnect after {config.maxReconnectAttempts} attempts")),
        { w' with fields := { w'.fields with
          state := .failed, lock := none,
          stats := w'.fields.stats.recordReconnect
            (clock story'.length (.recordReconnect false)) false } }, story') := by
  have hlock : perform 0 .lock .go u = some ((), { u with lock := some 0 }) := by simp [perform, hu.lock]
  rw [reconnect, played_own hlock]
  refine (Program.play_bind_ok h).trans ?_
  cases success with
  | true => rfl
  | false =>
    show played dials clock (do
      writeState .failed
      own (.recordReconnect false)
      own .unlock
      throw (.connectionFailed s!"Failed to reconnect after {config.maxReconnectAttempts} attempts"))
        (w', story') = _
    rw [played_writeState hheld.readers hheld.writers, played_own rfl, played_own rfl]
    rfl

theorem reconnect_panics {u : ReliableUdsClient} (hu : AtRest u)
    (h : (played dials clock (attempts config config.maxReconnectAttempts 0)
      (⟨{ u with lock := some 0 }, net⟩, [])).1 = none) :
    (played dials clock (reconnect config) (⟨u, net⟩, [])).1 = none := by
  have hlock : perform 0 .lock .go u = some ((), { u with lock := some 0 }) := by simp [perform, hu.lock]
  rw [reconnect, played_own hlock]
  exact congrArg Prod.fst (Program.play_bind_none (Prod.ext h rfl))

theorem Reconnects.affordable {u : ReliableUdsClient} (hu : AtRest u) (h : Reconnects config dials u) :
    Affordable config dials config.maxReconnectAttempts 0 := by
  have hheld : HoldsLock { u with lock := some 0 } := { hu with lock := rfl }
  obtain ⟨result, w', story', hplay, -⟩ := h (fun _ _ => 0) .empty
  by_contra hnot
  have hnone := reconnect_panics config dials _ .empty hu
    (attempts_panics config dials (fun _ _ => 0) .empty hheld [] hnot)
  rw [hplay] at hnone
  cases hnone

/-- Without an attempt, the stream is what it was. -/
theorem Reconnects.stream_none {u : ReliableUdsClient} (hu : AtRest u) (h : Reconnects config dials u)
    (hzero : config.maxReconnectAttempts = 0) : u.stream = none := by
  have hheld : HoldsLock { u with lock := some 0 } := { hu with lock := rfl }
  obtain ⟨result, w', story', hplay, -, -, -, -, -, hfailed⟩ := h (fun _ _ => 0) .empty
  obtain ⟨success, w, story, hattempts, made, -, htried⟩ :=
    attempts_tried config dials (fun _ _ => 0) .empty hheld [] (h.affordable config dials hu)
  have hnone : success = false := by
    by_contra hsome
    obtain ⟨i, hi, -⟩ := htried.success_iff.mp (Bool.eq_true_of_not_eq_false hsome)
    exact absurd hi (by omega)
  have hstream := htried.lost hnone
  rw [if_pos hzero] at hstream
  rw [reconnect_play config dials _ .empty hu htried.held hattempts, hnone] at hplay
  obtain ⟨rfl, rfl, -⟩ : _ ∧ _ ∧ _ := by simpa using hplay
  exact hstream.symm.trans (hfailed nofun).2

theorem Affordable.reconnects {u : ReliableUdsClient} (hu : AtRest u)
    (haffordable : Affordable config dials config.maxReconnectAttempts 0)
    (hzero : config.maxReconnectAttempts = 0 → u.stream = none) : Reconnects config dials u := by
  intro clock net
  have hheld : HoldsLock { u with lock := some 0 } := { hu with lock := rfl }
  obtain ⟨success, w', story', hattempts, made, hmade, htried⟩ :=
    attempts_tried config dials clock net hheld [] haffordable
  have hplay := reconnect_play config dials clock net hu htried.held hattempts
  have hmost : story'.length ≤ config.maxReconnectAttempts := by
    have hatMost := htried.atMost
    rw [List.length_nil] at hmade
    omega
  have hfails (i : Nat) (hi : i + 1 < story'.length) : (dials i).succeeds = false := by
    rw [hmade, List.length_nil, Nat.zero_add] at hi
    simpa using htried.failed i hi
  have hiff := htried.success_iff
  simp only [List.length_nil, Nat.zero_add] at hiff
  cases success with
  | true =>
    exact ⟨_, _, story', hplay, play_returns hplay, hmost, hfails, iff_of_true rfl (hiff.mp rfl),
      fun _ => htried.connected rfl, fun hne => absurd rfl hne⟩
  | false =>
    refine ⟨_, _, story', hplay, play_returns hplay, hmost, hfails, iff_of_false nofun fun h => ?_,
      nofun, fun _ => ⟨rfl, ?_⟩⟩
    · exact Bool.false_ne_true (hiff.mpr h)
    · show w'.fields.stream = none
      rw [htried.lost rfl]
      split
      · next h => exact hzero h
      · rfl

/-- **A reconnection does what it should exactly if the delays behind its failures are durations, and
a client that may make no attempt holds no stream.** -/
theorem reconnects_iff {u : ReliableUdsClient} (hu : AtRest u) :
    Reconnects config dials u ↔ Affordable config dials config.maxReconnectAttempts 0 ∧
      (config.maxReconnectAttempts = 0 → u.stream = none) :=
  ⟨fun h => ⟨h.affordable config dials hu, h.stream_none config dials hu⟩,
    fun ⟨haffordable, hzero⟩ => haffordable.reconnects config dials hu hzero⟩

theorem atRest_new : AtRest new := ⟨rfl, rfl, rfl, rfl⟩

/-- Five attempts, a second apart, of which the second succeeds. -/
theorem reconnects_iff_patient : AtRest new ∧
    Reconnects patient (fun i => if i = 1 then .connects else .timesOut) new := by
  refine ⟨atRest_new, (reconnects_iff patient _ atRest_new).mpr ⟨fun k hk _ => ?_, fun _ => rfl⟩⟩
  have hk : k < 5 := hk
  have hmax : 10 ^ 10 ≤ maxDuration := by decide
  show 10 ^ 9 * (0 + k + 1) ≤ maxDuration
  omega

/-- The second failure behind the longest delay panics; and a client that may make no attempt keeps its stream. -/
theorem reconnect_goes_wrong : ¬ Reconnects ⟨2, maxDuration⟩ (fun _ => .timesOut) new ∧
    ¬ Reconnects ⟨0, 10 ^ 9⟩ (fun _ => .connects) { new with state := .connected, stream := some 0 } := by
  constructor
  · intro h
    obtain ⟨result, w', story', hplay, -⟩ := h (fun _ _ => 0) .empty
    have hpanics : (played (fun _ => .timesOut) (fun _ _ => 0) (reconnect ⟨2, maxDuration⟩)
        (⟨new, .empty⟩, [])).1 = none := by decide +kernel
    rw [hplay] at hpanics
    cases hpanics
  · intro h
    obtain ⟨result, w', story', hplay, -, -, -, hok, -, hfailed⟩ := h (fun _ _ => 0) .empty
    have hne : result ≠ .ok () := fun heq => by
      obtain ⟨i, hi, -⟩ := hok.mp heq
      exact absurd hi (Nat.not_lt_zero i)
    have hstream : (played (fun _ => .connects) (fun _ _ => 0) (reconnect ⟨0, 10 ^ 9⟩)
        (⟨{ new with state := .connected, stream := some 0 }, .empty⟩, [])).2.1.fields.stream = some 0 := by
      decide +kernel
    rw [hplay] at hstream
    exact nomatch (hfailed hne).2.symm.trans hstream

end XProtocol.ReliableUdsClient
