import XProtocol.Client.Reliable

/-! The locks of the reconnecting client.

A deadlock is a task that waits for a lock it holds itself, or a task that blocks its
thread at the state lock while a task of the same thread is suspended with a guard of
that lock (`Free` rules both out). There are two ways into one. A `call` that reads an
error message, or one of another type, locks the stream again under its own guard; and
`connect` sleeps under its read guard when it finds the client connecting, so that
whoever writes the state then stands behind a guard that nobody gives back.

`Locks` is what a task knows of its locks along its way, and `locking` what it owes. A
step that does neither (`Careful`) keeps what the tasks know true (`upheld`), and that
rules deadlocks out (`free_of_kept`). -/
namespace XProtocol.ReliableUdsClient
open Async
open Json (Value Codec)
open Wire

/-! ### Deadlocks -/

/-- Task `t` waits for a lock that it holds itself. -/
def WaitsForItself (u : ReliableUdsClient) (t : Nat) : NetOp Fields → Prop
  | .own .lock => u.lock = some t
  | .own .lockStream => u.streamLock = some t
  | .own .readState | .own .guardState => t ∈ u.readers ∧ u.writers ≠ []
  | .own (.writeState _) => t ∈ u.readers
  | _ => False

/-- The operation blocks its thread at the state lock. -/
def Blocks (u : ReliableUdsClient) : NetOp Fields → Prop
  | .own .readState | .own .guardState => u.writers ≠ []
  | .own (.writeState _) => u.readers ≠ []
  | _ => False

/-- No task waits for itself, and none blocks the thread of a task that is suspended
with a guard of the state; `thread` says which thread runs which task. -/
structure Free {α : Type} (thread : Nat → Nat)
    (s : Async.Config (NetWith Fields) (Client ReliableUdsClient) α) : Prop where
  itself : ∀ t o k, s.tasks[t]? = some (.perform o k) → ¬ WaitsForItself s.world.fields t o
  thread : ∀ t o k v p l, s.tasks[t]? = some (.perform o k) → Blocks s.world.fields o →
    v ∈ s.world.fields.readers → s.tasks[v]? = some (.perform p l) → awaits p = true →
    thread v = thread t → False

/-- A reply that `call` can use, or cannot even parse. -/
def Usable (S : Codec) (f : Frame) : Prop :=
  f.msgType = msgResponse ∨ f.msgType = msgError ∧ S.fromSlice f.payload = (none : Option Value)

/-- No read takes a reply that makes `call` lock the stream again, and nobody begins to
write the state while a guard is kept over a state that is connecting. -/
def Careful (S : Codec) (w : Client ReliableUdsClient) (_ : Nat) : NetOp Fields → Choice → Prop
  | .net (.read c _), choice => ∀ f rest,
    readMessage ((w.net.conns c).ahead ++ choice.got) = .message f rest → Usable S f
  | .own .queueWrite, _ => ¬ (w.fields.readers ≠ [] ∧ w.fields.state = .connecting)
  | _, _ => True

/-! ### What a task knows of its locks -/

structure Locks where
  lock : Bool
  stream : Bool
  /-- The state it found when it took the guard it keeps. -/
  guard : Option ConnectionState
  queued : Bool

namespace Locks

def none : Locks := { lock := false, stream := false, guard := .none, queued := false }

/-- No guard, or one over a state that is connecting. -/
def Waits (k : Locks) : Prop := ∀ s, k.guard = some s → s = .connecting

end Locks

section
variable (S : Codec)

def demand (k : Locks) : NetOp Fields → Prop
  | .own .lock => k.lock = false ∧ k.guard = none
  | .own .unlock => k.lock = true
  | .own .lockStream => k.stream = false ∧ k.guard = none
  | .own .unlockStream => k.stream = true
  | .own .guardState => k.guard = none
  | .own .readState => k.Waits
  | .own .queueWrite => k.guard = none ∧ k.queued = false
  | .own (.writeState _) => k.guard = none ∧ k.queued = true
  | .own (.sleep _) => k.Waits
  | .net (.connect _) | .net (.write ..) | .net (.read ..) => k.guard = none
  | _ => True

def move (k : Locks) : (o : NetOp Fields) → (NetWith Fields).Ret o → Locks → Prop
  | .own .lock, _, k' => k' = { k with lock := true }
  | .own .unlock, _, k' => k' = { k with lock := false }
  | .own .lockStream, _, k' => k' = { k with stream := true }
  | .own .unlockStream, _, k' => k' = { k with stream := false }
  | .own .guardState, s, k' => k' = { k with guard := some s }
  | .own .dropState, _, k' => k' = { k with guard := none }
  | .own .queueWrite, _, k' => k' = { k with queued := true }
  | .own (.writeState _), _, k' => k' = { k with queued := false }
  | .net (.read ..), r, k' => k' = k ∧ ∀ f, r = .inTime (.ok f) → Usable S f
  | _, _, k' => k' = k

def locking : Discipline (NetWith Fields) Locks := ⟨demand, move S⟩

end

/-- A mutex is held by the task that knows it. -/
def Held (holder : Option Nat) (knows : Nat → Bool) : Prop := ∀ t, holder = some t ↔ knows t = true

/-- The state lock and those who know that they hold a guard, or wait to write. A
guard keeps the state; over one that is connecting nobody waits. -/
structure Guarded (u : ReliableUdsClient) (guard : Nat → Option ConnectionState) (queued : Nat → Bool) :
    Prop where
  reader : ∀ t, t ∈ u.readers ↔ guard t ≠ none
  once : u.readers.Nodup
  found : ∀ t s, guard t = some s → u.state = s
  writer : ∀ t, t ∈ u.writers ↔ queued t = true
  onceQueued : u.writers.Nodup
  calm : u.readers ≠ [] → u.state = .connecting → u.writers = []

structure Agrees (u : ReliableUdsClient) (γ : Nat → Locks) : Prop where
  lock : Held u.lock (Locks.lock ∘ γ)
  stream : Held u.streamLock (Locks.stream ∘ γ)
  state : Guarded u (Locks.guard ∘ γ) (Locks.queued ∘ γ)

namespace Held
variable {holder : Option Nat} {knows : Nat → Bool} {t : Nat}

theorem take (h : Held holder knows) (hfree : holder = none) :
    Held (some t) (Function.update knows t true) := fun v => by
  have hnobody : knows v = false := by simpa [hfree] using h v
  by_cases hv : v = t
  · simp [hv]
  · simp [Function.update_of_ne hv, hnobody, Ne.symm hv]

theorem kept (h : Held holder knows) : Held holder (Function.update knows t (knows t)) := by
  rwa [Function.update_eq_self]

theorem give (h : Held holder knows) (ht : knows t = true) : Held none (Function.update knows t false) :=
  fun v => by
  have hholder := (h t).mpr ht
  by_cases hv : v = t
  · simp [hv]
  · have := h v
    simp_all [Ne.symm hv]

end Held

namespace Guarded
variable {u : ReliableUdsClient} {guard : Nat → Option ConnectionState} {queued : Nat → Bool} {t : Nat}

/-- Only the state lock matters. -/
theorem congr (h : Guarded u guard queued) {u' : ReliableUdsClient} (hreaders : u'.readers = u.readers)
    (hwriters : u'.writers = u.writers) (hstate : u'.state = u.state) : Guarded u' guard queued := by
  constructor
  · rw [hreaders]; exact h.reader
  · rw [hreaders]; exact h.once
  · rw [hstate]; exact h.found
  · rw [hwriters]; exact h.writer
  · rw [hwriters]; exact h.onceQueued
  · rw [hreaders, hwriters, hstate]; exact h.calm

theorem keptGuard (h : Guarded u guard queued) :
    Guarded u (Function.update guard t (guard t)) queued := by
  rwa [Function.update_eq_self]

theorem keptQueued (h : Guarded u guard queued) :
    Guarded u guard (Function.update queued t (queued t)) := by
  rwa [Function.update_eq_self]

theorem kept (h : Guarded u guard queued) :
    Guarded u (Function.update guard t (guard t)) (Function.update queued t (queued t)) :=
  h.keptGuard.keptQueued

theorem guardState (h : Guarded u guard queued) (hno : guard t = none) (hwriters : u.writers = []) :
    Guarded { u with readers := t :: u.readers } (Function.update guard t (some u.state)) queued where
  reader v := by
    by_cases hv : v = t
    · simp [hv]
    · simpa [Function.update_of_ne hv, hv] using h.reader v
  once := List.nodup_cons.mpr ⟨fun ht => (h.reader t).mp ht hno, h.once⟩
  found v s hs := by
    by_cases hv : v = t
    · subst hv
      simpa using hs
    · rw [Function.update_of_ne hv] at hs
      exact h.found v s hs
  writer := h.writer
  onceQueued := h.onceQueued
  calm _ _ := hwriters

theorem dropState (h : Guarded u guard queued) :
    Guarded { u with readers := u.readers.erase t } (Function.update guard t none) queued where
  reader v := by
    by_cases hv : v = t
    · subst hv
      simp [h.once.not_mem_erase]
    · simpa [Function.update_of_ne hv, List.mem_erase_of_ne hv] using h.reader v
  once := h.once.erase t
  found v s hs := by
    by_cases hv : v = t
    · subst hv
      simp at hs
    · rw [Function.update_of_ne hv] at hs
      exact h.found v s hs
  writer := h.writer
  onceQueued := h.onceQueued
  calm hreaders := h.calm fun hnil => hreaders (by rw [hnil]; rfl)

theorem queueWrite (h : Guarded u guard queued) (hno : queued t = false)
    (hcalm : ¬ (u.readers ≠ [] ∧ u.state = .connecting)) :
    Guarded { u with writers := t :: u.writers } guard (Function.update queued t true) where
  reader := h.reader
  once := h.once
  found := h.found
  writer v := by
    by_cases hv : v = t
    · simp [hv]
    · simpa [Function.update_of_ne hv, hv] using h.writer v
  onceQueued := List.nodup_cons.mpr ⟨fun ht => by simp [(h.writer t).mp ht] at hno, h.onceQueued⟩
  calm hreaders hstate := absurd ⟨hreaders, hstate⟩ hcalm

theorem writeState (h : Guarded u guard queued) (hfree : u.readers = []) (s : ConnectionState) :
    Guarded { u with state := s, writers := u.writers.erase t } guard (Function.update queued t false) where
  reader := h.reader
  once := h.once
  found v s' hs := by
    have := (h.reader v).mpr (by rw [hs]; exact nofun)
    simp [hfree] at this
  writer v := by
    by_cases hv : v = t
    · subst hv
      simp [h.onceQueued.not_mem_erase]
    · simpa [Function.update_of_ne hv, List.mem_erase_of_ne hv] using h.writer v
  onceQueued := h.onceQueued.erase t
  calm hreaders := absurd hfree hreaders

end Guarded

namespace Agrees
variable {u : ReliableUdsClient} {γ : Nat → Locks} {t : Nat}

theorem new : Agrees .new fun _ => .none where
  lock _ := by simp [ReliableUdsClient.new, Locks.none]
  stream _ := by simp [ReliableUdsClient.new, Locks.none]
  state := {
    reader := fun _ => by simp [ReliableUdsClient.new, Locks.none]
    once := .nil
    found := nofun
    writer := fun _ => by simp [ReliableUdsClient.new, Locks.none]
    onceQueued := .nil
    calm := fun h => absurd rfl h }

/-- A task's knowledge changes lock by lock. -/
theorem learn {k : Locks} (hlock : Held u.lock (Function.update (Locks.lock ∘ γ) t k.lock))
    (hstream : Held u.streamLock (Function.update (Locks.stream ∘ γ) t k.stream))
    (hstate : Guarded u (Function.update (Locks.guard ∘ γ) t k.guard)
      (Function.update (Locks.queued ∘ γ) t k.queued)) : Agrees u (Function.update γ t k) := by
  constructor
  · rwa [Function.comp_update]
  · rwa [Function.comp_update]
  · rwa [Function.comp_update, Function.comp_update]

/-- An operation that leaves the locks alone. -/
theorem congr (h : Agrees u γ) {u' : ReliableUdsClient} (hlock : u'.lock = u.lock)
    (hstream : u'.streamLock = u.streamLock) (hreaders : u'.readers = u.readers)
    (hwriters : u'.writers = u.writers) (hstate : u'.state = u.state) :
    Agrees u' (Function.update γ t (γ t)) := by
  rw [Function.update_eq_self]
  exact ⟨hlock ▸ h.lock, hstream ▸ h.stream, h.state.congr hreaders hwriters hstate⟩

end Agrees

/-- An operation on the client's own fields. -/
theorem own_agrees (S : Codec) {u u' : ReliableUdsClient} {γ : Nat → Locks} {t : Nat} {o : Op} {c : Choice}
    {r : Fields.Ret o} (h : Agrees u γ) (hd : demand (γ t) (.own o))
    (hcalm : o = .queueWrite → ¬ (u.readers ≠ [] ∧ u.state = .connecting))
    (hstep : perform t o c u = some (r, u')) :
    ∃ k, move S (γ t) (.own o) r k ∧ Agrees u' (Function.update γ t k) := by
  have hlock := h.lock.kept (t := t)
  have hstream := h.stream.kept (t := t)
  have hstate := h.state.kept (t := t)
  cases o with
  | lock =>
    cases c <;> simp [perform] at hstep
    obtain ⟨hfree, rfl⟩ := hstep
    exact ⟨_, rfl, .learn (h.lock.take hfree) hstream (hstate.congr rfl rfl rfl)⟩
  | unlock =>
    cases c <;> simp [perform] at hstep
    subst hstep
    exact ⟨_, rfl, .learn (h.lock.give hd) hstream (hstate.congr rfl rfl rfl)⟩
  | lockStream =>
    cases c <;> simp [perform] at hstep
    obtain ⟨hfree, rfl⟩ := hstep
    exact ⟨_, rfl, .learn hlock (h.stream.take hfree) (hstate.congr rfl rfl rfl)⟩
  | unlockStream =>
    cases c <;> simp [perform] at hstep
    subst hstep
    exact ⟨_, rfl, .learn hlock (h.stream.give hd) (hstate.congr rfl rfl rfl)⟩
  | guardState =>
    cases c <;> simp [perform] at hstep
    obtain ⟨hwriters, rfl, rfl⟩ := hstep
    exact ⟨_, rfl, .learn hlock hstream (h.state.guardState hd hwriters).keptQueued⟩
  | dropState =>
    cases c <;> simp [perform] at hstep
    subst hstep
    exact ⟨_, rfl, .learn hlock hstream h.state.dropState.keptQueued⟩
  | queueWrite =>
    cases c <;> simp [perform] at hstep
    subst hstep
    exact ⟨_, rfl, .learn hlock hstream (h.state.queueWrite hd.2 (hcalm rfl)).keptGuard⟩
  | writeState s =>
    cases c <;> simp [perform] at hstep
    obtain ⟨hfree, rfl⟩ := hstep
    exact ⟨_, rfl, .learn hlock hstream (h.state.writeState hfree s).keptGuard⟩
  | readState =>
    cases c <;> simp [perform] at hstep
    obtain ⟨-, -, rfl⟩ := hstep
    exact ⟨_, rfl, h.congr rfl rfl rfl rfl rfl⟩
  | stream =>
    cases c <;> simp [perform] at hstep
    obtain ⟨-, rfl⟩ := hstep
    exact ⟨_, rfl, h.congr rfl rfl rfl rfl rfl⟩
  | panic => cases c <;> simp [perform] at hstep
  | _ =>
    cases c <;> simp [perform] at hstep
    subst hstep
    exact ⟨_, rfl, h.congr rfl rfl rfl rfl rfl⟩

/-- **Careful steps keep every task's knowledge of its locks true.** -/
theorem upheld (S : Codec) :
    Upheld machine (locking S) (Careful S) fun w γ => Agrees w.fields γ := by
  intro w γ t o c r w' h hd hP hstep
  cases o with
  | net o =>
    obtain ⟨⟨r', n⟩, hnet, hr⟩ := Option.map_eq_some_iff.mp hstep
    cases hr
    have hkept : Agrees w.fields (Function.update γ t (γ t)) := h.congr rfl rfl rfl rfl rfl
    cases o with
    | read c' timed =>
      refine ⟨γ t, ⟨rfl, fun f hf => ?_⟩, hkept⟩
      rcases Net.perform_read hnet with ⟨f', rest, hread, hr', -⟩ | ⟨hother, -⟩
      · cases hr'.symm.trans hf
        exact hP f rest hread
      · exact absurd hf (hother f)
    | _ => exact ⟨γ t, rfl, hkept⟩
  | own o =>
    obtain ⟨⟨r', u⟩, hown, hr⟩ := Option.map_eq_some_iff.mp hstep
    cases hr
    refine own_agrees S h hd (fun ho => ?_) hown
    subst ho
    exact hP

/-- What a task owes along its way, and what the locks say, leave no deadlock. -/
theorem free_of_kept {S : Codec} {α : Type} {Q : Nat → Locks → α → Prop} (thread : Nat → Nat)
    {s : Async.Config (NetWith Fields) (Client ReliableUdsClient) α}
    (h : Kept (locking S) (fun w γ => Agrees w.fields γ) Q s) : Free thread s := by
  obtain ⟨γ, hI, hsafe⟩ := h
  have hdemand (t : Nat) (o : NetOp Fields) (k) (ho : s.tasks[t]? = some (.perform o k)) :
      demand (γ t) o := (hsafe t _ ho).1
  -- A task with a guard that asks for more has found the client connecting.
  have hwriters (t : Nat) (ht : t ∈ s.world.fields.readers) (hw : (γ t).Waits) :
      s.world.fields.writers = [] := by
    obtain ⟨st, hst⟩ := Option.ne_none_iff_exists'.mp ((hI.state.reader t).mp ht)
    exact hI.state.calm (List.ne_nil_of_mem ht) ((hI.state.found t st hst).trans (hw st hst))
  have hguard (t : Nat) (ht : t ∈ s.world.fields.readers) (hno : (γ t).guard = none) : False :=
    (hI.state.reader t).mp ht hno
  constructor
  · intro t o k ho hwaits
    have hd := hdemand t o k ho
    cases o with
    | net o => exact hwaits
    | own o =>
      cases o with
      | lock => exact nomatch ((hI.lock t).mp hwaits).symm.trans hd.1
      | lockStream => exact nomatch ((hI.stream t).mp hwaits).symm.trans hd.1
      | readState => exact hwaits.2 (hwriters t hwaits.1 hd)
      | guardState => exact hguard t hwaits.1 hd
      | writeState s => exact hguard t hwaits hd.1
      | _ => exact hwaits
  · intro t o k v p l ho hblocks hv hp hawaits _
    have hdv := hdemand v p l hp
    have hnobody : s.world.fields.writers = [] := by
      refine hwriters v hv ?_
      cases p with
      | net o =>
        cases o with
        | connect | write | read => exact (hguard v hv hdv).elim
        | _ => exact nomatch hawaits
      | own o =>
        cases o with
        | lock | lockStream => exact (hguard v hv hdv.2).elim
        | sleep => exact hdv
        | _ => exact nomatch hawaits
    cases o with
    | net o => exact hblocks
    | own o =>
      cases o with
      | readState | guardState => exact hblocks hnobody
      | writeState s =>
        have ht := (hI.state.writer t).mpr (hdemand t _ k ho).2
        exact List.ne_nil_of_mem ht hnobody
      | _ => exact hblocks

end XProtocol.ReliableUdsClient
