import XProtocol.Json.Text
import XProtocol.Async.Lending
import XProtocol.Pool.Connection

/-! Which streams the pool of bare connections reuses.

A call puts its stream back after an error as well, and the pool may hand out whatever is
idle. The calls on an idle stream have all returned. So the stream that the next call is given
has seen no failure as long as no idle stream has (`reuses_unbroken`), and no longer. -/
namespace XProtocol.UdsConnectionPool
open Async
open Wire (encode msgResponse)
open Json (Value Codec)
open Json.Text (compact)

/-! ### The account of a call -/

/-- What a call has had to do with streams. -/
structure Using where
  /-- The stream that it was given. -/
  stream : Option ConnId := none
  /-- It has put the stream back. -/
  back : Bool := false

namespace Using

def after (g : Using) : (o : NetOp Fields) → (NetWith Fields).Ret o → Using
  | .own .get, some c => { g with stream := some c }
  | .own (.put _), _ => { g with back := true }
  | .net (.connect _), .inTime (.ok c) => { g with stream := some c }
  | _, _ => g

/-- A call has one stream, which it puts back last. -/
def demand (g : Using) : NetOp Fields → Prop
  | .own .get | .net (.connect _) => g.back = false ∧ g.stream = none
  | .own (.put c) | .net (.split c) | .net (.write c ..) | .net (.read c _) => g.back = false ∧ g.stream = some c
  | _ => g.back = false

/-- The stream that the call has in hand. -/
def hand (g : Using) : Option ConnId := if g.back then none else g.stream

end Using

/-- The discipline of streams. -/
abbrev streams : Discipline (NetWith Fields) Using := owing Using.demand Using.after

/-! ### The text of a call -/

/-- A call has the stream in hand. -/
structure Holds (c : ConnId) (g : Using) : Prop where
  back : g.back = false
  stream : g.stream = some c

section
variable {g : Using} {c : ConnId}

theorem checkout_given (hback : g.back = false) (hstream : g.stream = none) :
    Meets streams checkout (fun g' c => Holds c g') (fun _ _ => True) g := by
  unfold checkout
  refine meets_owing ⟨hback, hstream⟩ fun r => ?_
  cases r with
  | some c => exact meets_owing hback fun _ => meets_owing hback fun _ => ⟨hback, rfl⟩
  | none =>
    refine meets_owing hback fun _ => meets_owing hback fun _ => meets_owing ⟨hback, hstream⟩ fun r => ?_
    match r with
    | .inTime (.ok c) => exact ⟨hback, rfl⟩
    | .inTime (.error text) => exact meets_owing hback fun _ => trivial
    | .elapsed => trivial

/-- The call itself works on its stream, and leaves it in hand. -/
theorem doCall_held (S : Codec) (service method : String) (payload : Value) (hg : Holds c g) :
    Meets streams (doCall S c service method payload) (fun g' _ => Holds c g') (fun g' _ => Holds c g') g := by
  unfold doCall
  refine meets_owing ⟨hg.back, hg.stream⟩ fun _ => meets_owing hg.back fun request => ?_
  rw [meets_bind, Code.meets_write]
  refine ⟨⟨hg.back, hg.stream⟩, fun r g' hm => ?_⟩
  obtain rfl : g = g' := Eq.symm hm
  cases r with
  | error e => exact hg
  | ok _ =>
  rw [ends_ok, meets_bind, Code.meets_read]
  refine ⟨⟨hg.back, hg.stream⟩, fun r g' hm => ?_⟩
  obtain rfl : g = g' := Eq.symm hm
  match r with
  | .elapsed => exact hg
  | .inTime (.error e) => exact hg
  | .inTime (.ok f) =>
    show Meets streams (if f.msgType ≠ Wire.msgResponse then _ else _) _ _ _
    split
    · exact hg
    · rw [Code.meets_decode]
      cases (S.fromSlice f.payload : Option ServiceResponse) <;> exact hg

theorem call_streams (S : Codec) (service method : String) (payload : Value) :
    Meets streams (call S service method payload) (fun _ _ => True) (fun _ _ => True) {} := by
  unfold call
  refine meets_owing rfl fun _ => ?_
  rw [meets_bind]
  refine meets_mono (checkout_given rfl rfl) (fun g c hg => ?_) fun _ _ _ => trivial
  rw [meets_bind, meets_lift]
  refine safe_mono (doCall_held S service method payload hg) fun g result hr => ?_
  have hg : Holds c g := by cases result <;> exact hr
  refine meets_owing ⟨hg.back, hg.stream⟩ fun _ => ?_
  cases result <;> trivial

end
/-! ### One operation -/

/-- The streams as things that are lent. -/
def lending (w : Client UdsConnectionPool) (γ : Nat → Using) : Lending where
  idle := w.fields.idle
  lent := Using.hand ∘ γ
  born := w.net.opened

/-- Streams are lent soundly, and the calls know streams that there are. -/
structure Sorted (n : Nat) (w : Client UdsConnectionPool) (γ : Nat → Using) : Prop where
  sound : (lending w γ).Sound
  known : ∀ t c, (γ t).stream = some c → t < n ∧ c < w.net.opened

section
variable {n t : Nat} {w w' : Client UdsConnectionPool} {γ : Nat → Using}

/-- An operation that neither gives a stream nor takes one. -/
theorem Sorted.same (h : Sorted n w γ) (hidle : w'.fields.idle = w.fields.idle)
    (hopened : w'.net.opened = w.net.opened) : Sorted n w' (Function.update γ t (γ t)) := by
  rw [Function.update_eq_self]
  obtain ⟨hsound, hknown⟩ := h
  refine ⟨?_, by rwa [hopened]⟩
  rw [lending, hidle, hopened]
  exact hsound

theorem Sorted.give (h : Sorted n w γ) (ht : t < n) {c : ConnId} {g : Using} (hg : Holds c g)
    (hsound : Lending.Sound ⟨w'.fields.idle, Function.update (lending w γ).lent t (some c), w'.net.opened⟩)
    (hopened : w.net.opened ≤ w'.net.opened) (hc : c < w'.net.opened) : Sorted n w' (Function.update γ t g) := by
  have hhand : g.hand = some c := by simp [Using.hand, hg.back, hg.stream]
  refine ⟨?_, (Function.forall_update_iff γ fun u g => ∀ d, g.stream = some d → u < n ∧ d < _).mpr
    ⟨fun d hd => ?_, fun u _ d hd => ?_⟩⟩
  · rw [lending, Function.comp_update, hhand]
    exact hsound
  · obtain rfl := Option.some.inj (hg.stream.symm.trans hd)
    exact ⟨ht, hc⟩
  · exact ⟨(h.known u d hd).1, Nat.lt_of_lt_of_le (h.known u d hd).2 hopened⟩

theorem sorted_keeps (n : Nat) :
    Keeps machine Using.demand Using.after (fun _ t _ _ => t < n) (Sorted n) := by
  rintro w γ t o choice r w' h hd ht hstep
  cases o with
  | net o =>
    obtain ⟨⟨answer, net⟩, hnet, heq⟩ := Option.map_eq_some_iff.mp hstep
    cases heq
    have hopened (ho : ∀ timed, o ≠ .connect timed) : net.opened = w.net.opened := Net.perform_opened ho hnet
    cases o with
    | connect timed =>
      rcases Net.perform_connect hnet with ⟨rfl, rfl⟩ | ⟨hnone, rfl⟩
      · exact h.give ht ⟨hd.1, rfl⟩ (h.sound.make t) (Nat.le_succ _) (Nat.lt_succ_self _)
      · have hsame : (γ t).after (.net (.connect timed)) answer = γ t := by
          match answer with
          | .inTime (.ok c) => exact absurd rfl (hnone c)
          | .inTime (.error _) | .elapsed => rfl
        rw [hsame]
        exact h.same rfl rfl
    | _ => exact h.same rfl (hopened nofun)
  | own o =>
    obtain ⟨⟨answer, fields⟩, hown, heq⟩ := Option.map_eq_some_iff.mp hstep
    cases heq
    cases o with
    | get =>
      match choice, answer with
      | .pick none, _ =>
        cases hown
        exact h.same rfl rfl
      | .pick (some c), _ =>
        obtain ⟨hc, heq⟩ := Option.ite_none_right_eq_some.mp hown
        cases heq
        exact h.give ht ⟨hd.1, rfl⟩ (h.sound.pick t List.erase_sublist hc h.sound.idle_nodup.not_mem_erase)
          (Nat.le_refl _) (h.sound.idle_born c hc)
    | put c =>
      cases choice <;> cases hown
      have hhand : (γ t).hand = some c := by simp [Using.hand, hd.1, hd.2]
      refine ⟨?_, (Function.forall_update_iff γ fun u g => ∀ d, g.stream = some d → u < n ∧ d < _).mpr
        ⟨h.known t, fun u _ => h.known u⟩⟩
      rw [lending, Function.comp_update]
      exact h.sound.give hhand
    | add counter =>
      cases choice <;> cases hown
      exact h.same rfl rfl

end

/-! ### Runs -/

/-- A state of the pool, and what its calls have had to do with streams. -/
abbrev Watched := Config (NetWith Fields) (Client UdsConnectionPool × (Nat → Using)) (Result ServiceResponse)

/-- A new pool, and the calls of its users. -/
def startWatched (S : Codec) (calls : List (String × String × Value)) : Watched :=
  (start S calls).withLedger fun _ => {}

/-- The calls that were given stream `c` have all succeeded. -/
def Clean (s : Watched) (c : ConnId) : Prop :=
  ∀ t, (s.world.2 t).stream = some c → ∃ response, s.returned t = some (.ok response)

/-- The stream that an operation works on. -/
def worksOn : NetOp Fields → Option ConnId
  | .net (.split c) | .net (.write c ..) | .net (.read c _) => some c
  | _ => none

/-- A step by which no broken stream is reused. -/
structure Unbroken (s : Watched) (l : Nat × Choice) : Prop where
  /-- If the call is given a stream, the calls before it on that stream have all succeeded. -/
  given : ∀ s' c, s.step (machine.ledger Using.after) l = some s' → (s.world.2 l.1).stream = none →
    (s'.world.2 l.1).stream = some c → Clean s c
  /-- The call works on no stream but its own. -/
  own : ∀ o k c, s.tasks[l.1]? = some (.perform o k) → worksOn o = some c → (s.world.2 l.1).stream = some c

/-- No stream is idle that a failed call has put back. -/
def NoneBroken (s : Watched) : Prop :=
  ∀ c ∈ s.world.1.fields.idle, ∀ t e, (s.world.2 t).stream = some c → s.returned t ≠ some (.error e)

/-- When a call asks the pool for a stream, none is idle that a failed call has put back. -/
def AsksUnbroken (s : Watched) (l : Nat × Choice) : Prop :=
  ∀ k, s.tasks[l.1]? = some (.perform (.own .get) k) → NoneBroken s

section
variable {s : Watched} {t : Nat} {c : ConnId} {l : Nat × Choice}

/-- The state of a run: streams are sorted, and every call keeps to its own. -/
abbrev InOrder (n : Nat) (s : Watched) : Prop := Balanced streams (Sorted n) (fun _ _ _ => True) s

theorem Using.back_of_demand {g : Using} {o : NetOp Fields} (hd : g.demand o) : g.back = false := by
  unfold Using.demand at hd
  split at hd
  all_goals first | exact hd | exact hd.1

/-- **The calls on an idle stream have returned.** -/
theorem returned_of_idle (h : InOrder s.tasks.length s) (hc : c ∈ s.world.1.fields.idle)
    (ht : (s.world.2 t).stream = some c) : ∃ r, s.returned t = some r := by
  have hback : (s.world.2 t).back = true := by
    by_contra hback
    have hhand : (s.world.2 t).hand = some c := by simp [Using.hand, hback, ht]
    exact h.1.sound.apart t c hhand hc
  have hlt : t < s.tasks.length := (h.1.known t c ht).1
  have hp : s.tasks[t]? = some s.tasks[t] := List.getElem?_eq_getElem hlt
  unfold Config.returned
  cases hprogram : s.tasks[t] with
  | done r => exact ⟨r, by rw [hp, hprogram]⟩
  | perform o k =>
    rw [hprogram] at hp
    exact absurd (Using.back_of_demand (h.due hp)) (by simp [hback])

/-- What a call is given was idle, or is new. -/
theorem given_of_step (h : InOrder s.tasks.length s) {s' : Watched}
    (hstep : s.step (machine.ledger Using.after) l = some s') (hnone : (s.world.2 l.1).stream = none)
    (hgiven : (s'.world.2 l.1).stream = some c) :
    ((∃ k, s.tasks[l.1]? = some (.perform (.own .get) k)) ∧ c ∈ s.world.1.fields.idle) ∨
      ∀ t, (s.world.2 t).stream ≠ some c := by
  obtain ⟨t, choice⟩ := l
  obtain ⟨o, k, r, w, hp, hw, rfl⟩ := Config.step_ledger_eq_some hstep
  replace hgiven : ((s.world.2 t).after o r).stream = some c := by
    simpa only [Function.update_self] using hgiven
  have hstay (hsame : (s.world.2 t).after o r = s.world.2 t) : False := by
    rw [hsame] at hgiven
    exact nomatch hnone.symm.trans hgiven
  cases o with
  | net o =>
    obtain ⟨⟨answer, net⟩, hnet, heq⟩ := Option.map_eq_some_iff.mp hw
    cases heq
    cases o with
    | connect timed =>
      rcases Net.perform_connect hnet with ⟨rfl, rfl⟩ | ⟨hnot, rfl⟩
      · obtain rfl : s.world.1.net.opened = c := Option.some.inj hgiven
        exact .inr fun u hu => Nat.lt_irrefl _ (h.1.known u _ hu).2
      · match answer with
        | .inTime (.ok d) => exact absurd rfl (hnot d)
        | .inTime (.error _) | .elapsed => exact (hstay rfl).elim
    | _ => exact (hstay rfl).elim
  | own o =>
    obtain ⟨⟨answer, fields⟩, hown, heq⟩ := Option.map_eq_some_iff.mp hw
    cases heq
    cases o with
    | get =>
      match choice, answer with
      | .pick none, _ =>
        cases hown
        exact (hstay rfl).elim
      | .pick (some d), _ =>
        obtain ⟨hidle, heq⟩ := Option.ite_none_right_eq_some.mp hown
        cases heq
        obtain rfl : d = c := Option.some.inj hgiven
        exact .inl ⟨⟨k, hp⟩, hidle⟩
    | put d => exact nomatch hnone.symm.trans hgiven
    | add counter => exact (hstay rfl).elim

theorem unbroken_of_asks (h : InOrder s.tasks.length s) (hasks : AsksUnbroken s l) : Unbroken s l := by
  refine ⟨fun s' c hstep hnone hgiven t ht => ?_, fun o k c hp ho => ?_⟩
  · rcases given_of_step h hstep hnone hgiven with ⟨⟨k, hk⟩, hc⟩ | hnew
    · obtain ⟨r, hr⟩ := returned_of_idle h hc ht
      cases r with
      | ok response => exact ⟨response, hr⟩
      | error e => exact absurd hr (hasks k hk c hc t e ht)
    · exact absurd ht (hnew t)
  · have hd := h.due hp
    unfold worksOn at ho
    split at ho <;> cases ho <;> exact hd.2

/-- Whatever is idle, the call that asks may be given. -/
theorem noneBroken_of_unbroken (h : InOrder s.tasks.length s) {k : (NetWith Fields).Ret (.own .get) → _}
    (hp : s.tasks[t]? = some (.perform (.own .get) k))
    (hall : ∀ choice, Unbroken s (t, choice)) : NoneBroken s := by
  intro c hc u e hu hr
  obtain ⟨w, hw⟩ : ∃ w, machine.perform t (.own .get) (.pick (some c)) s.world.1 = some (some c, w) :=
    ⟨_, congrArg (Option.map _) (if_pos hc)⟩
  have hledger : (machine.ledger Using.after).perform t (.own .get) (.pick (some c)) s.world =
      some (some c, w, Function.update s.world.2 t { s.world.2 t with stream := some c }) := by
    simp [Machine.ledger, hw, Using.after]
  obtain ⟨response, hok⟩ := (hall (.pick (some c))).given _ c (Config.step_perform hp hledger) (h.due hp).2
    (by simp) u hu
  cases hr.symm.trans hok

end

theorem start_inOrder (S : Codec) (calls : List (String × String × Value)) :
    InOrder (startWatched S calls).tasks.length (startWatched S calls) := by
  refine ⟨⟨Lending.sound_new, nofun⟩, fun t p hp => ?_⟩
  obtain ⟨⟨service, method, payload⟩, -, rfl⟩ := List.mem_map.mp (List.mem_of_getElem? hp)
  exact safe_mono (call_streams S service method payload) fun _ _ _ => trivial

/-- **If no broken stream is idle when a call asks for one, none is reused; and only then.** -/
theorem reuses_unbroken (S : Codec) (calls : List (String × String × Value)) :
    (∀ ls, (startWatched S calls).Along (machine.ledger Using.after) AsksUnbroken ls →
      (startWatched S calls).Along (machine.ledger Using.after) Unbroken ls) ∧
    ∀ ls s t k, (startWatched S calls).run (machine.ledger Using.after) ls = some s →
      s.tasks[t]? = some (.perform (.own .get) k) →
      ((∀ choice, Unbroken s (t, choice)) ↔ NoneBroken s) := by
  have hkept (ls : List (Nat × Choice)) : (startWatched S calls).Throughout (machine.ledger Using.after)
      (fun s => InOrder s.tasks.length s) ls := by
    have hbalanced := throughout_balanced (sorted_keeps _) (Config.along_tasks _ ls) (start_inOrder S calls)
    refine Config.throughout_mono (fun s hs => ?_) (Config.throughout_and hbalanced (Config.throughout_length _ ls))
    exact hs.2 ▸ hs.1
  refine ⟨fun ls hasks => ?_, fun ls s t k hrun hp => ?_⟩
  · have horder := Config.along_of_throughout (P := fun s _ => InOrder s.tasks.length s) (fun _ _ h => h) (hkept ls)
    exact Config.along_mono (fun s l h => unbroken_of_asks h.1 h.2) (Config.along_and horder hasks)
  · have horder : InOrder s.tasks.length s := by
      have hbalanced := run_balanced (sorted_keeps _) hrun (Config.along_tasks _ ls) (start_inOrder S calls)
      rwa [← Config.run_length hrun] at hbalanced
    refine ⟨noneBroken_of_unbroken horder hp, fun hnone choice => unbroken_of_asks horder fun _ _ => hnone⟩

/-! ### Streams that are reused -/

/-- Two calls of a new pool. -/
def twice : Watched := startWatched compact [("echo", "say", .null), ("echo", "say", .null)]

/-- A call that has a stream sends its request, and gets its answer. -/
def answered (t : Nat) (id : String) : List (Nat × Choice) :=
  (t, .uuids id id) :: goes t 1 ++ [(t, .arrive (encode
    ⟨msgResponse, compact.toVec (ServiceResponse.success (.new id id "echo" "say" .null) .null)⟩))] ++ goes t 1

/-- The second call is given the stream on which the first got its answer. -/
def reusing : List (Nat × Choice) :=
  goes 0 1 ++ [(0, .pick none)] ++ goes 0 4 ++ answered 0 "a" ++ goes 1 1 ++ [(1, .pick (some 0))] ++ goes 1 3 ++
    answered 1 "b"

/-- Neither of the two calls has failed. -/
def Fine (s : Watched) : Bool := (List.range 2).all fun t => (s.returned t).all fun r => r.toOption.isSome

theorem reuses_unbroken_reusing :
    ∃ s, twice.run (machine.ledger Using.after) reusing = some s ∧ (s.world.2 0).stream = some 0 ∧
      (s.world.2 1).stream = some 0 ∧ twice.Along (machine.ledger Using.after) Unbroken reusing := by
  have hend : (twice.run (machine.ledger Using.after) reusing).any fun s =>
      (s.world.2 0).stream == some 0 && (s.world.2 1).stream == some 0 := by decide +kernel
  have hfine : twice.Throughout (machine.ledger Using.after) (fun s => Fine s = true) reusing :=
    Config.throughout_of_tests (by decide +kernel)
  obtain ⟨s, hrun, hs⟩ := (Option.any_eq_true _ _).mp hend
  obtain ⟨hfirst, hsecond⟩ := (Bool.and_eq_true _ _).mp hs
  refine ⟨s, hrun, eq_of_beq hfirst, eq_of_beq hsecond, (reuses_unbroken compact _).1 reusing ?_⟩
  refine Config.along_of_throughout ?_ (Config.throughout_and hfine (Config.throughout_length _ reusing))
  rintro m l ⟨hfine, hlength⟩ k - c - t e - herror
  have hlt : t < 2 := by
    by_contra hge
    rw [Config.returned, List.getElem?_eq_none (by rw [hlength]; exact Nat.le_of_not_lt hge)] at herror
    cases herror
  have hok := List.all_eq_true.mp hfine t (List.mem_range.mpr hlt)
  rw [herror] at hok
  cases hok

/-- The first call cannot write to its stream, and puts it back. -/
def failing : List (Nat × Choice) :=
  goes 0 1 ++ [(0, .pick none)] ++ goes 0 4 ++ [(0, .uuids "1" "2"), (0, .fail 0 [] "broken pipe")] ++ goes 0 1

/-- The second call is given that stream. -/
theorem failing_reused :
    ¬ (startWatched compact [("echo", "say", .null), ("echo", "say", .null)]).Along (machine.ledger Using.after)
      Unbroken (failing ++ goes 1 1 ++ [(1, .pick (some 0))]) := by
  intro halong
  have hend : ((startWatched compact [("echo", "say", .null), ("echo", "say", .null)]).run
      (machine.ledger Using.after) (failing ++ goes 1 1)).any fun s =>
        (s.returned 0).any (fun r => r.toOption.isNone) && ((s.world.2 0).stream == some 0) &&
        (s.world.2 1).stream.isNone &&
        (s.step (machine.ledger Using.after) (1, .pick (some 0))).any
          fun s' => (s'.world.2 1).stream == some 0 := by
    decide +kernel
  obtain ⟨s, hrun, hs⟩ := (Option.any_eq_true _ _).mp hend
  simp only [Bool.and_eq_true, beq_iff_eq, Option.isNone_iff_eq_none] at hs
  obtain ⟨⟨⟨hfailed, hfirst⟩, hnone⟩, hnext⟩ := hs
  obtain ⟨s', hstep, hgiven⟩ := (Option.any_eq_true _ _).mp hnext
  obtain ⟨response, hok⟩ := (Config.along_at halong hrun).given s' 0 hstep hnone (beq_iff_eq.mp hgiven) 0 hfirst
  rw [hok] at hfailed
  cases hfailed

end XProtocol.UdsConnectionPool
