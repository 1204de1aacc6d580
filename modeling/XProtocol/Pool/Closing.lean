import XProtocol.Pool.Accounts
import XProtocol.Pool.Hands

/-! What `close` leaves of the production pool.

`close` empties the pool while other calls hold clients, and these put them back when they
are done: nobody asks the shutdown flag again. So a closed pool stays empty if no call has
still to put a client back when it is emptied (`close_empties`). Whoever has no permit when
the semaphore is closed gets none, and does not start its client's call (`refused_of_closed`). -/
namespace XProtocol.ProductionPool
open Async
open Json (Value Codec)
open Json.Text (compact)
open Hand (after demand)

/-- A state of the pool, and what its callers have in hand. -/
abbrev Handed := Config Calls (ProductionPool × (Nat → Hand)) Outcome

/-- A new pool, and what its callers are going to ask of it, with empty hands. -/
def startHanded (S : Codec) (config : PoolConfig) (jobs : List Job) : Handed :=
  (start S config jobs).withLedger fun _ => {}

/-! ### What is left idle -/

/-- When the pool is emptied, nobody has still to put a client back. -/
def Released (w : ProductionPool × (Nat → Hand)) (_ : Nat) : Op → Choice → Prop
  | .clear, _ => ∀ t, (w.2 t).owes = false
  | _, _ => True

/-- The pool is closed and empty, and nobody has anything to put into it. -/
structure Vacant (w : ProductionPool) (γ : Nat → Hand) : Prop where
  closed : w.pool.semaphoreClosed = true
  empty : w.pool.clientPool = []
  returned : ∀ t, (γ t).owes = false

section
variable {t : Nat} {o : Op} {choice : Choice} {w w' : ProductionPool} {γ : Nat → Hand} {r : Calls.Ret o}

/-- Neither the flag nor the semaphore is ever reopened. -/
theorem stays {p p' : PoolState} (h : Effect t p p' o r) :
    (p.semaphoreClosed = true → p'.semaphoreClosed = true) ∧ (p.shutdown = true → p'.shutdown = true) := by
  obtain ⟨-, _, _, rfl⟩ := h
  cases o with
  | acquire => cases r <;> exact ⟨id, id⟩
  | closeSemaphore => exact ⟨fun _ => rfl, id⟩
  | shutDown => exact ⟨id, fun _ => rfl⟩
  | _ => exact ⟨id, id⟩

theorem owes_update (h : ∀ u, (γ u).owes = false) {g : Hand} (hg : g.owes = false) (u : Nat) :
    (Function.update γ t g u).owes = false := by
  by_cases hut : u = t
  · rwa [hut, Function.update_self]
  · rw [Function.update_of_ne hut]
    exact h u

/-- Into a closed and empty pool nothing comes any more. -/
theorem Vacant.step (h : Vacant w γ) (hd : demand (γ t) o) (heffect : Effect t w.pool w'.pool o r) :
    Vacant w' (Function.update γ t (after (γ t) o r)) := by
  refine ⟨(stays heffect).1 h.closed, ?_, owes_update h.returned ?_⟩
  · obtain ⟨-, _, _, hpool⟩ := heffect
    rw [hpool]
    cases o with
    | push client => exact absurd (hd.2.symm.trans (h.returned t)) Bool.true_eq_false.mp
    | acquire => cases r <;> exact h.empty
    | pop => exact (congrArg List.dropLast h.empty).trans List.dropLast_nil
    | clear => rfl
    | _ => exact h.empty
  · cases o with
    | acquire =>
      cases r with
      | true => exact absurd (heffect.allowed.1.symm.trans h.closed) Bool.false_ne_true
      | false => exact h.returned t
    | push client => rfl
    | _ => exact h.returned t

theorem closed_after {g : Hand} (h : (after g o r).closed = true) : g.closed = true ∨ o = .closeSemaphore := by
  cases o with
  | acquire => cases r <;> exact .inl h
  | closeSemaphore => exact .inr rfl
  | _ => exact .inl h

theorem cleared_after {g : Hand} (h : (after g o r).cleared = true) : g.cleared = true ∨ o = .clear := by
  cases o with
  | acquire => cases r <;> exact .inl h
  | clear => exact .inr rfl
  | _ => exact .inl h

end

/-- Whoever has closed the semaphore finds it closed, and whoever has emptied the pool finds it empty. -/
structure Emptied (w : ProductionPool) (γ : Nat → Hand) : Prop where
  closed : ∀ t, (γ t).closed = true → w.pool.semaphoreClosed = true
  vacant : ∀ t, (γ t).cleared = true → Vacant w γ

theorem emptied_keeps : Keeps machine demand after Released Emptied := by
  intro w γ t o choice r w' hemptied hd hreleased hstep
  have heffect := perform_effect hstep
  refine ⟨fun u hu => ?_, fun u hu => ?_⟩
  · by_cases hut : u = t
    · rw [hut, Function.update_self] at hu
      rcases closed_after hu with hclosed | rfl
      · exact (stays heffect).1 (hemptied.closed t hclosed)
      · obtain ⟨-, _, _, hpool⟩ := heffect
        rw [hpool]
        rfl
    · rw [Function.update_of_ne hut] at hu
      exact (stays heffect).1 (hemptied.closed u hu)
  · by_cases hut : u = t
    · rw [hut, Function.update_self] at hu
      rcases cleared_after hu with hcleared | rfl
      · exact (hemptied.vacant t hcleared).step hd heffect
      · have hclosed := hemptied.closed t hd
        refine ⟨(stays heffect).1 hclosed, ?_, owes_update hreleased (hreleased t)⟩
        obtain ⟨-, _, _, hpool⟩ := heffect
        rw [hpool]
        rfl
    · rw [Function.update_of_ne hut] at hu
      exact (hemptied.vacant u hu).step hd heffect

/-! ### Who is turned away -/

/-- Whoever had no permit in `s` has not started its client's call in `s'`, and gets an error. -/
def Refused (s s' : Handed) : Prop :=
  ∀ t, (s.world.2 t).permitted = false → (s'.world.2 t).started = false ∧
    ∀ r, s'.returned t = some (.reply r) → ∃ e, r = .error e

/-- No permit is given once the pool is shutting down. -/
def Prompt (w : ProductionPool × (Nat → Hand)) (_ : Nat) : Op → Choice → Prop
  | .acquire, _ => w.1.pool.shutdown = true → w.1.pool.semaphoreClosed = true
  | _, _ => True

theorem started_keeps : Keeps machine demand after (fun _ _ _ _ => True)
    (fun _ γ => ∀ t, (γ t).started = true → (γ t).permitted = true) := by
  intro w γ t o choice r w' hstarted hd _ _ u hu
  by_cases hut : u = t
  · rw [hut, Function.update_self] at hu ⊢
    cases o with
    | timed client o => exact hd.2
    | acquire => cases r with
      | true => rfl
      | false => exact hstarted t hu
    | _ => exact hstarted t hu
  · rw [Function.update_of_ne hut] at hu ⊢
    exact hstarted u hu

/-- Where an acquire is always turned away, nobody gets a permit. -/
theorem unpermitted_keeps {P : ProductionPool × (Nat → Hand) → Nat → Op → Choice → Prop} {K : PoolState → Prop}
    (hstays : ∀ {t o r p p'}, Effect t p p' o r → K p → K p')
    (hclosed : ∀ {w t choice}, P w t .acquire choice → K w.1.pool → w.1.pool.semaphoreClosed = true) (t : Nat) :
    Keeps machine demand after P (fun w γ => K w.pool ∧ (γ t).permitted = false) := by
  intro w γ u o choice r w' hK _ hP hstep
  have heffect := perform_effect hstep
  refine ⟨hstays heffect hK.1, ?_⟩
  by_cases hut : t = u
  · subst hut
    rw [Function.update_self]
    cases o with
    | acquire =>
      cases r with
      | true => exact absurd (heffect.allowed.1.symm.trans (hclosed hP hK.1)) Bool.false_ne_true
      | false => exact hK.2
    | _ => exact hK.2
  · rw [Function.update_of_ne hut]
    exact hK.2

/-! ### Runs -/

section
variable {S : Codec} {config : PoolConfig} {jobs : List Job} {before rest : List (Nat × Choice)} {s s' : Handed}

theorem startHanded_balanced {J : ProductionPool → (Nat → Hand) → Prop}
    (hJ : J (.withConfig config) fun _ => {}) :
    Balanced handling J (fun _ => Hand.Ended) (startHanded S config jobs) :=
  ⟨hJ, fun _ _ hp => start_handled S config jobs hp⟩

/-- From a state of a run on, a task without a permit stays without, where `unpermitted_keeps` says so. -/
theorem refused_of_keeps {P : ProductionPool × (Nat → Hand) → Nat → Op → Choice → Prop} {K : PoolState → Prop}
    (hkeeps : ∀ t, Keeps machine demand after P (fun w γ => K w.pool ∧ (γ t).permitted = false))
    (hbefore : (startHanded S config jobs).run (machine.ledger after) before = some s)
    (hrest : s.run (machine.ledger after) rest = some s') (hK : K s.world.1.pool)
    (hP : s.Along (machine.ledger after) (Config.Performs P) rest) : Refused s s' := by
  intro t ht
  have hstart : Balanced handling (fun _ γ => ∀ t, (γ t).started = true → (γ t).permitted = true)
      (fun _ => Hand.Ended) (startHanded S config jobs) := startHanded_balanced fun _ => nofun
  have hfree (s : Handed) (ls : List (Nat × Choice)) :
      s.Along (machine.ledger after) (Config.Performs fun _ _ _ _ => True) ls :=
    Config.along_of_forall (fun _ _ _ _ _ => trivial) s ls
  have hs := run_balanced started_keeps hbefore (hfree _ _) hstart
  have hs' := run_balanced started_keeps hrest (hfree _ _) hs
  have hunpermitted : (s'.world.2 t).permitted = false :=
    (run_balanced (hkeeps t) hrest hP ⟨⟨hK, ht⟩, hs.2⟩).1.2
  refine ⟨?_, fun r hr => ?_⟩
  · by_contra hstarted
    have hpermitted := hs'.1 t (by simpa using hstarted)
    exact Bool.false_ne_true (hunpermitted.symm.trans hpermitted)
  · have hended := hs'.returned hr
    cases r with
    | ok response => exact absurd (hunpermitted.symm.trans hended) Bool.false_ne_true
    | error e => exact ⟨e, rfl⟩

/-- **A closed pool stays empty if nobody has still to put a client back when it is emptied;
and whoever had no permit when the semaphore was closed, or when the pool began to shut down
and gave no more permits, is turned away.** -/
theorem close_releases (S : Codec) (config : PoolConfig) (jobs : List Job) :
    (∀ ls s, (startHanded S config jobs).run (machine.ledger after) ls = some s →
      (startHanded S config jobs).Along (machine.ledger after) (Config.Performs Released) ls →
      (∃ t, s.returned t = some .closed) → s.world.1.pool.clientPool = []) ∧
    (∀ before rest s s', (startHanded S config jobs).run (machine.ledger after) before = some s →
      s.run (machine.ledger after) rest = some s' → s.world.1.pool.semaphoreClosed = true → Refused s s') ∧
    (∀ before rest s s', (startHanded S config jobs).run (machine.ledger after) before = some s →
      s.run (machine.ledger after) rest = some s' →
      s.Along (machine.ledger after) (Config.Performs Prompt) rest → s.world.1.pool.shutdown = true →
      Refused s s') := by
  refine ⟨fun ls s hrun hreleased ⟨t, ht⟩ => ?_, fun before rest s s' hbefore hrest hclosed => ?_,
    fun before rest s s' hbefore hrest hprompt hshutdown => ?_⟩
  · have hbalanced := run_balanced emptied_keeps hrun hreleased
      (startHanded_balanced ⟨fun _ => nofun, fun _ => nofun⟩)
    exact (hbalanced.1.vacant t (hbalanced.returned ht)).empty
  · exact refused_of_keeps (unpermitted_keeps (P := fun _ _ _ _ => True) (fun h => (stays h).1) fun _ h => h)
      hbefore hrest hclosed (Config.along_of_forall (fun _ _ _ _ _ => trivial) s rest)
  · exact refused_of_keeps (unpermitted_keeps (fun h => (stays h).2) fun hP => hP) hbefore hrest hshutdown hprompt

end

/-! ### Calls that end before `close` or behind it -/

def Outcome.isClosed : Outcome → Bool
  | .closed => true
  | .reply _ => false

/-- The call has put its client back when `close` empties the pool. -/
def outlived : List (Nat × Choice) := taking ++ timingOut ++ goes 1 11

/-- Neither of two tasks has still to put a client back. -/
def BothReleased (w : ProductionPool × (Nat → Hand)) (_ : Nat) (o : Op) (_ : Choice) : Prop :=
  (match o with
    | .clear => !(w.2 0).owes && !(w.2 1).owes
    | _ => true) = true

instance (w : ProductionPool × (Nat → Hand)) (t : Nat) (o : Op) (choice : Choice) :
    Decidable (BothReleased w t o choice) := inferInstanceAs (Decidable (_ = _))

theorem close_releases_outlived :
    ∃ s, (startHanded compact oneAtATime [saying, .close]).run (machine.ledger after) outlived = some s ∧
      s.returned 1 = some .closed ∧ s.world.1.pool.clientPool = [] := by
  have hend : ((startHanded compact oneAtATime [saying, .close]).run (machine.ledger after) outlived).any fun s =>
      (s.returned 1).any Outcome.isClosed := by decide +kernel
  have hboth : (startHanded compact oneAtATime [saying, .close]).Along (machine.ledger after)
      (Config.Performs BothReleased) outlived := Config.along_of_checks (by decide +kernel)
  obtain ⟨s, hrun, hs⟩ := (Option.any_eq_true _ _).mp hend
  obtain ⟨o, ho, hclosed⟩ := (Option.any_eq_true _ _).mp hs
  have hreturned : s.returned 1 = some .closed := by
    cases o with
    | closed => exact ho
    | reply r => cases hclosed
  refine ⟨s, hrun, hreturned, (close_releases compact oneAtATime [saying, .close]).1 outlived s hrun ?_ ⟨1, hreturned⟩⟩
  refine Config.along_mono ?_ (Config.along_and hboth (Config.along_of_throughout (fun _ _ h => h)
    (throughout_spare after (startHanded compact oneAtATime [saying, .close]) outlived)))
  rintro m l ⟨hreleased, hspare⟩ o k hp
  unfold Released
  split
  · next _ =>
    intro u
    obtain ⟨hfirst, hsecond⟩ := (Bool.and_eq_true _ _).mp (hreleased _ k hp)
    match u with
    | 0 => exact (Bool.not_eq_true' _).mp hfirst
    | 1 => exact (Bool.not_eq_true' _).mp hsecond
    | u + 2 => exact congrArg Hand.owes (hspare (u + 2) (Nat.le_add_left 2 u))
  · trivial

/-- The pool is closed while the call has a client, which it puts back when its timer has fired. -/
def outlasting : List (Nat × Choice) := taking ++ goes 1 6 ++ timingOut

theorem outlasting_left_behind :
    ∃ s, (start compact oneAtATime [saying, .close]).run machine outlasting = some s ∧
      (∀ t, ¬ InProgress compact [saying, .close] outlasting s t) ∧
      (∃ t, s.returned t = some .closed) ∧ s.world.pool.clientPool ≠ [] := by
  have hend : ((start compact oneAtATime [saying, .close]).run machine outlasting).any (fun s =>
      (List.range 2).all (fun t => (s.returned t).isSome) &&
        (s.returned 1).any Outcome.isClosed && !s.world.pool.clientPool.isEmpty) := by
    decide +kernel
  obtain ⟨s, hrun, hs⟩ := (Option.any_eq_true _ _).mp hend
  simp only [Bool.and_eq_true, List.all_eq_true, List.mem_range, Bool.not_eq_true', List.isEmpty_eq_false_iff] at hs
  obtain ⟨⟨hreturned, hclosed⟩, hleft⟩ := hs
  obtain ⟨o, ho, hclosed⟩ := (Option.any_eq_true _ _).mp hclosed
  refine ⟨s, hrun, quiet_of_returned oneAtATime hreturned, ⟨1, ?_⟩, hleft⟩
  cases o with
  | closed => exact ho
  | reply r => cases hclosed

end XProtocol.ProductionPool
