import Mathlib.Data.Multiset.Basic
import Mathlib.Logic.Hydra
import Mathlib.Order.WellFounded
import XProtocol.Async.Ledger

/-! Tasks that wait for each other.

A task's program has an end on every path, so no run goes on forever, and one that cannot
be continued has left every task returned or waiting. Where what tasks wait for has an
order, and a task that holds something waits only for what comes later, nobody is left
waiting (`Ordered.completes`): whoever stands in a waiter's way waits, if at all, for
something still later, and that comes to an end. -/
namespace Async

variable {E : Interface} {W C G α : Type}

/-- What is left of a program behind an answer. -/
inductive Program.Left : Program E α → Program E α → Prop where
  | answer (o : E.Op) (k : E.Ret o → Program E α) (r : E.Ret o) : Left (k r) (.perform o k)

theorem Program.left_wellFounded : WellFounded (Program.Left : Program E α → Program E α → Prop) := by
  refine ⟨fun p => ?_⟩
  induction p with
  | done a => exact ⟨_, fun q h => nomatch h⟩
  | perform o k ih =>
    refine ⟨_, fun q h => ?_⟩
    cases h with
    | answer _ _ r => exact ih r

namespace Config

/-- One step leads from `s` to `s'`. -/
def Next (M : Machine E W C) (s' s : Config E W α) : Prop := ∃ l, s.step M l = some s'

/-- No task can move. -/
def Stuck (M : Machine E W C) (s : Config E W α) : Prop := ∀ l, s.step M l = none

/-- Every task has returned. -/
def Over (s : Config E W α) : Prop := ∀ t < s.tasks.length, ∃ a, s.returned t = some a

/-- However the tasks are scheduled, the run comes to an end, and then every task has returned. -/
structure Completes (M : Machine E W C) (s : Config E W α) : Prop where
  finishes : ∀ ls s', s.run M ls = some s' → s'.Stuck M → s'.Over
  ends : ¬ ∃ f : Nat → Config E W α, f 0 = s ∧ ∀ i, Next M (f (i + 1)) (f i)

/-- A step takes one program's next operation away. -/
theorem next_cut {M : Machine E W C} {s s' : Config E W α} (h : Next M s' s) :
    Relation.CutExpand Program.Left (s'.tasks : Multiset (Program E α)) s.tasks := by
  obtain ⟨⟨t, c⟩, hstep⟩ := h
  obtain ⟨o, k, r, w, hp, -, rfl⟩ := step_eq_some hstep
  have hmiddle (p : Program E α) : ((s.tasks.take t ++ p :: s.tasks.drop (t + 1) : List _) : Multiset (Program E α)) =
      {p} + ↑(s.tasks.take t ++ s.tasks.drop (t + 1)) := Multiset.coe_eq_coe.mpr List.perm_middle
  obtain ⟨hlt, hp⟩ := List.getElem?_eq_some_iff.mp hp
  have htasks : s.tasks = s.tasks.take t ++ .perform o k :: s.tasks.drop (t + 1) := by
    rw [← hp, List.getElem_cons_drop, List.take_append_drop]
  have hset : s.tasks.set t (k r) = s.tasks.take t ++ k r :: s.tasks.drop (t + 1) := by
    rw [List.set_eq_take_append_cons_drop, if_pos hlt]
  show Relation.CutExpand _ (s.tasks.set t (k r) : Multiset (Program E α)) s.tasks
  rw [hset, hmiddle, show (s.tasks : Multiset (Program E α)) = _ from congrArg _ htasks, hmiddle]
  exact Relation.cutExpand_single_add (Program.Left.answer o k r) _

/-- **No run goes on forever.** -/
theorem next_wellFounded (M : Machine E W C) : WellFounded (Next M : Config E W α → Config E W α → Prop) :=
  Subrelation.wf next_cut (InvImage.wf (fun s : Config E W α => (s.tasks : Multiset (Program E α)))
    Program.left_wellFounded.cutExpand)

theorem no_endless_run (M : Machine E W C) (s : Config E W α) :
    ¬ ∃ f : Nat → Config E W α, f 0 = s ∧ ∀ i, Next M (f (i + 1)) (f i) := by
  rintro ⟨f, -, hf⟩
  exact (wellFounded_iff_isEmpty_descending_chain.mp (next_wellFounded M)).elim ⟨f, hf⟩

end Config

/-! ### Some of the choices -/

/-- The machine, where only some of what may be chosen is chosen. -/
def Machine.only (M : Machine E W C) (allowed : C → Bool) : Machine E W C where
  perform t o c w := if allowed c then M.perform t o c w else none

section Only
variable {M : Machine E W C} {allowed : C → Bool}

theorem Machine.only_some {t : Nat} {o : E.Op} {c : C} {w : W} {x : E.Ret o × W} :
    (M.only allowed).perform t o c w = some x ↔ allowed c = true ∧ M.perform t o c w = some x :=
  Option.ite_none_right_eq_some

theorem Upheld.only {D : Discipline E G} {P : W → Nat → E.Op → C → Prop} {I : W → (Nat → G) → Prop}
    (h : Upheld M D P I) (allowed : C → Bool) : Upheld (M.only allowed) D P I :=
  fun w γ t o c r w' hI hd hP hstep => h w γ t o c r w' hI hd hP (Machine.only_some.mp hstep).2

theorem Config.step_only {s s' : Config E W α} {l : Nat × C} (h : s.step (M.only allowed) l = some s') :
    s.step M l = some s' := by
  obtain ⟨t, c⟩ := l
  obtain ⟨o, k, r, w, hp, hw, rfl⟩ := Config.step_eq_some h
  exact Config.step_perform hp (Machine.only_some.mp hw).2

theorem Config.run_only {s s' : Config E W α} {ls : List (Nat × C)} (h : s.run (M.only allowed) ls = some s') :
    s.run M ls = some s' := by
  induction ls generalizing s with
  | nil => exact h
  | cons l rest ih =>
    obtain ⟨m, hm, hrest⟩ := Config.run_cons h
    rw [Config.run, Config.step_only hm]
    exact ih hrest

end Only

/-! ### What tasks wait for, in order -/

/-- An operation may have to wait for something of its rank, that another of the `count` tasks has; whoever
has something of a rank waits for higher ranks only. -/
structure Ordered (M : Machine E W C) (D : Discipline E G) (I : W → (Nat → G) → Prop) (count : Nat)
    (rank : E.Op → Nat) (has : G → Nat → Prop) : Prop where
  bounded : ∃ top, ∀ o, rank o ≤ top
  due : ∀ g o r, D.demand g o → has g r → r < rank o
  waits : ∀ w γ t o, I w γ → D.demand (γ t) o → (∀ c, M.perform t o c w = none) → ∃ u < count, has (γ u) (rank o)

namespace Ordered
variable {M : Machine E W C} {D : Discipline E G} {I : W → (Nat → G) → Prop} {count : Nat} {rank : E.Op → Nat}
  {has : G → Nat → Prop} {Q : Nat → G → α → Prop} {s : Config E W α}

/-- Who waits in a state in which nobody can move waits for somebody who waits for something later. -/
theorem later (h : Ordered M D I count rank has) (hcount : s.tasks.length = count) {γ : Nat → G} (hI : I s.world γ)
    (hsafe : ∀ t p, s.tasks[t]? = some p → Safe D p (Q t) (γ t)) (hrest : ∀ t g a r, Q t g a → ¬ has g r)
    (hstuck : s.Stuck M) {t : Nat} {o : E.Op} {k : E.Ret o → Program E α} (hp : s.tasks[t]? = some (.perform o k)) :
    ∃ (u : Nat) (o' : E.Op) (k' : E.Ret o' → Program E α), s.tasks[u]? = some (.perform o' k') ∧ rank o < rank o' := by
  have hblocked (c : C) : M.perform t o c s.world = none := by
    by_contra hne
    obtain ⟨⟨r, w⟩, hw⟩ := Option.ne_none_iff_exists'.mp hne
    exact nomatch (hstuck (t, c)).symm.trans (Config.step_perform hp hw)
  obtain ⟨u, hu, hhas⟩ := h.waits s.world γ t o hI (hsafe t _ hp).1 hblocked
  rw [← hcount] at hu
  have hpu := List.getElem?_eq_getElem hu
  cases hq : s.tasks[u] with
  | done a =>
    rw [hq] at hpu
    have hreturned : Q u (γ u) a := hsafe u _ hpu
    exact absurd hhas (hrest u _ a _ hreturned)
  | perform o' k' =>
    rw [hq] at hpu
    exact ⟨u, o', k', hpu, h.due _ _ _ (hsafe u _ hpu).1 hhas⟩

/-- **Where nobody can move, everybody has returned.** -/
theorem finishes (h : Ordered M D I count rank has) (hcount : s.tasks.length = count) (hkept : Kept D I Q s)
    (hrest : ∀ t g a r, Q t g a → ¬ has g r) (hstuck : s.Stuck M) : s.Over := by
  obtain ⟨γ, hI, hsafe⟩ := hkept
  obtain ⟨top, htop⟩ := h.bounded
  -- the induction is on how far the rank of what is waited for is from the highest
  have hnobody (d : Nat) : ∀ (t : Nat) (o : E.Op) (k : E.Ret o → Program E α),
      s.tasks[t]? = some (.perform o k) → ¬ top ≤ rank o + d := by
    induction d with
    | zero =>
      intro t o k hp hd
      obtain ⟨u, o', k', -, hlt⟩ := h.later hcount hI hsafe hrest hstuck hp
      exact Nat.not_lt.mpr hd (Nat.lt_of_lt_of_le hlt (htop o'))
    | succ d ih =>
      intro t o k hp hd
      obtain ⟨u, o', k', hu, hlt⟩ := h.later hcount hI hsafe hrest hstuck hp
      exact ih u o' k' hu (by omega)
  intro t ht
  have hpt := List.getElem?_eq_getElem ht
  cases hp : s.tasks[t] with
  | done a =>
    rw [hp] at hpt
    exact ⟨a, by rw [Config.returned, hpt]⟩
  | perform o k =>
    rw [hp] at hpt
    exact absurd (Nat.le_add_left ..) (hnobody top t o k hpt)

/-- Who waits for more choices than there are waits for fewer. -/
theorem of_only {allowed : C → Bool} (h : Ordered (M.only allowed) D I count rank has) :
    Ordered M D I count rank has where
  bounded := h.bounded
  due := h.due
  waits w γ t o hI hd hblocked := h.waits w γ t o hI hd fun c => by
    simp only [Machine.only, hblocked c, ite_self]

/-- **Tasks that take things in order all return**, however they are scheduled. -/
theorem completes {P : W → Nat → E.Op → C → Prop} (h : Ordered M D I count rank has) (hupheld : Upheld M D P I)
    (hP : ∀ ls, s.Along M (Config.Performs P) ls) (hcount : s.tasks.length = count) (hkept : Kept D I Q s)
    (hrest : ∀ t g a r, Q t g a → ¬ has g r) : s.Completes M where
  finishes ls s' hrun hstuck := by
    have hlength : s'.tasks.length = count := (Config.run_length hrun).trans hcount
    exact h.finishes hlength (run_safe hupheld hrun (hP ls) hkept) hrest hstuck
  ends := Config.no_endless_run M s

end Ordered

end Async
