import XProtocol.Async.Machine

/-! Tasks that share one thread.

A task that goes on is not interrupted until it comes to an operation at which it parks, or
to its end: it moves by stretches (`Config.Stretch`), and between two of them every task is
parked, or has not begun. What a task has found out in a stretch it can rely on to the end of
that, and no longer.

So a discipline may tell of things that are known for a stretch only. `live w g` says that
the knowledge `g` of the task that goes on is true of `w`, and `calm w` what holds between two
stretches; an operation at which a task parks wakes it in any calm world (`Keeping`). Then
every stretch of safe tasks ends calm, with the last task's knowledge still live
(`stretch_safe`), and so does every sequence of them (`stretches_safe`). -/
namespace Async

variable {E : Interface} {W C G α : Type}

/-- At its end, or before an operation at which it parks. -/
def Program.parked (parks : E.Op → Bool) : Program E α → Bool
  | .done _ => true
  | .perform o _ => parks o

namespace Config

/-- Task `t` stands there. -/
def Parked (parks : E.Op → Bool) (s : Config E W α) (t : Nat) : Prop :=
  ∀ p, s.tasks[t]? = some p → p.parked parks = true

/-- Task `t` goes on, until it parks. -/
inductive Stretch (M : Machine E W C) (parks : E.Op → Bool) (t : Nat) : Config E W α → Config E W α → Prop
  | last {s s' : Config E W α} {c : C} (hstep : s.step M (t, c) = some s') (hparked : s'.Parked parks t) :
      Stretch M parks t s s'
  | more {s s' s'' : Config E W α} {c : C} (hstep : s.step M (t, c) = some s') (hgoes : ¬ s'.Parked parks t)
      (hrest : Stretch M parks t s' s'') : Stretch M parks t s s''

/-- Stretches of any tasks, one after the other. -/
inductive Stretches (M : Machine E W C) (parks : E.Op → Bool) (s : Config E W α) : Config E W α → Prop
  | start : Stretches M parks s s
  | next {s' s'' : Config E W α} {t : Nat} (before : Stretches M parks s s') (h : s'.Stretch M parks t s'') :
      Stretches M parks s s''

/-! ### Stretches that are run -/

/-- The stretch of task `t` that the choices make. -/
def stretch (M : Machine E W C) (parks : E.Op → Bool) (t : Nat) : List C → Config E W α → Option (Config E W α)
  | [], _ => none
  | c :: cs, s => (s.step M (t, c)).bind fun s' =>
    if (s'.tasks[t]?.all fun p => p.parked parks) = true then (if cs.isEmpty then some s' else none)
    else s'.stretch M parks t cs

theorem parked_iff {parks : E.Op → Bool} {s : Config E W α} {t : Nat} :
    s.Parked parks t ↔ (s.tasks[t]?.all fun p => p.parked parks) = true := by
  unfold Parked
  cases s.tasks[t]? <;> simp

theorem stretch_of_run {M : Machine E W C} {parks : E.Op → Bool} {t : Nat} {cs : List C} {s s' : Config E W α}
    (h : s.stretch M parks t cs = some s') : s.Stretch M parks t s' := by
  induction cs generalizing s with
  | nil => cases h
  | cons c cs ih =>
    obtain ⟨m, hstep, h⟩ := Option.bind_eq_some_iff.mp h
    split at h
    next hparked =>
      split at h
      · cases h
        exact .last hstep (parked_iff.mpr hparked)
      · cases h
    next hgoes => exact .more hstep (fun hparked => hgoes (parked_iff.mp hparked)) (ih h)

/-- The stretches that the choices make, each of one task. -/
def stretches (M : Machine E W C) (parks : E.Op → Bool) : List (Nat × List C) → Config E W α → Option (Config E W α)
  | [], s => some s
  | (t, cs) :: rest, s => (s.stretch M parks t cs).bind fun s' => s'.stretches M parks rest

theorem stretches_of_run {M : Machine E W C} {parks : E.Op → Bool} {plan : List (Nat × List C)}
    {s₀ s s' : Config E W α} (hs : s₀.Stretches M parks s) (h : s.stretches M parks plan = some s') :
    s₀.Stretches M parks s' := by
  induction plan generalizing s with
  | nil =>
    cases h
    exact hs
  | cons l rest ih =>
    obtain ⟨m, hm, h⟩ := Option.bind_eq_some_iff.mp h
    exact ih (hs.next (stretch_of_run hm)) h

end Config

/-! ### Knowledge for a stretch -/

/-- `I` is kept by every operation. One that goes on keeps the knowledge live, one that parks
makes it live anew in a calm world, and only who leaves the world calm may park. -/
structure Keeping (M : Machine E W C) (D : Discipline E G) (parks : E.Op → Bool) (I : W → (Nat → G) → Prop)
    (live : W → G → Prop) (calm : W → Prop) : Prop where
  goes : ∀ w γ t o c r w', I w γ → live w (γ t) → parks o = false → D.demand (γ t) o →
    M.perform t o c w = some (r, w') → ∃ g, D.move (γ t) o r g ∧ I w' (Function.update γ t g) ∧ live w' g
  wakes : ∀ w γ t o c r w', I w γ → calm w → parks o = true → D.demand (γ t) o →
    M.perform t o c w = some (r, w') → ∃ g, D.move (γ t) o r g ∧ I w' (Function.update γ t g) ∧ live w' g
  parks : ∀ w g o, live w g → parks o = true → D.demand g o → calm w

variable {M : Machine E W C} {D : Discipline E G} {parks : E.Op → Bool} {I : W → (Nat → G) → Prop}
  {live : W → G → Prop} {calm : W → Prop} {Q : Nat → G → α → Prop}

/-- Where a task waits for its next stretch: what it knows is live in any calm world, unless it wakes
from being parked. -/
def Waits (D : Discipline E G) (parks : E.Op → Bool) (live : W → G → Prop) (calm : W → Prop)
    (p : Program E α) (Q : G → α → Prop) (g : G) : Prop :=
  Safe D p Q g ∧ (p.parked parks = true ∨ ∀ w, calm w → live w g)

/-- Between two stretches: the world is calm, and every task waits. -/
def Resting (D : Discipline E G) (parks : E.Op → Bool) (I : W → (Nat → G) → Prop) (live : W → G → Prop)
    (calm : W → Prop) (Q : Nat → G → α → Prop) (s : Config E W α) : Prop :=
  calm s.world ∧ ∃ γ, I s.world γ ∧ ∀ v p, s.tasks[v]? = some p → Waits D parks live calm p (Q v) (γ v)

/-- Behind a stretch of task `t`, what that knows is live. -/
def Rested (D : Discipline E G) (parks : E.Op → Bool) (I : W → (Nat → G) → Prop) (live : W → G → Prop)
    (calm : W → Prop) (Q : Nat → G → α → Prop) (t : Nat) (s : Config E W α) : Prop :=
  calm s.world ∧ ∃ γ, I s.world γ ∧ live s.world (γ t) ∧
    ∀ v p, s.tasks[v]? = some p → Waits D parks live calm p (Q v) (γ v)

theorem Rested.resting {t : Nat} {s : Config E W α} (h : Rested D parks I live calm Q t s) :
    Resting D parks I live calm Q s := by
  obtain ⟨hcalm, γ, hI, -, hwaits⟩ := h
  exact ⟨hcalm, γ, hI, hwaits⟩

/-- Task `t` goes on: its knowledge is live, or it wakes in a calm world. -/
def Going (D : Discipline E G) (parks : E.Op → Bool) (I : W → (Nat → G) → Prop) (live : W → G → Prop)
    (calm : W → Prop) (Q : Nat → G → α → Prop) (t : Nat) (s : Config E W α) : Prop :=
  ∃ γ, I s.world γ ∧ (∀ p, s.tasks[t]? = some p → Safe D p (Q t) (γ t) ∧
    (live s.world (γ t) ∨ calm s.world ∧ p.parked parks = true)) ∧
      ∀ v, v ≠ t → ∀ p, s.tasks[v]? = some p → Waits D parks live calm p (Q v) (γ v)

theorem Resting.going {t : Nat} {s : Config E W α} (h : Resting D parks I live calm Q s) :
    Going D parks I live calm Q t s := by
  obtain ⟨hcalm, γ, hI, hwaits⟩ := h
  refine ⟨γ, hI, fun p hp => ⟨(hwaits t p hp).1, ?_⟩, fun v _ p hp => hwaits v p hp⟩
  exact (hwaits t p hp).2.elim (fun hparked => .inr ⟨hcalm, hparked⟩) fun hlive => .inl (hlive _ hcalm)

/-- **A step leaves its task with live knowledge.** -/
theorem step_going (h : Keeping M D parks I live calm) {t : Nat} {c : C} {s s' : Config E W α}
    (hs : Going D parks I live calm Q t s) (hstep : s.step M (t, c) = some s') :
    ∃ γ, I s'.world γ ∧ live s'.world (γ t) ∧ (∀ p, s'.tasks[t]? = some p → Safe D p (Q t) (γ t)) ∧
      ∀ v, v ≠ t → ∀ p, s'.tasks[v]? = some p → Waits D parks live calm p (Q v) (γ v) := by
  obtain ⟨o, k, r, w, hp, hw, rfl⟩ := Config.step_eq_some hstep
  obtain ⟨γ, hI, ht, hothers⟩ := hs
  obtain ⟨⟨hdemand, hnext⟩, hlive⟩ := ht _ hp
  obtain ⟨g, hmove, hI', hlive'⟩ : ∃ g, D.move (γ t) o r g ∧ I w (Function.update γ t g) ∧ live w g := by
    cases hparks : parks o with
    | true =>
      have hcalm : calm s.world := hlive.elim (fun hlive => h.parks _ _ o hlive hparks hdemand) And.left
      exact h.wakes s.world γ t o c r w hI hcalm hparks hdemand hw
    | false =>
      have hlive : live s.world (γ t) := hlive.resolve_right fun hwakes =>
        Bool.false_ne_true (hparks.symm.trans hwakes.2)
      exact h.goes s.world γ t o c r w hI hlive hparks hdemand hw
  have hlt : t < s.tasks.length := (List.getElem?_eq_some_iff.mp hp).1
  refine ⟨Function.update γ t g, hI', by rwa [Function.update_self], fun p hp' => ?_, fun v hv p hp' => ?_⟩
  · rw [List.getElem?_set_self hlt] at hp'
    cases hp'
    rw [Function.update_self]
    exact hnext r g hmove
  · rw [List.getElem?_set_ne (Ne.symm hv)] at hp'
    rw [Function.update_of_ne hv]
    exact hothers v hv p hp'

/-- **Every stretch of safe tasks ends calm, and what its task knows at its end is true.** -/
theorem stretch_safe (h : Keeping M D parks I live calm) (hQ : ∀ t w g a, live w g → Q t g a → calm w) {t : Nat}
    {s s' : Config E W α} (hs : Going D parks I live calm Q t s) (hstretch : s.Stretch M parks t s') :
    Rested D parks I live calm Q t s' := by
  induction hstretch with
  | @last s s' c hstep hparked =>
    obtain ⟨γ, hI, hlive, ht, hothers⟩ := step_going h hs hstep
    obtain ⟨o, k, r, w, hp, hw, rfl⟩ := Config.step_eq_some hstep
    have hlt : t < s.tasks.length := (List.getElem?_eq_some_iff.mp hp).1
    have htask := List.getElem?_set_self (a := k r) hlt
    refine ⟨?_, γ, hI, hlive, fun v p hp' => ?_⟩
    · have hsafe := ht _ htask
      have hparked := hparked _ htask
      generalize k r = p at hsafe hparked
      cases p with
      | done a => exact hQ t w _ a hlive hsafe
      | perform o' k' => exact h.parks w _ o' hlive hparked hsafe.1
    · by_cases hv : v = t
      · subst hv
        exact ⟨ht p hp', .inl (hparked p hp')⟩
      · exact hothers v hv p hp'
  | more hstep _ _ ih =>
    obtain ⟨γ, hI, hlive, ht, hothers⟩ := step_going h hs hstep
    exact ih ⟨γ, hI, fun p hp => ⟨ht p hp, .inl hlive⟩, hothers⟩

/-- **Every sequence of stretches of safe tasks ends in a calm world.** -/
theorem stretches_safe (h : Keeping M D parks I live calm) (hQ : ∀ t w g a, live w g → Q t g a → calm w)
    {s s' : Config E W α} (hs : Resting D parks I live calm Q s) (hstretches : s.Stretches M parks s') :
    Resting D parks I live calm Q s' := by
  induction hstretches with
  | start => exact hs
  | next _ hstretch ih => exact (stretch_safe h hQ ih.going hstretch).resting

end Async
